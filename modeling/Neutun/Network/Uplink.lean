/-
  Neutun/Network/Uplink.lean
  ==========================
  From the remote peer of a stream to the local connections.

  What `process_tcp_stream` reads goes through the channel of the client, the
  websocket and `process_control_flow_message`; nothing overtakes anything, and
  what is lost is lost for good, with the channel.  From there on it is in pieces,
  one for each time that the client found the stream missing.
-/
import Neutun.Client.Uplink
import Neutun.Network.Downlink

namespace Neutun

open Foundation

/-- The bytes a packet carries for the stream. -/
def ControlPacket.bytesFor (id : StreamId) : ControlPacket → Bytes
  | Data streamId data => if streamId = id then data else []
  | _ => []

namespace Server

variable {p : Platform} {cfg : Config} {s : Server} {id : StreamId}

/-- The bytes that a step tries to send for a stream are those it reads. -/
theorem bytesFor_attempts {stream : Stream} (hstream : s.streams id = some stream)
    (e : ServerEvent) :
    (on stream.activeStream.client.tx (s.attempts p cfg e)).toList.flatMap
      (ControlPacket.bytesFor id) = readFrom id e := by
  by_cases he : ∃ data, e = .read id (.ok data)
  · obtain ⟨data, rfl⟩ := he
    cases data with
    | nil => simp [attempts, hstream, on_some, readFrom, ControlPacket.bytesFor]
    | cons byte bytes => simp [attempts, hstream, on_some, readFrom, ControlPacket.bytesFor]
  · have hread : readFrom id e = [] := by
      unfold readFrom
      split
      next streamId data =>
        apply if_neg
        rintro rfl
        exact he ⟨data, rfl⟩
      · rfl
    rw [hread, List.flatMap_eq_nil_iff]
    intro packet hpacket
    have hattempt := on_eq_some.mp (Option.mem_toList.mp hpacket)
    rcases attempts_cases hattempt with ⟨token, rfl⟩ |
      ⟨streamId, _, _, _, rfl | ⟨rfl, -⟩ | ⟨data, rfl, rfl⟩⟩
    · rfl
    · rfl
    · rfl
    · apply if_neg
      rintro rfl
      exact he ⟨data, rfl⟩

/-- So a stream's data is sent as it is read, until the channel is closed. -/
theorem bytesFor_emits {stream : Stream} (hstream : s.streams id = some stream)
    (e : ServerEvent) :
    (on stream.activeStream.client.tx (s.emits p cfg e)).toList.flatMap
        (ControlPacket.bytesFor id) =
      if (s.conns stream.activeStream.client.tx).tx.closed then [] else readFrom id e := by
  rw [emits, on_accepted]
  split
  · rfl
  · exact bytesFor_attempts hstream e

end Server

namespace Network

variable {p : Platform} {cfg : Config} {useTls : Bool} {link : Nat → Nat} {id : StreamId}
  {s t : Network}

/-- The chunk that a step of the client takes for the stream. -/
def chunkFor (id : StreamId) (s : Network) : NetworkEvent → List (Bytes × Bool)
  | .client e => s.client.chunkFor id e
  | .server _ | .peer _ _ => []

/-- The bytes that a message on its way to the client has for the stream. -/
def bytesFor (id : StreamId) (message : Message) : Bytes :=
  (Client.received (.receive (.ok message))).elim [] (ControlPacket.bytesFor id)

/-- What has been read for the stream and has not reached the client yet. -/
def falling (id : StreamId) (n : Nat) (s : Network) : Bytes :=
  (s.down n).flatMap (bytesFor id) ++
    (s.server.conns n).tx.queue.flatMap (ControlPacket.bytesFor id)

/-- How the chunks that the client took for the stream stand to the bytes that the
    server has read for it. -/
structure Uplink (id : StreamId) (s : Network) (chunks : List (Bytes × Bool)) : Prop where
  absent : s.server.streams id = none → Client.bytesOf chunks = []
  conveys : ∀ stream n, s.server.streams id = some stream → stream.activeStream.client.tx = n →
    Conveys stream.socket.received (Client.bytesOf chunks) (falling id n s)
      ((s.server.conns n).tx.closed = false)

theorem uplink_new : Uplink id Network.new [] where
  absent _ := rfl
  conveys _ _ h := nomatch h

/-- Nothing of the stream goes down a connection that is not its own. -/
theorem Feeds.bytesFor_eq_nil (hf : Feeds id s) {n : Nat} (hn : ¬ Owner id s n)
    {message : Message} (hmem : message ∈ s.down n) : bytesFor id message = [] := by
  unfold bytesFor
  cases hreceived : Client.received (.receive (.ok message)) with
  | none => rfl
  | some packet =>
    cases packet with
    | Data streamId data =>
      apply if_neg
      rintro rfl
      exact hn (hf.down n message data hmem hreceived)
    | _ => rfl

theorem Feeds.falling_eq_nil (hf : Feeds id s) {n : Nat} (hn : ¬ Owner id s n) :
    falling id n s = [] := by
  unfold falling
  rw [List.append_eq_nil_iff, List.flatMap_eq_nil_iff, List.flatMap_eq_nil_iff]
  constructor
  · intro message hmem
    exact hf.bytesFor_eq_nil hn hmem
  · intro packet hmem
    cases packet with
    | Data streamId data =>
      apply if_neg
      rintro rfl
      exact hn (hf.tx n data hmem)
    | _ => rfl

/-- What `tunnel_client` takes is put on the connection. -/
theorem bytesFor_serverPuts (u : Server) (e : ServerEvent) (n : Nat) :
    (on n (serverPuts u e)).toList.flatMap (bytesFor id) =
      (on n (u.writes e)).toList.flatMap (ControlPacket.bytesFor id) := by
  unfold serverPuts
  cases u.writes e with
  | none => rfl
  | some sent =>
    obtain ⟨m, packet⟩ := sent
    rw [Option.map_some, on_some, on_some]
    split
    · simp only [Option.toList_some, List.flatMap_singleton]
      rw [bytesFor, Client.received_serialize]
      rfl
    · rfl

/-- The bytes that a step of the client takes for the stream are in the message
    that it takes. -/
theorem bytesOf_chunkFor (c : Client) (e : ClientEvent) : Client.bytesOf (c.chunkFor id e) =
    (clientTakes link c e).elim [] fun taken => bytesFor id taken.2 := by
  have hchunk : Client.bytesOf (c.chunkFor id e) =
      (Client.received e).elim [] (ControlPacket.bytesFor id) := by
    unfold Client.chunkFor
    cases Client.received e with
    | none => rfl
    | some packet =>
      cases packet with
      | Data streamId data =>
        simp only [Option.elim_some, ControlPacket.bytesFor]
        split
        · exact List.append_nil data
        · rfl
      | _ => rfl
  rw [hchunk]
  cases e with
  | receive result => cases result <;> rfl
  | _ => rfl

theorem uplink_accept {chunks : List (Bytes × Bool)} (hf : Feeds id s) (hu : Uplink id s chunks)
    {e : ServerEvent} (h : s.step p cfg useTls link (.server e) = some t)
    (hnone : s.server.streams id = none) : Uplink id t chunks := by
  obtain ⟨hserver, -, hdown, -⟩ := step_server h
  refine ⟨fun _ => hu.absent hnone, ?_⟩
  intro stream n hstream _
  have hnobody : ¬ Owner id s n := by
    rintro ⟨a, ha, -⟩
    rw [Server.activeStreamOf, hnone] at ha
    cases ha
  rw [hu.absent hnone]
  obtain ⟨host, client, rfl, rfl, -, hconns⟩ := Server.stream_appears hserver hnone hstream
  have hdown' : t.down = s.down := hdown
  have hfalling : falling id n t = falling id n s := by
    unfold falling
    rw [hdown', hconns]
  rw [hfalling, hf.falling_eq_nil hnobody]
  exact Conveys.nil _

theorem uplink_server (hwf : s.WellFormed) (hf : Feeds id s) {chunks : List (Bytes × Bool)}
    (hu : Uplink id s chunks) {e : ServerEvent}
    (h : s.step p cfg useTls link (.server e) = some t) : Uplink id t chunks := by
  cases hstream : s.server.streams id with
  | none => exact uplink_accept hf hu h hstream
  | some stream =>
    obtain ⟨hserver, -, hdown, -⟩ := step_server h
    obtain ⟨stream', hstream', hreceived⟩ := Server.step_received hwf.server hserver hstream
    have hactive : s.server.activeStreamOf id = some stream.activeStream := by
      rw [Server.activeStreamOf, hstream]
      rfl
    have howner' : Owner id t stream'.activeStream.client.tx :=
      ⟨stream'.activeStream, by rw [Server.activeStreamOf, hstream']; rfl, rfl⟩
    have htx := (owner_step hserver ⟨_, hactive, rfl⟩).unique howner'
    refine ⟨fun hnone => ?_, fun found n hfound hn => ?_⟩
    · rw [hstream'] at hnone
      cases hnone
    obtain rfl := Option.some.inj (hstream'.symm.trans hfound)
    obtain rfl := htx.trans hn
    have hconveys := hu.conveys stream _ hstream rfl
    rcases Server.step_tx hserver stream.activeStream.client.tx with
      ⟨handshake, -, hphase, -⟩ | hstep
    · -- the client was registered before its first stream
      obtain ⟨serving, hserving, -⟩ := (hwf.server.stream id _ hactive).2
      rw [hphase] at hserving
      cases hserving
    · have hnext := Conveys.channelStep (f := ControlPacket.bytesFor id) hstep hconveys
      rw [Server.bytesFor_emits hstream] at hnext
      rw [hreceived]
      unfold falling
      rw [hdown, Wires.put_apply, List.flatMap_append, bytesFor_serverPuts]
      split at hnext
      next hclosed =>
        rw [List.append_nil] at hnext
        refine hnext.putClosed ?_ _
        rw [hstep.closed hclosed]
        exact Bool.noConfusion
      · exact hnext

theorem uplink_client (hf : Feeds id s) {chunks : List (Bytes × Bool)} (hu : Uplink id s chunks)
    {e : ClientEvent} (h : s.step p cfg useTls link (.client e) = some t) :
    Uplink id t (chunks ++ s.client.chunkFor id e) := by
  obtain ⟨-, hdown, -, hserver⟩ := step_client h
  have hbytes : Client.bytesOf (chunks ++ s.client.chunkFor id e) = Client.bytesOf chunks ++
      (clientTakes link s.client e).elim [] fun taken => bytesFor id taken.2 := by
    rw [← bytesOf_chunkFor]
    exact List.flatMap_append
  constructor
  · intro hnone
    rw [hserver] at hnone
    rw [hbytes, hu.absent hnone, List.nil_append]
    cases htakes : clientTakes link s.client e with
    | none => rfl
    | some taken =>
      obtain ⟨n, message⟩ := taken
      rw [htakes] at hdown
      refine hf.bytesFor_eq_nil ?_ (Wires.mem_of_take hdown)
      rintro ⟨a, ha, -⟩
      rw [Server.activeStreamOf, hnone] at ha
      cases ha
  · intro stream n hstream hn
    rw [hserver] at hstream ⊢
    have howner : Owner id s n :=
      ⟨stream.activeStream, by rw [Server.activeStreamOf, hstream]; rfl, hn⟩
    have htaken : ((clientTakes link s.client e).elim [] fun taken => bytesFor id taken.2) =
        (on n (clientTakes link s.client e)).toList.flatMap (bytesFor id) := by
      cases htakes : clientTakes link s.client e with
      | none => rfl
      | some taken =>
        obtain ⟨m, message⟩ := taken
        rw [htakes] at hdown
        rw [on_some]
        by_cases hm : m = n
        · rw [if_pos hm]
          exact (List.append_nil _).symm
        · rw [if_neg hm]
          refine hf.bytesFor_eq_nil ?_ (Wires.mem_of_take hdown)
          intro hother
          exact hm (hother.unique howner)
    have hconveys := hu.conveys stream n hstream hn
    unfold falling at hconveys ⊢
    rw [Wires.take_apply hdown, List.flatMap_append, List.append_assoc] at hconveys
    rw [hbytes, htaken, hserver]
    exact hconveys.get

/-- Everything that is kept about a stream and the chunks taken for it. -/
structure Followed (id : StreamId) (s : Network) (chunks : List (Bytes × Bool)) : Prop where
  wellFormed : s.WellFormed
  feeds : Feeds id s
  uplink : Uplink id s chunks
  pieces : ∃ pieces index, Client.Uplink id s.client chunks pieces index

theorem followed_step {chunks : List (Bytes × Bool)} (hI : Followed id s chunks) {e : NetworkEvent}
    (h : s.step p cfg useTls link e = some t) : Followed id t (chunks ++ chunkFor id s e) := by
  refine ⟨wellFormed_step hI.wellFormed h, feeds_step hI.feeds h, ?_, ?_⟩
  · cases e with
    | server e =>
      rw [chunkFor, List.append_nil]
      exact uplink_server hI.wellFormed hI.feeds hI.uplink h
    | client e => exact uplink_client hI.feeds hI.uplink h
    | peer n message =>
      obtain rfl := Option.some.inj h
      rw [chunkFor, List.append_nil]
      exact ⟨hI.uplink.absent, hI.uplink.conveys⟩
  · obtain ⟨pieces, index, hpieces⟩ := hI.pieces
    cases e with
    | server e =>
      rw [chunkFor, List.append_nil, (step_server h).2.2.2]
      exact ⟨pieces, index, hpieces⟩
    | client e => exact Client.uplink_step hI.wellFormed.client hpieces (step_client h).1
    | peer n message =>
      obtain rfl := Option.some.inj h
      rw [chunkFor, List.append_nil]
      exact ⟨pieces, index, hpieces⟩

theorem followed_run (id : StreamId) {es : List NetworkEvent}
    (hrun : (network p cfg useTls link).run Network.new es = some t) :
    Followed id t ((network p cfg useTls link).trace (chunkFor id) Network.new es) := by
  refine Machine.run_trace (I := Followed id) ?_ ?_ (Machine.meets_true _ _) hrun
  · intro s e u chunks hI _ hstep
    exact followed_step hI hstep
  · exact ⟨wellFormed_new, feeds_new, uplink_new, [], fun _ => 0, Client.uplink_new _⟩

end Network

open Network

/-- What comes in for a stream is cut up in front of each chunk that found the stream
    missing from `ACTIVE_STREAMS`.  Each local connection for it has got an initial
    part of one piece, and later ones have later pieces; so while only one chunk has
    found it missing, there is one local connection at most, with an initial part of
    everything. -/
theorem uplink_in_pieces (p : Platform) (cfg : Config) (useTls : Bool) (link : Nat → Nat)
    (es : List NetworkEvent) (t : Network)
    (hrun : (network p cfg useTls link).run Network.new es = some t) (id : StreamId)
    (stream : Stream) (hstream : t.server.streams id = some stream) :
    let chunks := (network p cfg useTls link).trace (chunkFor id) Network.new es
    let ofStream n (local_ : Client.LocalStream) :=
      t.client.locals n = some local_ ∧ local_.streamId = id
    (Client.cut chunks).flatten <+: stream.socket.received ∧
      (∃ index : Nat → Nat,
        (∀ n local_, ofStream n local_ → ∃ piece, (Client.cut chunks)[index n]? = some piece ∧
          local_.socket.written <+: piece) ∧
        ∀ n m local_ local', ofStream n local_ → ofStream m local' → n < m →
          index n < index m) ∧
      (Client.setups chunks ≤ 1 → ∀ n local_, ofStream n local_ →
        local_.socket.written <+: stream.socket.received ∧
          ∀ m local', ofStream m local' → m = n) := by
  intro chunks ofStream
  obtain ⟨-, -, huplink, pieces, index, hpieces⟩ := followed_run id hrun
  obtain rfl : Client.cut chunks = pieces := hpieces.cut_eq
  have hreceived : (Client.cut chunks).flatten <+: stream.socket.received := by
    rw [hpieces.bytes]
    exact (huplink.conveys stream _ hstream rfl).isPrefix
  have hwritten : ∀ n local_, ofStream n local_ →
      ∃ piece, (Client.cut chunks)[index n]? = some piece ∧ local_.socket.written <+: piece := by
    rintro n local_ ⟨hlocal, hid⟩
    obtain ⟨piece, hpiece, hcarries⟩ := hpieces.carries n local_ hlocal hid
    exact ⟨piece, hpiece, hcarries.isPrefix⟩
  refine ⟨hreceived, ⟨index, hwritten, ?_⟩, ?_⟩
  · rintro n m local_ local' ⟨hlocal, hid⟩ ⟨hlocal', hid'⟩ hlt
    exact hpieces.increasing n m local_ local' hlocal hlocal' hid hid' hlt
  · intro hsetups n local_ hof
    have hzero : ∀ m local', ofStream m local' → index m = 0 := by
      intro m local' hof'
      obtain ⟨piece, hpiece, -⟩ := hwritten m local' hof'
      have hlt := (List.getElem?_eq_some_iff.mp hpiece).1
      have hcount : (Client.cut chunks).length = Client.setups chunks := hpieces.count
      omega
    constructor
    · -- the first piece is the beginning of what has been received
      obtain ⟨piece, hpiece, hpart⟩ := hwritten n local_ hof
      rw [hzero n local_ hof] at hpiece
      refine (hpart.trans ?_).trans hreceived
      cases hcut : Client.cut chunks with
      | nil =>
        rw [hcut] at hpiece
        cases hpiece
      | cons first rest =>
        rw [hcut] at hpiece
        obtain rfl := Option.some.inj hpiece
        exact List.prefix_append _ _
    · intro m local' hof'
      exact hpieces.eq_of_index hof'.1 hof.1 hof'.2 hof.2
        ((hzero m local' hof').trans (hzero n local_ hof).symm)

open OneTunnel AnnouncedHost in
/-- A request in two chunks, the second one still in the queue. -/
theorem uplink_in_pieces_request : ∃ t stream local_,
    (network Platform.ascii config false id).run Network.new
      (connect ++ request 1 ++ setup ++ request 2) = some t ∧
    t.server.streams sampleStream = some stream ∧ t.client.locals 0 = some local_ ∧
    local_.socket.written <+: stream.socket.received := by
  refine ⟨_, _, _, rfl, rfl, rfl, ?_⟩
  exact ((uplink_in_pieces Platform.ascii config false id
    (connect ++ request 1 ++ setup ++ request 2) _ rfl sampleStream _ rfl).2.2 (by decide) 0 _
    ⟨rfl, rfl⟩).1

open OneTunnel AnnouncedHost in
/-- The local service closes its connection between the two chunks of a request: the
    second chunk is written to a second local connection. -/
theorem second_local_connection : ∃ t stream first second,
    (network Platform.ascii config false id).run Network.new
      (connect ++ request 1 ++ setup ++ [.client (.readLocal 0 (.ok []))] ++ request 2 ++
        [.client (.connect .ok), .client .insert, .client .forward, .client (.writeLocal 1 .ok)]) =
      some t ∧
    t.server.streams sampleStream = some stream ∧
    t.client.locals 0 = some first ∧ t.client.locals 1 = some second ∧
    first.streamId = sampleStream ∧ second.streamId = sampleStream ∧
    stream.socket.received = [1, 2] ∧ first.socket.written = [1] ∧ second.socket.written = [2] ∧
    ¬ second.socket.written <+: stream.socket.received := by
  refine ⟨_, _, _, _, rfl, rfl, rfl, rfl, rfl, rfl, rfl, rfl, rfl, ?_⟩
  decide

end Neutun
