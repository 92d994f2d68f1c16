/-
  Neutun/Server/Delivery.lean
  ===========================
  From `process_client_messages` to the remote socket of one stream.

  `downlink` says what a list of messages for a stream amounts to on its socket:
  the data up to the first message that ends the stream, and then the response
  that goes with it.  As long as the client stays registered and the writes
  succeed, what has been written is the downlink of the messages that the loop of
  `neutun_stream` has taken, and those and the ones in the queue are all that have
  been dispatched (`delivered_step`).
-/
import Neutun.Server.Refinement

namespace Neutun

open Foundation

/-! ### What messages amount to -/

/-- What a packet from a client puts on the queue of a stream. -/
def ControlPacket.streamMessage (id : StreamId) : ControlPacket → Option StreamMessage
  | Data streamId data => if streamId = id then some (.Data data) else none
  | Refused streamId => if streamId = id then some .TunnelRefused else none
  | Init _ | End _ | Ping _ => none

theorem ControlPacket.streamMessage_ne {id : StreamId} (packet : ControlPacket) :
    packet.streamMessage id ≠ some .NoClientTunnel := by
  cases packet with
  | Data streamId data =>
    simp only [streamMessage]
    split <;> exact nofun
  | Refused streamId =>
    simp only [streamMessage]
    split <;> exact nofun
  | _ => exact nofun

def StreamMessage.isData : StreamMessage → Bool
  | Data _ => true
  | TunnelRefused | NoClientTunnel => false

/-- The bytes for the remote socket. -/
def downlink : List StreamMessage → Bytes
  | [] => []
  | .Data data :: rest => data ++ downlink rest
  | .TunnelRefused :: _ => HTTP_TUNNEL_REFUSED_RESPONSE
  | .NoClientTunnel :: _ => HTTP_NOT_FOUND_RESPONSE

theorem downlink_append_of_data {taken : List StreamMessage}
    (h : ∀ m ∈ taken, m.isData = true) (rest : List StreamMessage) :
    downlink (taken ++ rest) = downlink taken ++ downlink rest := by
  induction taken with
  | nil => rfl
  | cons m taken ih =>
    cases m with
    | Data data =>
      have hrest := ih (fun m hm => h m (List.mem_cons_of_mem _ hm))
      simp only [List.cons_append, downlink, hrest, List.append_assoc]
    | TunnelRefused => exact absurd (h _ List.mem_cons_self) nofun
    | NoClientTunnel => exact absurd (h _ List.mem_cons_self) nofun

/-- Nothing comes after the message that ends the stream. -/
theorem downlink_append_of_end {taken : List StreamMessage} {m : StreamMessage} (hm : m ∈ taken)
    (hend : m.isData = false) (rest : List StreamMessage) :
    downlink (taken ++ rest) = downlink taken := by
  induction taken with
  | nil => cases hm
  | cons m' taken ih =>
    cases m' with
    | Data data =>
      have hmem : m ∈ taken := by
        rcases List.mem_cons.mp hm with rfl | hmem
        · cases hend
        · exact hmem
      simp only [List.cons_append, downlink, ih hmem]
    | TunnelRefused => rfl
    | NoClientTunnel => rfl

/-- Later messages only add to the bytes. -/
theorem downlink_isPrefix (taken rest : List StreamMessage) :
    downlink taken <+: downlink (taken ++ rest) := by
  by_cases h : ∀ m ∈ taken, m.isData = true
  · rw [downlink_append_of_data h]
    exact List.prefix_append _ _
  · obtain ⟨m, hm, hend⟩ : ∃ m ∈ taken, m.isData = false := by simpa using h
    simp only [downlink_append_of_end hm hend, List.prefix_rfl]

/-! ### What a step does to a stream -/

namespace Server

/-- The messages that a step dispatches to a stream. -/
def dispatched (id : StreamId) : ServerEvent → List StreamMessage
  | .message _ result => (result.packet.bind (ControlPacket.streamMessage id)).toList
  | _ => []

variable {p : Platform} {cfg : Config} {s t : Server} {id : StreamId}

theorem WellFormed.entry_id (hwf : s.WellFormed) {activeStream : ActiveStream}
    (h : s.activeStreams.lookup id = some activeStream) : activeStream.id = id :=
  (hwf.stream id activeStream (hwf.active id activeStream h)).1

/-- A dispatch reaches the stream that the packet names, if the table has it. -/
theorem streams_dispatch (hwf : s.WellFormed) (streamId : StreamId) (m : StreamMessage) :
    (s.sendToStream streamId m).streams id =
      if streamId = id ∧ (s.activeStreams.lookup id).isSome then
        (s.streams id).map fun stream => { stream with queue := stream.queue.sendOrDrop m }
      else s.streams id := by
  rw [streams_sendToStream]
  by_cases hid : streamId = id
  · subst hid
    rcases Option.eq_none_or_eq_some (s.activeStreams.lookup streamId) with hnone | ⟨a, ha⟩
    · simp [hnone]
    · simp [ha, hwf.entry_id ha]
  · have hother : (s.activeStreams.lookup streamId).any (fun a => decide (a.id = id)) = false := by
      rcases Option.eq_none_or_eq_some (s.activeStreams.lookup streamId) with hnone | ⟨a, ha⟩
      · simp [hnone]
      · simp [ha, hwf.entry_id ha, hid]
    simp [hother, hid]

theorem activeStreams_handlePacket (client : ConnectedClient) (packet : ControlPacket) :
    (s.handlePacket client packet).activeStreams = s.activeStreams := by
  cases packet with
  | Data streamId data => exact activeStreams_sendToStream _ _ _
  | Refused streamId => exact activeStreams_sendToStream _ _ _
  | _ => rfl

/-- What a packet does to a stream. -/
theorem streams_handlePacket (hwf : s.WellFormed) (client : ConnectedClient)
    (packet : ControlPacket) :
    (s.handlePacket client packet).streams id =
      match packet.streamMessage id with
      | some m =>
        if (s.activeStreams.lookup id).isSome then
          (s.streams id).map fun stream => { stream with queue := stream.queue.sendOrDrop m }
        else s.streams id
      | none => s.streams id := by
  have hsend : ∀ streamId m, packet.streamMessage id = (if streamId = id then some m else none) →
      (s.sendToStream streamId m).streams id =
        match packet.streamMessage id with
        | some m =>
          if (s.activeStreams.lookup id).isSome then
            (s.streams id).map fun stream => { stream with queue := stream.queue.sendOrDrop m }
          else s.streams id
        | none => s.streams id := by
    intro streamId m hm
    rw [streams_dispatch hwf, hm]
    by_cases hid : streamId = id <;> simp [hid]
  cases packet with
  | Data streamId data => exact hsend streamId (.Data data) rfl
  | Refused streamId => exact hsend streamId .TunnelRefused rfl
  | _ => rfl

/-- One message from a client. -/
theorem message_stream (hwf : s.WellFormed) {n : Nat} {result : NextMessage}
    (h : s.message n result = some t) {stream : Stream} (hstream : s.streams id = some stream) :
    t.activeStreams = s.activeStreams ∧
      ((dispatched id (.message n result) = [] ∧ t.streams id = some stream) ∨
        ∃ m, dispatched id (.message n result) = [m] ∧ t.streams id = some { stream with
          queue := if (s.activeStreams.lookup id).isSome then stream.queue.sendOrDrop m
            else stream.queue }) := by
  obtain ⟨handshake, -, -, rfl⟩ := message_eq_some.mp h
  simp only [dispatched, NextMessage.packet]
  unfold processMessage
  cases hproto : result.protocol with
  | none => exact ⟨rfl, Or.inl ⟨rfl, hstream⟩⟩
  | some bytes =>
    simp only [Option.bind_some]
    cases hpacket : ControlPacket.deserialize bytes with
    | error e => exact ⟨rfl, Or.inl ⟨rfl, hstream⟩⟩
    | ok packet =>
      refine ⟨activeStreams_handlePacket _ _, ?_⟩
      simp only [Except.toOption, Option.bind_some, streams_handlePacket hwf, hstream]
      cases packet.streamMessage id with
      | none => exact Or.inl ⟨rfl, rfl⟩
      | some m =>
        refine Or.inr ⟨m, rfl, ?_⟩
        cases (s.activeStreams.lookup id).isSome <;> simp

/-- The stream whose own tasks take the step. -/
def ownerOf : ServerEvent → Option StreamId
  | .init id | .poll id | .read id _ | .write id _ => some id
  | _ => none

/-- What a step can do to a stream: nothing, a dispatch, or what one of its two tasks
    does. -/
inductive StreamChange (s t : Server) (id : StreamId) (e : ServerEvent) (stream : Stream) :
    Stream → Prop where
  | idle (hother : ownerOf e ≠ some id) (hnone : dispatched id e = []) :
    StreamChange s t id e stream stream
  | dispatch (m : StreamMessage) (hother : ownerOf e = none) (hm : dispatched id e = [m]) :
    StreamChange s t id e stream { stream with
      queue := if (s.activeStreams.lookup id).isSome then stream.queue.sendOrDrop m
        else stream.queue }
  | init (he : e = .init id) (hstarting : stream.processTcpStream = .starting) :
    StreamChange s t id e stream { stream with processTcpStream := .polling }
  | gone (he : e = .poll id) (hpolling : stream.processTcpStream = .polling)
      (hnone : s.connections.get stream.activeStream.client.id = none) :
    StreamChange s t id e stream { stream with
      queue := (stream.queue.sendOrDrop .NoClientTunnel).close
      processTcpStream := .returned }
  | poll (he : e = .poll id) (hpolling : stream.processTcpStream = .polling) :
    StreamChange s t id e stream { stream with processTcpStream := .reading }
  | failed (he : e = .read id .err) (hreading : stream.processTcpStream = .reading) :
    StreamChange s t id e stream { stream with processTcpStream := .returned }
  | eof (he : e = .read id (.ok [])) (hreading : stream.processTcpStream = .reading) :
    StreamChange s t id e stream { stream with processTcpStream := .returned }
  | chunk (data : Bytes) (he : e = .read id (.ok data)) (hdata : data ≠ [])
      (hreading : stream.processTcpStream = .reading) :
    StreamChange s t id e stream { stream with
      socket := { stream.socket with received := stream.socket.received ++ data }
      processTcpStream := .polling }
  | turn (result : WriteResult) (isDone : Bool) {stream' : Stream} (he : e = .write id result)
      (hturn : stream.turn result = some (stream', isDone))
      (hlisted : isDone = false → t.activeStreams.lookup id = s.activeStreams.lookup id) :
    StreamChange s t id e stream stream'

/-- A step of a task, of this stream or of another one, that leaves the table alone. -/
theorem change_setStream {e : ServerEvent} {u : Server} {streamId : StreamId}
    {stream old changed : Stream} (howner : ownerOf e = some streamId)
    (hnone : dispatched id e = []) (hstream : s.streams id = some stream)
    (hold : s.streams streamId = some old)
    (hframe : u.streams = s.streams ∧ u.activeStreams = s.activeStreams)
    (hown : streamId = id → StreamChange s (u.setStream streamId changed) id e old changed) :
    ∃ stream', (u.setStream streamId changed).streams id = some stream' ∧
      ((∀ result, e ≠ .write id result) → (u.setStream streamId changed).activeStreams.lookup id =
        s.activeStreams.lookup id) ∧
      StreamChange s (u.setStream streamId changed) id e stream stream' := by
  have hlisted : (u.setStream streamId changed).activeStreams.lookup id =
      s.activeStreams.lookup id := by
    rw [activeStreams_setStream, hframe.2]
  rw [streams_setStream]
  by_cases hid : streamId = id
  · have hchange := hown hid
    subst hid
    obtain rfl : stream = old := Option.some.inj (hstream.symm.trans hold)
    rw [if_pos rfl]
    exact ⟨changed, rfl, fun _ => hlisted, hchange⟩
  · rw [if_neg (Ne.symm hid), hframe.1]
    refine ⟨stream, hstream, fun _ => hlisted, .idle ?_ hnone⟩
    rw [howner]
    exact fun heq => hid (Option.some.inj heq)

/-- Besides, only a turn of its loop may take the stream out of the table. -/
theorem step_change (hwf : s.WellFormed) {e : ServerEvent} (h : s.step p cfg e = some t)
    {stream : Stream} (hstream : s.streams id = some stream) :
    ∃ stream', t.streams id = some stream' ∧
      ((∀ result, e ≠ .write id result) →
        t.activeStreams.lookup id = s.activeStreams.lookup id) ∧
      StreamChange s t id e stream stream' := by
  by_cases he : ofConnection e = true
  · obtain ⟨hstreams, hactive⟩ := step_ofConnection he h
    have hnobody : ownerOf e = none ∧ dispatched id e = [] := by
      cases e <;> first | exact ⟨rfl, rfl⟩ | cases he
    refine ⟨stream, by rw [hstreams, hstream], fun _ => by rw [hactive], .idle ?_ hnobody.2⟩
    rw [hnobody.1]
    exact nofun
  cases e with
  | message n result =>
    rcases message_stream hwf h hstream with ⟨hactive, ⟨hnone, hsame⟩ | ⟨m, hm, hsame⟩⟩
    · exact ⟨stream, hsame, fun _ => by rw [hactive], .idle nofun hnone⟩
    · exact ⟨_, hsame, fun _ => by rw [hactive], .dispatch m rfl hm⟩
  | accept streamId host =>
    obtain ⟨hfresh, hroute⟩ := accept_cases h
    have hne : id ≠ streamId := by
      rintro rfl
      rw [hstream] at hfresh
      cases hfresh
    rcases hroute with ⟨client, -, rfl⟩ | ⟨-, rfl⟩
    · have hsame := (s.streams_setStream streamId (Stream.new ⟨streamId, client⟩) id).trans
        ((if_neg hne).trans hstream)
      refine ⟨stream, hsame, fun _ => ?_, .idle nofun rfl⟩
      exact (Table.lookup_insert_ite _ _ _ _).trans (if_neg hne)
    · exact ⟨stream, hstream, fun _ => rfl, .idle nofun rfl⟩
  | init streamId =>
    obtain ⟨old, hold, hstarting, rfl⟩ := init_cases h
    refine change_setStream rfl rfl hstream hold (s.streams_sendOr _ _ _ ⟨rfl, rfl⟩) ?_
    rintro rfl
    exact .init rfl hstarting
  | poll streamId =>
    obtain ⟨old, hold, hpolling, ⟨hnone, rfl⟩ | ⟨-, rfl⟩⟩ := poll_cases h
    · refine change_setStream rfl rfl hstream hold ⟨rfl, rfl⟩ ?_
      rintro rfl
      exact .gone rfl hpolling hnone
    · refine change_setStream rfl rfl hstream hold ⟨rfl, rfl⟩ ?_
      rintro rfl
      exact .poll rfl hpolling
  | read streamId result =>
    obtain ⟨old, hold, hreading, hread⟩ := read_cases h
    rcases hread with ⟨rfl, rfl⟩ | ⟨rfl, rfl⟩ | ⟨data, rfl, hdata, -, rfl⟩
    · refine change_setStream rfl rfl hstream hold ⟨rfl, rfl⟩ ?_
      rintro rfl
      exact .failed rfl hreading
    · refine change_setStream rfl rfl hstream hold (s.streams_sendOr _ _ _ ⟨rfl, rfl⟩) ?_
      rintro rfl
      exact .eof rfl hreading
    · refine change_setStream rfl rfl hstream hold (s.streams_sendOr _ _ _ ⟨rfl, rfl⟩) ?_
      rintro rfl
      exact .chunk data rfl hdata hreading
  | write streamId result =>
    obtain ⟨old, changed, isDone, hold, hturn, rfl⟩ := write_cases h
    by_cases hid : streamId = id
    · subst hid
      obtain rfl : stream = old := Option.some.inj (hstream.symm.trans hold)
      refine ⟨changed, ?_, fun hnever => absurd rfl (hnever result),
        .turn result isDone rfl hturn ?_⟩
      · cases isDone <;> exact (streams_setStream _ _ _ _).trans (if_pos rfl)
      · intro hmore
        rw [hmore]
        rfl
    · have hsame : (s.setStream streamId changed).streams id = some stream :=
        (streams_setStream _ _ _ _).trans ((if_neg (Ne.symm hid)).trans hstream)
      have hother : ownerOf (.write streamId result) ≠ some id := fun heq =>
        hid (Option.some.inj heq)
      cases isDone with
      | false => exact ⟨stream, hsame, fun _ => rfl, .idle hother rfl⟩
      | true =>
        refine ⟨stream, hsame, fun _ => ?_, .idle hother rfl⟩
        exact (Table.lookup_erase_ite _ _ _).trans (if_neg (Ne.symm hid))
  | _ => exact absurd rfl he

/-- What a step leaves alone of a stream that it neither dispatches to nor writes. -/
structure Kept (s t : Server) (id : StreamId) (stream stream' : Stream) : Prop where
  listed : t.activeStreams.lookup id = s.activeStreams.lookup id
  queue : stream'.queue = stream.queue
  neutunStream : stream'.neutunStream = stream.neutunStream
  written : stream'.socket.written = stream.socket.written
  shutdown : stream'.socket.shutdown = stream.socket.shutdown

/-- What a step does to the queue and the socket of a stream. -/
inductive StreamStep (s t : Server) (id : StreamId) (e : ServerEvent) (stream stream' : Stream) :
    Prop where
  | quiet (hnone : dispatched id e = []) (hkept : s.Kept t id stream stream')
  | dispatch (m : StreamMessage) (hm : dispatched id e = [m])
    (hlisted : t.activeStreams.lookup id = s.activeStreams.lookup id)
    (hqueue : stream' = { stream with
      queue := if (s.activeStreams.lookup id).isSome then stream.queue.sendOrDrop m
        else stream.queue })
  | disconnect (hpoll : e = .poll id)
    (hnone : s.connections.get stream.activeStream.client.id = none)
  | turn (result : WriteResult) (isDone : Bool) (hwrite : e = .write id result)
    (hturn : stream.turn result = some (stream', isDone))
    (hlisted : isDone = false → t.activeStreams.lookup id = s.activeStreams.lookup id)

theorem step_stream (hwf : s.WellFormed) {e : ServerEvent} (h : s.step p cfg e = some t)
    {stream : Stream} (hstream : s.streams id = some stream) :
    ∃ stream', t.streams id = some stream' ∧ StreamStep s t id e stream stream' := by
  obtain ⟨stream', hstream', hlisted, hchange⟩ := step_change hwf h hstream
  refine ⟨stream', hstream', ?_⟩
  cases hchange with
  | idle hother hnone =>
    refine .quiet hnone ⟨hlisted ?_, rfl, rfl, rfl, rfl⟩
    rintro result rfl
    exact hother rfl
  | dispatch m hother hm =>
    refine .dispatch m hm (hlisted ?_) rfl
    rintro result rfl
    cases hother
  | gone he hpolling hnone => exact .disconnect he hnone
  | turn result isDone he hturn hmore => exact .turn result isDone he hturn hmore
  | init he hstarting =>
    subst he
    exact .quiet rfl ⟨hlisted nofun, rfl, rfl, rfl, rfl⟩
  | poll he hpolling =>
    subst he
    exact .quiet rfl ⟨hlisted nofun, rfl, rfl, rfl, rfl⟩
  | failed he hreading =>
    subst he
    exact .quiet rfl ⟨hlisted nofun, rfl, rfl, rfl, rfl⟩
  | eof he hreading =>
    subst he
    exact .quiet rfl ⟨hlisted nofun, rfl, rfl, rfl, rfl⟩
  | chunk data he hdata hreading =>
    subst he
    exact .quiet rfl ⟨hlisted nofun, rfl, rfl, rfl, rfl⟩

/-! ### Faithful delivery -/

/-- How the socket of a stream stands to the messages dispatched to it. -/
structure Delivers (stream : Stream) (log : List StreamMessage) : Prop where
  running : stream.neutunStream = true →
    ∃ taken, log = taken ++ stream.queue.queue ∧ (∀ m ∈ taken, m.isData = true) ∧
      stream.socket.written = downlink taken ∧ stream.socket.shutdown = false ∧
      stream.queue.closed = false
  ended : stream.neutunStream = false →
    stream.socket.written = downlink log ∧ .TunnelRefused ∈ log ∧ stream.socket.shutdown = true

theorem delivers_new (activeStream : ActiveStream) : Delivers (Stream.new activeStream) [] where
  running _ := ⟨[], rfl, nofun, rfl, rfl, rfl⟩
  ended h := nomatch h

/-- A turn of `neutun_stream` with a write that succeeds. -/
theorem Delivers.turn {stream stream' : Stream} {log : List StreamMessage} {isDone : Bool}
    (hd : Delivers stream log) (hlog : .NoClientTunnel ∉ log)
    (h : stream.turn .ok = some (stream', isDone)) :
    Delivers stream' log ∧ (stream'.neutunStream = true → isDone = false) := by
  obtain ⟨hrunning, hcases⟩ := Stream.turn_cases h
  obtain ⟨taken, htaken, hdata, hwritten, hshutdown, hopen⟩ := hd.running hrunning
  rcases hcases with ⟨data, rest, hqueue, rfl, ⟨-, rfl⟩ | ⟨⟨n, herr⟩, -⟩⟩ |
    ⟨rest, hqueue, rfl, rfl⟩ | ⟨rest, hqueue, -⟩ | ⟨-, hclosed, -⟩
  · refine ⟨⟨fun _ => ⟨taken ++ [.Data data], ?_, ?_, ?_, hshutdown, hopen⟩, ?_⟩, fun _ => rfl⟩
    · rw [htaken, hqueue, List.append_assoc]
      rfl
    · intro m hm
      rcases List.mem_append.mp hm with hm | hm
      · exact hdata m hm
      · rw [List.mem_singleton.mp hm]
        rfl
    · rw [downlink_append_of_data hdata, hwritten]
      simp [downlink, WriteResult.written]
    · intro hended
      rw [hrunning] at hended
      cases hended
  · cases herr
  · rw [hqueue] at htaken
    refine ⟨⟨nofun, fun _ => ⟨?_, ?_, rfl⟩⟩, nofun⟩
    · rw [htaken, downlink_append_of_data hdata, ← hwritten]
      rfl
    · rw [htaken]
      exact List.mem_append_right _ List.mem_cons_self
  · rw [htaken, hqueue] at hlog
    exact absurd (List.mem_append_right _ List.mem_cons_self) hlog
  · rw [hopen] at hclosed
    cases hclosed

/-- One more message: a loop that has ended takes no notice of it. -/
theorem Delivers.dispatch {stream : Stream} {log : List StreamMessage} {listed : Bool}
    (hd : Delivers stream log) (hlisted : stream.neutunStream = true → listed = true)
    (m : StreamMessage) :
    Delivers { stream with queue := if listed then stream.queue.sendOrDrop m else stream.queue }
      (log ++ [m]) := by
  constructor
  · intro hrunning
    obtain ⟨taken, htaken, hdata, hwritten, hshutdown, hopen⟩ := hd.running hrunning
    refine ⟨taken, ?_, hdata, hwritten, hshutdown, ?_⟩
    · rw [if_pos (hlisted hrunning), Channel.sendOrDrop_queue, hopen, htaken, List.append_assoc]
      rfl
    · rw [if_pos (hlisted hrunning), Channel.sendOrDrop_closed, hopen]
  · intro hended
    obtain ⟨hwritten, hmem, hshutdown⟩ := hd.ended hended
    refine ⟨?_, List.mem_append_left _ hmem, hshutdown⟩
    rw [downlink_append_of_end hmem rfl, hwritten]

theorem Delivers.of_kept {stream stream' : Stream} {log : List StreamMessage}
    (hd : Delivers stream log) (hkept : s.Kept t id stream stream') : Delivers stream' log := by
  constructor
  · rw [hkept.neutunStream, hkept.queue, hkept.written, hkept.shutdown]
    exact hd.running
  · rw [hkept.neutunStream, hkept.written, hkept.shutdown]
    exact hd.ended

theorem Delivers.isPrefix {stream : Stream} {log : List StreamMessage}
    (hd : Delivers stream log) : stream.socket.written <+: downlink log := by
  cases hrunning : stream.neutunStream with
  | true =>
    obtain ⟨taken, htaken, -, hwritten, -, -⟩ := hd.running hrunning
    rw [hwritten, htaken]
    exact downlink_isPrefix _ _
  | false =>
    simp only [(hd.ended hrunning).1, List.prefix_rfl]

theorem Delivers.settled {stream : Stream} {log : List StreamMessage} (hd : Delivers stream log)
    (hqueue : stream.queue.queue = []) : stream.socket.written = downlink log := by
  cases hrunning : stream.neutunStream with
  | true =>
    obtain ⟨taken, htaken, -, hwritten, -, -⟩ := hd.running hrunning
    rw [hwritten, htaken, hqueue, List.append_nil]
  | false => exact (hd.ended hrunning).1

/-- Only a refusal ends the stream. -/
theorem Delivers.refused_of_shutdown {stream : Stream} {log : List StreamMessage}
    (hd : Delivers stream log) (h : stream.socket.shutdown = true) : .TunnelRefused ∈ log := by
  cases hrunning : stream.neutunStream with
  | true =>
    obtain ⟨taken, -, -, -, hshutdown, -⟩ := hd.running hrunning
    rw [hshutdown] at h
    cases h
  | false => exact (hd.ended hrunning).2.1

/-- A refusal ends the stream as soon as it is taken. -/
theorem Delivers.shutdown_of_refused {stream : Stream} {log : List StreamMessage}
    (hd : Delivers stream log) (hqueue : stream.queue.queue = []) (h : .TunnelRefused ∈ log) :
    stream.socket.shutdown = true := by
  cases hrunning : stream.neutunStream with
  | true =>
    obtain ⟨taken, htaken, hdata, -⟩ := hd.running hrunning
    rw [htaken, hqueue, List.append_nil] at h
    exact absurd (hdata _ h) nofun
  | false => exact (hd.ended hrunning).2.2

/-- The messages dispatched to the stream `id`, if there is one, and what it has
    made of them. -/
structure Delivered (id : StreamId) (s : Server) (log : List StreamMessage) : Prop where
  fromClient : .NoClientTunnel ∉ log
  delivers : ∀ stream, s.streams id = some stream → Delivers stream log
  listed : ∀ stream, s.streams id = some stream → stream.neutunStream = true →
    (s.activeStreams.lookup id).isSome = true

/-- The outcome of a write to the socket of the stream. -/
def writeResult (id : StreamId) : ServerEvent → Option WriteResult
  | .write streamId result => if streamId = id then some result else none
  | _ => none

/-- The client of the stream is registered, and a write to its socket succeeds. -/
structure Steady (id : StreamId) (s : Server) (e : ServerEvent) : Prop where
  registered : ∀ stream ∈ s.streams id,
    (s.connections.get stream.activeStream.client.id).isSome = true
  written : ∀ result ∈ writeResult id e, result = .ok

instance (id : StreamId) (s : Server) (e : ServerEvent) : Decidable (s.Steady id e) :=
  decidable_of_iff ((∀ stream ∈ s.streams id,
      (s.connections.get stream.activeStream.client.id).isSome = true) ∧
      ∀ result ∈ writeResult id e, result = .ok)
    ⟨fun h => ⟨h.1, h.2⟩, fun h => ⟨h.registered, h.written⟩⟩

theorem dispatched_fromClient (id : StreamId) (e : ServerEvent) :
    .NoClientTunnel ∉ dispatched id e := by
  cases e with
  | message n result =>
    intro hmem
    obtain ⟨packet, -, hpacket⟩ := Option.bind_eq_some_iff.mp (Option.mem_toList.mp hmem)
    exact packet.streamMessage_ne hpacket
  | _ => exact List.not_mem_nil

/-- A step of the server on a stream that exists. -/
theorem delivered_step (hwf : s.WellFormed) {e : ServerEvent} (hsteady : s.Steady id e)
    (h : s.step p cfg e = some t) {stream : Stream} (hstream : s.streams id = some stream)
    {log : List StreamMessage} (hd : Delivered id s log) :
    Delivered id t (log ++ dispatched id e) := by
  have hfrom : .NoClientTunnel ∉ log ++ dispatched id e := by
    rw [List.mem_append]
    rintro (hmem | hmem)
    · exact hd.fromClient hmem
    · exact dispatched_fromClient id e hmem
  obtain ⟨stream', hstream', hstep⟩ := step_stream hwf h hstream
  have hunique : ∀ u, t.streams id = some u → u = stream' := fun u hu =>
    Option.some.inj (hu.symm.trans hstream')
  cases hstep with
  | quiet hnone hkept =>
    rw [hnone, List.append_nil] at hfrom ⊢
    refine ⟨hfrom, ?_, ?_⟩
    · intro u hu
      rw [hunique u hu]
      exact (hd.delivers stream hstream).of_kept hkept
    · intro u hu hrunning
      rw [hunique u hu, hkept.neutunStream] at hrunning
      rw [hkept.listed]
      exact hd.listed stream hstream hrunning
  | dispatch m hm hlisted hqueue =>
    rw [hm] at hfrom ⊢
    refine ⟨hfrom, ?_, ?_⟩
    · intro u hu
      rw [hunique u hu, hqueue]
      exact (hd.delivers stream hstream).dispatch (hd.listed stream hstream) m
    · intro u hu hrunning
      rw [hunique u hu, hqueue] at hrunning
      rw [hlisted]
      exact hd.listed stream hstream hrunning
  | disconnect hpoll hnone =>
    have hregistered := hsteady.registered stream hstream
    rw [hnone] at hregistered
    cases hregistered
  | turn result isDone hwrite hturn hlisted =>
    subst hwrite
    obtain rfl : result = .ok := hsteady.written result (if_pos rfl)
    obtain ⟨hdelivers, hmore⟩ := (hd.delivers stream hstream).turn hd.fromClient hturn
    simp only [dispatched, List.append_nil] at hfrom ⊢
    refine ⟨hfrom, ?_, ?_⟩
    · intro u hu
      rw [hunique u hu]
      exact hdelivers
    · intro u hu hrunning
      rw [hunique u hu] at hrunning
      rw [hlisted (hmore hrunning)]
      cases hold : stream.neutunStream with
      | true => exact hd.listed stream hstream hold
      | false => simp [Stream.turn, hold] at hturn

/-- The step that makes the stream. -/
theorem delivered_accept {e : ServerEvent} (h : s.step p cfg e = some t)
    (hnone : s.streams id = none) : Delivered id t [] := by
  refine ⟨List.not_mem_nil, ?_, ?_⟩
  · intro stream hstream
    obtain ⟨host, client, -, rfl, -⟩ := stream_appears h hnone hstream
    exact delivers_new _
  · intro stream hstream _
    obtain ⟨host, client, -, -, hlisted, -⟩ := stream_appears h hnone hstream
    rw [hlisted]
    rfl

end Server

end Neutun
