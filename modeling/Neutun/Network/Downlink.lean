/-
  Neutun/Network/Downlink.lean
  ============================
  From the local connections to the remote sockets.

  The packets that the client sends for a stream go through the tunnel channel of
  its wormhole, the websocket, the queue of the stream and out to the socket.
  Many streams share the first two stages with each other and with all sorts of
  messages that are for no stream; seen from one stream the whole is a conduit.
-/
import Neutun.Network.Routes

namespace Neutun

open Foundation

namespace Network

variable {p : Platform} {cfg : Config} {useTls : Bool} {link : Nat → Nat} {id : StreamId}
  {s t : Network}

/-- What a step of the client sends for the stream. -/
def sentFor (id : StreamId) (s : Network) : NetworkEvent → List StreamMessage
  | .client e => ((s.client.emits e).bind fun sent => sent.2.streamMessage id).toList
  | .server _ | .peer _ _ => []

/-- What a packet is to the stream. -/
def ofPacket (id : StreamId) (packet : ControlPacket) : List StreamMessage :=
  (packet.streamMessage id).toList

/-- What a message on its way to the server is to the stream. -/
def ofMessage (id : StreamId) (message : Message) : List StreamMessage :=
  ((NextMessage.ok message).packet.bind (ControlPacket.streamMessage id)).toList

/-- What has been sent for the stream and not been dispatched yet. -/
def rising (link : Nat → Nat) (id : StreamId) (w : Nat) (s : Network) : List StreamMessage :=
  (s.up (link w)).flatMap (ofMessage id) ++
    (s.client.tunnels w).channel.queue.flatMap (ofPacket id)

/-- The stream's client is registered, its socket takes what is written, and nobody
    else names the stream. -/
def Steady (id : StreamId) (s : Network) : NetworkEvent → Prop
  | .server e => s.server.Steady id e
  | .client _ => True
  | .peer n message => Unnamed id (.peer n message)

instance (id : StreamId) (s : Network) : ∀ e : NetworkEvent, Decidable (Steady id s e)
  | .server e => inferInstanceAs (Decidable (s.server.Steady id e))
  | .client _ => isTrue trivial
  | .peer n message => inferInstanceAs (Decidable (Unnamed id (.peer n message)))

theorem Steady.unnamed {e : NetworkEvent} (h : Steady id s e) : Unnamed id e := by
  cases e with
  | peer n message => exact h
  | _ => trivial

/-- How the packets sent for the stream stand to those dispatched to it, if its
    client is connected by the tunnel `w`. -/
structure Downlink (link : Nat → Nat) (id : StreamId) (w : Nat) (s : Network)
    (sent : List StreamMessage) : Prop where
  absent : s.server.streams id = none → sent = []
  unsent : s.client.wormhole < w → Owner id s (link w) → sent = []
  conveys : Owner id s (link w) → ∃ dispatched, Server.Delivered id s.server dispatched ∧
    Conveys sent dispatched (rising link id w s) ((s.client.tunnels w).channel.closed = false)

theorem downlink_new (w : Nat) : Downlink link id w Network.new [] where
  absent _ := rfl
  unsent _ _ := rfl
  conveys h := by
    obtain ⟨a, ha, -⟩ := h
    cases ha

theorem Owner.stream {n : Nat} (h : Owner id s n) :
    ∃ stream, s.server.streams id = some stream ∧ stream.activeStream.client.tx = n := by
  obtain ⟨a, ha, htx⟩ := h
  obtain ⟨stream, hstream, rfl⟩ := Option.map_eq_some_iff.mp ha
  exact ⟨stream, hstream, htx⟩

theorem ofMessage_eq_nil {message : Message}
    (h : ∀ packet ∈ (NextMessage.ok message).packet, packet.streamMessage id = none) :
    ofMessage id message = [] := by
  unfold ofMessage
  cases hpacket : (NextMessage.ok message).packet with
  | none => rfl
  | some packet =>
    rw [Option.bind_some, h packet hpacket]
    rfl

/-- Nothing of the stream is on a connection that is not its own. -/
theorem Routes.ofMessage_eq_nil (hr : Routes link id s) {n : Nat} (hn : ¬ Owner id s n)
    {message : Message} (hmem : message ∈ s.up n) : ofMessage id message = [] := by
  apply Network.ofMessage_eq_nil
  intro packet hpacket
  by_contra hid
  exact hn (hr.up n message packet hmem hpacket hid)

theorem Routes.rising_eq_nil (hr : Routes link id s) {w : Nat} (hw : ¬ Owner id s (link w)) :
    rising link id w s = [] := by
  unfold rising
  rw [List.append_eq_nil_iff, List.flatMap_eq_nil_iff, List.flatMap_eq_nil_iff]
  constructor
  · intro message hmem
    exact hr.ofMessage_eq_nil hw hmem
  · intro packet hmem
    by_contra hid
    refine hw (hr.tunnel w packet hmem fun hnone => hid ?_)
    rw [ofPacket, hnone]
    rfl

/-- The messages that a step of the server dispatches to the stream are what it
    takes off the connection. -/
theorem dispatched_eq (hr : Routes link id s) {w : Nat} (hw : Owner id s (link w))
    {e : ServerEvent} {up : Wires Message} (hup : s.up.take (serverTakes e) = some up) :
    Server.dispatched id e = (on (link w) (serverTakes e)).toList.flatMap (ofMessage id) := by
  cases e with
  | message n result =>
    cases result with
    | ok message =>
      simp only [serverTakes, on_some]
      by_cases hn : n = link w
      · rw [if_pos hn]
        exact (List.append_nil _).symm
      · rw [if_neg hn]
        refine hr.ofMessage_eq_nil ?_ (Wires.mem_of_take hup)
        intro hother
        exact hn (hother.unique hw)
    | err => rfl
    | done => rfl
  | _ => rfl

theorem downlink_server (hwf : s.WellFormed) (hr : Routes link id s) {w : Nat}
    {sent : List StreamMessage} (hd : Downlink link id w s sent) {e : ServerEvent}
    (hsteady : s.server.Steady id e) (h : s.step p cfg useTls link (.server e) = some t) :
    Downlink link id w t sent := by
  obtain ⟨hserver, hup, -, hclient⟩ := step_server h
  cases hstream : s.server.streams id with
  | none =>
    obtain rfl := hd.absent hstream
    refine ⟨fun _ => rfl, fun _ _ => rfl, fun _ => ⟨[], ?_, ?_⟩⟩
    · exact Server.delivered_accept hserver hstream
    · -- nothing can have been sent for a stream that is just being made
      have hnobody : ¬ Owner id s (link w) := by
        intro howner
        obtain ⟨stream, hstream', -⟩ := howner.stream
        rw [hstream] at hstream'
        cases hstream'
      have hrising : rising link id w t = [] := by
        have hold := hr.rising_eq_nil hnobody
        unfold rising at hold ⊢
        rw [Wires.take_apply hup, List.flatMap_append, List.append_assoc] at hold
        rw [hclient]
        exact (List.append_eq_nil_iff.mp hold).2
      rw [hrising]
      exact Conveys.nil _
  | some stream =>
    have howner : Owner id t (link w) → Owner id s (link w) := by
      intro ht
      have hold : Owner id s stream.activeStream.client.tx :=
        ⟨stream.activeStream, by rw [Server.activeStreamOf, hstream]; rfl, rfl⟩
      rw [← (owner_step hserver hold).unique ht]
      exact hold
    refine ⟨?_, ?_, ?_⟩
    · intro hnone
      obtain ⟨stream', hstream', -⟩ := Server.step_stream hwf.server hserver hstream
      rw [hnone] at hstream'
      cases hstream'
    · rw [hclient]
      intro hlt ht
      exact hd.unsent hlt (howner ht)
    · intro ht
      obtain ⟨dispatched, hdelivered, hconveys⟩ := hd.conveys (howner ht)
      refine ⟨dispatched ++ Server.dispatched id e,
        Server.delivered_step hwf.server hsteady hserver hstream hdelivered, ?_⟩
      unfold rising at hconveys ⊢
      rw [Wires.take_apply hup, List.flatMap_append, List.append_assoc] at hconveys
      rw [dispatched_eq hr (howner ht) hup, hclient]
      exact hconveys.get

/-- What the writer of the tunnel takes is put on the connection. -/
theorem ofMessage_clientPuts (hlink : Function.Injective link) (c : Client) (e : ClientEvent)
    (w : Nat) : (on (link w) (clientPuts link c e)).toList.flatMap (ofMessage id) =
      (on w (c.writes e)).toList.flatMap (ofPacket id) := by
  unfold clientPuts
  cases c.writes e with
  | none => rfl
  | some sent =>
    obtain ⟨v, packet⟩ := sent
    rw [Option.map_some, on_some, on_some]
    by_cases hv : v = w
    · rw [if_pos hv, if_pos (congrArg link hv)]
      simp only [Option.toList_some, List.flatMap_cons, List.flatMap_nil, List.append_nil]
      rw [ofMessage, NextMessage.packet_serialize]
      rfl
    · rw [if_neg hv, if_neg (fun heq => hv (hlink heq))]
      rfl

/-- What the client sends for the stream, it sends to the tunnel of the stream. -/
theorem sentFor_client (hlink : Function.Injective link) (hr : Routes link id s) {w : Nat}
    (hw : Owner id s (link w)) (e : ClientEvent) :
    sentFor id s (.client e) = (on w (s.client.emits e)).toList.flatMap (ofPacket id) := by
  change ((s.client.emits e).bind fun sent => sent.2.streamMessage id).toList = _
  cases hemits : s.client.emits e with
  | none => rfl
  | some sent =>
    obtain ⟨v, packet⟩ := sent
    rw [Option.bind_some, on_some]
    by_cases hv : v = w
    · rw [if_pos hv]
      exact (List.append_nil _).symm
    · rw [if_neg hv]
      have hnone : packet.streamMessage id = none := by
        by_contra hid
        exact hv (hlink ((hr.emitted hemits hid).unique hw))
      rw [hnone]
      rfl

theorem downlink_client (hlink : Function.Injective link) (hwf : s.WellFormed)
    (hr : Routes link id s) {w : Nat} {sent : List StreamMessage} (hd : Downlink link id w s sent)
    {e : ClientEvent} (h : s.step p cfg useTls link (.client e) = some t) :
    Downlink link id w t (sent ++ sentFor id s (.client e)) := by
  obtain ⟨hclient, -, hup, hserver⟩ := step_client h
  have howner : Owner id t (link w) → Owner id s (link w) := by
    unfold Owner
    rw [hserver]
    intro hw
    exact hw
  refine ⟨?_, ?_, ?_⟩
  · intro hnone
    rw [hserver] at hnone
    rw [hd.absent hnone, List.nil_append]
    change ((s.client.emits e).bind fun sent => sent.2.streamMessage id).toList = []
    cases hemits : s.client.emits e with
    | none => rfl
    | some sent =>
      obtain ⟨v, packet⟩ := sent
      rw [Option.bind_some, Option.toList_eq_nil_iff]
      by_contra hid
      obtain ⟨stream, hstream, -⟩ := (hr.emitted hemits hid).stream
      rw [hnone] at hstream
      cases hstream
  · intro hlt ht
    have hlt' : s.client.wormhole < w := Nat.lt_of_le_of_lt (Client.wormhole_le hclient) hlt
    rw [hd.unsent hlt' (howner ht), sentFor_client hlink hr (howner ht), List.nil_append]
    cases hemits : on w (s.client.emits e) with
    | none => rfl
    | some packet =>
      have hle := hwf.bounded.emits_le (on_eq_some.mp hemits)
      exact absurd hlt' (Nat.not_lt.mpr hle)
  · intro ht
    obtain ⟨dispatched, hdelivered, hconveys⟩ := hd.conveys (howner ht)
    rw [hserver]
    refine ⟨dispatched, hdelivered, ?_⟩
    rw [sentFor_client hlink hr (howner ht)]
    unfold rising at hconveys ⊢
    rw [hup, Wires.put_apply, List.flatMap_append, ofMessage_clientPuts hlink]
    rcases Client.step_tunnel hclient w with ⟨rfl, rfl, hnew⟩ | hstep
    · -- nothing has been sent to a tunnel that is just being made
      obtain rfl := hd.unsent (Nat.lt_succ_self _) (howner ht)
      obtain ⟨lost, hsent, -⟩ := hconveys
      simp only [List.nil_eq, List.append_eq_nil_iff] at hsent
      obtain ⟨⟨hdispatched, hold, -⟩, -⟩ := hsent
      rw [hdispatched, hold, hnew]
      exact Conveys.nil _
    · exact hconveys.channelStep hstep

theorem downlink_step (hlink : Function.Injective link) (hwf : s.WellFormed)
    (hr : Routes link id s) {w : Nat} {sent : List StreamMessage} (hd : Downlink link id w s sent)
    {e : NetworkEvent} (hsteady : Steady id s e) (h : s.step p cfg useTls link e = some t) :
    Downlink link id w t (sent ++ sentFor id s e) := by
  cases e with
  | server e =>
    rw [sentFor, List.append_nil]
    exact downlink_server hwf hr hd hsteady h
  | client e => exact downlink_client hlink hwf hr hd h
  | peer n message =>
    obtain rfl := Option.some.inj h
    rw [sentFor, List.append_nil]
    refine ⟨hd.absent, hd.unsent, ?_⟩
    intro hw
    obtain ⟨dispatched, hdelivered, hconveys⟩ := hd.conveys hw
    refine ⟨dispatched, hdelivered, ?_⟩
    have hrising : (s.up.put (some (n, message)) (link w)).flatMap (ofMessage id) =
        (s.up (link w)).flatMap (ofMessage id) := by
      rw [Wires.put_apply, List.flatMap_append, on_some]
      split
      · rw [Option.toList_some, List.flatMap_singleton, ofMessage_eq_nil hsteady.unnamed,
          List.append_nil]
      · exact List.append_nil _
    unfold rising
    rw [hrising]
    exact hconveys

/-- Everything that is kept about a stream and the packets sent for it. -/
structure Tracked (link : Nat → Nat) (id : StreamId) (w : Nat) (s : Network)
    (sent : List StreamMessage) : Prop where
  wellFormed : s.WellFormed
  routes : Routes link id s
  downlink : Downlink link id w s sent

theorem tracked_run (hlink : Function.Injective link) {es : List NetworkEvent}
    (hrun : (network p cfg useTls link).run Network.new es = some t)
    (hsteady : (network p cfg useTls link).Meets (Steady id) Network.new es) (w : Nat) :
    Tracked link id w t ((network p cfg useTls link).trace (sentFor id) Network.new es) := by
  refine Machine.run_trace (I := Tracked link id w) ?_
    ⟨wellFormed_new, routes_new, downlink_new w⟩ hsteady hrun
  intro s e u sent hI hG hstep
  exact ⟨wellFormed_step hI.wellFormed hstep, routes_step hI.routes hG.unnamed hstep,
    downlink_step hlink hI.wellFormed hI.routes hI.downlink hG hstep⟩

/-- Nothing of the stream is on its way from the tunnel `w` to the socket, and the
    tunnel has not broken off. -/
structure Settled (link : Nat → Nat) (id : StreamId) (w : Nat) (s : Network) (stream : Stream) :
    Prop where
  rising : rising link id w s = []
  queue : stream.queue.queue = []
  connected : (s.client.tunnels w).channel.closed = false

end Network

open Network

/-- What has been written to the remote socket of a stream is an initial part of
    the downlink of the packets that the client has sent for it (the payloads up to
    the first refusal, which has its own response), and all of it once nothing is
    on the way. -/
theorem downlink_faithful (p : Platform) (cfg : Config) (useTls : Bool) (link : Nat → Nat)
    (hlink : Function.Injective link) (es : List NetworkEvent) (t : Network)
    (hrun : (network p cfg useTls link).run Network.new es = some t) (id : StreamId)
    (hsteady : (network p cfg useTls link).Meets (Steady id) Network.new es) (stream : Stream)
    (hstream : t.server.streams id = some stream) (w : Nat)
    (hclient : stream.activeStream.client.tx = link w) :
    let sent := (network p cfg useTls link).trace (sentFor id) Network.new es
    stream.socket.written <+: downlink sent ∧
      (Settled link id w t stream → stream.socket.written = downlink sent) := by
  intro sent
  have howner : Owner id t (link w) :=
    ⟨stream.activeStream, by rw [Server.activeStreamOf, hstream]; rfl, hclient⟩
  obtain ⟨dispatched, hdelivered, hconveys⟩ :=
    (tracked_run hlink hrun hsteady w).downlink.conveys howner
  have hdelivers := hdelivered.delivers stream hstream
  constructor
  · obtain ⟨rest, hrest⟩ := hconveys.isPrefix
    change dispatched ++ rest = sent at hrest
    rw [← hrest]
    exact hdelivers.isPrefix.trans (downlink_isPrefix _ _)
  · intro hsettled
    rw [hsettled.rising] at hconveys
    have hall : dispatched = sent := hconveys.delivered hsettled.connected
    rw [← hall]
    exact hdelivers.settled hsettled.queue

namespace OneTunnel

open AnnouncedHost

/-- The client "a" of "b.co" is connected, and somebody connects to it. -/
def connect : List NetworkEvent :=
  [.server (.hello 1 (.V4 0) (some (some (hello ['a']))) 0 ⟨['1']⟩ []), .server (.greet 1 true),
   .server (.register 1), .client (.startWormhole (.ok ())),
   .server (.accept sampleStream "a.b.co".toList), .server (.init sampleStream),
   .server (.flush 1 true),
   .client (.receive (.ok (.Binary (ControlPacket.Init sampleStream).serialize)))]

/-- The remote peer sends a byte. -/
def request (byte : UInt8) : List NetworkEvent :=
  [.server (.poll sampleStream), .server (.read sampleStream (.ok [byte])), .server (.flush 1 true),
   .client (.receive (.ok (.Binary (ControlPacket.Data sampleStream [byte]).serialize)))]

/-- The client connects to the local service and writes the byte. -/
def setup : List NetworkEvent :=
  [.client (.connect .ok), .client .insert, .client .forward, .client (.writeLocal 0 .ok)]

/-- The local service answers with a byte; on its way the packet meets a message
    that is none. -/
def response (byte : UInt8) : List NetworkEvent :=
  [.client (.readLocal 0 (.ok [byte])), .peer 1 (.Text [0]), .client (.flush 1 true),
   .server (.message 1 (.ok (.Text [0]))),
   .server (.message 1 (.ok (.Binary (ControlPacket.Data sampleStream [byte]).serialize))),
   .server (.write sampleStream .ok)]

end OneTunnel

open OneTunnel AnnouncedHost in
/-- A request and its response. -/
theorem downlink_faithful_response : ∃ t stream,
    (network Platform.ascii config false id).run Network.new
      (connect ++ request 1 ++ setup ++ response 2) = some t ∧
    t.server.streams sampleStream = some stream ∧
    stream.socket.written = downlink [.Data [2]] := by
  refine ⟨_, _, rfl, rfl, ?_⟩
  exact (downlink_faithful Platform.ascii config false id Function.injective_id
    (connect ++ request 1 ++ setup ++ response 2) _ rfl sampleStream (by decide) _ rfl 1 rfl).2
    ⟨rfl, rfl, rfl⟩

end Neutun
