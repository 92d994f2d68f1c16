/-
  Neutun/Network/Progress.lean
  ============================
  What is on its way arrives.

  The steps that carry packets between the two ends use something up: each packet
  counts for the stages that it still has to pass, and a step takes it on by one of
  them.  So there is no more than a certain number of such steps, and where the way
  is intact one is possible as long as anything is left.  A run of them that can be
  carried on no further has therefore delivered everything, in whatever order the
  tasks took their turns.
-/
import Neutun.Client.Progress
import Neutun.Network.Uplink

namespace Neutun

open Foundation

namespace Server

variable {p : Platform} {cfg : Config} {s t : Server}

/-- A packet does not take a client out of the table. -/
theorem get_handlePacket {client : ConnectedClient} {packet : ControlPacket} {i : ClientId}
    (h : (s.connections.get i).isSome = true) :
    ((s.handlePacket client packet).connections.get i).isSome = true := by
  cases packet with
  | Data streamId data =>
    rw [handlePacket, connections_sendToStream]
    exact h
  | Refused streamId =>
    rw [handlePacket, connections_sendToStream]
    exact h
  | Ping token =>
    change ((s.connections.add client).get i).isSome = true
    rw [Connections.get_add]
    split
    · rfl
    · exact h
  | _ => exact h

/-- A message of the protocol keeps the connections going, whatever is in it. -/
theorem message_protocol {n : Nat} {result : NextMessage} (hproto : result.protocol ≠ none)
    (h : s.message n result = some t) : t.conns = s.conns ∧
      ∀ i, (s.connections.get i).isSome = true → (t.connections.get i).isSome = true := by
  obtain ⟨handshake, -, -, rfl⟩ := message_eq_some.mp h
  unfold processMessage
  split
  next hnone => exact absurd hnone hproto
  next bytes hbytes =>
    split
    · exact ⟨rfl, fun _ hi => hi⟩
    · exact ⟨conns_handlePacket _ _, fun _ hi => get_handlePacket hi⟩

end Server

namespace Network

variable {p : Platform} {cfg : Config} {useTls : Bool} {link : Nat → Nat} {id : StreamId} {w : Nat}
  {s t : Network}

/-! ### From the tunnel to the remote socket -/

/-- The steps that carry packets from the tunnel `w` to the socket of the stream. -/
def Rises (link : Nat → Nat) (id : StreamId) (w : Nat) : NetworkEvent → Prop
  | .client (.flush v sent) => v = w ∧ sent = true
  | .server (.message n (.ok _)) => n = link w
  | .server (.write streamId result) => streamId = id ∧ result = .ok
  | _ => False

/-- The way from the tunnel `w` to the socket of the stream is intact. -/
structure RouteUp (link : Nat → Nat) (id : StreamId) (w : Nat) (s : Network) : Prop where
  writer : (s.client.tunnels w).writer = true
  connected : (s.client.tunnels w).channel.closed = false
  messages : (s.server.conns (link w)).processClientMessages = true
  protocol : ∀ message ∈ s.up (link w), (NextMessage.ok message).protocol ≠ none
  owner : Owner id s (link w)
  registered : ∀ stream ∈ s.server.streams id,
    (s.server.connections.get stream.activeStream.client.id).isSome = true

/-- The stages that are still to be passed. -/
def riseLoad (link : Nat → Nat) (id : StreamId) (w : Nat) (s : Network) : Nat :=
  3 * (s.client.tunnels w).channel.queue.length + 2 * (s.up (link w)).length +
    (s.server.streams id).elim 0 fun stream => stream.queue.queue.length

theorem Rises.steady {e : NetworkEvent} (he : Rises link id w e) (hr : RouteUp link id w s) :
    Steady id s e := by
  cases e with
  | client e => trivial
  | server e =>
    refine ⟨hr.registered, ?_⟩
    cases e with
    | write streamId result =>
      obtain ⟨rfl, rfl⟩ := he
      intro result hresult
      exact (Option.some.inj ((if_pos rfl).symm.trans hresult)).symm
    | _ => exact nofun
  | peer n message => exact he.elim

/-- Nothing new is sent. -/
theorem Rises.sentFor {e : NetworkEvent} (he : Rises link id w e) : sentFor id s e = [] := by
  cases e with
  | client e =>
    cases e with
    | flush v sent => rfl
    | _ => exact he.elim
  | _ => rfl

/-- `tunnel_tx` to the websocket. -/
theorem rise_flush (hr : RouteUp link id w s)
    (h : s.step p cfg useTls link (.client (.flush w true)) = some t) :
    RouteUp link id w t ∧ riseLoad link id w t < riseLoad link id w s := by
  obtain ⟨hclient, hdown, hup, hserver⟩ := step_client h
  obtain ⟨packet, rest, hwriter, hqueue, ⟨-, ht⟩ | ⟨hfalse, -⟩⟩ := Client.flush_cases hclient
  · have hup' : t.up (link w) = s.up (link w) ++ [.Binary packet.serialize] := by
      rw [hup, Wires.put_apply]
      simp [clientPuts, Client.writes, hqueue, on_some]
    have htunnel : t.client.tunnels w = ⟨⟨rest, (s.client.tunnels w).channel.closed⟩, true⟩ := by
      rw [ht, Client.tunnels_setTunnel, if_pos rfl]
    constructor
    · refine ⟨by rw [htunnel], by rw [htunnel]; exact hr.connected, ?_, ?_, ?_, ?_⟩
      · rw [hserver]
        exact hr.messages
      · intro message hmem
        rw [hup', List.mem_append, List.mem_singleton] at hmem
        rcases hmem with hmem | rfl
        · exact hr.protocol message hmem
        · intro hnone
          have hpacket := NextMessage.packet_serialize packet
          rw [NextMessage.packet, hnone] at hpacket
          cases hpacket
      · unfold Owner
        rw [hserver]
        exact hr.owner
      · rw [hserver]
        exact hr.registered
    · unfold riseLoad
      rw [hup', htunnel, hserver, hqueue]
      simp only [List.length_append, List.length_cons, List.length_nil]
      omega
  · cases hfalse

/-- The websocket to the queue of the stream it is for. -/
theorem rise_message (hwf : s.WellFormed) (hr : RouteUp link id w s) {message : Message}
    (h : s.step p cfg useTls link (.server (.message (link w) (.ok message))) = some t) :
    RouteUp link id w t ∧ riseLoad link id w t < riseLoad link id w s := by
  obtain ⟨hserver, hup, -, hclient⟩ := step_server h
  have hup' : s.up (link w) = message :: t.up (link w) := by
    rw [Wires.take_apply hup]
    simp [serverTakes, on_some]
  have hproto : (NextMessage.ok message).protocol ≠ none :=
    hr.protocol message (hup' ▸ List.mem_cons_self)
  obtain ⟨hconns, hget⟩ := Server.message_protocol hproto hserver
  obtain ⟨stream, hstream, -⟩ := hr.owner.stream
  obtain ⟨-, hqueue⟩ := Server.message_stream hwf.server hserver hstream
  obtain ⟨stream', hstream', hactive, hlength⟩ : ∃ stream', t.server.streams id = some stream' ∧
      stream'.activeStream = stream.activeStream ∧
      stream'.queue.queue.length ≤ stream.queue.queue.length + 1 := by
    rcases hqueue with ⟨-, hsame⟩ | ⟨m, -, hsent⟩
    · exact ⟨stream, hsame, rfl, Nat.le_succ _⟩
    · refine ⟨_, hsent, rfl, ?_⟩
      simp only
      split
      · rw [Channel.sendOrDrop_queue]
        split
        · exact Nat.le_succ _
        · exact Nat.le_of_eq (List.length_append)
      · exact Nat.le_succ _
  constructor
  · refine ⟨?_, ?_, ?_, ?_, owner_step hserver hr.owner, ?_⟩
    · rw [hclient]
      exact hr.writer
    · rw [hclient]
      exact hr.connected
    · rw [hconns]
      exact hr.messages
    · intro other hmem
      exact hr.protocol other (hup' ▸ List.mem_cons_of_mem message hmem)
    · intro found hfound
      obtain rfl := Option.some.inj (hstream'.symm.trans hfound)
      rw [hactive]
      exact hget _ (hr.registered stream hstream)
  · unfold riseLoad
    rw [hclient, hup', hstream, hstream']
    simp only [List.length_cons, Option.elim_some]
    omega

/-- The queue of the stream to its socket. -/
theorem rise_write {sent : List StreamMessage} (ht : Tracked link id w s sent)
    (hr : RouteUp link id w s)
    (h : s.step p cfg useTls link (.server (.write id .ok)) = some t) :
    RouteUp link id w t ∧ riseLoad link id w t < riseLoad link id w s := by
  obtain ⟨hserver, hup, -, hclient⟩ := step_server h
  obtain ⟨dispatched, hdelivered, -⟩ := ht.downlink.conveys hr.owner
  obtain ⟨stream, stream', isDone, hstream, hturn, hwritten⟩ := Server.write_cases hserver
  have hstream' : t.server.streams id = some stream' := by
    rw [hwritten]
    cases isDone <;> exact (Server.streams_setStream _ _ _ _).trans (if_pos rfl)
  have hrest : t.server.conns = s.server.conns ∧ t.server.connections = s.server.connections := by
    rw [hwritten]
    cases isDone <;> exact ⟨rfl, rfl⟩
  have hless : stream'.queue.queue.length < stream.queue.queue.length := by
    obtain ⟨hrunning, hcases⟩ := Stream.turn_cases hturn
    obtain ⟨-, -, -, -, -, hopen⟩ := (hdelivered.delivers stream hstream).running hrunning
    rcases hcases with ⟨data, rest, hqueue, -, ⟨-, rfl⟩ | ⟨-, rfl⟩⟩ | ⟨rest, hqueue, -, rfl⟩ |
      ⟨rest, hqueue, -, rfl⟩ | ⟨-, hclosed, -⟩
    · rw [hqueue]
      exact Nat.lt_succ_self _
    · rw [hqueue]
      exact Nat.succ_pos _
    · rw [hqueue]
      exact Nat.succ_pos _
    · rw [hqueue]
      exact Nat.succ_pos _
    · rw [hopen] at hclosed
      cases hclosed
  have hup' : t.up = s.up := (Option.some.inj hup).symm
  constructor
  · refine ⟨?_, ?_, ?_, ?_, owner_step hserver hr.owner, ?_⟩
    · rw [hclient]
      exact hr.writer
    · rw [hclient]
      exact hr.connected
    · rw [hrest.1]
      exact hr.messages
    · rw [hup']
      exact hr.protocol
    · intro found hfound
      obtain rfl := Option.some.inj (hstream'.symm.trans hfound)
      rw [(Stream.kept_turn hturn).1, hrest.2]
      exact hr.registered stream hstream
  · unfold riseLoad
    rw [hclient, hup', hstream, hstream']
    simp only [Option.elim_some]
    omega

theorem rise_step (hlink : Function.Injective link) {sent : List StreamMessage} {e : NetworkEvent}
    (ht : Tracked link id w s sent ∧ RouteUp link id w s) (he : Rises link id w e)
    (h : s.step p cfg useTls link e = some t) :
    (Tracked link id w t sent ∧ RouteUp link id w t) ∧
      riseLoad link id w t < riseLoad link id w s := by
  obtain ⟨ht, hr⟩ := ht
  have hsteady := he.steady hr
  have hdown := downlink_step hlink ht.wellFormed ht.routes ht.downlink hsteady h
  rw [he.sentFor, List.append_nil] at hdown
  have htracked : Tracked link id w t sent :=
    ⟨wellFormed_step ht.wellFormed h, routes_step ht.routes hsteady.unnamed h, hdown⟩
  obtain ⟨hroute, hless⟩ : RouteUp link id w t ∧ riseLoad link id w t < riseLoad link id w s := by
    cases e with
    | client e =>
      cases e with
      | flush v sent' =>
        obtain ⟨rfl, rfl⟩ := he
        exact rise_flush hr h
      | _ => exact he.elim
    | server e =>
      cases e with
      | message n result =>
        cases result with
        | ok message =>
          obtain rfl : n = link w := he
          exact rise_message ht.wellFormed hr h
        | _ => exact he.elim
      | write streamId result =>
        obtain ⟨rfl, rfl⟩ := he
        exact rise_write ht hr h
      | _ => exact he.elim
    | peer n message => exact he.elim
  exact ⟨⟨htracked, hroute⟩, hless⟩

/-- Where none of the steps is possible any more, nothing is left on the way. -/
theorem risen {sent : List StreamMessage} (ht : Tracked link id w s sent)
    (hr : RouteUp link id w s)
    (hstuck : (network p cfg useTls link).Stuck (Rises link id w) s) :
    ∃ stream, s.server.streams id = some stream ∧ stream.socket.written = downlink sent := by
  obtain ⟨stream, hstream, htx⟩ := hr.owner.stream
  have htunnel : (s.client.tunnels w).channel.queue = [] := by
    cases hqueue : (s.client.tunnels w).channel.queue with
    | nil => rfl
    | cons packet rest =>
      have hnone := hstuck (.client (.flush w true)) ⟨rfl, rfl⟩
      simp [network, step, Network.accepted, Client.step, Client.flush, hr.writer, hqueue,
        clientTakes, Wires.take] at hnone
  have hup : s.up (link w) = [] := by
    cases hwire : s.up (link w) with
    | nil => rfl
    | cons message rest =>
      have hnone := hstuck (.server (.message (link w) (.ok message))) rfl
      obtain ⟨-, serving, hserving, -⟩ := ht.wellFormed.server.stream id stream.activeStream
        (by rw [Server.activeStreamOf, hstream]; rfl)
      rw [htx] at hserving
      simp [network, step, Server.step, Server.message, hserving, hr.messages, serverTakes,
        Wires.take, hwire] at hnone
  obtain ⟨dispatched, hdelivered, hconveys⟩ := ht.downlink.conveys hr.owner
  have hall : dispatched = sent := by
    rw [rising, hup, htunnel] at hconveys
    exact hconveys.delivered hr.connected
  subst hall
  refine ⟨stream, hstream, ?_⟩
  have hdelivers := hdelivered.delivers stream hstream
  cases hrunning : stream.neutunStream with
  | false => exact (hdelivers.ended hrunning).1
  | true =>
    apply hdelivers.settled
    cases hqueue : stream.queue.queue with
    | nil => rfl
    | cons m rest =>
      have hnone := hstuck (.server (.write id .ok)) ⟨rfl, rfl⟩
      cases m <;> simp [network, step, Server.step, Server.write, hstream, Stream.turn, hrunning,
        hqueue, serverTakes, Wires.take] at hnone

/-! ### From the remote socket to the local connections -/

/-- The server sends nothing that the client takes for an error. -/
structure Orderly (s : Network) : Prop where
  tx : ∀ n packet, packet ∈ (s.server.conns n).tx.queue → ∀ id, packet ≠ .Refused id
  down : ∀ n message, message ∈ s.down n →
    ∃ packet : ControlPacket, message = .Binary packet.serialize ∧
      ∀ id, packet ≠ .Refused id

theorem orderly_new : Orderly Network.new where
  tx _ _ h := nomatch h
  down _ _ h := nomatch h

theorem orderly_step (ho : Orderly s) {e : NetworkEvent}
    (h : s.step p cfg useTls link e = some t) : Orderly t := by
  cases e with
  | server e =>
    obtain ⟨hserver, -, hdown, -⟩ := step_server h
    constructor
    · intro n packet hmem
      rcases Server.step_tx hserver n with ⟨handshake, -, -, hfresh⟩ | hstep
      · rw [hfresh] at hmem
        cases hmem
      · rcases hstep.mem hmem with hold | hsent
        · exact ho.tx n packet hold
        · obtain ⟨hattempt, -⟩ := Server.emits_eq_some.mp (on_eq_some.mp hsent)
          rcases Server.attempts_cases hattempt with ⟨token, rfl⟩ |
            ⟨streamId, _, _, _, rfl | ⟨rfl, -⟩ | ⟨data, rfl, -⟩⟩
          · exact fun _ => nofun
          · exact fun _ => nofun
          · exact fun _ => nofun
          · exact fun _ => nofun
    · intro n message hmem
      rw [hdown] at hmem
      rcases Wires.mem_put hmem with hold | hput
      · exact ho.down n message hold
      · obtain ⟨packet, hwrites, hmessage⟩ := serverPuts_eq_some hput
        exact ⟨packet, hmessage, ho.tx n packet (Server.mem_of_writes hwrites)⟩
  | client e =>
    obtain ⟨-, hdown, -, hserver⟩ := step_client h
    constructor
    · rw [hserver]
      exact ho.tx
    · intro n message hmem
      exact ho.down n message (Wires.mem_of_mem_take hdown hmem)
  | peer n message =>
    obtain rfl := Option.some.inj h
    exact ⟨ho.tx, ho.down⟩

theorem orderly_run {es : List NetworkEvent}
    (hrun : (network p cfg useTls link).run Network.new es = some t) : Orderly t := by
  refine Machine.run_invariant (I := Orderly) ?_ orderly_new (Machine.meets_true _ _) hrun
  intro s e u hI _ hstep
  exact orderly_step hI hstep

theorem wellFormed_run {es : List NetworkEvent}
    (hrun : (network p cfg useTls link).run Network.new es = some t) : t.WellFormed := by
  refine Machine.run_invariant (I := WellFormed) ?_ wellFormed_new (Machine.meets_true _ _) hrun
  intro s e u hI _ hstep
  exact wellFormed_step hI hstep

/-- The steps that carry what has been read for a stream of the connection `n` to
    the local connections. -/
def Falls (n : Nat) : NetworkEvent → Prop
  | .server (.flush m sent) => m = n ∧ sent = true
  | .client (.receive (.ok _)) => True
  | .client e => Client.Hands e
  | _ => False

/-- The way from the connection `n`, that of the stream, to the local connections is
    intact. -/
structure RouteDown (link : Nat → Nat) (id : StreamId) (n : Nat) (s : Network) : Prop where
  present : link s.client.wormhole = n
  tunnelClient : (s.server.conns n).tunnelClient = true
  connected : (s.server.conns n).tx.closed = false
  owner : Owner id s n
  attending : s.client.Attending

/-- The stages that are still to be passed. -/
def fallLoad (n : Nat) (s : Network) : Nat :=
  7 * (s.server.conns n).tx.queue.length + 6 * (s.down n).length + s.client.load

variable {n : Nat}

/-- `client.tx` to the websocket. -/
theorem fall_flush (hr : RouteDown link id n s)
    (h : s.step p cfg useTls link (.server (.flush n true)) = some t) :
    RouteDown link id n t ∧ fallLoad n t < fallLoad n s := by
  obtain ⟨hserver, -, hdown, hclient⟩ := step_server h
  obtain ⟨handshake, hphase, -, hcases⟩ := Server.flush_cases hserver
  rcases hcases with ⟨packet, rest, hqueue, ⟨-, ht⟩ | ⟨hfalse, -⟩⟩ | ⟨-, hclosed, -⟩
  · have hconn : t.server.conns n = { s.server.conns n with
        tx := { (s.server.conns n).tx with queue := rest } } := by
      rw [ht, Server.conns_setConn, if_pos rfl]
    have hdown' : t.down n = s.down n ++ [.Binary packet.serialize] := by
      rw [hdown, Wires.put_apply]
      simp [serverPuts, Server.writes, hqueue, on_some]
    constructor
    · refine ⟨?_, ?_, ?_, owner_step hserver hr.owner, ?_⟩
      · rw [hclient]
        exact hr.present
      · rw [hconn]
        exact hr.tunnelClient
      · rw [hconn]
        exact hr.connected
      · rw [hclient]
        exact hr.attending
    · unfold fallLoad
      rw [hclient, hconn, hdown', hqueue]
      simp only [List.length_append, List.length_cons, List.length_nil]
      omega
  · cases hfalse
  · rw [hr.connected] at hclosed
    cases hclosed

/-- The websocket to `process_control_flow_message`. -/
theorem fall_receive (ho : Orderly s) (hr : RouteDown link id n s) {message : Message}
    (h : s.step p cfg useTls link (.client (.receive (.ok message))) = some t) :
    RouteDown link id n t ∧ fallLoad n t < fallLoad n s := by
  obtain ⟨hclient, hdown, -, hserver⟩ := step_client h
  have hdown' : s.down n = message :: t.down n := by
    rw [Wires.take_apply hdown]
    simp [clientTakes, on_some, hr.present]
  obtain ⟨packet, rfl, hrefused⟩ := ho.down n message (hdown' ▸ List.mem_cons_self)
  obtain ⟨hattending, hwormhole, hload⟩ := Client.attend_receive hr.attending
    (Client.received_serialize packet) hrefused hclient
  constructor
  · refine ⟨?_, ?_, ?_, ?_, hattending⟩
    · rw [hwormhole]
      exact hr.present
    · rw [hserver]
      exact hr.tunnelClient
    · rw [hserver]
      exact hr.connected
    · unfold Owner
      rw [hserver]
      exact hr.owner
  · unfold fallLoad
    rw [hserver, hdown', List.length_cons]
    omega

/-- From there to the sockets. -/
theorem fall_hands (hwf : s.WellFormed) (hr : RouteDown link id n s) {e : ClientEvent}
    (he : Client.Hands e) (h : s.step p cfg useTls link (.client e) = some t) :
    RouteDown link id n t ∧ fallLoad n t < fallLoad n s := by
  obtain ⟨hclient, hdown, -, hserver⟩ := step_client h
  obtain ⟨hattending, hwormhole, hload⟩ :=
    Client.attend_step hwf.client hr.attending he hclient
  have hdown' : t.down = s.down := by
    have htakes : clientTakes link s.client e = none := by
      cases e with
      | receive result => exact he.elim
      | _ => rfl
    rw [htakes] at hdown
    exact (Option.some.inj hdown).symm
  constructor
  · refine ⟨?_, ?_, ?_, ?_, hattending⟩
    · rw [hwormhole]
      exact hr.present
    · rw [hserver]
      exact hr.tunnelClient
    · rw [hserver]
      exact hr.connected
    · unfold Owner
      rw [hserver]
      exact hr.owner
  · unfold fallLoad
    rw [hserver, hdown']
    omega

/-- Everything that these steps keep; they read nothing more from the remote peers. -/
structure Falling (link : Nat → Nat) (id : StreamId) (n : Nat) (stream : Stream) (s : Network) :
    Prop where
  wellFormed : s.WellFormed
  orderly : Orderly s
  route : RouteDown link id n s
  stream : s.server.streams id = some stream

theorem fall_step {stream : Stream} {e : NetworkEvent} (hI : Falling link id n stream s)
    (he : Falls n e) (h : s.step p cfg useTls link e = some t) :
    Falling link id n stream t ∧ fallLoad n t < fallLoad n s := by
  obtain ⟨hwf, ho, hr, hstream⟩ := hI
  have hstreams : t.server.streams = s.server.streams := by
    cases e with
    | server e =>
      cases e with
      | flush m sent => exact (Server.step_ofConnection rfl (step_server h).1).1
      | _ => exact he.elim
    | client e => rw [(step_client h).2.2.2]
    | peer m message => exact he.elim
  obtain ⟨hroute, hless⟩ : RouteDown link id n t ∧ fallLoad n t < fallLoad n s := by
    cases e with
    | server e =>
      cases e with
      | flush m sent =>
        obtain ⟨rfl, rfl⟩ := he
        exact fall_flush hr h
      | _ => exact he.elim
    | client e =>
      cases e with
      | receive result =>
        cases result with
        | ok message => exact fall_receive ho hr h
        | _ => exact he.elim
      | connect result => exact fall_hands (e := .connect result) hwf hr he h
      | insert => exact fall_hands (e := .insert) hwf hr he h
      | forward => exact fall_hands (e := .forward) hwf hr he h
      | writeLocal k result => exact fall_hands (e := .writeLocal k result) hwf hr he h
      | _ => exact he.elim
    | peer m message => exact he.elim
  exact ⟨⟨wellFormed_step hwf h, orderly_step ho h, hroute, hstreams ▸ hstream⟩, hless⟩

/-- What has been read for the stream has all reached the client, and the local
    connection that the table has for it has got the whole of the last piece, which is
    everything while only one chunk has found the stream missing. -/
structure Fallen (id : StreamId) (stream : Stream) (t : Network) (chunks : List (Bytes × Bool)) :
    Prop where
  received : (Client.cut chunks).flatten = stream.socket.received
  written : ∀ k local_, t.client.activeStreams.lookup id = some k →
    t.client.locals k = some local_ → (Client.cut chunks).getLast? = some local_.socket.written
  whole : Client.setups chunks ≤ 1 → ∀ k local_, t.client.activeStreams.lookup id = some k →
    t.client.locals k = some local_ → local_.socket.written = stream.socket.received

/-- Nothing waits in the channel of the connection any more. -/
theorem queue_of_stuck (hwf : s.WellFormed) (hr : RouteDown link id n s)
    (hstuck : (network p cfg useTls link).Stuck (Falls n) s) :
    (s.server.conns n).tx.queue = [] := by
  cases hqueue : (s.server.conns n).tx.queue with
  | nil => rfl
  | cons packet rest =>
    have hnone := hstuck (.server (.flush n true)) ⟨rfl, rfl⟩
    obtain ⟨a, ha, rfl⟩ := hr.owner
    obtain ⟨-, serving, hserving, -⟩ := hwf.server.stream id a ha
    simp [network, step, Server.step, Server.flush, hserving, hr.tunnelClient, hqueue,
      serverTakes, Wires.take] at hnone

/-- The tasks of the client have nothing more to do. -/
theorem idle_of_stuck (hstuck : (network p cfg useTls link).Stuck (Falls n) s) {e : ClientEvent}
    (he : Client.Hands e) : s.client.step useTls e = none := by
  have hfalls : Falls n (.client e) ∧ s.accepted link e = true ∧
      clientTakes link s.client e = none := by
    cases e with
    | connect result => exact ⟨he, rfl, rfl⟩
    | insert => exact ⟨he, rfl, rfl⟩
    | forward => exact ⟨he, rfl, rfl⟩
    | writeLocal k result => exact ⟨he, rfl, rfl⟩
    | _ => exact he.elim
  have hnone := hstuck (.client e) hfalls.1
  cases hstep : s.client.step useTls e with
  | none => rfl
  | some c => simp [network, step, hfalls.2.1, hfalls.2.2, hstep, Wires.take] at hnone

/-- Nothing is on its way to the client, whose loop would take it. -/
theorem down_of_stuck (hr : RouteDown link id n s) (hreading : s.client.control = .reading)
    (hstuck : (network p cfg useTls link).Stuck (Falls n) s) : s.down n = [] := by
  cases hwire : s.down n with
  | nil => rfl
  | cons message rest =>
    have hnone := hstuck (.client (.receive (.ok message))) trivial
    obtain ⟨c, hc⟩ : ∃ c, s.client.receive (.ok message) = some c := by
      unfold Client.receive
      rw [hreading]
      cases message <;> exact ⟨_, rfl⟩
    simp [network, step, Network.accepted, Client.step, hc, clientTakes, hr.present, Wires.take,
      hwire] at hnone

theorem fallen {stream : Stream} {chunks : List (Bytes × Bool)} (hf : Followed id s chunks)
    (hI : Falling link id n stream s)
    (hstuck : (network p cfg useTls link).Stuck (Falls n) s) : Fallen id stream s chunks := by
  obtain ⟨hwf, -, hr, hstream⟩ := hI
  obtain ⟨-, -, huplink, pieces, index, hpieces⟩ := hf
  obtain rfl : Client.cut chunks = pieces := hpieces.cut_eq
  obtain ⟨hreading, hqueues⟩ :=
    Client.attended hwf.client hr.attending fun e he => idle_of_stuck hstuck he
  have hreceived : (Client.cut chunks).flatten = stream.socket.received := by
    obtain ⟨a, ha, htx⟩ := hr.owner
    obtain ⟨stream', hstream', rfl⟩ := Option.map_eq_some_iff.mp ha
    obtain rfl := Option.some.inj (hstream.symm.trans hstream')
    have hconveys := huplink.conveys stream n hstream htx
    rw [falling, down_of_stuck hr hreading hstuck, queue_of_stuck hwf hr hstuck] at hconveys
    rw [hpieces.bytes]
    exact hconveys.delivered hr.connected
  have hwritten : ∀ k local_, s.client.activeStreams.lookup id = some k →
      s.client.locals k = some local_ →
      (Client.cut chunks).getLast? = some local_.socket.written := by
    intro k local_ hk hlocal
    exact hpieces.getLast hwf.client hr.attending hreading hk hlocal (hqueues id k local_ hk hlocal)
  refine ⟨hreceived, hwritten, ?_⟩
  intro hsetups k local_ hk hlocal
  have hlast := hwritten k local_ hk hlocal
  rw [← hpieces.count] at hsetups
  rw [← hreceived]
  cases hcut : Client.cut chunks with
  | nil =>
    rw [hcut] at hlast
    cases hlast
  | cons piece rest =>
    rw [hcut] at hlast hsetups
    cases rest with
    | nil =>
      obtain rfl := Option.some.inj hlast
      exact (List.flatten_singleton).symm
    | cons second rest =>
      simp only [List.length_cons] at hsetups
      omega

end Network

open Network

/-- What the client has sent for a stream gets to the remote socket as soon as the
    tasks on the way have had their turns: they take no more turns than there are
    stages left, in any order, and when none of them has anything more to do, all of
    it is written. -/
theorem downlink_arrives (p : Platform) (cfg : Config) (useTls : Bool) (link : Nat → Nat)
    (hlink : Function.Injective link) (es : List NetworkEvent) (s : Network)
    (hrun : (network p cfg useTls link).run Network.new es = some s) (id : StreamId)
    (hsteady : (network p cfg useTls link).Meets (Steady id) Network.new es) (w : Nat)
    (hroute : RouteUp link id w s) :
    let sent := (network p cfg useTls link).trace (sentFor id) Network.new es
    let arrived (t : Network) := ∃ stream, t.server.streams id = some stream ∧
      stream.socket.written = downlink sent
    (∀ more t, (∀ e ∈ more, Rises link id w e) →
        (network p cfg useTls link).run s more = some t → more.length ≤ riseLoad link id w s ∧
          ((network p cfg useTls link).Stuck (Rises link id w) t → arrived t)) ∧
      ∃ more t, (∀ e ∈ more, Rises link id w e) ∧
        (network p cfg useTls link).run s more = some t ∧ arrived t := by
  intro sent arrived
  have hstart := And.intro (tracked_run hlink hrun hsteady w) hroute
  have hkeeps : ∀ s e t, Tracked link id w s sent ∧ RouteUp link id w s → Rises link id w e →
      (network p cfg useTls link).step s e = some t →
      (Tracked link id w t sent ∧ RouteUp link id w t) ∧
        riseLoad link id w t < riseLoad link id w s := by
    intro s e t hI he h
    exact rise_step hlink hI he h
  constructor
  · intro more t hmore hmoved
    obtain ⟨⟨htracked, hroute'⟩, hbound⟩ := Machine.run_bounded hkeeps hstart hmore hmoved
    exact ⟨Nat.le_of_add_right_le hbound, risen htracked hroute'⟩
  · obtain ⟨more, t, hmore, hmoved, hstuck⟩ := Machine.exists_stuck hkeeps hstart
    obtain ⟨⟨htracked, hroute'⟩, -⟩ := Machine.run_bounded hkeeps hstart hmore hmoved
    exact ⟨more, t, hmore, hmoved, risen htracked hroute' hstuck⟩

open OneTunnel AnnouncedHost in
/-- A response that the client has just read. -/
theorem downlink_arrives_response : ∃ s t stream,
    (network Platform.ascii config false id).run Network.new
      (connect ++ request 1 ++ setup ++ [.client (.readLocal 0 (.ok [2]))]) = some s ∧
    (∃ more, (network Platform.ascii config false id).run s more = some t) ∧
    t.server.streams sampleStream = some stream ∧ stream.socket.written = downlink [.Data [2]] := by
  obtain ⟨s, hrun, hroute⟩ : ∃ s, (network Platform.ascii config false id).run Network.new
      (connect ++ request 1 ++ setup ++ [.client (.readLocal 0 (.ok [2]))]) = some s ∧
      RouteUp id sampleStream 1 s :=
    ⟨_, rfl, rfl, rfl, rfl, nofun, ⟨_, rfl, rfl⟩, by decide⟩
  obtain ⟨more, t, -, hmoved, stream, hstream, hwritten⟩ :=
    (downlink_arrives Platform.ascii config false id Function.injective_id
      (connect ++ request 1 ++ setup ++ [.client (.readLocal 0 (.ok [2]))]) s hrun sampleStream
      (by decide) 1 hroute).2
  exact ⟨s, t, stream, hrun, ⟨more, hmoved⟩, hstream, hwritten⟩

/-- What the server has read for a stream gets to the local service as soon as the
    tasks on the way have had their turns, in any order: the client has then taken all
    of it, and the local connection that it has for the stream has got everything from
    the last chunk on that found the stream missing. -/
theorem uplink_arrives (p : Platform) (cfg : Config) (useTls : Bool) (link : Nat → Nat)
    (es : List NetworkEvent) (s : Network)
    (hrun : (network p cfg useTls link).run Network.new es = some s) (id : StreamId)
    (stream : Stream) (hstream : s.server.streams id = some stream) (n : Nat)
    (hroute : RouteDown link id n s) :
    let arrived (more : List NetworkEvent) (t : Network) := Fallen id stream t
      ((network p cfg useTls link).trace (chunkFor id) Network.new (es ++ more))
    (∀ more t, (∀ e ∈ more, Falls n e) → (network p cfg useTls link).run s more = some t →
        more.length ≤ fallLoad n s ∧
          ((network p cfg useTls link).Stuck (Falls n) t → arrived more t)) ∧
      ∃ more t, (∀ e ∈ more, Falls n e) ∧
        (network p cfg useTls link).run s more = some t ∧ arrived more t := by
  intro arrived
  have hstart : Falling link id n stream s :=
    ⟨wellFormed_run hrun, orderly_run hrun, hroute, hstream⟩
  have hkeeps : ∀ s e t, Falling link id n stream s → Falls n e →
      (network p cfg useTls link).step s e = some t →
      Falling link id n stream t ∧ fallLoad n t < fallLoad n s := by
    intro s e t hI he h
    exact fall_step hI he h
  have hfollowed : ∀ more t, (network p cfg useTls link).run s more = some t → Followed id t
      ((network p cfg useTls link).trace (chunkFor id) Network.new (es ++ more)) := by
    intro more t hmoved
    exact followed_run id ((Machine.run_append_eq_some _).mpr ⟨s, hrun, hmoved⟩)
  constructor
  · intro more t hmore hmoved
    obtain ⟨hfalling, hbound⟩ := Machine.run_bounded hkeeps hstart hmore hmoved
    exact ⟨Nat.le_of_add_right_le hbound, fallen (hfollowed more t hmoved) hfalling⟩
  · obtain ⟨more, t, hmore, hmoved, hstuck⟩ := Machine.exists_stuck hkeeps hstart
    obtain ⟨hfalling, -⟩ := Machine.run_bounded hkeeps hstart hmore hmoved
    exact ⟨more, t, hmore, hmoved, fallen (hfollowed more t hmoved) hfalling hstuck⟩

open OneTunnel AnnouncedHost in
/-- A request of which the second byte has just been read. -/
theorem uplink_arrives_request : ∃ s more t,
    (network Platform.ascii config false id).run Network.new (connect ++ request 1 ++ setup ++
      [.server (.poll sampleStream), .server (.read sampleStream (.ok [2]))]) = some s ∧
    (network Platform.ascii config false id).run s more = some t ∧
    (Client.cut ((network Platform.ascii config false id).trace (chunkFor sampleStream) Network.new
      (connect ++ request 1 ++ setup ++ [.server (.poll sampleStream),
        .server (.read sampleStream (.ok [2]))] ++ more))).flatten = [1, 2] := by
  obtain ⟨s, stream, hrun, hstream, hreceived, hroute⟩ : ∃ s stream,
      (network Platform.ascii config false id).run Network.new (connect ++ request 1 ++ setup ++
        [.server (.poll sampleStream), .server (.read sampleStream (.ok [2]))]) = some s ∧
      s.server.streams sampleStream = some stream ∧ stream.socket.received = [1, 2] ∧
      RouteDown id sampleStream 1 s := by
    refine ⟨_, _, rfl, rfl, rfl, rfl, rfl, rfl, ⟨_, rfl, rfl⟩, rfl, rfl, ?_⟩
    intro _ k _ local_ hlocal
    cases k with
    | zero =>
      obtain rfl := Option.some.inj hlocal
      exact ⟨rfl, List.not_mem_nil⟩
    | succ k => cases hlocal
  obtain ⟨more, t, -, hmoved, hfallen⟩ :=
    (uplink_arrives Platform.ascii config false id
      (connect ++ request 1 ++ setup ++ [.server (.poll sampleStream),
        .server (.read sampleStream (.ok [2]))]) s hrun sampleStream stream hstream 1 hroute).2
  exact ⟨s, more, t, hrun, hmoved, hfallen.received.trans hreceived⟩

end Neutun
