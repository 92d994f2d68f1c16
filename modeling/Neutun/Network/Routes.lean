/-
  Neutun/Network/Routes.lean
  ==========================
  The packets of a stream stay on one connection.

  A stream is handed to one client, that is to one connection.  Its data goes down
  that connection only, so the local connections for it belong to the tunnel at
  the other end, and what they and the reading loop send for it comes up the same
  connection.  This needs that nobody else names the stream.
-/
import Neutun.Network.State

namespace Neutun

open Foundation

/-! ### Packets as messages -/

theorem NextMessage.packet_serialize (packet : ControlPacket) :
    (NextMessage.ok (.Binary packet.serialize)).packet = some packet := by
  rw [NextMessage.packet_eq_some]
  refine ⟨packet.serialize, ?_, packet.deserialize_serialize⟩
  exact if_neg packet.serialize_ne_nil

theorem Client.received_serialize (packet : ControlPacket) :
    Client.received (.receive (.ok (.Binary packet.serialize))) = some packet := by
  change (ControlPacket.deserialize packet.serialize).toOption = some packet
  rw [packet.deserialize_serialize]
  rfl

namespace Network

variable {p : Platform} {cfg : Config} {useTls : Bool} {link : Nat → Nat} {id : StreamId}
  {s t : Network}

theorem serverPuts_eq_some {u : Server} {e : ServerEvent} {n : Nat} {message : Message}
    (h : serverPuts u e = some (n, message)) :
    ∃ packet, u.writes e = some (n, packet) ∧ message = .Binary packet.serialize := by
  obtain ⟨⟨m, packet⟩, hwrites, hmessage⟩ := Option.map_eq_some_iff.mp h
  obtain ⟨rfl, rfl⟩ := Prod.mk.inj hmessage
  exact ⟨packet, hwrites, rfl⟩

theorem clientPuts_eq_some {c : Client} {e : ClientEvent} {n : Nat} {message : Message}
    (h : clientPuts link c e = some (n, message)) :
    ∃ w packet, c.writes e = some (w, packet) ∧ n = link w ∧
      message = .Binary packet.serialize := by
  obtain ⟨⟨w, packet⟩, hwrites, hmessage⟩ := Option.map_eq_some_iff.mp h
  obtain ⟨rfl, rfl⟩ := Prod.mk.inj hmessage
  exact ⟨w, packet, hwrites, rfl, rfl⟩

/-! ### Routes -/

/-- The stream was handed to the client of the connection `n`. -/
def Owner (id : StreamId) (s : Network) (n : Nat) : Prop :=
  ∃ activeStream, s.server.activeStreamOf id = some activeStream ∧ activeStream.client.tx = n

/-- The data that the server sends for the stream goes to the connection it was
    handed to, whatever anybody else sends. -/
structure Feeds (id : StreamId) (s : Network) : Prop where
  tx : ∀ n data, .Data id data ∈ (s.server.conns n).tx.queue → Owner id s n
  down : ∀ n message data, message ∈ s.down n →
    Client.received (.receive (.ok message)) = some (.Data id data) → Owner id s n

/-- Whatever has to do with the stream belongs to the connection it was handed to. -/
structure Routes (link : Nat → Nat) (id : StreamId) (s : Network) : Prop extends Feeds id s where
  chunk : ∀ data, s.client.control.chunk = some (id, data) → Owner id s (link s.client.wormhole)
  reader : ∀ k stream, s.client.locals k = some stream → stream.streamId = id →
    Owner id s (link stream.wormhole)
  tunnel : ∀ w packet, packet ∈ (s.client.tunnels w).channel.queue →
    packet.streamMessage id ≠ none → Owner id s (link w)
  up : ∀ n message packet, message ∈ s.up n → (NextMessage.ok message).packet = some packet →
    packet.streamMessage id ≠ none → Owner id s n

/-- What comes from others is not for the stream. -/
def Unnamed (id : StreamId) : NetworkEvent → Prop
  | .peer _ message => ∀ packet ∈ (NextMessage.ok message).packet, packet.streamMessage id = none
  | _ => True

instance (id : StreamId) : ∀ e : NetworkEvent, Decidable (Unnamed id e)
  | .peer _ message => inferInstanceAs
    (Decidable (∀ packet ∈ (NextMessage.ok message).packet, packet.streamMessage id = none))
  | .server _ | .client _ => isTrue trivial

theorem feeds_new : Feeds id Network.new where
  tx _ _ h := nomatch h
  down _ _ _ h := nomatch h

theorem routes_new : Routes link id Network.new where
  toFeeds := feeds_new
  chunk _ h := nomatch h
  reader _ _ h := nomatch h
  tunnel _ _ h := nomatch h
  up _ _ _ h := nomatch h

theorem Owner.unique {n m : Nat} (hn : Owner id s n) (hm : Owner id s m) : n = m := by
  obtain ⟨a, ha, rfl⟩ := hn
  obtain ⟨b, hb, rfl⟩ := hm
  rw [Option.some.inj (ha.symm.trans hb)]

/-- A stream is handed over once. -/
theorem owner_step {e : ServerEvent} (h : s.server.step p cfg e = some t.server) {n : Nat}
    (hn : Owner id s n) : Owner id t n := by
  obtain ⟨a, ha, rfl⟩ := hn
  refine ⟨a, ?_, rfl⟩
  rcases Server.step_activeStreams h with ⟨hsame, -⟩ |
    ⟨sid, host, client, -, hfresh, -, hstreams, -, -⟩
  · rw [hsame, ha]
  · rw [Server.activeStreamOf, hstreams, Function.update_apply]
    split
    next hid =>
      rw [Server.activeStreamOf, hid, hfresh] at ha
      cases ha
    · exact ha

theorem feeds_server (hf : Feeds id s) {e : ServerEvent}
    (h : s.step p cfg useTls link (.server e) = some t) : Feeds id t := by
  obtain ⟨hserver, -, hdown, -⟩ := step_server h
  have howner : ∀ {n}, Owner id s n → Owner id t n := owner_step hserver
  constructor
  · intro n data hmem
    rcases Server.step_tx hserver n with ⟨handshake, -, -, htx⟩ | hstep
    · rw [htx] at hmem
      cases hmem
    · rcases hstep.mem hmem with hold | hsent
      · exact howner (hf.tx n data hold)
      · -- the data was read from the remote peer of the stream
        have hattempt := (Server.emits_eq_some.mp (on_eq_some.mp hsent)).1
        rcases Server.attempts_cases hattempt with ⟨token, htoken⟩ |
          ⟨sid, stream, hstream, rfl, hinit | ⟨hend, -⟩ | ⟨chunk, hdata, -⟩⟩
        · cases htoken
        · cases hinit
        · cases hend
        · injection hdata with hid hchunk
          subst hid
          exact howner ⟨stream.activeStream, by rw [Server.activeStreamOf, hstream]; rfl, rfl⟩
  · intro n message data hmem hreceived
    rw [hdown] at hmem
    rcases Wires.mem_put hmem with hold | hput
    · exact howner (hf.down n message data hold hreceived)
    · obtain ⟨packet, hwrites, rfl⟩ := serverPuts_eq_some hput
      rw [Client.received_serialize] at hreceived
      obtain rfl := Option.some.inj hreceived
      exact howner (hf.tx n data (Server.mem_of_writes hwrites))

theorem feeds_client (hf : Feeds id s) {e : ClientEvent}
    (h : s.step p cfg useTls link (.client e) = some t) : Feeds id t := by
  obtain ⟨-, hdown, -, hserver⟩ := step_client h
  have howner : ∀ {n}, Owner id s n → Owner id t n := by
    intro n hn
    unfold Owner
    rw [hserver]
    exact hn
  constructor
  · rw [hserver]
    intro n data hmem
    exact howner (hf.tx n data hmem)
  · intro n message data hmem hreceived
    exact howner (hf.down n message data (Wires.mem_of_mem_take hdown hmem) hreceived)

theorem feeds_step (hf : Feeds id s) {e : NetworkEvent}
    (h : s.step p cfg useTls link e = some t) : Feeds id t := by
  cases e with
  | server e => exact feeds_server hf h
  | client e => exact feeds_client hf h
  | peer n message =>
    obtain rfl := Option.some.inj h
    exact ⟨hf.tx, hf.down⟩

theorem routes_server (hr : Routes link id s) {e : ServerEvent}
    (h : s.step p cfg useTls link (.server e) = some t) : Routes link id t := by
  obtain ⟨hserver, hup, -, hclient⟩ := step_server h
  have howner : ∀ {n}, Owner id s n → Owner id t n := owner_step hserver
  refine ⟨feeds_server hr.toFeeds h, ?_, ?_, ?_, ?_⟩
  · rw [hclient]
    intro data hchunk
    exact howner (hr.chunk data hchunk)
  · rw [hclient]
    intro k stream hstream hid
    exact howner (hr.reader k stream hstream hid)
  · rw [hclient]
    intro w packet hmem hpacket
    exact howner (hr.tunnel w packet hmem hpacket)
  · intro n message packet hmem hpacket hid
    exact howner (hr.up n message packet (Wires.mem_of_mem_take hup hmem) hpacket hid)

/-- What the client sends for the stream goes to its connection. -/
theorem Routes.emitted (hr : Routes link id s) {e : ClientEvent} {w : Nat}
    {packet : ControlPacket} (h : s.client.emits e = some (w, packet))
    (hid : packet.streamMessage id ≠ none) : Owner id s (link w) := by
  rcases Client.attempts_cases (Client.emits_eq_some.mp h).1 with ⟨rfl, -⟩ |
    ⟨sid, data, rfl, hchunk, rfl⟩ | ⟨k, stream, data, -, hstream, rfl, rfl⟩
  · exact absurd rfl hid
  · have hsid : sid = id := by
      by_contra hne
      exact hid (if_neg hne)
    subst hsid
    exact hr.chunk data hchunk
  · have hsid : stream.streamId = id := by
      by_contra hne
      exact hid (if_neg hne)
    exact hr.reader k stream hstream hsid

theorem routes_client (hr : Routes link id s) {e : ClientEvent}
    (h : s.step p cfg useTls link (.client e) = some t) : Routes link id t := by
  obtain ⟨hclient, hdown, hup, hserver⟩ := step_client h
  have howner : ∀ {n}, Owner id s n → Owner id t n := by
    intro n hn
    unfold Owner
    rw [hserver]
    exact hn
  refine ⟨feeds_client hr.toFeeds h, ?_, ?_, ?_, ?_⟩
  · intro data hchunk
    rcases Client.step_wormhole hclient with hsame | ⟨-, -, hreading⟩
    · rw [hsame]
      rcases Client.step_chunk hclient hchunk with hold | hreceived
      · exact howner (hr.chunk data hold)
      · -- the packet came on the connection of the present tunnel
        cases e with
        | receive result =>
          cases result with
          | ok message => exact howner (hr.down _ message data (Wires.mem_of_take hdown) hreceived)
          | _ => cases hreceived
        | _ => cases hreceived
    · rw [hreading] at hchunk
      cases hchunk
  · intro k stream' hstream' hid
    rcases Client.step_local hclient hstream' with ⟨stream, hstream, hsid, hw⟩ | ⟨data, hchunk, hw⟩
    · rw [hw]
      exact howner (hr.reader k stream hstream (hsid.symm.trans hid))
    · rw [hw]
      rw [hid] at hchunk
      exact howner (hr.chunk data hchunk)
  · intro w packet hmem hid
    rcases Client.step_tunnel hclient w with ⟨-, -, hnew⟩ | hstep
    · rw [hnew] at hmem
      cases hmem
    · rcases hstep.mem hmem with hold | hsent
      · exact howner (hr.tunnel w packet hold hid)
      · exact howner (hr.emitted (on_eq_some.mp hsent) hid)
  · intro n message packet hmem hpacket hid
    rw [hup] at hmem
    rcases Wires.mem_put hmem with hold | hput
    · exact howner (hr.up n message packet hold hpacket hid)
    · obtain ⟨w, packet', hwrites, rfl, rfl⟩ := clientPuts_eq_some hput
      rw [NextMessage.packet_serialize] at hpacket
      obtain rfl := Option.some.inj hpacket
      exact howner (hr.tunnel w packet' (Client.mem_of_writes hwrites) hid)

theorem routes_step (hr : Routes link id s) {e : NetworkEvent} (hpeer : Unnamed id e)
    (h : s.step p cfg useTls link e = some t) : Routes link id t := by
  cases e with
  | server e => exact routes_server hr h
  | client e => exact routes_client hr h
  | peer n message =>
    obtain rfl := Option.some.inj h
    refine ⟨⟨hr.tx, hr.down⟩, hr.chunk, hr.reader, hr.tunnel, ?_⟩
    intro m message' packet hmem hpacket hid
    have hput : message' ∈ s.up.put (some (n, message)) m := hmem
    rcases Wires.mem_put hput with hold | hput
    · exact hr.up m message' packet hold hpacket hid
    · obtain ⟨rfl, rfl⟩ := Prod.mk.inj (Option.some.inj hput)
      exact absurd (hpeer packet hpacket) hid

end Network

end Neutun
