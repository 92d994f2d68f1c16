/-
  Neutun/Server/Feed.lean
  =======================
  From the remote sockets to the channels of the clients.

  Many tasks send to the channel `tx` of a client: its ping loop and the
  `process_tcp_stream` of each of its streams.  `emits` says which packet a step
  sends; everything else that happens to the channel is its creation, its closing
  and what `tunnel_client` takes from it (`step_tx`).
-/
import Neutun.Foundation.Conduit
import Neutun.Server.Delivery

namespace Neutun

open Foundation

namespace Server

variable (p : Platform) (cfg : Config)

/-- The packet that a step tries to send, and the connection it goes to. -/
def attempts (s : Server) : ServerEvent → Option (Nat × ControlPacket)
  | .ping n now =>
    match (s.conns n).phase with
    | .serving handshake => some (n, .Ping (reconnectToken p cfg handshake now))
    | _ => none
  | .init id => (s.streams id).map fun stream => (stream.activeStream.client.tx, .Init id)
  | .read id (.ok []) => (s.streams id).map fun stream => (stream.activeStream.client.tx, .End id)
  | .read id (.ok data) =>
    (s.streams id).map fun stream => (stream.activeStream.client.tx, .Data id data)
  | _ => none

/-- The packet that a step sends: a closed channel takes none. -/
def emits (s : Server) (e : ServerEvent) : Option (Nat × ControlPacket) :=
  accepted (fun n => (s.conns n).tx) (s.attempts p cfg e)

variable {p cfg} {s t : Server}

theorem emits_eq_some {e : ServerEvent} {n : Nat} {packet : ControlPacket} :
    s.emits p cfg e = some (n, packet) ↔
      s.attempts p cfg e = some (n, packet) ∧ (s.conns n).tx.closed = false :=
  accepted_eq_some

/-- The packet that `tunnel_client` takes and sends. -/
def writes (s : Server) : ServerEvent → Option (Nat × ControlPacket)
  | .flush n true => (s.conns n).tx.queue.head?.map fun packet => (n, packet)
  | _ => none

theorem mem_of_writes {e : ServerEvent} {n : Nat} {packet : ControlPacket}
    (h : s.writes e = some (n, packet)) : packet ∈ (s.conns n).tx.queue := by
  unfold writes at h
  split at h
  · obtain ⟨head, hhead, hsent⟩ := Option.map_eq_some_iff.mp h
    obtain ⟨rfl, rfl⟩ := Prod.mk.inj hsent
    exact List.mem_of_head? hhead
  · cases h

/-- What a step does to the channel of a connection. -/
abbrev TxStep (p : Platform) (cfg : Config) (s t : Server) (n : Nat) (e : ServerEvent) : Prop :=
  Channel.Step (on n (s.emits p cfg e)) (on n (s.writes e)) (s.conns n).tx (t.conns n).tx

/-- The queue of a connection is as it was; its channel may have been closed. -/
structure KeptTx (s t : Server) (n : Nat) : Prop where
  queue : (t.conns n).tx.queue = (s.conns n).tx.queue
  closed : (s.conns n).tx.closed = true → (t.conns n).tx.closed = true

theorem KeptTx.of_eq {n : Nat} (h : (t.conns n).tx = (s.conns n).tx) : s.KeptTx t n := by
  constructor
  · rw [h]
  · rw [h]
    exact id

/-- A change to a connection that is not about its channel. -/
theorem KeptTx.setConn {u : Server} {n m : Nat} {conn : Conn} (h : s.KeptTx u n)
    (htx : conn.tx = (u.conns m).tx) : s.KeptTx (u.setConn m conn) n := by
  have hsame : ((u.setConn m conn).conns n).tx = (u.conns n).tx := by
    rw [conns_setConn]
    split
    next heq => rw [htx, heq]
    · rfl
  constructor
  · rw [hsame]
    exact h.queue
  · rw [hsame]
    exact h.closed

theorem keptTx_remove (s : Server) (client : ConnectedClient) (n : Nat) :
    s.KeptTx (s.remove client) n := by
  constructor
  · rw [conns_remove]
    split <;> rfl
  · rw [conns_remove]
    split
    · exact fun _ => rfl
    · exact id

/-- A step that neither sends nor takes. -/
theorem txStep_of_quiet {e : ServerEvent} (he : s.attempts p cfg e = none)
    (hwrites : s.writes e = none) {n : Nat} (h : s.KeptTx t n) : TxStep p cfg s t n e :=
  Channel.Step.of_quiet (fun m => (s.conns m).tx) he (by rw [hwrites]; rfl) h.queue h.closed

/-- A step that sends to a client, or finds its channel closed. -/
theorem txStep_of_attempt {e : ServerEvent} {client : ConnectedClient} {packet : ControlPacket}
    (he : s.attempts p cfg e = some (client.tx, packet)) (hwrites : s.writes e = none)
    {fallback : Server} (hfallback : ∀ m, s.KeptTx fallback m)
    (h : ∀ m, (t.conns m).tx = (((s.sendToClient client packet).getD fallback).conns m).tx)
    (n : Nat) : TxStep p cfg s t n e := by
  have htx := h n
  apply Channel.Step.of_attempt (fun m => (s.conns m).tx) he (by rw [hwrites]; rfl)
  · rintro rfl hopen
    cases hsend : s.sendToClient client packet with
    | none =>
      rw [sendToClient_eq_none.mp hsend] at hopen
      cases hopen
    | some u =>
      obtain ⟨-, rfl⟩ := sendToClient_eq_some.mp hsend
      rwa [hsend, Option.getD_some, conns_setConn, if_pos rfl] at htx
  · intro hrefused
    rw [htx]
    cases hsend : s.sendToClient client packet with
    | none => exact ⟨(hfallback n).queue, (hfallback n).closed⟩
    | some u =>
      obtain ⟨hopen, rfl⟩ := sendToClient_eq_some.mp hsend
      rw [Option.getD_some, conns_setConn, if_neg]
      · exact ⟨rfl, id⟩
      · rintro rfl
        rw [hrefused rfl] at hopen
        cases hopen

theorem conns_handlePacket (client : ConnectedClient) (packet : ControlPacket) :
    (s.handlePacket client packet).conns = s.conns := by
  cases packet with
  | Data streamId data => exact conns_sendToStream _ _ _
  | Refused streamId => exact conns_sendToStream _ _ _
  | _ => rfl

/-- `tunnel_client` takes the packet that it sends, and drops the channel where it
    ends. -/
theorem txStep_flush {m : Nat} {sent : Bool} (h : s.flush m sent = some t) (n : Nat) :
    TxStep p cfg s t n (.flush m sent) := by
  obtain ⟨handshake, -, -, hflush⟩ := flush_cases h
  rcases hflush with ⟨packet, rest, hqueue, ⟨rfl, rfl⟩ | ⟨rfl, rfl⟩⟩ | ⟨hqueue, -, rfl⟩
  · have hwrites : s.writes (.flush m true) = some (m, packet) := by simp [writes, hqueue]
    by_cases hn : n = m
    · subst hn
      refine .take packet rfl (on_eq_some.mpr hwrites) ?_ ?_
      · rw [conns_setConn, if_pos rfl]
        exact hqueue
      · rw [conns_setConn, if_pos rfl]
    · refine .of_eq rfl ?_ ?_
      · rw [hwrites, on_some, if_neg (Ne.symm hn)]
      · rw [conns_setConn, if_neg hn]
  · by_cases hn : n = m
    · subst hn
      refine .drop rfl rfl ?_
      rw [conns_setConn, if_pos rfl]
    · apply txStep_of_quiet rfl rfl
      have hkept := s.keptTx_remove (handshake.client m) n
      constructor
      · rw [conns_setConn, if_neg hn]
        exact hkept.queue
      · rw [conns_setConn, if_neg hn]
        exact hkept.closed
  · have hwrites : s.writes (.flush m sent) = none := by
      cases sent <;> simp [writes, hqueue]
    by_cases hn : n = m
    · subst hn
      refine .drop rfl (by rw [hwrites]; rfl) ?_
      rw [conns_setConn, if_pos rfl]
    · apply txStep_of_quiet rfl hwrites
      apply KeptTx.of_eq
      rw [conns_setConn, if_neg hn]

/-- A channel is made when its connection is registered; otherwise it is sent to
    and taken from. -/
theorem step_tx {e : ServerEvent} (h : s.step p cfg e = some t) (n : Nat) :
    (∃ handshake, e = .register n ∧ (s.conns n).phase = .announced handshake ∧
        (t.conns n).tx = Channel.fresh) ∨
      TxStep p cfg s t n e := by
  cases e with
  | hello m clientIp clientHello now generated random =>
    right
    obtain ⟨-, rfl⟩ := hello_cases h
    exact txStep_of_quiet rfl rfl ((KeptTx.of_eq rfl).setConn rfl)
  | greet m sent =>
    right
    obtain ⟨handshake, -, rfl⟩ := greet_cases h
    exact txStep_of_quiet rfl rfl ((KeptTx.of_eq rfl).setConn rfl)
  | register m =>
    obtain ⟨handshake, hphase, rfl⟩ := register_cases h
    by_cases hn : n = m
    · subst hn
      refine Or.inl ⟨handshake, rfl, hphase, ?_⟩
      simp only [conns_setConn, if_true]
    · right
      apply txStep_of_quiet rfl rfl
      apply KeptTx.of_eq
      simp only [conns_setConn, if_neg hn]
  | ping m now =>
    right
    obtain ⟨handshake, hphase, -, rfl⟩ := ping_cases h
    have hattempt : s.attempts p cfg (.ping m now) =
        some ((handshake.client m).tx, .Ping (reconnectToken p cfg handshake now)) := by
      simp only [attempts, hphase]
      rfl
    refine txStep_of_attempt hattempt rfl ?_ (fun _ => rfl) n
    intro k
    exact (s.keptTx_remove (handshake.client m) k).setConn rfl
  | flush m sent => exact Or.inr (txStep_flush h n)
  | message m result =>
    right
    apply txStep_of_quiet rfl rfl
    obtain ⟨handshake, -, -, rfl⟩ := message_eq_some.mp h
    unfold processMessage
    split
    · exact (s.keptTx_remove (handshake.client m) n).setConn rfl
    · split
      · exact .of_eq rfl
      · apply KeptTx.of_eq
        rw [conns_handlePacket]
  | accept streamId host =>
    right
    obtain ⟨-, ⟨client, -, rfl⟩ | ⟨-, rfl⟩⟩ := accept_cases h
    · exact txStep_of_quiet rfl rfl (.of_eq rfl)
    · exact txStep_of_quiet rfl rfl (.of_eq rfl)
  | init streamId =>
    right
    obtain ⟨stream, hstream, -, rfl⟩ := init_cases h
    have hattempt : s.attempts p cfg (.init streamId) =
        some (stream.activeStream.client.tx, .Init streamId) := by
      simp only [attempts, hstream, Option.map_some]
    exact txStep_of_attempt hattempt rfl (s.keptTx_remove _) (fun _ => rfl) n
  | poll streamId =>
    right
    obtain ⟨stream, -, -, ⟨-, rfl⟩ | ⟨-, rfl⟩⟩ := poll_cases h
    · exact txStep_of_quiet rfl rfl (.of_eq rfl)
    · exact txStep_of_quiet rfl rfl (.of_eq rfl)
  | read streamId result =>
    right
    obtain ⟨stream, hstream, -, hread⟩ := read_cases h
    rcases hread with ⟨rfl, rfl⟩ | ⟨rfl, rfl⟩ | ⟨data, rfl, hdata, -, rfl⟩
    · exact txStep_of_quiet rfl rfl (.of_eq rfl)
    · have hattempt : s.attempts p cfg (.read streamId (.ok [])) =
          some (stream.activeStream.client.tx, .End streamId) := by
        simp only [attempts, hstream, Option.map_some]
      exact txStep_of_attempt hattempt rfl (fun _ => .of_eq rfl) (fun _ => rfl) n
    · have hattempt : s.attempts p cfg (.read streamId (.ok data)) =
          some (stream.activeStream.client.tx, .Data streamId data) := by
        cases data with
        | nil => exact absurd rfl hdata
        | cons byte bytes => simp only [attempts, hstream, Option.map_some]
      exact txStep_of_attempt hattempt rfl (s.keptTx_remove _) (fun _ => rfl) n
  | write streamId result =>
    right
    apply txStep_of_quiet rfl rfl
    obtain ⟨stream, stream', isDone, -, -, rfl⟩ := write_cases h
    cases isDone <;> exact .of_eq rfl
  | iterate order =>
    right
    obtain rfl := Option.some.inj h
    exact txStep_of_quiet rfl rfl (.of_eq rfl)

/-! ### What is read from the remote peers -/

/-- Who sends what: the data of a stream goes to the client it was handed to, as it
    is read. -/
theorem attempts_cases {e : ServerEvent} {n : Nat} {packet : ControlPacket}
    (h : s.attempts p cfg e = some (n, packet)) :
    (∃ token, packet = .Ping token) ∨
      ∃ id stream, s.streams id = some stream ∧ n = stream.activeStream.client.tx ∧
        (packet = .Init id ∨ (packet = .End id ∧ e = .read id (.ok [])) ∨
          ∃ data, packet = .Data id data ∧ e = .read id (.ok data)) := by
  unfold attempts at h
  split at h
  · split at h
    · obtain ⟨-, rfl⟩ := Prod.mk.inj (Option.some.inj h)
      exact Or.inl ⟨_, rfl⟩
    · cases h
  next id =>
    obtain ⟨stream, hstream, hsent⟩ := Option.map_eq_some_iff.mp h
    obtain ⟨rfl, rfl⟩ := Prod.mk.inj hsent
    exact Or.inr ⟨id, stream, hstream, rfl, Or.inl rfl⟩
  next id =>
    obtain ⟨stream, hstream, hsent⟩ := Option.map_eq_some_iff.mp h
    obtain ⟨rfl, rfl⟩ := Prod.mk.inj hsent
    exact Or.inr ⟨id, stream, hstream, rfl, Or.inr (Or.inl ⟨rfl, rfl⟩)⟩
  next id data hdata =>
    obtain ⟨stream, hstream, hsent⟩ := Option.map_eq_some_iff.mp h
    obtain ⟨rfl, rfl⟩ := Prod.mk.inj hsent
    exact Or.inr ⟨id, stream, hstream, rfl, Or.inr (Or.inr ⟨data, rfl, rfl⟩)⟩
  · cases h

/-- The bytes that a step reads from the remote peer of a stream. -/
def readFrom (id : StreamId) : ServerEvent → Bytes
  | .read streamId (.ok data) => if streamId = id then data else []
  | _ => []

variable {id : StreamId}

theorem readFrom_of_other {e : ServerEvent} (h : ownerOf e ≠ some id) : readFrom id e = [] := by
  cases e with
  | read streamId result =>
    have hne : streamId ≠ id := fun heq => h (congrArg some heq)
    cases result with
    | ok data => exact if_neg hne
    | err => rfl
  | _ => rfl

/-- What a stream has received after a step. -/
theorem step_received (hwf : s.WellFormed) {e : ServerEvent} (h : s.step p cfg e = some t)
    {stream : Stream} (hstream : s.streams id = some stream) :
    ∃ stream', t.streams id = some stream' ∧
      stream'.socket.received = stream.socket.received ++ readFrom id e := by
  obtain ⟨stream', hstream', -, hchange⟩ := step_change hwf h hstream
  refine ⟨stream', hstream', ?_⟩
  cases hchange with
  | idle hother hnone =>
    rw [readFrom_of_other hother, List.append_nil]
  | dispatch m hother hm =>
    rw [readFrom_of_other (by rw [hother]; exact nofun), List.append_nil]
  | chunk data he hdata hreading =>
    subst he
    rw [readFrom, if_pos rfl]
  | turn result isDone he hturn hlisted =>
    rw [(Stream.kept_turn hturn).2.1, he]
    exact (List.append_nil _).symm
  | init he hstarting =>
    subst he
    exact (List.append_nil _).symm
  | gone he hpolling hnone =>
    subst he
    exact (List.append_nil _).symm
  | poll he hpolling =>
    subst he
    exact (List.append_nil _).symm
  | failed he hreading =>
    subst he
    exact (List.append_nil _).symm
  | eof he hreading =>
    rw [he, readFrom, ite_self, List.append_nil]

end Server

end Neutun
