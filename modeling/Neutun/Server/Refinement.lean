/-
  Neutun/Server/Refinement.lean
  =============================
  The server refines the lifecycle of its connections.

  Each step of the server is a step of `Lifecycle` or leaves the lifecycle of all
  connections alone (`step_lifecycle`).  That needs one fact about the remote
  streams, kept along with it: the client that a stream was handed to is a
  connection that has been registered (`WellFormed`).
-/
import Neutun.Server.Lifecycle
import Neutun.Server.State

namespace Neutun

open Foundation

/-! ### The lifecycle of the server's connections -/

/-- A connection whose channel is closed has been removed. -/
def Conn.stage (conn : Conn) : Stage :=
  match conn.phase with
  | .connecting => .connecting
  | .checked h => .checked h
  | .announced h => .announced h
  | .serving h => if conn.tx.closed then .removed h else .registered h
  | .rejected => .rejected

theorem Conn.added_stage {conn : Conn} {h : ClientHandshake} :
    conn.stage.added = some h ↔ conn.phase = .serving h := by
  unfold Conn.stage
  cases conn.phase with
  | serving h' => cases conn.tx.closed <;> simp [Stage.added]
  | _ => simp [Stage.added]

theorem Conn.pending_stage {conn : Conn} {h : ClientHandshake} :
    conn.stage.pending = some h ↔ conn.phase = .checked h ∨ conn.phase = .announced h := by
  unfold Conn.stage
  cases conn.phase with
  | serving h' => cases conn.tx.closed <;> simp [Stage.pending]
  | _ => simp [Stage.pending]

theorem Conn.held_of_announced {conn : Conn} {h : ClientHandshake}
    (hn : conn.phase = .announced h) : conn.stage.held = some h := by
  rw [Conn.stage, hn]
  rfl

namespace Server

def lifecycle (s : Server) : Lifecycle := ⟨s.connections, fun n => (s.conns n).stage⟩

variable (p : Platform) (cfg : Config) {s t : Server}

/-- The removal that a failed send to the client of a stream leads to. -/
def removalBy (s : Server) (streamId : StreamId) : Option LifecycleEvent :=
  (s.streams streamId).bind fun stream =>
    let n := stream.activeStream.client.tx
    if (s.conns n).tx.closed then some (.remove n) else none

/-- The step of the lifecycle that an event stands for, if any. -/
def lifecycleEvent (s : Server) : ServerEvent → Option LifecycleEvent
  | .hello n clientIp clientHello now generated random =>
    some (.check n (s.authClientHandshake p cfg clientIp clientHello now generated random))
  | .greet n sent => some (.greet n sent)
  | .register n => some (.add n)
  | .ping n _ => if (s.conns n).tx.closed then some (.remove n) else none
  | .flush n sent => if (s.conns n).tx.queue ≠ [] ∧ sent = false then some (.remove n) else none
  | .message n result =>
    match result.protocol with
    | none => some (.remove n)
    | some bytes =>
      match ControlPacket.deserialize bytes with
      | .ok (.Ping _) => some (.pong n)
      | _ => none
  | .init streamId => s.removalBy streamId
  | .read streamId (.ok (_ :: _)) => s.removalBy streamId
  | .iterate order => some (.iterate order)
  | _ => none

variable {p cfg} in
theorem removalBy_eq_some {id : StreamId} {le : LifecycleEvent} (h : s.removalBy id = some le) :
    ∃ n, le = .remove n := by
  simp only [removalBy, Option.bind_eq_some_iff] at h
  obtain ⟨stream, -, h⟩ := h
  split at h
  · exact ⟨_, (Option.some.inj h).symm⟩
  · cases h

variable {p cfg} in
/-- Which events are checks and which are pongs. -/
theorem lifecycleEvent_cases {e : ServerEvent} {le : LifecycleEvent}
    (h : s.lifecycleEvent p cfg e = some le) :
    match le with
    | .check n result => ∃ clientIp clientHello now generated random,
        e = .hello n clientIp clientHello now generated random ∧
          s.authClientHandshake p cfg clientIp clientHello now generated random = result
    | .pong n => ∃ result token, e = .message n result ∧ result.packet = some (.Ping token)
    | _ => True := by
  cases e with
  | hello m clientIp clientHello now generated random =>
    obtain rfl := Option.some.inj h
    exact ⟨clientIp, clientHello, now, generated, random, rfl, rfl⟩
  | ping m now =>
    simp only [lifecycleEvent] at h
    split at h <;> cases h
    trivial
  | flush m sent =>
    simp only [lifecycleEvent] at h
    split at h <;> cases h
    trivial
  | message m result =>
    simp only [lifecycleEvent] at h
    split at h
    · obtain rfl := Option.some.inj h
      trivial
    next bytes hproto =>
      split at h
      next token hpacket =>
        obtain rfl := Option.some.inj h
        exact ⟨result, token, rfl, NextMessage.packet_eq_some.mpr ⟨bytes, hproto, hpacket⟩⟩
      · cases h
  | init id =>
    obtain ⟨n, rfl⟩ := removalBy_eq_some h
    trivial
  | read id result =>
    cases result with
    | err => cases h
    | ok data =>
      cases data with
      | nil => cases h
      | cons b bs =>
        have hby : s.removalBy id = some le := h
        obtain ⟨n, rfl⟩ := removalBy_eq_some hby
        trivial
  | greet m sent => obtain rfl := Option.some.inj h; trivial
  | register m => obtain rfl := Option.some.inj h; trivial
  | iterate order => obtain rfl := Option.some.inj h; trivial
  | _ => cases h

theorem lifecycle_setConn (s : Server) (n : Nat) (conn : Conn) :
    (s.setConn n conn).lifecycle = s.lifecycle.setStage n conn.stage := by
  refine congrArg (Lifecycle.mk s.connections) (funext ?_)
  intro m
  rw [conns_setConn]
  refine Eq.trans ?_ (Lifecycle.stage_setStage s.lifecycle n m conn.stage).symm
  exact apply_ite Conn.stage _ _ _

/-- Changes to a connection that its stage does not tell. -/
theorem lifecycle_setConn_eq (s : Server) {n : Nat} {conn : Conn}
    (h : conn.stage = (s.conns n).stage) : (s.setConn n conn).lifecycle = s.lifecycle := by
  rw [lifecycle_setConn, h]
  exact congrArg (Lifecycle.mk s.connections) (Function.update_eq_self n s.lifecycle.stage)

theorem lifecycle_sendToStream (s : Server) (id : StreamId) (message : StreamMessage) :
    (s.sendToStream id message).lifecycle = s.lifecycle := by
  unfold lifecycle
  rw [connections_sendToStream, conns_sendToStream]

theorem lifecycle_sendToClient {client : ConnectedClient} {packet : ControlPacket}
    (h : s.sendToClient client packet = some t) : t.lifecycle = s.lifecycle := by
  obtain ⟨hopen, rfl⟩ := sendToClient_eq_some.mp h
  apply s.lifecycle_setConn_eq
  simp only [Conn.stage, hopen]

/-- `Connections::remove` on the client of a connection. -/
theorem lifecycle_remove {n : Nat} {h : ClientHandshake} (hn : (s.conns n).phase = .serving h) :
    s.lifecycle.step (.remove n) = some (s.remove (h.client n)).lifecycle := by
  have hadded : (s.lifecycle.stage n).added = some h := Conn.added_stage.mpr hn
  simp only [Lifecycle.step, hadded, Option.map_some, Option.some.injEq]
  refine congrArg (Lifecycle.mk _) (funext ?_)
  intro m
  rw [conns_remove]
  apply (Lifecycle.stage_setStage s.lifecycle n m _).trans
  change (if m = n then Stage.removed h else (s.conns m).stage) =
    Conn.stage (if m = n then _ else _)
  split
  next heq =>
    subst heq
    simp [Conn.stage, hn]
  · rfl

/-! ### Well-formed states -/

/-- The client of a connection that has been registered. -/
def Served (s : Server) (c : ConnectedClient) : Prop :=
  ∃ h, (s.conns c.tx).phase = .serving h ∧ c = h.client c.tx

/-- Registered clients and the clients of streams are clients of connections,
    and the table of streams lists streams under their ids. -/
structure WellFormed (s : Server) : Prop where
  sound : s.lifecycle.Sound
  stream : ∀ id activeStream, s.activeStreamOf id = some activeStream →
    activeStream.id = id ∧ s.Served activeStream.client
  active : ∀ id activeStream, s.activeStreams.lookup id = some activeStream →
    s.activeStreamOf id = some activeStream

theorem wellFormed_new : WellFormed Server.new where
  sound := Lifecycle.sound_new
  stream _ _ h := nomatch h
  active _ _ h := nomatch h

theorem WellFormed.served (h : s.WellFormed) {c : ConnectedClient}
    (hc : s.connections.Registered c) : s.Served c := by
  obtain ⟨hs, hadded, hclient⟩ := h.sound.owner c hc
  exact ⟨hs, Conn.added_stage.mp hadded, hclient⟩

variable {p cfg}

theorem lifecycle_ping {n : Nat} {now : Time} (h : s.ping p cfg n now = some t) :
    (s.lifecycleEvent p cfg (.ping n now)).elim (some s.lifecycle) s.lifecycle.step =
      some t.lifecycle := by
  obtain ⟨handshake, hn, -, rfl⟩ := ping_cases h
  cases hsend : s.sendToClient (handshake.client n)
    (.Ping (reconnectToken p cfg handshake now)) with
  | some u =>
    have hopen : (s.conns n).tx.closed = false := (sendToClient_eq_some.mp hsend).1
    simp only [lifecycleEvent, hopen, Bool.false_eq_true, if_false, Option.elim_none,
      Option.getD_some]
    rw [lifecycle_sendToClient hsend]
  | none =>
    have hclosed : (s.conns n).tx.closed = true := sendToClient_eq_none.mp hsend
    simp only [lifecycleEvent, hclosed, if_true, Option.elim_some, Option.getD_none]
    rw [lifecycle_remove hn]
    exact congrArg some (lifecycle_setConn_eq _ (by rfl)).symm

theorem lifecycle_flush {n : Nat} {sent : Bool} (h : s.flush n sent = some t) :
    (s.lifecycleEvent p cfg (.flush n sent)).elim (some s.lifecycle) s.lifecycle.step =
      some t.lifecycle := by
  obtain ⟨handshake, hn, -, hflush⟩ := flush_cases h
  rcases hflush with ⟨packet, rest, hqueue, ⟨rfl, rfl⟩ | ⟨rfl, rfl⟩⟩ | ⟨hqueue, hclosed, rfl⟩
  · simp only [lifecycleEvent, Bool.true_eq_false, and_false, if_false, Option.elim_none]
    exact congrArg some (lifecycle_setConn_eq _ (by rfl)).symm
  · simp only [lifecycleEvent, hqueue, ne_eq, reduceCtorEq, not_false_eq_true, and_self,
      if_true, Option.elim_some]
    rw [lifecycle_remove hn]
    refine congrArg some (lifecycle_setConn_eq _ ?_).symm
    have hclosed : ((s.remove (handshake.client n)).conns n).tx.closed = true :=
      s.closed_remove (handshake.client n)
    simp only [Conn.stage, hclosed, Channel.disconnect_closed]
  · simp only [lifecycleEvent, hqueue, ne_eq, not_true_eq_false, false_and, if_false,
      Option.elim_none]
    refine congrArg some (lifecycle_setConn_eq _ ?_).symm
    simp only [Conn.stage, hclosed, Channel.disconnect_closed]

theorem lifecycle_message {n : Nat} {result : NextMessage} (h : s.message n result = some t) :
    (s.lifecycleEvent p cfg (.message n result)).elim (some s.lifecycle) s.lifecycle.step =
      some t.lifecycle := by
  obtain ⟨handshake, hn, -, rfl⟩ := message_eq_some.mp h
  cases hproto : result.protocol with
  | none =>
    simp only [lifecycleEvent, processMessage, hproto, Option.elim_some]
    rw [lifecycle_remove hn]
    exact congrArg some (lifecycle_setConn_eq _ (by rfl)).symm
  | some bytes =>
    cases hpacket : ControlPacket.deserialize bytes with
    | error e => simp only [lifecycleEvent, processMessage, hproto, hpacket, Option.elim_none]
    | ok packet =>
      simp only [lifecycleEvent, processMessage, hproto, hpacket]
      cases packet with
      | Ping tok =>
        have hadded : (s.lifecycle.stage n).added = some handshake := Conn.added_stage.mpr hn
        simp only [Option.elim_some, Lifecycle.step, hadded]
        rfl
      | Data streamId data => exact congrArg some (lifecycle_sendToStream _ _ _).symm
      | Refused streamId => exact congrArg some (lifecycle_sendToStream _ _ _).symm
      | Init streamId => rfl
      | End streamId => rfl

/-- A send to the client of a stream, with the removal that follows a failure. -/
theorem lifecycle_sendOrRemove (hwf : s.WellFormed) {id : StreamId} {stream : Stream}
    (hstream : s.streams id = some stream) (packet : ControlPacket) :
    (s.removalBy id).elim (some s.lifecycle) s.lifecycle.step =
      some ((s.sendToClient stream.activeStream.client packet).getD
        (s.remove stream.activeStream.client)).lifecycle := by
  obtain ⟨h, hphase, hclient⟩ :=
    (hwf.stream id stream.activeStream (by rw [activeStreamOf, hstream]; rfl)).2
  simp only [removalBy, hstream, Option.bind_some]
  cases hsend : s.sendToClient stream.activeStream.client packet with
  | some u =>
    have hopen := (sendToClient_eq_some.mp hsend).1
    simp only [hopen, Bool.false_eq_true, if_false, Option.getD_some, Option.elim_none]
    rw [lifecycle_sendToClient hsend]
  | none =>
    have hclosed := sendToClient_eq_none.mp hsend
    simp only [hclosed, if_true, Option.getD_none, Option.elim_some]
    rw [lifecycle_remove hphase, ← hclient]

/-- The server refines the lifecycle of its connections. -/
theorem step_lifecycle (hwf : s.WellFormed) {e : ServerEvent} (h : s.step p cfg e = some t) :
    (s.lifecycleEvent p cfg e).elim (some s.lifecycle) s.lifecycle.step = some t.lifecycle := by
  cases e with
  | hello n clientIp clientHello now generated random =>
    obtain ⟨hn, rfl⟩ := hello_cases h
    have hstage : s.lifecycle.stage n = .connecting := by simp [lifecycle, Conn.stage, hn]
    simp only [lifecycleEvent, Option.elim_some, Lifecycle.step, hstage, lifecycle_setConn]
    cases s.authClientHandshake p cfg clientIp clientHello now generated random <;> rfl
  | greet n sent =>
    obtain ⟨handshake, hn, rfl⟩ := greet_cases h
    have hstage : s.lifecycle.stage n = .checked handshake := by simp [lifecycle, Conn.stage, hn]
    simp only [lifecycleEvent, Option.elim_some, Lifecycle.step, hstage, lifecycle_setConn]
    cases sent <;> rfl
  | register n =>
    obtain ⟨handshake, hn, rfl⟩ := register_cases h
    have hstage : s.lifecycle.stage n = .announced handshake := by
      simp [lifecycle, Conn.stage, hn]
    simp only [lifecycleEvent, Option.elim_some, Lifecycle.step, hstage]
    have hset := s.lifecycle_setConn n ⟨.serving handshake, Channel.fresh, true, true, true⟩
    exact congrArg (fun l : Lifecycle => some { l with
      connections := s.connections.add (handshake.client n) }) hset.symm
  | ping n now => exact lifecycle_ping h
  | flush n sent => exact lifecycle_flush h
  | message n result => exact lifecycle_message h
  | accept streamId host =>
    obtain ⟨-, ⟨client, -, rfl⟩ | ⟨-, rfl⟩⟩ := accept_cases h
    · rfl
    · rfl
  | init streamId =>
    obtain ⟨stream, hstream, -, rfl⟩ := init_cases h
    exact lifecycle_sendOrRemove hwf hstream _
  | poll streamId =>
    obtain ⟨stream, -, -, ⟨-, rfl⟩ | ⟨-, rfl⟩⟩ := poll_cases h
    · rfl
    · rfl
  | read streamId result =>
    obtain ⟨stream, hstream, -, hread⟩ := read_cases h
    rcases hread with ⟨rfl, rfl⟩ | ⟨rfl, rfl⟩ | ⟨data, rfl, hdata, -, rfl⟩
    · rfl
    · cases hsend : s.sendToClient stream.activeStream.client (.End streamId) with
      | none => rfl
      | some u => exact congrArg some (lifecycle_sendToClient hsend).symm
    · cases data with
      | nil => exact absurd rfl hdata
      | cons b bs => exact lifecycle_sendOrRemove hwf hstream _
  | write streamId result =>
    obtain ⟨stream, stream', isDone, -, -, rfl⟩ := write_cases h
    cases isDone <;> rfl
  | iterate order =>
    obtain rfl := Option.some.inj h
    rfl

/-- What the lifecycle has and each of its steps keeps, the server's steps keep. -/
theorem lifecycle_kept {P : Lifecycle → Prop} (hwf : s.WellFormed) {e : ServerEvent}
    (h : s.step p cfg e = some t) (hs : P s.lifecycle)
    (hstep : ∀ le l, s.lifecycleEvent p cfg e = some le → s.lifecycle.step le = some l → P l) :
    P t.lifecycle := by
  have hlife := step_lifecycle hwf h
  cases hle : s.lifecycleEvent p cfg e with
  | none =>
    rw [hle, Option.elim_none] at hlife
    rw [← Option.some.inj hlife]
    exact hs
  | some le =>
    rw [hle, Option.elim_some] at hlife
    exact hstep le _ hle hlife

/-- A change to a stream that is not about its client. -/
theorem activeStreams_kept {u : Server} {id : StreamId} {old changed : Stream}
    (hold : s.streams id = some old)
    (hframe : u.streams = s.streams ∧ u.activeStreams = s.activeStreams)
    (hsame : changed.activeStream = old.activeStream) :
    (u.setStream id changed).activeStreamOf = s.activeStreamOf ∧
      ((u.setStream id changed).activeStreams = s.activeStreams ∨
        ∃ gone, (u.setStream id changed).activeStreams = s.activeStreams.erase gone) :=
  ⟨activeStreamOf_setStream hframe.1 hold hsame, Or.inl hframe.2⟩

/-- What a step does to the streams' clients and to the table of streams: a
    remote connection that is forwarded enters, all others stay as they are or
    leave the table. -/
theorem step_activeStreams {e : ServerEvent} (h : s.step p cfg e = some t) :
    (t.activeStreamOf = s.activeStreamOf ∧
        (t.activeStreams = s.activeStreams ∨ ∃ id, t.activeStreams = s.activeStreams.erase id)) ∨
      ∃ id host client, e = .accept id host ∧ s.streams id = none ∧
        acceptConnection cfg s.connections host = .Forward client ∧
        t.streams = Function.update s.streams id (some (Stream.new ⟨id, client⟩)) ∧
        t.activeStreams = s.activeStreams.insert id ⟨id, client⟩ ∧ t.conns = s.conns := by
  by_cases he : ofConnection e = true
  · obtain ⟨hstreams, hactive⟩ := step_ofConnection he h
    exact Or.inl ⟨by unfold activeStreamOf; rw [hstreams], Or.inl hactive⟩
  cases e with
  | message n result =>
    obtain ⟨handshake, -, -, rfl⟩ := message_eq_some.mp h
    left
    unfold processMessage
    split
    · exact ⟨rfl, Or.inl rfl⟩
    · split
      · exact ⟨rfl, Or.inl rfl⟩
      next packet hpacket =>
        cases packet with
        | Data streamId data =>
          exact ⟨activeStreamOf_sendToStream _ _ _, Or.inl (activeStreams_sendToStream _ _ _)⟩
        | Refused streamId =>
          exact ⟨activeStreamOf_sendToStream _ _ _, Or.inl (activeStreams_sendToStream _ _ _)⟩
        | Init streamId => exact ⟨rfl, Or.inl rfl⟩
        | End streamId => exact ⟨rfl, Or.inl rfl⟩
        | Ping tok => exact ⟨rfl, Or.inl rfl⟩
  | accept streamId host =>
    obtain ⟨hfresh, ⟨client, hroute, rfl⟩ | ⟨-, rfl⟩⟩ := accept_cases h
    · exact Or.inr ⟨streamId, host, client, rfl, hfresh, hroute, rfl, rfl, rfl⟩
    · exact Or.inl ⟨rfl, Or.inl rfl⟩
  | init streamId =>
    left
    obtain ⟨stream, hstream, -, rfl⟩ := init_cases h
    exact activeStreams_kept hstream (s.streams_sendOr _ _ _ ⟨rfl, rfl⟩) rfl
  | poll streamId =>
    left
    obtain ⟨stream, hstream, -, ⟨-, rfl⟩ | ⟨-, rfl⟩⟩ := poll_cases h
    · exact activeStreams_kept hstream ⟨rfl, rfl⟩ rfl
    · exact activeStreams_kept hstream ⟨rfl, rfl⟩ rfl
  | read streamId result =>
    left
    obtain ⟨stream, hstream, -, hread⟩ := read_cases h
    rcases hread with ⟨-, rfl⟩ | ⟨-, rfl⟩ | ⟨data, -, -, -, rfl⟩
    · exact activeStreams_kept hstream ⟨rfl, rfl⟩ rfl
    · exact activeStreams_kept hstream (s.streams_sendOr _ _ _ ⟨rfl, rfl⟩) rfl
    · exact activeStreams_kept hstream (s.streams_sendOr _ _ _ ⟨rfl, rfl⟩) rfl
  | write streamId result =>
    left
    obtain ⟨stream, stream', isDone, hstream, hturn, rfl⟩ := write_cases h
    have hsame := activeStreamOf_setStream rfl hstream (Stream.kept_turn hturn).1
    cases isDone with
    | false => exact ⟨hsame, Or.inl rfl⟩
    | true => exact ⟨hsame, Or.inr ⟨streamId, rfl⟩⟩
  | _ => exact absurd rfl he

/-- A stream that was not there is that of a remote connection just forwarded. -/
theorem stream_appears {e : ServerEvent} (h : s.step p cfg e = some t) {id : StreamId}
    (hnone : s.streams id = none) {stream : Stream} (hstream : t.streams id = some stream) :
    ∃ host client, e = .accept id host ∧ stream = Stream.new ⟨id, client⟩ ∧
      t.activeStreams.lookup id = some ⟨id, client⟩ ∧ t.conns = s.conns := by
  rcases step_activeStreams h with ⟨hsame, -⟩ |
    ⟨sid, host, client, he, -, -, hstreams, htable, hconns⟩
  · have hid := congrFun hsame id
    rw [activeStreamOf, activeStreamOf, hstream, hnone] at hid
    cases hid
  · rw [hstreams, Function.update_apply, hnone] at hstream
    split at hstream
    next hid =>
      subst hid
      refine ⟨host, client, he, (Option.some.inj hstream).symm, ?_, hconns⟩
      rw [htable, Table.lookup_insert_ite, if_pos rfl]
    · cases hstream

/-- A connection that has been registered stays one that has. -/
theorem served_step (hwf : s.WellFormed) {e : ServerEvent} (h : s.step p cfg e = some t)
    {c : ConnectedClient} (hc : s.Served c) : t.Served c := by
  obtain ⟨hs, hphase, hclient⟩ := hc
  refine ⟨hs, Conn.added_stage.mp ?_, hclient⟩
  have hadded : (s.lifecycle.stage c.tx).added = some hs := Conn.added_stage.mpr hphase
  exact lifecycle_kept (P := fun l => (l.stage c.tx).added = some hs) hwf h hadded
    fun _ _ _ hlife => Lifecycle.added_step hlife hadded

theorem registered_of_forward {host : Text} {client : ConnectedClient}
    (h : acceptConnection cfg s.connections host = .Forward client) :
    s.connections.Registered client := by
  rcases acceptConnection_eq_forward h with ⟨-, subDomain, domain, -, -, hc | ⟨-, hc⟩⟩
  · exact Or.inr ⟨_, hc⟩
  · exact Or.inl (Connections.findWildcard_eq_some hc).1

theorem wellFormed_step (hwf : s.WellFormed) {e : ServerEvent} (h : s.step p cfg e = some t) :
    t.WellFormed := by
  refine ⟨?_, ?_, ?_⟩
  · exact lifecycle_kept hwf h hwf.sound fun _ _ _ hlife => Lifecycle.sound_step hwf.sound hlife
  · intro id activeStream hactive
    rcases step_activeStreams h with ⟨hsame, -⟩ |
      ⟨sid, host, client, rfl, -, hroute, hstreams, -, -⟩
    · rw [hsame] at hactive
      exact ⟨(hwf.stream id _ hactive).1, served_step hwf h (hwf.stream id _ hactive).2⟩
    · rw [activeStreamOf, hstreams, Function.update_apply] at hactive
      split at hactive
      next hid =>
        obtain rfl := Option.some.inj hactive
        exact ⟨hid.symm, served_step hwf h (hwf.served (registered_of_forward hroute))⟩
      · exact ⟨(hwf.stream id _ hactive).1, served_step hwf h (hwf.stream id _ hactive).2⟩
  · intro id activeStream hactive
    rcases step_activeStreams h with ⟨hsame, htable⟩ |
      ⟨sid, host, client, rfl, -, -, hstreams, htable, -⟩
    · rw [hsame]
      rcases htable with htable | ⟨gone, htable⟩
      · exact hwf.active id _ (htable ▸ hactive)
      · rw [htable, Table.lookup_erase_ite] at hactive
        split at hactive
        · cases hactive
        · exact hwf.active id _ hactive
    · rw [htable, Table.lookup_insert_ite] at hactive
      rw [activeStreamOf, hstreams, Function.update_apply]
      split at hactive
      next hid =>
        obtain rfl := Option.some.inj hactive
        rw [if_pos hid]
        rfl
      next hid =>
        rw [if_neg hid]
        exact hwf.active id _ hactive

/-- In every run of the server. -/
theorem wellFormed_run {es : List ServerEvent} (hrun : (server p cfg).run Server.new es = some t) :
    t.WellFormed :=
  Machine.run_invariant (I := WellFormed) (G := fun _ _ => True)
    (fun _ _ _ hI _ ht => wellFormed_step hI ht) wellFormed_new (Machine.meets_true _ _) hrun

end Server

end Neutun
