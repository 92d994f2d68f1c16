/-
  Neutun/Client/Tunnels.lean
  ==========================
  What the client sends to the server.

  Several tasks send to the channel of a tunnel: the reading loop of its
  `run_wormhole`, and the reader of every local connection set up by it.  `emits`
  says which packet a step sends; everything else that happens to a tunnel channel
  is its creation and what its writer does (`step_tunnel`).
-/
import Neutun.Client.Streams
import Neutun.Foundation.Conduit

namespace Neutun

open Foundation

namespace Client

/-- The packet that a step tries to send, and the tunnel it goes to. -/
def attempts (c : Client) : ClientEvent → Option (Nat × ControlPacket)
  | .receive result =>
    match received (.receive result) with
    | some (.Ping _) => some (c.wormhole, .Ping none)
    | _ => none
  | .connect .err =>
    match c.control with
    | .connecting streamId _ => some (c.wormhole, .Refused streamId)
    | _ => none
  | .forward =>
    match c.control with
    | .forwarding streamId _ =>
      if (c.activeStreams.lookup streamId).isSome then none
      else some (c.wormhole, .Refused streamId)
    | _ => none
  | .readLocal n (.ok (byte :: bytes)) =>
    (c.locals n).map fun stream => (stream.wormhole, .Data stream.streamId (byte :: bytes))
  | _ => none

/-- The packet that a step sends: a closed channel takes none. -/
def emits (c : Client) (e : ClientEvent) : Option (Nat × ControlPacket) :=
  accepted (fun w => (c.tunnels w).channel) (c.attempts e)

variable {c c' : Client}

theorem emits_eq_some {e : ClientEvent} {w : Nat} {packet : ControlPacket} :
    c.emits e = some (w, packet) ↔
      c.attempts e = some (w, packet) ∧ (c.tunnels w).channel.closed = false :=
  accepted_eq_some

/-- The packet that the writer of a tunnel takes and sends. -/
def writes (c : Client) : ClientEvent → Option (Nat × ControlPacket)
  | .flush w true => (c.tunnels w).channel.queue.head?.map fun packet => (w, packet)
  | _ => none

theorem mem_of_writes {e : ClientEvent} {w : Nat} {packet : ControlPacket}
    (h : c.writes e = some (w, packet)) : packet ∈ (c.tunnels w).channel.queue := by
  unfold writes at h
  split at h
  · obtain ⟨head, hhead, hsent⟩ := Option.map_eq_some_iff.mp h
    obtain ⟨rfl, rfl⟩ := Prod.mk.inj hsent
    exact List.mem_of_head? hhead
  · cases h

/-- The channel of a tunnel after a packet has been sent to one, or refused by it. -/
theorem channel_notifyTunnel (c : Client) (v w : Nat) (packet : ControlPacket) :
    ((c.notifyTunnel v packet).tunnels w).channel =
      if w = v ∧ (c.tunnels v).channel.closed = false then
        ⟨(c.tunnels w).channel.queue ++ [packet], false⟩
      else (c.tunnels w).channel := by
  rw [notifyTunnel_eq, tunnels_setTunnel]
  by_cases hw : w = v
  · subst hw
    cases hclosed : (c.tunnels w).channel.closed with
    | false => simp [Channel.sendOrDrop, Channel.send_of_open hclosed, hclosed]
    | true => simp [Channel.sendOrDrop, Channel.send_of_closed hclosed]
  · rw [if_neg hw, if_neg]
    intro h
    exact hw h.1

/-- What a step does to the channel of a tunnel. -/
abbrev TunnelStep (c c' : Client) (w : Nat) (e : ClientEvent) : Prop :=
  Channel.Step (on w (c.emits e)) (on w (c.writes e)) (c.tunnels w).channel (c'.tunnels w).channel

/-- A step that tries to send. -/
theorem tunnelStep_of_attempt {e : ClientEvent} {v : Nat} {packet : ControlPacket}
    (he : c.attempts e = some (v, packet)) (hwrites : c.writes e = none)
    (h : ∀ w, (c'.tunnels w).channel = ((c.notifyTunnel v packet).tunnels w).channel) (w : Nat) :
    c.TunnelStep c' w e := by
  have hw := h w
  rw [channel_notifyTunnel] at hw
  apply Channel.Step.of_attempt (fun v => (c.tunnels v).channel) he (by rw [hwrites]; rfl)
  · rintro rfl hopen
    rwa [if_pos ⟨rfl, hopen⟩] at hw
  · intro hrefused
    rw [hw, if_neg]
    · exact ⟨rfl, id⟩
    · rintro ⟨rfl, hopen⟩
      rw [hrefused rfl] at hopen
      cases hopen

/-- A step that neither sends nor takes. -/
theorem tunnelStep_of_quiet {e : ClientEvent} (he : c.attempts e = none)
    (hwrites : c.writes e = none) {w : Nat}
    (h : (c'.tunnels w).channel = (c.tunnels w).channel) : c.TunnelStep c' w e := by
  apply Channel.Step.of_quiet (fun v => (c.tunnels v).channel) he (by rw [hwrites]; rfl)
  · rw [h]
  · rw [h]
    exact id

theorem tunnelStep_receive {result : NextMessage} (h : c.receive result = some c') (w : Nat) :
    c.TunnelStep c' w (.receive result) := by
  obtain ⟨-, hreceive⟩ := receive_cases h
  rcases hreceive with ⟨bytes, rfl, rfl⟩ | ⟨message, rfl, hclose, rfl⟩ | ⟨rfl | rfl, rfl⟩
  · exact tunnelStep_of_quiet rfl rfl rfl
  · have hreceived := received_ok hclose
    unfold processControlFlowMessage
    cases hpacket : ControlPacket.deserialize message.data with
    | error e =>
      refine tunnelStep_of_quiet ?_ rfl rfl
      simp [attempts, hreceived, hpacket, Except.toOption]
    | ok packet =>
      cases packet with
      | Ping token =>
        have hattempt : c.attempts (.receive (.ok message)) =
            some (c.wormhole, .Ping none) := by
          simp [attempts, hreceived, hpacket, Except.toOption]
        refine tunnelStep_of_attempt hattempt rfl ?_ w
        intro v
        simp only [notifyTunnel_eq]
        rfl
      | Data streamId data =>
        refine tunnelStep_of_quiet ?_ rfl ?_
        · simp [attempts, hreceived, hpacket, Except.toOption]
        · simp only
          split <;> rfl
      | _ =>
        refine tunnelStep_of_quiet ?_ rfl rfl
        simp [attempts, hreceived, hpacket, Except.toOption]
  · exact tunnelStep_of_quiet rfl rfl rfl
  · exact tunnelStep_of_quiet rfl rfl rfl

/-- The writer takes the packet that it sends, and drops the channel where it cannot
    send it. -/
theorem tunnelStep_flush {v : Nat} {sent : Bool} (h : c.flush v sent = some c') (w : Nat) :
    c.TunnelStep c' w (.flush v sent) := by
  obtain ⟨packet, rest, -, hqueue, ⟨rfl, rfl⟩ | ⟨rfl, rfl⟩⟩ := flush_cases h
  · have hwrites : c.writes (.flush v true) = some (v, packet) := by simp [writes, hqueue]
    by_cases hw : w = v
    · subst hw
      refine .take packet rfl (on_eq_some.mpr hwrites) ?_ ?_
      · rw [tunnels_setTunnel, if_pos rfl]
        exact hqueue
      · rw [tunnels_setTunnel, if_pos rfl]
    · refine .of_eq rfl ?_ ?_
      · rw [hwrites, on_some, if_neg (Ne.symm hw)]
      · rw [tunnels_setTunnel, if_neg hw]
  · by_cases hw : w = v
    · subst hw
      refine .drop rfl rfl ?_
      simp only [tunnels_setTunnel, if_true]
    · apply tunnelStep_of_quiet rfl rfl
      simp only [tunnels_setTunnel, if_neg hw]

/-- A tunnel is made by its wormhole; otherwise its channel is sent to and taken
    from. -/
theorem step_tunnel {useTls : Bool} {e : ClientEvent} (h : c.step useTls e = some c') (w : Nat) :
    (e = .startWormhole (.ok ()) ∧ w = c.wormhole + 1 ∧
        (c'.tunnels w).channel = Channel.fresh) ∨ c.TunnelStep c' w e := by
  cases e with
  | startWormhole result =>
    obtain ⟨-, ⟨rfl, rfl⟩ | ⟨e, -, -, -, rfl⟩⟩ := startWormhole_cases h
    · by_cases hw : w = c.wormhole + 1
      · left
        refine ⟨rfl, hw, ?_⟩
        simp only [tunnels_setTunnel, if_pos hw]
      · right
        apply tunnelStep_of_quiet rfl rfl
        simp only [tunnels_setTunnel, if_neg hw]
    · exact Or.inr (tunnelStep_of_quiet rfl rfl rfl)
  | decide =>
    right
    obtain ⟨outcome, -, ⟨-, rfl⟩ | ⟨e, -, -, rfl⟩⟩ := decide_cases h
    · exact tunnelStep_of_quiet rfl rfl rfl
    · exact tunnelStep_of_quiet rfl rfl rfl
  | interrupt =>
    right
    obtain ⟨-, -, rfl⟩ := interrupt_cases h
    exact tunnelStep_of_quiet rfl rfl rfl
  | receive result => exact Or.inr (tunnelStep_receive h w)
  | connect result =>
    right
    rcases connect_cases h with ⟨streamId, data, hcontrol, ⟨rfl, rfl⟩ | ⟨rfl, rfl⟩ | ⟨rfl, rfl⟩⟩
    · exact tunnelStep_of_quiet rfl rfl rfl
    · exact tunnelStep_of_attempt (by simp [attempts, hcontrol]) rfl (fun _ => rfl) w
    · exact tunnelStep_of_quiet rfl rfl rfl
  | insert =>
    right
    obtain ⟨streamId, data, n, stream, -, -, rfl⟩ := insert_cases h
    exact tunnelStep_of_quiet rfl rfl rfl
  | forward =>
    right
    rcases forward_cases h with ⟨streamId, data, hcontrol, ⟨n, stream, hn, hstream, ⟨-, rfl⟩ |
      ⟨-, rfl⟩⟩ | ⟨hnone, ⟨hopen, rfl⟩ | ⟨hclosed, rfl⟩⟩⟩
    · exact tunnelStep_of_quiet (by simp [attempts, hcontrol, hn]) rfl rfl
    · exact tunnelStep_of_quiet (by simp [attempts, hcontrol, hn]) rfl rfl
    · exact tunnelStep_of_attempt (by simp [attempts, hcontrol, hnone]) rfl (fun _ => rfl) w
    · have hattempt : c.attempts .forward = some (c.wormhole, .Refused streamId) := by
        simp [attempts, hcontrol, hnone]
      refine tunnelStep_of_attempt hattempt rfl ?_ w
      intro v
      rw [channel_notifyTunnel, if_neg]
      rintro ⟨-, hopen⟩
      rw [hclosed] at hopen
      cases hopen
  | flush v sent => exact Or.inr (tunnelStep_flush h w)
  | readLocal n result =>
    right
    rcases readLocal_cases h with ⟨stream, hstream, -, ⟨rfl, rfl⟩ | ⟨rfl, rfl⟩ |
      ⟨data, reader, rfl, hne, rfl⟩⟩
    · exact tunnelStep_of_quiet rfl rfl rfl
    · exact tunnelStep_of_quiet rfl rfl rfl
    · cases data with
      | nil => exact absurd rfl hne
      | cons byte bytes =>
        exact tunnelStep_of_attempt (by simp [attempts, hstream]) rfl (fun _ => rfl) w
  | writeLocal n result =>
    right
    obtain ⟨stream, stream', -, -, rfl⟩ := writeLocal_cases h
    exact tunnelStep_of_quiet rfl rfl rfl
  | endTask k =>
    right
    rcases endTask_cases h with ⟨tasks, rfl | ⟨n, stream, -, rfl⟩ | ⟨streamId, rfl⟩⟩
    all_goals exact tunnelStep_of_quiet rfl rfl rfl

/-! ### Tunnels of earlier and later wormholes -/

/-- A new wormhole has the next number; all other steps stay with the present
    one. -/
theorem step_wormhole {useTls : Bool} {e : ClientEvent} (h : c.step useTls e = some c') :
    c'.wormhole = c.wormhole ∨
      e = .startWormhole (.ok ()) ∧ c'.wormhole = c.wormhole + 1 ∧ c'.control = .reading := by
  cases e with
  | startWormhole result =>
    obtain ⟨-, ⟨rfl, rfl⟩ | ⟨e, -, -, -, rfl⟩⟩ := startWormhole_cases h
    · exact Or.inr ⟨rfl, rfl, rfl⟩
    · exact Or.inl rfl
  | decide =>
    left
    obtain ⟨outcome, -, ⟨-, rfl⟩ | ⟨e, -, -, rfl⟩⟩ := decide_cases h
    · rfl
    · rfl
  | interrupt =>
    left
    obtain ⟨-, -, rfl⟩ := interrupt_cases h
    rfl
  | receive result =>
    left
    obtain ⟨-, ⟨bytes, -, rfl⟩ | ⟨message, -, -, rfl⟩ | ⟨-, rfl⟩⟩ := receive_cases h
    · rfl
    · unfold processControlFlowMessage
      cases ControlPacket.deserialize message.data with
      | error e => rfl
      | ok packet =>
        cases packet with
        | Ping token => exact wormhole_notifyTunnel _ _ _
        | Data streamId data =>
          simp only
          split <;> rfl
        | _ => rfl
    · rfl
  | connect result =>
    left
    rcases connect_cases h with ⟨streamId, data, -, ⟨-, rfl⟩ | ⟨-, rfl⟩ | ⟨-, rfl⟩⟩
    · rfl
    · exact wormhole_notifyTunnel _ _ _
    · rfl
  | insert =>
    left
    obtain ⟨streamId, data, n, stream, -, -, rfl⟩ := insert_cases h
    rfl
  | forward =>
    left
    rcases forward_cases h with ⟨streamId, data, -, ⟨n, stream, -, -, ⟨-, rfl⟩ | ⟨-, rfl⟩⟩ |
      ⟨-, ⟨-, rfl⟩ | ⟨-, rfl⟩⟩⟩
    · rfl
    · rfl
    · exact wormhole_notifyTunnel _ _ _
    · rfl
  | flush w sent =>
    left
    obtain ⟨packet, rest, -, -, ⟨-, rfl⟩ | ⟨-, rfl⟩⟩ := flush_cases h
    · rfl
    · rfl
  | readLocal n result =>
    left
    rcases readLocal_cases h with ⟨stream, -, -, ⟨-, rfl⟩ | ⟨-, rfl⟩ | ⟨data, reader, -, -, rfl⟩⟩
    · rfl
    · rfl
    · exact wormhole_notifyTunnel _ _ _
  | writeLocal n result =>
    left
    obtain ⟨stream, stream', -, -, rfl⟩ := writeLocal_cases h
    rfl
  | endTask k =>
    left
    rcases endTask_cases h with ⟨tasks, rfl | ⟨n, stream, -, rfl⟩ | ⟨streamId, rfl⟩⟩
    all_goals rfl

/-- Who sends what: pongs and refusals go to the present tunnel, data that has been
    read from a local connection to the tunnel of that connection. -/
theorem attempts_cases {e : ClientEvent} {w : Nat} {packet : ControlPacket}
    (h : c.attempts e = some (w, packet)) :
    (packet = .Ping none ∧ w = c.wormhole) ∨
      (∃ streamId data, packet = .Refused streamId ∧
        c.control.chunk = some (streamId, data) ∧ w = c.wormhole) ∨
      ∃ n stream data, e = .readLocal n (.ok data) ∧ c.locals n = some stream ∧
        packet = .Data stream.streamId data ∧ w = stream.wormhole := by
  unfold attempts at h
  split at h
  · split at h
    · left
      obtain ⟨rfl, rfl⟩ := Prod.mk.inj (Option.some.inj h)
      exact ⟨rfl, rfl⟩
    · cases h
  · split at h
    next streamId data hcontrol =>
      right; left
      obtain ⟨rfl, rfl⟩ := Prod.mk.inj (Option.some.inj h)
      exact ⟨streamId, data, rfl, by rw [hcontrol]; rfl, rfl⟩
    · cases h
  · split at h
    next streamId data hcontrol =>
      split at h
      · cases h
      · right; left
        obtain ⟨rfl, rfl⟩ := Prod.mk.inj (Option.some.inj h)
        exact ⟨streamId, data, rfl, by rw [hcontrol]; rfl, rfl⟩
    · cases h
  next n byte bytes =>
    right; right
    obtain ⟨stream, hstream, hsent⟩ := Option.map_eq_some_iff.mp h
    obtain ⟨rfl, rfl⟩ := Prod.mk.inj hsent
    exact ⟨n, stream, byte :: bytes, rfl, hstream, rfl, rfl⟩
  · cases h

/-- No local connection belongs to a tunnel that has not been made yet. -/
def Bounded (c : Client) : Prop :=
  ∀ n stream, c.locals n = some stream → stream.wormhole ≤ c.wormhole

theorem bounded_new : Bounded Client.new := fun _ _ h => nomatch h

theorem wormhole_le {useTls : Bool} {e : ClientEvent} (h : c.step useTls e = some c') :
    c.wormhole ≤ c'.wormhole := by
  rcases step_wormhole h with hsame | ⟨-, hnext, -⟩
  · exact Nat.le_of_eq hsame.symm
  · rw [hnext]
    exact Nat.le_succ _

theorem bounded_step {useTls : Bool} {e : ClientEvent} (hb : c.Bounded)
    (h : c.step useTls e = some c') : c'.Bounded := by
  intro n stream' hstream'
  rcases step_local h hstream' with ⟨stream, hstream, -, hwormhole⟩ | ⟨data, -, hwormhole⟩
  · rw [hwormhole]
    exact Nat.le_trans (hb n stream hstream) (wormhole_le h)
  · rw [hwormhole]
    exact wormhole_le h

/-- Packets go to tunnels that have been made. -/
theorem Bounded.emits_le (hb : c.Bounded) {e : ClientEvent} {w : Nat} {packet : ControlPacket}
    (h : c.emits e = some (w, packet)) : w ≤ c.wormhole := by
  rcases attempts_cases (emits_eq_some.mp h).1 with
    ⟨-, rfl⟩ | ⟨_, _, -, -, rfl⟩ | ⟨n, stream, data, -, hstream, -, rfl⟩
  · exact Nat.le_refl _
  · exact Nat.le_refl _
  · exact hb n stream hstream

end Client

end Neutun
