/-
  Neutun/Server/Succession.lean
  =============================
  A client that comes back with a token while its old connection is still being
  torn down.

  Two connections then have one client id.  `Connections::remove` compares ids
  only, so what the old one calls it for may be entries of the new one.
-/
import Neutun.Server.Tokens

namespace Neutun

open Foundation

variable {p : Platform} {cfg : Config}

/-! ### Teardown -/

theorem Lifecycle.remove_cases {l l' : Lifecycle} {n : Nat} {h : ClientHandshake}
    (hn : (l.stage n).added = some h) (hstep : l.step (.remove n) = some l') :
    l'.connections = l.connections.remove (h.client n) := by
  simp only [step, hn, Option.map_some, Option.some.injEq] at hstep
  rw [← hstep]

namespace Server

variable {s t : Server}

/-- One of the tasks of a connection calls `Connections::remove`: its message
    loop has ended, its writer has failed, or a ping or a packet of one of its
    streams could not be sent. -/
def TearsDown (s : Server) (n : Nat) : ServerEvent → Prop
  | .message m result => m = n ∧ result.protocol = none
  | .flush m sent => m = n ∧ (s.conns n).tx.queue ≠ [] ∧ sent = false
  | .ping m _ => m = n ∧ (s.conns n).tx.closed = true
  | .init id | .read id (.ok (_ :: _)) =>
    ∃ stream, s.streams id = some stream ∧ stream.activeStream.client.tx = n ∧
      (s.conns n).tx.closed = true
  | _ => False

theorem removalBy_iff {id : StreamId} {n : Nat} : s.removalBy id = some (.remove n) ↔
    ∃ stream, s.streams id = some stream ∧ stream.activeStream.client.tx = n ∧
      (s.conns n).tx.closed = true := by
  unfold removalBy
  rw [Option.bind_eq_some_iff]
  refine exists_congr fun stream => and_congr_right fun _ => ?_
  simp only [Option.ite_none_right_eq_some, Option.some.injEq, LifecycleEvent.remove.injEq]
  constructor
  · rintro ⟨hclosed, rfl⟩
    exact ⟨rfl, hclosed⟩
  · rintro ⟨rfl, hclosed⟩
    exact ⟨hclosed, rfl⟩

theorem tearsDown_iff {n : Nat} {e : ServerEvent} :
    s.TearsDown n e ↔ s.lifecycleEvent p cfg e = some (.remove n) := by
  cases e with
  | message m result =>
    simp only [TearsDown, lifecycleEvent]
    split
    next hproto => simp [hproto]
    next bytes hproto =>
      simp only [hproto, reduceCtorEq, and_false, false_iff]
      split <;> simp
  | flush m sent =>
    simp only [TearsDown, lifecycleEvent]
    constructor
    · rintro ⟨rfl, hflush⟩
      rw [if_pos hflush]
    · intro h
      split at h
      next hflush =>
        obtain rfl : m = n := by simpa using h
        exact ⟨rfl, hflush⟩
      · cases h
  | ping m now =>
    simp only [TearsDown, lifecycleEvent]
    constructor
    · rintro ⟨rfl, hclosed⟩
      rw [if_pos hclosed]
    · intro h
      split at h
      next hclosed =>
        obtain rfl : m = n := by simpa using h
        exact ⟨rfl, hclosed⟩
      · cases h
  | init id => exact removalBy_iff.symm
  | read id result =>
    cases result with
    | err => simp [TearsDown, lifecycleEvent]
    | ok data =>
      cases data with
      | nil => simp [TearsDown, lifecycleEvent]
      | cons b bs =>
        apply Iff.symm
        exact (removalBy_iff : s.removalBy id = some (.remove n) ↔ _)
  | _ => simp [TearsDown, lifecycleEvent]

/-- What a teardown does to the registry. -/
theorem connections_tearsDown (hwf : s.WellFormed) {n : Nat} {h : ClientHandshake}
    (hn : (s.conns n).phase = .serving h) {e : ServerEvent} (hdown : s.TearsDown n e)
    (hstep : s.step p cfg e = some t) :
    t.connections = s.connections.remove (h.client n) := by
  have hlife := step_lifecycle hwf hstep
  rw [tearsDown_iff.mp hdown, Option.elim_some] at hlife
  exact Lifecycle.remove_cases (Conn.added_stage.mpr hn) hlife

/-! ### The successor -/

/-- The connection is registered and has not been removed. -/
def Connected (s : Server) (n : Nat) (h : ClientHandshake) : Prop :=
  (s.conns n).stage = .registered h

/-- A step takes no entry of a connection out of the registry. -/
def Untouched (n : Nat) (h : ClientHandshake) (s t : Server) : Prop :=
  (s.connections.get h.id = some (h.client n) → t.connections.get h.id = some (h.client n)) ∧
    (s.connections.findByHost h.fullHost = some (h.client n) →
      t.connections.findByHost h.fullHost = some (h.client n))

/-- What is left of a connection in the registry is out of reach of another one
    with the handshake `old` and the same id. -/
def Unreached (n : Nat) (h old : ClientHandshake) (s : Server) : Prop :=
  s.connections.get h.id ≠ some (h.client n) ∧
    (s.connections.findByHost h.fullHost = some (h.client n) → old.fullHost ≠ h.fullHost)

theorem untouched_iff {o n : Nat} {old h : ClientHandshake} (hid : old.id = h.id)
    (hconn : t.connections = s.connections.remove (old.client o)) :
    Untouched n h s t ↔ Unreached n h old s := by
  have hget : t.connections.get h.id = none := by
    rw [hconn, Connections.get_remove]
    exact if_pos hid.symm
  have hhost : t.connections.findByHost h.fullHost = some (h.client n) ↔
      s.connections.findByHost h.fullHost = some (h.client n) ∧ old.fullHost ≠ h.fullHost := by
    rw [hconn, Connections.findByHost_remove]
    refine and_congr_right fun _ => not_congr ?_
    constructor
    · rintro ⟨heq, -⟩
      exact heq.symm
    · intro heq
      exact ⟨heq.symm, hid.symm⟩
  unfold Untouched Unreached
  rw [hget, hhost]
  apply and_congr (by simp)
  exact ⟨fun h hf => (h hf).2, fun h hf => ⟨hf, h hf⟩⟩

end Server

open Server

/-- A connection `o`, then a connection `n` with the same client id: the teardown
    of `o` spares `n` exactly where the registry has nothing of `n` left that is
    filed under the id or under the host of `o`. -/
theorem successor_spared_iff (p : Platform) (cfg : Config) (es fs : List ServerEvent)
    (s u t : Server) (o n : Nat) (old h : ClientHandshake)
    (hrun : (server p cfg).run Server.new es = some s) (hold : (s.conns o).phase = .serving old)
    (hnew : (s.conns n).phase = .announced h) (hid : old.id = h.id)
    (hreg : s.step p cfg (.register n) = some u) (hrest : (server p cfg).run u fs = some t) :
    (u.Connected n h ∧ u.connections.get h.id = some (h.client n) ∧
        u.connections.findByHost h.fullHost = some (h.client n)) ∧
      ((server p cfg).Meets (fun v e => v.TearsDown o e → v.Connected n h →
          ∀ w, v.step p cfg e = some w → Untouched n h v w) u fs ↔
        (server p cfg).Meets (fun v e => v.TearsDown o e → v.Connected n h →
          Unreached n h old v) u fs) := by
  have hserved : s.Served (old.client o) := ⟨old, hold, rfl⟩
  have hwf := wellFormed_run hrun
  have hwfu := wellFormed_step hwf hreg
  constructor
  · obtain ⟨h', hphase, rfl⟩ := register_cases hreg
    obtain rfl : h = h' := by simpa [hnew] using hphase
    refine ⟨?_, ?_, ?_⟩
    · simp [Connected, Conn.stage, setConn, Channel.fresh]
    · exact (Connections.get_add _ _ _).trans (if_pos rfl)
    · exact (Connections.findByHost_add _ _ _).trans (if_pos rfl)
  · refine Machine.meets_congr (I := fun v => v.WellFormed ∧ v.Served (old.client o))
      (fun v e w hI hw => ⟨wellFormed_step hI.1 hw, served_step hI.1 hw hI.2⟩) ?_
      ⟨hwfu, served_step hwf hreg hserved⟩ hrest
    rintro v e w ⟨hwfv, hs, hphase, hclient⟩ hw
    refine imp_congr_right fun hdown => imp_congr_right fun _ => ?_
    have hconn := connections_tearsDown hwfv hphase hdown hw
    rw [← hclient] at hconn
    constructor
    · intro huntouched
      exact (untouched_iff hid hconn).mp (huntouched w hw)
    · intro hunreached w' hw'
      obtain rfl : w = w' := Option.some.inj (hw.symm.trans hw')
      exact (untouched_iff hid hconn).mpr hunreached

namespace Successor

open Recorded

/-- The client "1" connects with its token. -/
def connect (n : Nat) : List ServerEvent :=
  [.hello n (.V4 0) (some (some (hello none false))) 0 ⟨"2".toList⟩ [], .greet n true]

/-- The message loop of a connection ends. -/
def hangUp (n : Nat) : ServerEvent := .message n .done

def handshake : ClientHandshake := ⟨⟨"1".toList⟩, "a".toList, "b.co".toList, true, false⟩

theorem run_connect {s : Server} {n : Nat} (hn : (s.conns n).phase = .connecting) :
    ∃ t, (server platform config).run s (connect n) = some t ∧
      (t.conns n).phase = .announced handshake ∧
      (∀ m, m ≠ n → t.conns m = s.conns m) ∧ t.connections = s.connections := by
  have hauth : authClient platform config s.connections 0 ⟨"2".toList⟩ []
      (some (hello none false)) = .ok handshake :=
    authClient_token codecs token_issued rfl rfl rfl rfl (by decide) nofun
  have hip : IpAddr.V4 0 ∉ config.blockedIps := nofun
  have hok : s.authClientHandshake platform config (.V4 0) (some (some (hello none false))) 0
      ⟨"2".toList⟩ [] = some handshake :=
    authClientHandshake_eq_some.mpr ⟨hip, hello none false, rfl, hauth⟩
  have hhello : s.step platform config
      (.hello n (.V4 0) (some (some (hello none false))) 0 ⟨"2".toList⟩ []) =
        some (s.setConn n { s.conns n with phase := .checked handshake }) := by
    simp only [step, Server.hello, hn, hok, Option.elim_some]
  have hchecked : ((s.setConn n { s.conns n with phase := .checked handshake }).conns n).phase =
      .checked handshake := by rw [conns_setConn, if_pos rfl]
  obtain ⟨t, ht, hphase, hothers, hconn⟩ := greet_checked platform config hchecked
  refine ⟨t, ?_, hphase, ?_, hconn⟩
  · exact (Machine.run_cons_eq_some _).mpr ⟨_, hhello, (Machine.run_singleton _ _ _).trans ht⟩
  · intro m hm
    rw [hothers m hm, conns_setConn, if_neg hm]

/-- The client "1" is connected and connects again. -/
theorem run_reconnect : ∃ s u : Server,
    (server platform config).run Server.new (connect 0 ++ .register 0 :: connect 1) = some s ∧
      (s.conns 0).phase = .serving handshake ∧ (s.conns 1).phase = .announced handshake ∧
      s.step platform config (.register 1) = some u ∧
      u.conns 0 = ⟨.serving handshake, Channel.fresh, true, true, true⟩ ∧
      u.conns 1 = ⟨.serving handshake, Channel.fresh, true, true, true⟩ ∧
      u.connections = (Connections.new.add (handshake.client 0)).add (handshake.client 1) := by
  obtain ⟨s₁, hrun₁, hphase₁, hothers₁, hconn₁⟩ := run_connect (s := Server.new) (n := 0) rfl
  obtain ⟨s₂, hstep₂, hphase₂, hothers₂, hconn₂⟩ := register_announced platform config hphase₁
  obtain ⟨s₃, hrun₃, hphase₃, hothers₃, hconn₃⟩ := run_connect (s := s₂) (n := 1) (by
    rw [hothers₂ 1 (by decide), hothers₁ 1 (by decide)]
    rfl)
  obtain ⟨u, hstep, hphase, hothers, hconn⟩ := register_announced platform config hphase₃
  have hfirst : s₃.conns 0 = ⟨.serving handshake, Channel.fresh, true, true, true⟩ :=
    (hothers₃ 0 (by decide)).trans hphase₂
  refine ⟨s₃, u, ?_, by rw [hfirst], hphase₃, hstep, ?_, hphase, ?_⟩
  · exact (Machine.run_append_eq_some _).mpr ⟨s₁, hrun₁,
      (Machine.run_cons_eq_some _).mpr ⟨s₂, hstep₂, hrun₃⟩⟩
  · exact (hothers 0 (by decide)).trans hfirst
  · rw [hconn, hconn₃, hconn₂, hconn₁]
    rfl

/-- The message loop of a connection that is being served ends. -/
theorem step_hangUp {s : Server} {n : Nat} {tx : Channel ControlPacket}
    (hn : s.conns n = ⟨.serving handshake, tx, true, true, true⟩) :
    ∃ t, s.step platform config (hangUp n) = some t ∧
      t.connections = s.connections.remove (handshake.client n) ∧
      (t.conns n).tx.closed = true ∧ ∀ m, m ≠ n → t.conns m = s.conns m := by
  refine ⟨_, message_eq_some.mpr ⟨handshake, by rw [hn], by rw [hn], rfl⟩, rfl, ?_, ?_⟩
  · exact (congrArg (fun conn : Conn => conn.tx.closed) ((conns_setConn _ _ _ n).trans
      (if_pos rfl))).trans (s.closed_remove (handshake.client n))
  · intro m hm
    apply ((conns_setConn _ _ _ m).trans (if_neg hm)).trans
    exact (s.conns_remove (handshake.client n) m).trans (if_neg hm)

end Successor

open Recorded Successor in
/-- The new connection hangs up first, and then the old one. -/
theorem successor_spared_iff_gone : ∃ u t : Server,
    (server platform config).run u [hangUp 1, hangUp 0] = some t ∧
      (server platform config).Meets (fun v e => v.TearsDown 0 e → v.Connected 1 handshake →
        ∀ w, v.step platform config e = some w → Untouched 1 handshake v w) u
          [hangUp 1, hangUp 0] := by
  obtain ⟨s, u, hrun, hold, hnew, hreg, hconn₀, hconn₁, -⟩ := run_reconnect
  obtain ⟨v, hv, -, hclosed, hothers⟩ := step_hangUp hconn₁
  obtain ⟨t, ht, -⟩ := step_hangUp ((hothers 0 (by decide)).trans hconn₀)
  have hrest : (server platform config).run u [hangUp 1, hangUp 0] = some t :=
    (Machine.run_cons_eq_some _).mpr ⟨v, hv, (Machine.run_singleton _ _ _).trans ht⟩
  refine ⟨u, t, hrest, ((successor_spared_iff _ _ _ _ s u t 0 1 handshake handshake hrun hold hnew
    rfl hreg hrest).2).mpr ?_⟩
  refine .cons ?_ hv (.cons ?_ ht trivial)
  · rintro ⟨h, -⟩
    cases h
  · intro _ hconnected
    unfold Connected Conn.stage at hconnected
    split at hconnected <;> simp [hclosed] at hconnected

open Recorded Successor in
/-- The old connection hangs up, and the new one is in the registry no more. -/
theorem successor_removed : ∃ s u t : Server,
    (server platform config).run Server.new (connect 0 ++ .register 0 :: connect 1) = some s ∧
      s.step platform config (.register 1) = some u ∧
      (server platform config).run u [hangUp 0] = some t ∧ u.TearsDown 0 (hangUp 0) ∧
      u.connections.get handshake.id = some (handshake.client 1) ∧
      u.connections.findByHost handshake.fullHost = some (handshake.client 1) ∧
      t.Connected 1 handshake ∧ t.connections.get handshake.id = none ∧
      t.connections.findByHost handshake.fullHost = none := by
  obtain ⟨s, u, hrun, -, -, hreg, hconn₀, hconn₁, hconn⟩ := run_reconnect
  obtain ⟨t, ht, htconn, -, hothers⟩ := step_hangUp hconn₀
  refine ⟨s, u, t, hrun, hreg, (Machine.run_singleton _ _ _).trans ht, ⟨rfl, rfl⟩, ?_, ?_, ?_, ?_,
    ?_⟩
  · rw [hconn]
    rfl
  · rw [hconn]
    rfl
  · unfold Connected
    rw [hothers 1 (by decide), hconn₁]
    rfl
  · rw [htconn, hconn]
    rfl
  · rw [htconn, hconn]
    rfl

end Neutun
