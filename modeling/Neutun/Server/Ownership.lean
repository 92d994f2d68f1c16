/-
  Neutun/Server/Ownership.lean
  ============================
  Who owns a host name while the server runs: removed connections stay removed,
  and a name has one owner at a time, each under the condition that the server
  does not itself enforce.

    * `Connections::add` for a pong does not ask whether its connection has been
      removed meanwhile (`PongInTime`);
    * between the name checks of `auth_client` and `Connections::add` lies the
      sending of `ServerHello::Success`, and other connections are checked in
      that time (`Unraced`).
-/
import Neutun.Server.Refinement

namespace Neutun

open Foundation

namespace Server

variable {p : Platform} {cfg : Config} {s t : Server}

/-! ### Removal is final -/

/-- Every registered client has an open channel. -/
def RegisteredOpen (s : Server) : Prop :=
  ∀ c, s.connections.Registered c → (s.conns c.tx).tx.closed = false

/-- A pong is handled only while the channel of its connection is open. -/
def PongInTime (s : Server) : ServerEvent → Prop
  | .message n result =>
    (∃ token, result.packet = some (.Ping token)) → (s.conns n).tx.closed = false
  | _ => True

instance (s : Server) (e : ServerEvent) : Decidable (s.PongInTime e) := by
  cases e with
  | message n result =>
    refine @instDecidableForall _ _ ?_ inferInstance
    exact match result.packet with
      | some (.Ping token) => isTrue ⟨token, rfl⟩
      | some (.Data _ _) | some (.Init _) | some (.Refused _) | some (.End _) | none =>
        isFalse nofun
  | _ => exact isTrue trivial

/-- `Connections::remove` has been called for the connection. -/
def Removed (s : Server) (n : Nat) : Prop := ∃ h, (s.conns n).stage = .removed h

theorem live_iff (hwf : s.WellFormed) : s.lifecycle.Live ↔ s.RegisteredOpen := by
  constructor
  · intro h c hc
    obtain ⟨hs, hstage, -⟩ := h.owner c hc
    change (s.conns c.tx).stage = .registered hs at hstage
    cases hclosed : (s.conns c.tx).tx.closed with
    | false => rfl
    | true =>
      obtain ⟨hs', hphase, -⟩ := hwf.served hc
      simp [Conn.stage, hphase, hclosed] at hstage
  · intro h
    refine ⟨hwf.sound.filed, ?_⟩
    intro c hc
    obtain ⟨hs, hphase, hclient⟩ := hwf.served hc
    refine ⟨hs, ?_, hclient⟩
    change (s.conns c.tx).stage = .registered hs
    simp [Conn.stage, hphase, h c hc]

/-- The condition on a server step is the one on the step it stands for. -/
theorem pongInTime_lifecycle {e : ServerEvent} (hpong : s.PongInTime e) {le : LifecycleEvent}
    (hle : s.lifecycleEvent p cfg e = some le) : s.lifecycle.PongInTime le := by
  cases le with
  | pong n =>
    intro h hremoved
    obtain ⟨result, token, rfl, hpacket⟩ := lifecycleEvent_cases hle
    have hopen := hpong ⟨token, hpacket⟩
    change (s.conns n).stage = .removed h at hremoved
    unfold Conn.stage at hremoved
    split at hremoved <;> simp [hopen] at hremoved
  | _ => trivial

theorem registeredOpen_step (hwf : s.WellFormed) (hs : s.RegisteredOpen) {e : ServerEvent}
    (hpong : s.PongInTime e) (h : s.step p cfg e = some t) : t.RegisteredOpen := by
  have hlive := (live_iff hwf).mpr hs
  refine (live_iff (wellFormed_step hwf h)).mp (lifecycle_kept hwf h hlive ?_)
  intro le l hle hlife
  exact Lifecycle.live_step le hlive (pongInTime_lifecycle hpong hle) hlife

/-- A pong that comes too late registers a client with a closed channel. -/
theorem pongInTime_of_registeredOpen {e : ServerEvent} (h : s.step p cfg e = some t)
    (ht : t.RegisteredOpen) : s.PongInTime e := by
  cases e with
  | message n result =>
    rintro ⟨token, htoken⟩
    obtain ⟨bytes, hproto, hpacket⟩ := NextMessage.packet_eq_some.mp htoken
    obtain ⟨handshake, -, -, rfl⟩ := message_eq_some.mp h
    simp only [processMessage, hproto, hpacket, handlePacket] at ht
    exact ht (handshake.client n) (Connections.registered_add_self _ _)
  | _ => trivial

theorem removed_step (hwf : s.WellFormed) {e : ServerEvent} (h : s.step p cfg e = some t) {n : Nat}
    (hn : s.Removed n) : t.Removed n := by
  obtain ⟨hs, hstage⟩ := hn
  exact ⟨hs, lifecycle_kept (P := fun l => l.stage n = .removed hs) hwf h hstage
    fun _ _ _ hlife => Lifecycle.removed_step hlife hstage⟩

theorem not_registered_of_removed (hs : s.RegisteredOpen) {n : Nat} (hn : s.Removed n)
    {c : ConnectedClient} (hc : s.connections.Registered c) : c.tx ≠ n := by
  rintro rfl
  obtain ⟨h, hstage⟩ := hn
  have hopen := hs c hc
  unfold Conn.stage at hstage
  split at hstage <;> simp [hopen] at hstage

theorem removed_run {es : List ServerEvent} {n : Nat} (hwf : s.WellFormed) (hn : s.Removed n)
    (hrun : (server p cfg).run s es = some t) : t.Removed n :=
  (Machine.run_invariant (I := fun u => u.WellFormed ∧ u.Removed n) (G := fun _ _ => True)
    (fun _ _ _ hI _ hu => ⟨wellFormed_step hI.1 hu, removed_step hI.1 hu hI.2⟩) ⟨hwf, hn⟩
    (Machine.meets_true _ _) hrun).2

end Server

open Server

/-- Removal is final exactly if every pong is handled in time: no state of the
    run has a registered client with a closed channel, or, said of the removals,
    no state after a removal has an entry of the removed connection. -/
theorem removal_final_iff (p : Platform) (cfg : Config) (es : List ServerEvent) (t : Server)
    (hrun : (server p cfg).run Server.new es = some t) :
    ((server p cfg).Always RegisteredOpen Server.new es ↔
        (server p cfg).Meets PongInTime Server.new es) ∧
      ((∀ es₁ es₂ es₃ u v n, es = es₁ ++ es₂ ++ es₃ →
          (server p cfg).run Server.new es₁ = some u → u.Removed n →
          (server p cfg).run u es₂ = some v → ∀ c, v.connections.Registered c → c.tx ≠ n) ↔
        (server p cfg).Meets PongInTime Server.new es) := by
  have hnew : Server.new.RegisteredOpen := fun c hc =>
    absurd hc Connections.not_registered_new
  have hiff : (server p cfg).Always RegisteredOpen Server.new es ↔
      (server p cfg).Meets PongInTime Server.new es :=
    Machine.always_iff_meets (I := fun s => s.WellFormed ∧ s.RegisteredOpen) (P := RegisteredOpen)
      (D := fun _ _ => True) (fun s hI => hI.2)
      (fun s e u hI _ hu hg => ⟨wellFormed_step hI.1 hu, registeredOpen_step hI.1 hI.2 hg hu⟩)
      (fun s e u hI _ hu hP => pongInTime_of_registeredOpen hu hP)
      ⟨wellFormed_new, hnew⟩ (Machine.meets_true _ _) hrun
  refine ⟨hiff, ?_⟩
  rw [← hiff, Machine.always_iff_prefixes]
  constructor
  · -- a registered client with a closed channel has been removed just there
    intro h es₁ es₂ u hes hu c hc
    by_contra hclosed
    obtain ⟨hs, hphase, -⟩ := (wellFormed_run hu).served hc
    have hremoved : u.Removed c.tx := ⟨hs, by simp [Conn.stage, hphase, hclosed]⟩
    exact h es₁ [] es₂ u u c.tx (by rw [hes, List.append_nil]) hu hremoved rfl c hc rfl
  · intro h es₁ es₂ es₃ u v n hes hu hremoved hv c hc
    have hv' : (server p cfg).run Server.new (es₁ ++ es₂) = some v :=
      (Machine.run_append_eq_some _).mpr ⟨u, hu, hv⟩
    exact not_registered_of_removed (h _ es₃ v hes hv')
      (removed_run (wellFormed_run hu) hremoved hv) hc

namespace LatePong

open AnnouncedHost

/-- The client "a" of "b.co" is registered, is pinged, and is removed when the
    ping cannot be sent. -/
def removal : List ServerEvent :=
  [.hello 0 (.V4 0) (some (some (hello "a".toList))) 0 ⟨['1']⟩ [], .greet 0 true, .register 0,
   .ping 0 0, .flush 0 false]

/-- Another client takes the name. -/
def takeover : List ServerEvent :=
  [.hello 1 (.V4 0) (some (some (hello "a".toList))) 0 ⟨['2']⟩ [], .greet 1 true, .register 1]

/-- The pong of the first one, received before and handled now. -/
def pong (n : Nat) : ServerEvent := .message n (.ok (.Binary (ControlPacket.Ping none).serialize))

def owner (n : Nat) (id : Char) : ConnectedClient :=
  (ClientHandshake.mk ⟨[id]⟩ ['a'] "b.co".toList false false).client n

end LatePong

open AnnouncedHost LatePong in
/-- A ping answered while its connection is registered. -/
theorem removal_final_iff_pong :
    ∃ t, (server Platform.ascii config).run Server.new
        (removal ++ takeover ++ [pong 1]) = some t ∧
      (server Platform.ascii config).Always RegisteredOpen Server.new
        (removal ++ takeover ++ [pong 1]) := by
  refine ⟨_, rfl, ?_⟩
  exact ((removal_final_iff _ _ _ _ rfl).1).mpr (by decide)

open AnnouncedHost LatePong in
/-- A removed connection takes its old name back from the client that has it
    now. -/
theorem removed_client_returns :
    ∃ s u t, (server Platform.ascii config).run Server.new removal = some s ∧ s.Removed 0 ∧
      (server Platform.ascii config).run s takeover = some u ∧
      u.connections.findByHost "a.b.co".toList = some (owner 1 '2') ∧
      (server Platform.ascii config).run u [pong 0] = some t ∧
      t.connections.findByHost "a.b.co".toList = some (owner 0 '1') ∧ ¬ t.RegisteredOpen := by
  refine ⟨_, _, _, rfl, ⟨⟨⟨['1']⟩, ['a'], "b.co".toList, false, false⟩, by rfl⟩, rfl, by rfl,
    rfl, by rfl, ?_⟩
  intro hopen
  have hclosed := hopen (owner 0 '1') (Or.inr ⟨"a.b.co".toList, by rfl⟩)
  exact absurd hclosed (by decide)

/-! ### Exclusive names -/

namespace Server

variable {p : Platform} {cfg : Config} {s t : Server}

/-- The connection was told that it has the name it asked for, and has not been
    removed. -/
def Holds (s : Server) (n : Nat) (h : ClientHandshake) : Prop := (s.conns n).stage.held = some h

/-- No two connections hold the same full host or the wildcard of one domain. -/
def Exclusive (s : Server) : Prop :=
  ∀ m n h h', m ≠ n → s.Holds m h → s.Holds n h' → ¬ Lifecycle.Clash h h'

/-- A hello carries no reconnect token, and the id generated for it is new. -/
def FreshHello (s : Server) : ServerEvent → Prop
  | .hello _ _ (some (some hello)) _ generated _ => hello.reconnectToken = none ∧
      ∀ m h, (s.conns m).stage.handshake = some h → h.id ≠ generated
  | _ => True

/-- No other connection is between its checks and `Connections::add` under the
    name that a hello is let through with. -/
def Unraced (p : Platform) (cfg : Config) (s : Server) : ServerEvent → Prop
  | .hello _ clientIp clientHello now generated random => ∀ h,
      s.authClientHandshake p cfg clientIp clientHello now generated random = some h →
      ∀ m h', (s.conns m).stage.pending = some h' → ¬ Lifecycle.Clash h h'
  | _ => True

/-- What the checks of a hello without a token establish. -/
theorem authClientHandshake_ok {clientIp : IpAddr} {clientHello : Option (Option ClientHello)}
    {now : Time} {generated : ClientId} {random : Text} {h : ClientHandshake}
    (hok : s.authClientHandshake p cfg clientIp clientHello now generated random = some h)
    (htoken : ∀ hello, clientHello = some (some hello) → hello.reconnectToken = none) :
    (∃ hello, clientHello = some (some hello)) ∧ h.id = generated ∧
      Lifecycle.Admissible s.connections h := by
  unfold authClientHandshake at hok
  split at hok
  · cases hok
  split at hok
  · cases hok
  next first =>
  cases hauth : authClient p cfg s.connections now generated random first with
  | error e => simp [hauth, Except.toOption] at hok
  | ok h' =>
    obtain rfl : h' = h := by simpa [hauth, Except.toOption] using hok
    rcases authClient_ok hauth with ⟨hello, key, rfl, -, -, -, ⟨name, -, hadmit⟩ |
      ⟨token, -, htok, -⟩⟩
    · obtain ⟨hsan, hshape⟩ := admitSubDomain_ok hadmit
      have hid : h'.id = generated := by rw [hshape]
      have hwild : h'.wildcard = hello.wildcard := by rw [hshape]
      obtain ⟨-, -, -, hfree, hw⟩ := sanitize_ok hsan
      refine ⟨⟨hello, rfl⟩, hid, hfree, ?_⟩
      intro hwc c hc
      exact (wildcardInUse_eq_false (hw (hwild ▸ hwc)) hc).trans hid.symm
    · rw [htoken hello rfl] at htok
      cases htok

/-- The conditions on a server step are those on the step it stands for. -/
theorem fresh_lifecycle {e : ServerEvent} (hfresh : s.FreshHello e)
    (hunraced : s.Unraced p cfg e) {le : LifecycleEvent}
    (hle : s.lifecycleEvent p cfg e = some le) :
    s.lifecycle.CheckedFresh le ∧ s.lifecycle.Unraced le := by
  cases le with
  | check n result =>
    obtain ⟨clientIp, clientHello, now, generated, random, rfl, rfl⟩ := lifecycleEvent_cases hle
    cases hok : s.authClientHandshake p cfg clientIp clientHello now generated random with
    | none => exact ⟨trivial, trivial⟩
    | some h =>
      have htoken : ∀ hello, clientHello = some (some hello) → hello.reconnectToken = none := by
        rintro hello rfl
        exact hfresh.1
      obtain ⟨⟨hello, rfl⟩, hid, hadm⟩ := authClientHandshake_ok hok htoken
      exact ⟨⟨hadm, fun k h' hk => hid ▸ hfresh.2 k h' hk⟩, hunraced h hok⟩
  | _ => exact ⟨trivial, trivial⟩

/-- One step of fresh connections, not raced and with pongs in time, keeps every
    name with its owner. -/
theorem claims_step (hwf : s.WellFormed) (hs : s.lifecycle.Claims) {e : ServerEvent}
    (hfresh : s.FreshHello e) (hpong : s.PongInTime e) (hunraced : s.Unraced p cfg e)
    (h : s.step p cfg e = some t) : t.lifecycle.Claims := by
  apply lifecycle_kept hwf h hs
  intro le l hle hlife
  obtain ⟨hchecked, hnorace⟩ := fresh_lifecycle hfresh hunraced hle
  exact Lifecycle.claims_step le hs hchecked (pongInTime_lifecycle hpong hle) hnorace hlife

/-- A handshake is let through while another one is pending under its name, and
    both are then announced. -/
theorem not_exclusive_of_raced {e : ServerEvent} (h : s.step p cfg e = some t)
    (hraced : ¬ s.Unraced p cfg e) :
    ∃ es u, (server p cfg).run t es = some u ∧ ¬ u.Exclusive := by
  cases e with
  | hello n clientIp clientHello now generated random =>
    simp only [Unraced, not_forall, not_not] at hraced
    obtain ⟨hs, hok, m, hs', hpending, hclash⟩ := hraced
    simp only [step, hello, hok] at h
    split at h
    next hn =>
      have hmn : m ≠ n := by
        rintro rfl
        simp [Conn.stage, hn, Stage.pending] at hpending
      have htn : (t.conns n).phase = .checked hs := by
        rw [← Option.some.inj h, conns_setConn, if_pos rfl]
        rfl
      have htm : t.conns m = s.conns m := by
        rw [← Option.some.inj h, conns_setConn, if_neg hmn]
      -- the new one is announced first, and the other one then unless it is already
      obtain ⟨u, hu, hun, hothers, -⟩ := greet_checked p cfg htn
      have hum : u.conns m = s.conns m := (hothers m hmn).trans htm
      rcases Conn.pending_stage.mp hpending with hm | hm
      · obtain ⟨v, hv, hvm, hothers', -⟩ := greet_checked p cfg (hum ▸ hm)
        refine ⟨[.greet n true, .greet m true], v, ?_, ?_⟩
        · exact (Machine.run_cons_eq_some _).mpr ⟨u, hu, (Machine.run_singleton _ _ _).trans hv⟩
        · intro hex
          have hvn : (v.conns n).phase = .announced hs := (hothers' n hmn.symm).symm ▸ hun
          exact hex n m hs hs' hmn.symm (Conn.held_of_announced hvn) (Conn.held_of_announced hvm)
            hclash
      · refine ⟨[.greet n true], u, (Machine.run_singleton _ _ _).trans hu, ?_⟩
        intro hex
        exact hex n m hs hs' hmn.symm (Conn.held_of_announced hun)
          (Conn.held_of_announced (hum ▸ hm)) hclash
    · cases h
  | _ => exact absurd trivial hraced

end Server

/-- Names are exclusive in every run of fresh connections in which no hello is
    let through while another connection is about to register its name; and each
    hello that is can be followed by two announcements of one name. -/
theorem exclusive_names (p : Platform) (cfg : Config) :
    (∀ es t, (server p cfg).run Server.new es = some t →
        (server p cfg).Meets (fun s e => s.FreshHello e ∧ s.PongInTime e) Server.new es →
        (server p cfg).Meets (Server.Unraced p cfg) Server.new es →
        (server p cfg).Always Exclusive Server.new es) ∧
      ∀ (s t : Server) (e : ServerEvent), s.step p cfg e = some t → ¬ s.Unraced p cfg e →
        ∃ es u, (server p cfg).run t es = some u ∧ ¬ u.Exclusive := by
  refine ⟨?_, fun s t e => not_exclusive_of_raced⟩
  intro es t _ hfresh hunraced
  have halways := Machine.always_of_invariant (I := fun s => s.WellFormed ∧ s.lifecycle.Claims)
    (fun s e u hI hg hu => ⟨wellFormed_step hI.1 hu,
      Server.claims_step hI.1 hI.2 hg.1.1 hg.1.2 hg.2 hu⟩)
    ⟨wellFormed_new, Lifecycle.claims_new⟩ (hfresh.and hunraced)
  exact halways.mono fun s hs => hs.2.exclusive

namespace NameRace

open AnnouncedHost

def helloEvent (n : Nat) (id : Char) : ServerEvent :=
  .hello n (.V4 0) (some (some (hello "a".toList))) 0 ⟨[id]⟩ []

/-- Two connections ask for one name, one after the other. -/
def inTurn : List ServerEvent := [helloEvent 0 '1', .greet 0 true, .register 0, helloEvent 1 '2']

/-- Two connections ask for one name at the same time. -/
def atOnce : List ServerEvent :=
  [helloEvent 0 '1', helloEvent 1 '2', .greet 0 true, .greet 1 true, .register 0, .register 1]

end NameRace

open AnnouncedHost NameRace in
/-- The second of two clients does not get the name. -/
theorem exclusive_names_in_turn :
    ∃ t, (server Platform.ascii config).run Server.new inTurn = some t ∧
      (server Platform.ascii config).Always Exclusive Server.new inTurn ∧
      (t.conns 1).phase = .rejected := by
  refine ⟨_, rfl, (exclusive_names _ _).1 _ _ rfl ?_ ?_, by rfl⟩
  · refine .cons ⟨⟨rfl, fun m h hm => nomatch hm⟩, trivial⟩ rfl ?_
    refine .cons ⟨trivial, trivial⟩ rfl (.cons ⟨trivial, trivial⟩ rfl ?_)
    refine .cons ⟨⟨rfl, ?_⟩, trivial⟩ rfl trivial
    rintro (_ | m) h hm
    · obtain rfl := Option.some.inj hm
      decide
    · cases hm
  · refine .cons (fun h _ m h' hm => nomatch hm) rfl ?_
    exact .cons trivial rfl (.cons trivial rfl (.cons (fun h hok => by cases hok) rfl trivial))

open AnnouncedHost NameRace in
/-- Both clients are told that they have the name, and both are registered. -/
theorem name_announced_twice :
    ∃ t, (server Platform.ascii config).run Server.new atOnce = some t ∧
      (server Platform.ascii config).Meets (fun s e => s.FreshHello e ∧ s.PongInTime e)
        Server.new atOnce ∧ ¬ t.Exclusive := by
  refine ⟨_, rfl, ?_, ?_⟩
  · refine .cons ⟨⟨rfl, fun m h hm => nomatch hm⟩, trivial⟩ rfl ?_
    refine .cons ⟨⟨rfl, ?_⟩, trivial⟩ rfl ?_
    · rintro (_ | m) h hm
      · obtain rfl := Option.some.inj hm
        decide
      · cases hm
    · exact .cons ⟨trivial, trivial⟩ rfl (.cons ⟨trivial, trivial⟩ rfl
        (.cons ⟨trivial, trivial⟩ rfl (.cons ⟨trivial, trivial⟩ rfl trivial)))
  · intro hex
    exact hex 0 1 _ _ (by decide) rfl rfl (Or.inl (by decide))

end Neutun
