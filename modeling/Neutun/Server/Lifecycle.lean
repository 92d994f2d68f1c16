/-
  Neutun/Server/Lifecycle.lean
  ============================
  The life of a control connection as the registry sees it.

  An abstraction of the server: of a connection only the handshake it holds and
  how far it has come are kept, of the server only the registry.  What the name
  checks look at is not part of it, a check may let any handshake through; what
  they guarantee (`Admissible`) is a condition on the step.

  Two properties are proved here for every interleaving:

    * a registered client is one that was not removed, as long as no pong of a
      removed connection is handled (`live_step`);
    * no two connections hold the same name, as long as no check lets a name
      through that another connection has passed its checks with and not yet
      registered (`exclusive_step`).

  `Server/Ownership.lean` shows that each step of the server is one of these
  steps or leaves all of this alone.
-/
import Mathlib.Logic.Function.Basic
import Neutun.Server.Auth

namespace Neutun

open Foundation

/-! ### What is registered -/

/-- One of the two tables has the client. -/
def Connections.Registered (reg : Connections) (c : ConnectedClient) : Prop :=
  (∃ i, reg.get i = some c) ∨ ∃ h, reg.findByHost h = some c

/-- Each entry is filed under its own id and full host. -/
abbrev Connections.Filed (reg : Connections) : Prop :=
  Index.Filed ConnectedClient.id ConnectedClient.fullHost reg.toIndex

namespace Connections

variable {reg : Connections} {c c' : ConnectedClient}

/-- No host is a single label. -/
theorem findByHost_label (hfiled : reg.Filed) {name : Text} (h : '.' ∉ name) :
    reg.findByHost name = none := by
  rw [Option.eq_none_iff_forall_ne_some]
  intro client hclient
  have hhost : client.fullHost = name := hfiled.secondary name client hclient
  apply h
  rw [← hhost]
  simp [ConnectedClient.fullHost, joinHost]

theorem not_registered_new : ¬ new.Registered c := by
  rintro (⟨i, hi⟩ | ⟨h, hh⟩)
  · cases hi
  · cases hh

theorem registered_add_self (reg : Connections) (c : ConnectedClient) :
    (reg.add c).Registered c :=
  Or.inl ⟨c.id, by rw [get_add, if_pos rfl]⟩

theorem Registered.of_add (h : (reg.add c).Registered c') : c' = c ∨ reg.Registered c' := by
  rcases h with ⟨i, hi⟩ | ⟨host, hh⟩
  · rw [get_add] at hi
    split at hi
    · exact Or.inl (Option.some.inj hi).symm
    · exact Or.inr (Or.inl ⟨i, hi⟩)
  · rw [findByHost_add] at hh
    split at hh
    · exact Or.inl (Option.some.inj hh).symm
    · exact Or.inr (Or.inr ⟨host, hh⟩)

theorem Registered.of_remove (h : (reg.remove c).Registered c') : reg.Registered c' := by
  rcases h with ⟨i, hi⟩ | ⟨host, hh⟩
  · rw [get_remove] at hi
    split at hi
    · cases hi
    · exact Or.inl ⟨i, hi⟩
  · exact Or.inr ⟨host, ((findByHost_remove reg c host c').mp hh).1⟩

/-- `remove` takes every entry of its client out. -/
theorem Filed.not_registered_remove (hfiled : reg.Filed) (c : ConnectedClient) :
    ¬ (reg.remove c).Registered c := by
  rintro (⟨i, hi⟩ | ⟨host, hh⟩)
  · have hkey : c.id = i := (hfiled.drop c).primary i c hi
    rw [get_remove, if_pos hkey.symm] at hi
    cases hi
  · have hkey : c.fullHost = host := (hfiled.drop c).secondary host c hh
    exact ((findByHost_remove reg c host c).mp hh).2 ⟨hkey.symm, rfl⟩

theorem Registered.of_iterate {order : List (Sigma fun _ : ClientId => ConnectedClient)}
    (h : (reg.iterate order).Registered c) : reg.Registered c := by
  rcases h with ⟨i, hi⟩ | hh
  · exact Or.inl ⟨i, (get_iterate reg order i).symm.trans hi⟩
  · exact Or.inr hh

theorem Filed.iterate (h : reg.Filed)
    (order : List (Sigma fun _ : ClientId => ConnectedClient)) : (reg.iterate order).Filed :=
  ⟨fun i c hc => h.primary i c ((get_iterate reg order i).symm.trans hc), h.secondary⟩

end Connections

/-! ### The machine -/

/-- How far a connection has come. -/
inductive Stage where
  | connecting
  | checked (handshake : ClientHandshake)
  | announced (handshake : ClientHandshake)
  | registered (handshake : ClientHandshake)
  | removed (handshake : ClientHandshake)
  | rejected
deriving DecidableEq

namespace Stage

/-- The handshake it has been checked with. -/
def handshake : Stage → Option ClientHandshake
  | checked h | announced h | registered h | removed h => some h
  | connecting | rejected => none

/-- The same, once `Connections::add` has been called. -/
def added : Stage → Option ClientHandshake
  | registered h | removed h => some h
  | _ => none

/-- The same, from the checks until `Connections::add`. -/
def pending : Stage → Option ClientHandshake
  | checked h | announced h => some h
  | _ => none

/-- The same, from the checks until `Connections::remove`. -/
def claim : Stage → Option ClientHandshake
  | checked h | announced h | registered h => some h
  | _ => none

/-- The same, from `ServerHello::Success` until `Connections::remove`. -/
def held : Stage → Option ClientHandshake
  | announced h | registered h => some h
  | _ => none

theorem claim_of_held {stage : Stage} {h : ClientHandshake} (hh : stage.held = some h) :
    stage.claim = some h := by
  cases stage <;> simp_all [held, claim]

theorem handshake_of_claim {stage : Stage} {h : ClientHandshake} (hh : stage.claim = some h) :
    stage.handshake = some h := by
  cases stage <;> simp_all [claim, handshake]

theorem handshake_of_added {stage : Stage} {h : ClientHandshake} (hh : stage.added = some h) :
    stage.handshake = some h := by
  cases stage <;> simp_all [added, handshake]

theorem claim_cases {stage : Stage} {h : ClientHandshake} (hh : stage.claim = some h) :
    stage.pending = some h ∨ stage = registered h := by
  cases stage <;> simp_all [claim, pending]

theorem added_cases {stage : Stage} {h : ClientHandshake} (hh : stage.added = some h) :
    stage = registered h ∨ stage = removed h := by
  cases stage <;> simp_all [added]

end Stage

structure Lifecycle where
  connections : Connections
  stage : Nat → Stage

inductive LifecycleEvent where
  /-- the checks have let a handshake through, or none -/
  | check (n : Nat) (result : Option ClientHandshake)
  | greet (n : Nat) (sent : Bool)
  | add (n : Nat)
  | pong (n : Nat)
  | remove (n : Nat)
  | iterate (order : List (Sigma fun _ : ClientId => ConnectedClient))

namespace Lifecycle

def setStage (l : Lifecycle) (n : Nat) (stage : Stage) : Lifecycle :=
  { l with stage := Function.update l.stage n stage }

def step (l : Lifecycle) : LifecycleEvent → Option Lifecycle
  | .check n result =>
    match l.stage n with
    | .connecting => some (l.setStage n (result.elim .rejected .checked))
    | _ => none
  | .greet n sent =>
    match l.stage n with
    | .checked h => some (l.setStage n (if sent then .announced h else .rejected))
    | _ => none
  | .add n =>
    match l.stage n with
    | .announced h =>
      some { l.setStage n (.registered h) with connections := l.connections.add (h.client n) }
    | _ => none
  | .pong n =>
    (l.stage n).added.map fun h => { l with connections := l.connections.add (h.client n) }
  | .remove n =>
    (l.stage n).added.map fun h =>
      { l.setStage n (.removed h) with connections := l.connections.remove (h.client n) }
  | .iterate order => some { l with connections := l.connections.iterate order }

variable {l l' : Lifecycle}

/-- The stages after a step: one connection's has changed, along its way. -/
theorem stage_setStage (l : Lifecycle) (n m : Nat) (stage : Stage) :
    (l.setStage n stage).stage m = if m = n then stage else l.stage m :=
  Function.update_apply l.stage n stage m

theorem setStage_self {n : Nat} {stage : Stage} (hn : l.stage n = stage) :
    l.setStage n stage = l := by
  rw [setStage, ← hn, Function.update_eq_self]

/-- When a step can happen, and what it does. -/
inductive Steps (l : Lifecycle) : LifecycleEvent → Lifecycle → Prop
  | check (n : Nat) (result : Option ClientHandshake) (hn : l.stage n = .connecting) :
    Steps l (.check n result) (l.setStage n (result.elim .rejected .checked))
  | greet (n : Nat) (sent : Bool) (h : ClientHandshake) (hn : l.stage n = .checked h) :
    Steps l (.greet n sent) (l.setStage n (if sent then .announced h else .rejected))
  | add (n : Nat) (h : ClientHandshake) (hn : l.stage n = .announced h) :
    Steps l (.add n)
      { l.setStage n (.registered h) with connections := l.connections.add (h.client n) }
  | pong (n : Nat) (h : ClientHandshake) (hadded : (l.stage n).added = some h) :
    Steps l (.pong n) { l with connections := l.connections.add (h.client n) }
  | remove (n : Nat) (h : ClientHandshake) (hadded : (l.stage n).added = some h) :
    Steps l (.remove n)
      { l.setStage n (.removed h) with connections := l.connections.remove (h.client n) }
  | iterate (order : List (Sigma fun _ : ClientId => ConnectedClient)) :
    Steps l (.iterate order) { l with connections := l.connections.iterate order }

theorem step_cases {e : LifecycleEvent} (hstep : l.step e = some l') : Steps l e l' := by
  cases e with
  | check n result =>
    simp only [step] at hstep
    split at hstep
    next hn => exact Option.some.inj hstep ▸ .check n result hn
    · cases hstep
  | greet n sent =>
    simp only [step] at hstep
    split at hstep
    next h hn => exact Option.some.inj hstep ▸ .greet n sent h hn
    · cases hstep
  | add n =>
    simp only [step] at hstep
    split at hstep
    next h hn => exact Option.some.inj hstep ▸ .add n h hn
    · cases hstep
  | pong n =>
    obtain ⟨h, hadded, rfl⟩ := Option.map_eq_some_iff.mp hstep
    exact .pong n h hadded
  | remove n =>
    obtain ⟨h, hadded, rfl⟩ := Option.map_eq_some_iff.mp hstep
    exact .remove n h hadded
  | iterate order => exact Option.some.inj hstep ▸ .iterate order

/-! ### Registered clients -/

/-- The entries are in place, and each belongs to a connection that has been
    added. -/
structure Sound (l : Lifecycle) : Prop where
  filed : l.connections.Filed
  owner : ∀ c, l.connections.Registered c →
    ∃ h, (l.stage c.tx).added = some h ∧ c = h.client c.tx

/-- The way of a connection: from one stage to the next. -/
inductive Follows : Stage → Stage → Prop
  | same (stage : Stage) : Follows stage stage
  | check (result : Option ClientHandshake) : Follows .connecting (result.elim .rejected .checked)
  | greet (h : ClientHandshake) (sent : Bool) :
    Follows (.checked h) (if sent then .announced h else .rejected)
  | add (h : ClientHandshake) : Follows (.announced h) (.registered h)
  | remove (h : ClientHandshake) : Follows (.registered h) (.removed h)

/-- No step leads a connection back. -/
theorem follows_step {e : LifecycleEvent} (hstep : l.step e = some l') (n : Nat) :
    Follows (l.stage n) (l'.stage n) := by
  have hset : ∀ m stage, Follows (l.stage m) stage →
      Follows (l.stage n) ((l.setStage m stage).stage n) := by
    intro m stage hm
    rw [stage_setStage]
    split
    next heq => exact heq ▸ hm
    · exact .same _
  cases step_cases hstep with
  | check m result hm => exact hset m _ (hm ▸ .check result)
  | greet m sent hs hm => exact hset m _ (hm ▸ .greet hs sent)
  | add m hs hm => exact hset m _ (hm ▸ .add hs)
  | pong m hs hadded => exact .same _
  | remove m hs hadded =>
    apply hset m _
    rcases Stage.added_cases hadded with hm | hm
    · exact hm ▸ .remove hs
    · exact hm ▸ .same _
  | iterate order => exact .same _

/-- What has been added stays added. -/
theorem added_step {e : LifecycleEvent} (hstep : l.step e = some l') {n : Nat}
    {h : ClientHandshake} (hn : (l.stage n).added = some h) : (l'.stage n).added = some h := by
  have hf := follows_step hstep n
  rcases Stage.added_cases hn with hn | hn <;> rw [hn] at hf
  · generalize l'.stage n = stage at hf
    cases hf <;> rfl
  · generalize l'.stage n = stage at hf
    cases hf
    rfl

/-- What has been removed stays removed. -/
theorem removed_step {e : LifecycleEvent} (hstep : l.step e = some l') {n : Nat}
    {h : ClientHandshake} (hn : l.stage n = .removed h) : l'.stage n = .removed h := by
  have hf := follows_step hstep n
  rw [hn] at hf
  generalize l'.stage n = stage at hf
  cases hf
  rfl

/-- A handshake comes from the checks. -/
theorem handshake_step {e : LifecycleEvent} (hstep : l.step e = some l') {n : Nat}
    {h : ClientHandshake} (hn : (l'.stage n).handshake = some h) :
    (l.stage n).handshake = some h ∨ e = .check n (some h) := by
  have hset : ∀ m stage, (stage.handshake = some h → (l.stage m).handshake = some h) →
      ((l.setStage m stage).stage n).handshake = some h → (l.stage n).handshake = some h := by
    intro m stage hm hn
    rw [stage_setStage] at hn
    split at hn
    next heq => exact heq ▸ hm hn
    · exact hn
  cases step_cases hstep with
  | check m result hm =>
    rw [stage_setStage] at hn
    split at hn
    next heq =>
      cases result with
      | none => cases hn
      | some h' =>
        obtain rfl : h' = h := Option.some.inj hn
        exact Or.inr (by rw [heq])
    · exact Or.inl hn
  | greet m sent hs hm =>
    refine Or.inl (hset m _ ?_ hn)
    cases sent <;> simp [hm, Stage.handshake]
  | add m hs hm => exact Or.inl (hset m _ (by simp [hm, Stage.handshake]) hn)
  | pong m hs hadded => exact Or.inl hn
  | remove m hs hadded =>
    refine Or.inl (hset m _ ?_ hn)
    intro heq
    exact (Stage.handshake_of_added hadded).trans heq
  | iterate order => exact Or.inl hn

theorem rejected_step {e : LifecycleEvent} (hstep : l.step e = some l') {n : Nat}
    (hn : l.stage n = .rejected) : l'.stage n = .rejected := by
  have hf := follows_step hstep n
  rw [hn] at hf
  generalize l'.stage n = stage at hf
  cases hf
  rfl

theorem sound_new : Sound ⟨Connections.new, fun _ => .connecting⟩ :=
  ⟨Index.Filed.empty, fun _ hc => absurd hc Connections.not_registered_new⟩

/-- What a step registers has been added. -/
theorem registered_step {e : LifecycleEvent} (hstep : l.step e = some l') {c : ConnectedClient}
    (hc : l'.connections.Registered c) :
    l.connections.Registered c ∨ ∃ n h, c = h.client n ∧ (l'.stage n).added = some h := by
  cases step_cases hstep with
  | check m result hm => exact Or.inl hc
  | greet m sent hs hm => exact Or.inl hc
  | add m hs hm =>
    rcases hc.of_add with rfl | hold
    · refine Or.inr ⟨m, hs, rfl, ?_⟩
      exact (congrArg Stage.added (stage_setStage l m m _)).trans (by rw [if_pos rfl]; rfl)
    · exact Or.inl hold
  | pong m hs hadded =>
    rcases hc.of_add with rfl | hold
    · exact Or.inr ⟨m, hs, rfl, hadded⟩
    · exact Or.inl hold
  | remove m hs hadded => exact Or.inl hc.of_remove
  | iterate order => exact Or.inl hc.of_iterate

theorem filed_step {e : LifecycleEvent} (hstep : l.step e = some l') (h : l.connections.Filed) :
    l'.connections.Filed := by
  cases step_cases hstep with
  | check m result hm => exact h
  | greet m sent hs hm => exact h
  | add m hs hm => exact h.put _
  | pong m hs hadded => exact h.put _
  | remove m hs hadded => exact h.drop _
  | iterate order => exact h.iterate order

/-- Every step keeps the registry sound. -/
theorem sound_step {e : LifecycleEvent} (h : l.Sound) (hstep : l.step e = some l') :
    l'.Sound := by
  refine ⟨filed_step hstep h.filed, ?_⟩
  intro c hc
  rcases registered_step hstep hc with hold | ⟨n, hs, rfl, hadded⟩
  · obtain ⟨hs, hadded, hclient⟩ := h.owner c hold
    exact ⟨hs, added_step hstep hadded, hclient⟩
  · exact ⟨hs, hadded, rfl⟩

/-- The entries are in place, and each belongs to a connection that has not been
    removed. -/
structure Live (l : Lifecycle) : Prop where
  filed : l.connections.Filed
  owner : ∀ c, l.connections.Registered c → ∃ h, l.stage c.tx = .registered h ∧ c = h.client c.tx

/-- Pongs come from connections that have not been removed. -/
def PongInTime (l : Lifecycle) : LifecycleEvent → Prop
  | .pong n => ∀ h, l.stage n ≠ .removed h
  | _ => True

/-- Changing the stage of a connection that is not registered leaves the
    registered ones alone. -/
theorem Live.setStage (h : l.Live) {n : Nat} (hn : ∀ hs, l.stage n ≠ .registered hs)
    (stage : Stage) : (l.setStage n stage).Live := by
  refine ⟨h.filed, ?_⟩
  intro c hc
  obtain ⟨hs, hstage, hclient⟩ := h.owner c hc
  have hne : c.tx ≠ n := by
    rintro rfl
    exact hn hs hstage
  exact ⟨hs, by rw [stage_setStage, if_neg hne, hstage], hclient⟩

/-- `Connections::add` for a connection that is or becomes registered. -/
theorem Live.add (h : l.Live) {n : Nat} {hs : ClientHandshake}
    (hn : ∀ hs', l.stage n = .registered hs' → hs' = hs) :
    Live { l.setStage n (.registered hs) with
      connections := l.connections.add (hs.client n) } := by
  refine ⟨h.filed.put _, ?_⟩
  intro c hc
  change ∃ h, (l.setStage n (.registered hs)).stage c.tx = .registered h ∧ c = h.client c.tx
  rw [stage_setStage]
  rcases hc.of_add with rfl | hold
  · exact ⟨hs, if_pos rfl, rfl⟩
  · obtain ⟨hs', hstage, hclient⟩ := h.owner c hold
    by_cases htx : c.tx = n
    · obtain rfl := hn hs' (htx ▸ hstage)
      exact ⟨hs', if_pos htx, hclient⟩
    · exact ⟨hs', by rw [if_neg htx, hstage], hclient⟩

/-- `Connections::remove`, also when it is called again. -/
theorem Live.remove (h : l.Live) {n : Nat} {hs : ClientHandshake}
    (hn : (l.stage n).added = some hs) :
    Live { l.setStage n (.removed hs) with
      connections := l.connections.remove (hs.client n) } := by
  refine ⟨h.filed.drop _, ?_⟩
  intro c hc
  have hne : c ≠ hs.client n := fun heq => h.filed.not_registered_remove _ (heq ▸ hc)
  obtain ⟨hs', hstage, hclient⟩ := h.owner c hc.of_remove
  refine ⟨hs', ?_, hclient⟩
  have htx : c.tx ≠ n := by
    rintro rfl
    rw [hstage] at hn
    obtain rfl : hs' = hs := Option.some.inj hn
    exact hne hclient
  exact (stage_setStage l n c.tx _).trans (by rw [if_neg htx, hstage])

theorem live_new : Live ⟨Connections.new, fun _ => .connecting⟩ :=
  ⟨Index.Filed.empty, fun _ hc => absurd hc Connections.not_registered_new⟩

/-- Every step keeps the registered clients live, if its pong is in time. -/
theorem live_step (e : LifecycleEvent) (h : l.Live) (hpong : l.PongInTime e)
    (hstep : l.step e = some l') : l'.Live := by
  cases step_cases hstep with
  | check n result hn => exact h.setStage (by simp [hn]) _
  | greet n sent hs hn => exact h.setStage (by simp [hn]) _
  | add n hs hn => exact h.add fun hs' hn' => by simp [hn] at hn'
  | pong n hs hadded =>
    rcases Stage.added_cases hadded with hn | hn
    · have hadd : Live { l.setStage n (.registered hs) with
          connections := l.connections.add (hs.client n) } :=
        h.add fun hs' hn' => by simpa [hn] using hn'.symm
      rw [setStage_self hn] at hadd
      exact hadd
    · exact absurd hn (hpong hs)
  | remove n hs hadded => exact h.remove hadded
  | iterate order => exact ⟨h.filed.iterate order, fun c hc => h.owner c hc.of_iterate⟩

/-! ### Names -/

/-- Two handshakes under one name: the same full host, or the wildcard of one
    domain. -/
def Clash (h h' : ClientHandshake) : Prop :=
  h.fullHost = h'.fullHost ∨ h.wildcard = true ∧ h'.wildcard = true ∧ h.domain = h'.domain

theorem Clash.symm {h h' : ClientHandshake} (hc : Clash h h') : Clash h' h := by
  rcases hc with hhost | ⟨hw, hw', hd⟩
  · exact Or.inl hhost.symm
  · exact Or.inr ⟨hw', hw, hd.symm⟩

/-- No two connections that were told that they have their name, and were not
    removed, have the same. -/
def Exclusive (l : Lifecycle) : Prop :=
  ∀ m n h h', m ≠ n → (l.stage m).held = some h → (l.stage n).held = some h' → ¬ Clash h h'

/-- What the name checks find out about a handshake. -/
structure Admissible (reg : Connections) (h : ClientHandshake) : Prop where
  free : reg.findByHost h.fullHost = none
  wildcard : h.wildcard = true → ∀ c, reg.findWildcard h.domain = some c → c.id = h.id

/-- A handshake that the checks let through is admissible and its id is new. -/
def CheckedFresh (l : Lifecycle) : LifecycleEvent → Prop
  | .check _ (some h) =>
    Admissible l.connections h ∧ ∀ m h', (l.stage m).handshake = some h' → h'.id ≠ h.id
  | _ => True

/-- No other connection is between its checks and its registration under the
    name that a check lets through. -/
def Unraced (l : Lifecycle) : LifecycleEvent → Prop
  | .check _ (some h) => ∀ m h', (l.stage m).pending = some h' → ¬ Clash h h'
  | _ => True

/-- The invariant: of the connections that were not removed, no two claim one
    name, and the registered ones are in both tables. -/
structure Claims (l : Lifecycle) : Prop where
  live : l.Live
  ids : ∀ m n h h', (l.stage m).handshake = some h → (l.stage n).handshake = some h' →
    h.id = h'.id → m = n
  apart : ∀ m n h h', m ≠ n → (l.stage m).claim = some h → (l.stage n).claim = some h' →
    ¬ Clash h h'
  present : ∀ n h, l.stage n = .registered h →
    l.connections.get h.id = some (h.client n) ∧
      l.connections.findByHost h.fullHost = some (h.client n)

theorem Claims.exclusive (h : l.Claims) : l.Exclusive := fun m n hs hs' hne hm hn =>
  h.apart m n hs hs' hne (Stage.claim_of_held hm) (Stage.claim_of_held hn)

theorem claims_new : Claims ⟨Connections.new, fun _ => .connecting⟩ :=
  ⟨live_new, by rintro _ _ _ _ ⟨⟩, by rintro _ _ _ _ _ ⟨⟩, by rintro _ _ ⟨⟩⟩

/-- The checks and the invariant together: an admissible handshake with a new id
    clashes with no registered connection. -/
theorem Claims.not_clash_registered (h : l.Claims) {hs : ClientHandshake}
    (hadm : Admissible l.connections hs)
    (hfresh : ∀ m hs', (l.stage m).handshake = some hs' → hs'.id ≠ hs.id) {m : Nat}
    {hs' : ClientHandshake} (hm : l.stage m = .registered hs') : ¬ Clash hs hs' := by
  obtain ⟨hget, hhost⟩ := h.present m hs' hm
  rintro (heq | ⟨hw, hw', hd⟩)
  · have hfree := hadm.free
    rw [heq, hhost] at hfree
    cases hfree
  · -- the wildcard search finds some client, which cannot have the new id
    cases hfind : l.connections.findWildcard hs.domain with
    | none =>
      exact Connections.findWildcard_eq_none.mp hfind _ _ hget hw' hd.symm
    | some c =>
      obtain ⟨hreg, -, -⟩ := Connections.findWildcard_eq_some hfind
      obtain ⟨hc, hstage, hclient⟩ := h.live.owner c (Or.inl hreg)
      apply hfresh c.tx hc (by rw [hstage]; rfl)
      have hid := hadm.wildcard hw c hfind
      rw [hclient] at hid
      exact hid

/-- A connection that moves along keeping its handshake and no new claim. -/
theorem Claims.setStage (h : l.Claims) {n : Nat} {stage : Stage}
    (hn : ∀ hs, l.stage n ≠ .registered hs) (hr : ∀ hs, stage ≠ .registered hs)
    (hhand : ∀ hs, stage.handshake = some hs → (l.stage n).handshake = some hs)
    (hclaim : ∀ hs, stage.claim = some hs → (l.stage n).claim = some hs) :
    (l.setStage n stage).Claims := by
  have hhand' : ∀ m hs, ((l.setStage n stage).stage m).handshake = some hs →
      (l.stage m).handshake = some hs := by
    intro m hs hm
    rw [stage_setStage] at hm
    split at hm
    next heq => exact heq ▸ hhand hs hm
    · exact hm
  have hclaim' : ∀ m hs, ((l.setStage n stage).stage m).claim = some hs →
      (l.stage m).claim = some hs := by
    intro m hs hm
    rw [stage_setStage] at hm
    split at hm
    next heq => exact heq ▸ hclaim hs hm
    · exact hm
  refine ⟨h.live.setStage hn stage, fun k m hs hs' hk hm => h.ids k m hs hs' (hhand' k hs hk)
    (hhand' m hs' hm), fun k m hs hs' hne hk hm => h.apart k m hs hs' hne (hclaim' k hs hk)
    (hclaim' m hs' hm), ?_⟩
  intro m hs hm
  rw [stage_setStage] at hm
  split at hm
  · exact absurd hm (hr hs)
  · exact h.present m hs hm

/-- The checks let a handshake through. -/
theorem Claims.check (h : l.Claims) {n : Nat} {hs : ClientHandshake}
    (hn : l.stage n = .connecting) (hadm : Admissible l.connections hs)
    (hfresh : ∀ m hs', (l.stage m).handshake = some hs' → hs'.id ≠ hs.id)
    (hunraced : ∀ m hs', (l.stage m).pending = some hs' → ¬ Clash hs hs') :
    (l.setStage n (.checked hs)).Claims := by
  have hnew : ∀ m hs', (l.stage m).claim = some hs' → ¬ Clash hs hs' := by
    intro m hs' hm
    rcases Stage.claim_cases hm with hp | hr
    · exact hunraced m hs' hp
    · exact h.not_clash_registered hadm hfresh hr
  refine ⟨h.live.setStage (by simp [hn]) _, ?_, ?_, ?_⟩
  · intro k m hk hm hk' hm' hid
    rw [stage_setStage] at hk' hm'
    split at hk' <;> split at hm'
    next h₁ h₂ => rw [h₁, h₂]
    next =>
      obtain rfl : hs = hk := Option.some.inj hk'
      exact absurd hid.symm (hfresh m hm hm')
    next =>
      obtain rfl : hs = hm := Option.some.inj hm'
      exact absurd hid (hfresh k hk hk')
    next => exact h.ids k m hk hm hk' hm' hid
  · intro k m hk hm hne hk' hm'
    rw [stage_setStage] at hk' hm'
    split at hk' <;> split at hm'
    next h₁ h₂ => exact absurd (h₁.trans h₂.symm) hne
    next =>
      obtain rfl : hs = hk := Option.some.inj hk'
      exact hnew m hm hm'
    next =>
      obtain rfl : hs = hm := Option.some.inj hm'
      intro hclash
      exact hnew k hk hk' hclash.symm
    next => exact h.apart k m hk hm hne hk' hm'
  · intro m hs' hm
    rw [stage_setStage] at hm
    split at hm
    · cases hm
    · exact h.present m hs' hm

/-- `Connections::add`, the first time or for a pong, of a claimed handshake. -/
theorem Claims.add (h : l.Claims) {n : Nat} {hs : ClientHandshake}
    (hn : (l.stage n).claim = some hs) :
    Claims { l.setStage n (.registered hs) with
      connections := l.connections.add (hs.client n) } := by
  have hhand := Stage.handshake_of_claim hn
  -- seen through handshakes and claims nothing has changed
  have hsame : ∀ m, ((l.setStage n (.registered hs)).stage m).handshake = (l.stage m).handshake ∧
      ((l.setStage n (.registered hs)).stage m).claim = (l.stage m).claim := by
    intro m
    rw [stage_setStage]
    split
    next heq =>
      rw [heq, hhand, hn]
      exact ⟨rfl, rfl⟩
    · exact ⟨rfl, rfl⟩
  refine ⟨h.live.add ?_, ?_,
    ?_, ?_⟩
  · intro hs' hn'
    rw [hn'] at hn
    exact Option.some.inj hn
  · intro k m hk hm hk' hm'
    exact h.ids k m hk hm ((hsame k).1.symm.trans hk') ((hsame m).1.symm.trans hm')
  · intro k m hk hm hne hk' hm'
    exact h.apart k m hk hm hne ((hsame k).2.symm.trans hk') ((hsame m).2.symm.trans hm')
  · intro m hs' hm
    change (l.connections.add (hs.client n)).get hs'.id = some (hs'.client m) ∧
      (l.connections.add (hs.client n)).findByHost hs'.fullHost = some (hs'.client m)
    change (l.setStage n (.registered hs)).stage m = .registered hs' at hm
    rw [Connections.get_add, Connections.findByHost_add]
    rw [stage_setStage] at hm
    split at hm
    next heq =>
      obtain rfl : hs = hs' := Stage.registered.inj hm
      rw [heq]
      exact ⟨if_pos rfl, if_pos rfl⟩
    next hne =>
      have hm' : (l.stage m).claim = some hs' := by rw [hm]; rfl
      have hid : hs'.id ≠ hs.id := fun heq =>
        hne (h.ids m n hs' hs (Stage.handshake_of_claim hm') hhand heq)
      have hhost : hs'.fullHost ≠ hs.fullHost := fun heq =>
        h.apart m n hs' hs hne hm' hn (Or.inl heq)
      obtain ⟨hget, hfind⟩ := h.present m hs' hm
      exact ⟨(if_neg hid).trans hget, (if_neg hhost).trans hfind⟩

theorem Claims.remove (h : l.Claims) {n : Nat} {hs : ClientHandshake}
    (hn : (l.stage n).added = some hs) :
    Claims { l.setStage n (.removed hs) with
      connections := l.connections.remove (hs.client n) } := by
  have hhand := Stage.handshake_of_added hn
  have hsame : ∀ m, ((l.setStage n (.removed hs)).stage m).handshake = (l.stage m).handshake := by
    intro m
    rw [stage_setStage]
    split
    next heq =>
      rw [heq, hhand]
      rfl
    · rfl
  have hless : ∀ m hs', ((l.setStage n (.removed hs)).stage m).claim = some hs' →
      (l.stage m).claim = some hs' := by
    intro m hs' hm
    rw [stage_setStage] at hm
    split at hm
    · cases hm
    · exact hm
  refine ⟨h.live.remove hn, ?_, ?_,
    ?_⟩
  · intro k m hk hm hk' hm'
    exact h.ids k m hk hm ((hsame k).symm.trans hk') ((hsame m).symm.trans hm')
  · intro k m hk hm hne hk' hm'
    exact h.apart k m hk hm hne (hless k hk hk') (hless m hm hm')
  · intro m hs' hm
    change (l.connections.remove (hs.client n)).get hs'.id = some (hs'.client m) ∧
      (l.connections.remove (hs.client n)).findByHost hs'.fullHost = some (hs'.client m)
    change (l.setStage n (.removed hs)).stage m = .registered hs' at hm
    rw [stage_setStage] at hm
    split at hm
    · cases hm
    next hne =>
      have hid : hs'.id ≠ hs.id := fun heq => hne (h.ids m n hs' hs (by rw [hm]; rfl) hhand heq)
      obtain ⟨hget, hfind⟩ := h.present m hs' hm
      refine ⟨?_, (Connections.findByHost_remove _ _ _ _).mpr ⟨hfind, fun hkey => hid hkey.2⟩⟩
      rw [Connections.get_remove]
      exact (if_neg hid).trans hget

/-- Every step of a fresh connection whose checks are not raced keeps the names
    exclusive. -/
theorem claims_step (e : LifecycleEvent) (h : l.Claims) (hfresh : l.CheckedFresh e)
    (hpong : l.PongInTime e) (hunraced : l.Unraced e) (hstep : l.step e = some l') :
    l'.Claims := by
  cases step_cases hstep with
  | check n result hn =>
    cases result with
    | none => exact h.setStage (by simp [hn]) (by simp) (by rintro _ ⟨⟩) (by rintro _ ⟨⟩)
    | some hs => exact h.check hn hfresh.1 hfresh.2 hunraced
  | greet n sent hs hn =>
    refine h.setStage (by simp [hn]) ?_ ?_ ?_ <;>
      cases sent <;> simp [hn, Stage.handshake, Stage.claim]
  | add n hs hn => exact h.add (by rw [hn]; rfl)
  | pong n hs hadded =>
    rcases Stage.added_cases hadded with hn | hn
    · have hadd : Claims { l.setStage n (.registered hs) with
          connections := l.connections.add (hs.client n) } := h.add (by rw [hn]; rfl)
      rw [setStage_self hn] at hadd
      exact hadd
    · exact absurd hn (hpong hs)
  | remove n hs hadded => exact h.remove hadded
  | iterate order =>
    refine ⟨live_step (.iterate order) h.live trivial rfl, h.ids, h.apart, ?_⟩
    intro n hs hn
    obtain ⟨hget, hfind⟩ := h.present n hs hn
    exact ⟨(Connections.get_iterate _ _ _).trans hget, hfind⟩

end Lifecycle

end Neutun
