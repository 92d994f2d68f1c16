/-
  Neutun/Server/Interleaving.lean
  ===============================
  The registry with each access to a `DashMap` as a step of its own
  (`connected_clients.rs`).

  `Connections::add` inserts into two tables, and `Connections::remove` looks into
  one of them before it takes anything out.  Many tasks do this at once, and
  only the single accesses are atomic.

    * `sharedRegistry_filed` : what a lookup finds is filed under its own key,
      whatever the interleaving;
    * `shared_serializable` : the calls have the effect that they have one after the
      other, in the order in which they began, if no two that share an id or a
      host are under way at a time, unless both remove the same client;
    * `shared_coherent` : clients may share hosts as they like; as long as the
      calls for one client keep to its life (`OneLife`), the two tables never
      disagree about who is connected.
-/
import Neutun.Server.Routing

namespace Neutun

open Foundation

/-! ### The accesses of a call -/

/-- The next access of a call that is under way. -/
inductive RegistryTask where
  /-- `CONNECTIONS.clients.insert` in `add` -/
  | insertClient (client : ConnectedClient)
  /-- `CONNECTIONS.hosts.insert` in `add` and `update_host` -/
  | insertHost (client : ConnectedClient)
  /-- `CONNECTIONS.hosts.get` in `remove` -/
  | checkHost (client : ConnectedClient)
  /-- `CONNECTIONS.hosts.remove` -/
  | removeHost (client : ConnectedClient)
  /-- `CONNECTIONS.clients.remove` -/
  | removeClient (client : ConnectedClient)

namespace RegistryTask

def client : RegistryTask → ConnectedClient
  | insertClient c | insertHost c | checkHost c | removeHost c | removeClient c => c

/-- It belongs to `remove`. -/
def removes : RegistryTask → Bool
  | insertClient _ | insertHost _ => false
  | checkHost _ | removeHost _ | removeClient _ => true

/-- One access, and the one that comes after it. -/
def turn (reg : Connections) : RegistryTask → Connections × Option RegistryTask
  | insertClient c => ({ reg with clients := reg.clients.insert c.id c }, some (insertHost c))
  | insertHost c => (reg.updateHost c, none)
  | checkHost c =>
    -- ensure another client isn't using this host
    if (reg.findByHost c.fullHost).any fun u => decide (u.id = c.id) then (reg, some (removeHost c))
    else (reg, some (removeClient c))
  | removeHost c => ({ reg with hosts := reg.hosts.erase c.fullHost }, some (removeClient c))
  | removeClient c => ({ reg with clients := reg.clients.erase c.id }, none)

end RegistryTask

/-- The first access of a call. -/
def RegistryOp.task : RegistryOp → Option RegistryTask
  | add client => some (.insertClient client)
  | updateHost client => some (.insertHost client)
  | remove client => some (.checkHost client)
  | iterate _ => none

/-- The registry, the calls that are under way by the tasks that make them, and
    all calls so far in the order in which they began. -/
structure SharedRegistry where
  reg : Connections
  calls : Nat → Option RegistryTask
  begun : List RegistryOp

inductive SharedEvent where
  | call (n : Nat) (op : RegistryOp)
  | turn (n : Nat)
  | iterate (order : List (Sigma fun _ : ClientId => ConnectedClient))

namespace SharedRegistry

def new : SharedRegistry := ⟨Connections.new, fun _ => none, []⟩

def step (s : SharedRegistry) : SharedEvent → Option SharedRegistry
  | .call n op =>
    match s.calls n, op.task with
    | none, some task =>
      some { s with calls := Function.update s.calls n (some task), begun := s.begun ++ [op] }
    | _, _ => none
  | .turn n =>
    (s.calls n).map fun task => { s with
      reg := (task.turn s.reg).1
      calls := Function.update s.calls n (task.turn s.reg).2 }
  | .iterate order => some { s with reg := s.reg.iterate order }

end SharedRegistry

def sharedRegistry : Machine SharedRegistry SharedEvent where
  start s := s = SharedRegistry.new
  step := SharedRegistry.step

/-! ### What each step does -/

namespace SharedRegistry

variable {s t : SharedRegistry} {n : Nat}

/-- The calls under way after one of them has changed. -/
theorem update_calls_eq_some {calls : Nat → Option RegistryTask} {n m : Nat}
    {next : Option RegistryTask} {u : RegistryTask} :
    Function.update calls n next m = some u ↔
      m = n ∧ next = some u ∨ m ≠ n ∧ calls m = some u := by
  rw [Function.update_apply]
  by_cases hm : m = n
  · simp [hm]
  · simp [hm]

theorem call_cases {op : RegistryOp} (h : s.step (.call n op) = some t) :
    s.calls n = none ∧ ∃ task, op.task = some task ∧
      t = { s with calls := Function.update s.calls n (some task), begun := s.begun ++ [op] } := by
  simp only [step] at h
  split at h
  next task hnone htask => exact ⟨hnone, task, htask, (Option.some.inj h).symm⟩
  · cases h

theorem turn_cases (h : s.step (.turn n) = some t) :
    ∃ task, s.calls n = some task ∧
      t = { s with
        reg := (task.turn s.reg).1
        calls := Function.update s.calls n (task.turn s.reg).2 } := by
  obtain ⟨task, htask, rfl⟩ := Option.map_eq_some_iff.mp h
  exact ⟨task, htask, rfl⟩

end SharedRegistry

namespace RegistryTask

variable {reg : Connections} {task next : RegistryTask}

/-- A call keeps to its client, and to what it is. -/
theorem turn_next (h : (task.turn reg).2 = some next) :
    next.client = task.client ∧ next.removes = task.removes := by
  cases task with
  | insertClient c =>
    obtain rfl := Option.some.inj h
    exact ⟨rfl, rfl⟩
  | checkHost c =>
    simp only [turn] at h
    split at h
    · obtain rfl := Option.some.inj h
      exact ⟨rfl, rfl⟩
    · obtain rfl := Option.some.inj h
      exact ⟨rfl, rfl⟩
  | removeHost c =>
    obtain rfl := Option.some.inj h
    exact ⟨rfl, rfl⟩
  | insertHost c => cases h
  | removeClient c => cases h

/-- An access does not touch the entries of other ids and other hosts. -/
theorem get_turn (reg : Connections) {i : ClientId} (h : i ≠ task.client.id) :
    (task.turn reg).1.get i = reg.get i := by
  cases task with
  | insertClient c => exact (Table.lookup_insert_ite reg.clients c.id i c).trans (if_neg h)
  | insertHost c => rfl
  | checkHost c =>
    simp only [turn]
    split
    · rfl
    · rfl
  | removeHost c => rfl
  | removeClient c => exact (Table.lookup_erase_ite reg.clients c.id i).trans (if_neg h)

theorem findByHost_turn (reg : Connections) {host : Text} (h : host ≠ task.client.fullHost) :
    (task.turn reg).1.findByHost host = reg.findByHost host := by
  cases task with
  | insertClient c => rfl
  | insertHost c => exact (Table.lookup_insert_ite reg.hosts c.fullHost host c).trans (if_neg h)
  | checkHost c =>
    simp only [turn]
    split
    · rfl
    · rfl
  | removeHost c => exact (Table.lookup_erase_ite reg.hosts c.fullHost host).trans (if_neg h)
  | removeClient c => rfl

end RegistryTask

/-! ### Every entry under its own key -/

namespace RegistryTask

theorem filed_turn {reg : Connections}
    (h : Index.Filed ConnectedClient.id ConnectedClient.fullHost reg.toIndex)
    (task : RegistryTask) :
    Index.Filed ConnectedClient.id ConnectedClient.fullHost (task.turn reg).1.toIndex := by
  cases task with
  | insertClient c => exact ⟨(h.put c).primary, h.secondary⟩
  | insertHost c => exact h.point c
  | checkHost c =>
    simp only [turn]
    split
    · exact h
    · exact h
  | removeHost c =>
    refine ⟨h.primary, ?_⟩
    intro host u hu
    apply h.secondary host u
    have hu : (reg.hosts.erase c.fullHost).lookup host = some u := hu
    rw [Table.lookup_erase_ite] at hu
    split at hu
    · cases hu
    · exact hu
  | removeClient c => exact ⟨(h.drop c).primary, h.secondary⟩

end RegistryTask

theorem sharedRegistry_filed {s : SharedRegistry} (h : sharedRegistry.Reachable s) :
    Index.Filed ConnectedClient.id ConnectedClient.fullHost s.reg.toIndex := by
  refine Machine.Reachable.invariant
    (I := fun s => Index.Filed ConnectedClient.id ConnectedClient.fullHost s.reg.toIndex)
    ?_ ?_ h
  · intro s hs
    subst hs
    exact Index.Filed.empty
  · intro s e t hI ht
    cases e with
    | call n op =>
      obtain ⟨-, task, -, rfl⟩ := SharedRegistry.call_cases ht
      exact hI
    | turn n =>
      obtain ⟨task, -, rfl⟩ := SharedRegistry.turn_cases ht
      exact RegistryTask.filed_turn hI task
    | iterate order =>
      obtain rfl := Option.some.inj ht
      refine ⟨fun k v hv => hI.primary k v ?_, hI.secondary⟩
      exact (Table.lookup_reorder s.reg.clients order k).symm.trans hv

/-! ### Calls that are out of each other's way -/

namespace RegistryTask

/-- Two calls share neither id nor host, or both remove the same client. -/
def Compatible (t u : RegistryTask) : Prop :=
  t.client.id ≠ u.client.id ∧ t.client.fullHost ≠ u.client.fullHost ∨
    t.client = u.client ∧ t.removes = true ∧ u.removes = true

theorem Compatible.symm {t u : RegistryTask} (h : t.Compatible u) : u.Compatible t := by
  rcases h with ⟨hid, hhost⟩ | ⟨hclient, ht, hu⟩
  · exact Or.inl ⟨hid.symm, hhost.symm⟩
  · exact Or.inr ⟨hclient.symm, hu, ht⟩

theorem Compatible.next {reg : Connections} {t t' u : RegistryTask} (h : t.Compatible u)
    (ht : (t.turn reg).2 = some t') : t'.Compatible u := by
  obtain ⟨hclient, hremoves⟩ := turn_next ht
  unfold Compatible
  rw [hclient, hremoves]
  exact h

/-- The tables once `client` is removed, where `reg` may still have its entries. -/
def Removed (reg spec : Connections) (client : ConnectedClient) : Prop :=
  spec.get client.id = none ∧
    ∀ u, spec.findByHost client.fullHost = some u ↔
      reg.findByHost client.fullHost = some u ∧ u.id ≠ client.id

/-- What is between the tables `reg` and the tables `spec` that a call under way
    has been carried out in. -/
def Pending (reg spec : Connections) : RegistryTask → Prop
  | insertClient c => spec.get c.id = some c ∧ spec.findByHost c.fullHost = some c
  | insertHost c => reg.get c.id = spec.get c.id ∧ spec.findByHost c.fullHost = some c
  | checkHost c => Removed reg spec c
  | removeHost c => Removed reg spec c ∧ ∀ u, reg.findByHost c.fullHost = some u → u.id = c.id
  | removeClient c => Removed reg spec c ∧ ∀ u, reg.findByHost c.fullHost = some u → u.id ≠ c.id

variable {reg reg' spec spec' : Connections} {t u : RegistryTask}

/-- Only the entries of the client's own id and host matter. -/
theorem Pending.congr (h : t.Pending reg spec)
    (hget : reg'.get t.client.id = reg.get t.client.id)
    (hfind : reg'.findByHost t.client.fullHost = reg.findByHost t.client.fullHost)
    (hget' : spec'.get t.client.id = spec.get t.client.id)
    (hfind' : spec'.findByHost t.client.fullHost = spec.findByHost t.client.fullHost) :
    t.Pending reg' spec' := by
  cases t with
  | insertClient c =>
    change spec'.get c.id = _ at hget'
    change spec'.findByHost c.fullHost = _ at hfind'
    exact ⟨hget'.trans h.1, hfind'.trans h.2⟩
  | insertHost c =>
    change spec'.findByHost c.fullHost = _ at hfind'
    exact ⟨hget.trans (h.1.trans hget'.symm), hfind'.trans h.2⟩
  | checkHost c =>
    simp only [Pending, Removed, client] at *
    rw [hfind, hfind', hget']
    exact h
  | removeHost c =>
    simp only [Pending, Removed, client] at *
    rw [hfind, hfind', hget']
    exact h
  | removeClient c =>
    simp only [Pending, Removed, client] at *
    rw [hfind, hfind', hget']
    exact h

theorem Pending.removed (h : t.Pending reg spec) (ht : t.removes = true) :
    Removed reg spec t.client := by
  cases t with
  | insertClient c => cases ht
  | insertHost c => cases ht
  | checkHost c => exact h
  | removeHost c => exact h.1
  | removeClient c => exact h.1

/-- Once the host is erased, the removal is over as far as hosts go. -/
theorem Pending.erased {c : ConnectedClient} (h : (removeHost c).Pending reg spec) :
    Removed (turn reg (removeHost c)).1 spec c ∧
      ∀ u, (turn reg (removeHost c)).1.findByHost c.fullHost ≠ some u := by
  have hgone : (turn reg (removeHost c)).1.findByHost c.fullHost = none :=
    (Table.lookup_erase_ite reg.hosts c.fullHost c.fullHost).trans (if_pos rfl)
  refine ⟨⟨h.1.1, ?_⟩, ?_⟩
  · intro u
    rw [hgone, h.1.2 u]
    constructor
    · rintro ⟨hu, hid⟩
      exact absurd (h.2 u hu) hid
    · rintro ⟨hu, -⟩
      cases hu
  · intro u
    rw [hgone]
    exact nofun

/-- From one access of a call to the next. -/
theorem Pending.next (h : t.Pending reg spec) (ht : (t.turn reg).2 = some u) :
    u.Pending (t.turn reg).1 spec := by
  cases t with
  | insertClient c =>
    obtain rfl := Option.some.inj ht
    refine ⟨?_, h.2⟩
    rw [h.1]
    exact Table.lookup_insert_ite reg.clients c.id c.id c |>.trans (if_pos rfl)
  | insertHost c => cases ht
  | checkHost c =>
    simp only [turn] at ht ⊢
    split at ht
    next hown =>
      obtain rfl := Option.some.inj ht
      rw [if_pos hown]
      refine ⟨h, ?_⟩
      intro u hu
      rw [hu, Option.any_some, decide_eq_true_eq] at hown
      exact hown
    next hother =>
      obtain rfl := Option.some.inj ht
      rw [if_neg hother]
      refine ⟨h, ?_⟩
      intro u hu hid
      apply hother
      rw [hu, Option.any_some, decide_eq_true_eq]
      exact hid
  | removeHost c =>
    obtain rfl := Option.some.inj ht
    obtain ⟨hremoved, hgone⟩ := h.erased
    exact ⟨hremoved, fun u hu => absurd hu (hgone u)⟩
  | removeClient c => cases ht

/-- With the last access the tables agree at the client's id and host. -/
theorem Pending.done (h : t.Pending reg spec) (ht : (t.turn reg).2 = none) :
    (t.turn reg).1.get t.client.id = spec.get t.client.id ∧
      (t.turn reg).1.findByHost t.client.fullHost = spec.findByHost t.client.fullHost := by
  cases t with
  | insertClient c => cases ht
  | insertHost c =>
    refine ⟨h.1, ?_⟩
    rw [show (insertHost c).client = c from rfl, h.2]
    exact (Table.lookup_insert_ite reg.hosts c.fullHost c.fullHost c).trans (if_pos rfl)
  | checkHost c =>
    simp only [turn] at ht
    split at ht
    · cases ht
    · cases ht
  | removeHost c => cases ht
  | removeClient c =>
    obtain ⟨⟨hget, hfind⟩, hother⟩ := h
    refine ⟨?_, ?_⟩
    · rw [show (removeClient c).client = c from rfl, hget]
      exact (Table.lookup_erase_ite reg.clients c.id c.id).trans (if_pos rfl)
    · apply Option.ext
      intro u
      change reg.findByHost c.fullHost = some u ↔ spec.findByHost c.fullHost = some u
      rw [hfind u]
      exact (and_iff_left_of_imp (hother u)).symm

/-- Two removals of the same client do not disturb each other. -/
theorem Pending.turn_other (h : t.Pending reg spec) (hu : u.Pending reg spec)
    (hclient : t.client = u.client) (ht : t.removes = true) (hremoves : u.removes = true) :
    u.Pending (t.turn reg).1 spec := by
  cases t with
  | insertClient c => cases ht
  | insertHost c => cases ht
  | checkHost c =>
    simp only [turn]
    split
    · exact hu
    · exact hu
  | removeHost c =>
    obtain rfl : c = u.client := hclient
    obtain ⟨hremoved, hgone⟩ := h.erased
    cases u with
    | insertClient c => cases hremoves
    | insertHost c => cases hremoves
    | checkHost c => exact hremoved
    | removeHost c => exact ⟨hremoved, fun v hv => absurd hv (hgone v)⟩
    | removeClient c => exact ⟨hremoved, fun v hv => absurd hv (hgone v)⟩
  | removeClient c =>
    cases u with
    | insertClient c => cases hremoves
    | insertHost c => cases hremoves
    | checkHost c => exact hu
    | removeHost c => exact hu
    | removeClient c => exact hu

/-- A removal that has begun is not changed by a second one of the same client. -/
theorem Pending.remove_again (h : t.Pending reg spec) (ht : t.removes = true) :
    t.Pending reg (spec.remove t.client) := by
  have hold := h.removed ht
  have hremoved : Removed reg (spec.remove t.client) t.client := by
    refine ⟨by rw [Connections.get_remove, if_pos rfl], ?_⟩
    intro u
    rw [Connections.findByHost_remove, hold.2 u]
    constructor
    · rintro ⟨hu, -⟩
      exact hu
    · rintro ⟨hu, hid⟩
      exact ⟨⟨hu, hid⟩, fun hown => hid hown.2⟩
  cases t with
  | insertClient c => cases ht
  | insertHost c => cases ht
  | checkHost c => exact hremoved
  | removeHost c => exact ⟨hremoved, h.2⟩
  | removeClient c => exact ⟨hremoved, h.2⟩

end RegistryTask

namespace RegistryOp

variable {op : RegistryOp} {task : RegistryTask}

theorem get_apply (reg : Connections) (h : op.task = some task) {i : ClientId}
    (hi : i ≠ task.client.id) : (op.apply reg).get i = reg.get i := by
  cases op with
  | add c =>
    obtain rfl := Option.some.inj h
    exact (reg.get_add c i).trans (if_neg hi)
  | updateHost c => rfl
  | remove c =>
    obtain rfl := Option.some.inj h
    exact (reg.get_remove c i).trans (if_neg hi)
  | iterate order => cases h

theorem findByHost_apply (reg : Connections) (h : op.task = some task) {host : Text}
    (hhost : host ≠ task.client.fullHost) :
    (op.apply reg).findByHost host = reg.findByHost host := by
  cases op with
  | add c =>
    obtain rfl := Option.some.inj h
    exact (reg.findByHost_add c host).trans (if_neg hhost)
  | updateHost c =>
    obtain rfl := Option.some.inj h
    exact (Table.lookup_insert_ite reg.hosts c.fullHost host c).trans (if_neg hhost)
  | remove c =>
    obtain rfl := Option.some.inj h
    apply Option.ext
    intro u
    rw [apply, reg.findByHost_remove]
    exact and_iff_left fun hown => hhost hown.1
  | iterate order => cases h

theorem eq_remove (h : op.task = some task) (hremoves : task.removes = true) :
    op = .remove task.client := by
  cases op with
  | remove c =>
    obtain rfl := Option.some.inj h
    rfl
  | add c =>
    obtain rfl := Option.some.inj h
    cases hremoves
  | updateHost c =>
    obtain rfl := Option.some.inj h
    cases hremoves
  | iterate order => cases h

end RegistryOp

namespace SharedRegistry

/-- The tables `spec` are what is left when every call under way is carried out. -/
structure Follows (s : SharedRegistry) (spec : Connections) : Prop where
  compatible : ∀ n m t u, s.calls n = some t → s.calls m = some u → n ≠ m → t.Compatible u
  pending : ∀ n t, s.calls n = some t → t.Pending s.reg spec
  get : ∀ i, (∀ n t, s.calls n = some t → t.client.id ≠ i) → s.reg.get i = spec.get i
  findByHost : ∀ host, (∀ n t, s.calls n = some t → t.client.fullHost ≠ host) →
    s.reg.findByHost host = spec.findByHost host

variable {s t : SharedRegistry} {spec : Connections} {n : Nat}

theorem Follows.turn (h : s.Follows spec) (ht : s.step (.turn n) = some t) : t.Follows spec := by
  obtain ⟨task, htask, rfl⟩ := turn_cases ht
  refine ⟨?_, ?_, ?_, ?_⟩
  · intro m k u v hu hv hmk
    rcases update_calls_eq_some.mp hu with ⟨hm, hnext⟩ | ⟨hm, hu'⟩
    · rcases update_calls_eq_some.mp hv with ⟨hk, -⟩ | ⟨hk, hv'⟩
      · exact absurd (hm.trans hk.symm) hmk
      · exact (h.compatible n k task v htask hv' hk.symm).next hnext
    · rcases update_calls_eq_some.mp hv with ⟨hk, hnext⟩ | ⟨hk, hv'⟩
      · exact ((h.compatible n m task u htask hu' hm.symm).next hnext).symm
      · exact h.compatible m k u v hu' hv' hmk
  · intro m u hu
    rcases update_calls_eq_some.mp hu with ⟨hm, hnext⟩ | ⟨hm, hu⟩
    · exact (h.pending n task htask).next hnext
    · rcases h.compatible n m task u htask hu hm.symm with ⟨hid, hhost⟩ | ⟨hclient, hremove, hother⟩
      · exact (h.pending m u hu).congr (RegistryTask.get_turn s.reg hid.symm)
          (RegistryTask.findByHost_turn s.reg hhost.symm) rfl rfl
      · exact (h.pending n task htask).turn_other (h.pending m u hu) hclient hremove hother
  · intro i hi
    by_cases hown : i = task.client.id
    · cases hnext : (task.turn s.reg).2 with
      | none =>
        rw [hown]
        exact ((h.pending n task htask).done hnext).1
      | some next =>
        have hmem : Function.update s.calls n (task.turn s.reg).2 n = some next := by
          rw [Function.update_self, hnext]
        rw [hown, ← (RegistryTask.turn_next hnext).1] at hi
        exact absurd rfl (hi n next hmem)
    · refine (RegistryTask.get_turn s.reg hown).trans (h.get i ?_)
      intro m u hu
      by_cases hm : m = n
      · obtain rfl : task = u := Option.some.inj (htask.symm.trans (hm ▸ hu))
        exact Ne.symm hown
      · exact hi m u (update_calls_eq_some.mpr (Or.inr ⟨hm, hu⟩))
  · intro host hhost
    by_cases hown : host = task.client.fullHost
    · cases hnext : (task.turn s.reg).2 with
      | none =>
        rw [hown]
        exact ((h.pending n task htask).done hnext).2
      | some next =>
        have hmem : Function.update s.calls n (task.turn s.reg).2 n = some next := by
          rw [Function.update_self, hnext]
        rw [hown, ← (RegistryTask.turn_next hnext).1] at hhost
        exact absurd rfl (hhost n next hmem)
    · refine (RegistryTask.findByHost_turn s.reg hown).trans (h.findByHost host ?_)
      intro m u hu
      by_cases hm : m = n
      · obtain rfl : task = u := Option.some.inj (htask.symm.trans (hm ▸ hu))
        exact Ne.symm hown
      · exact hhost m u (update_calls_eq_some.mpr (Or.inr ⟨hm, hu⟩))

/-- A call that begins out of the way of those under way. -/
theorem Follows.pending_new {op : RegistryOp} {task : RegistryTask} (h : s.Follows spec)
    (htask : op.task = some task) (hnew : ∀ m u, s.calls m = some u → u.Compatible task) :
    task.Pending s.reg (op.apply spec) := by
  cases op with
  | add c =>
    obtain rfl := Option.some.inj htask
    exact ⟨(spec.get_add c c.id).trans (if_pos rfl),
      (spec.findByHost_add c c.fullHost).trans (if_pos rfl)⟩
  | updateHost c =>
    obtain rfl := Option.some.inj htask
    refine ⟨h.get c.id ?_, (Table.lookup_insert_ite spec.hosts _ _ c).trans (if_pos rfl)⟩
    intro m u hu hid
    rcases hnew m u hu with ⟨hne, -⟩ | ⟨-, -, hremove⟩
    · exact hne hid
    · cases hremove
  | remove c =>
    obtain rfl := Option.some.inj htask
    refine ⟨(spec.get_remove c c.id).trans (if_pos rfl), ?_⟩
    intro v
    rw [RegistryOp.apply, spec.findByHost_remove]
    -- the host is untouched, or another removal of the client has begun
    by_cases hfree : ∀ m u, s.calls m = some u → u.client.fullHost ≠ c.fullHost
    · rw [h.findByHost c.fullHost hfree]
      simp
    · push Not at hfree
      obtain ⟨m, u, hu, hhost⟩ := hfree
      rcases hnew m u hu with ⟨-, hne⟩ | ⟨hclient, hremoves, -⟩
      · exact absurd hhost hne
      · have hold := ((h.pending m u hu).removed hremoves).2 v
        rw [show u.client = c from hclient] at hold
        rw [hold]
        simp
  | iterate order => cases htask

/-- The conditions on calls: a new one is out of the way of those under way. -/
def Orderly (s : SharedRegistry) : SharedEvent → Prop
  | .call _ op => ∀ task, op.task = some task → ∀ n t, s.calls n = some t → t.Compatible task
  | _ => True

theorem Follows.call {op : RegistryOp} (h : s.Follows spec) (horderly : s.Orderly (.call n op))
    (ht : s.step (.call n op) = some t) : t.Follows (op.apply spec) := by
  obtain ⟨hnone, task, htask, rfl⟩ := call_cases ht
  have hnew := horderly task htask
  have hkept : ∀ m u, s.calls m = some u →
      Function.update s.calls n (some task) m = some u := by
    intro m u hu
    have hm : m ≠ n := by
      rintro rfl
      cases hnone.symm.trans hu
    exact update_calls_eq_some.mpr (Or.inr ⟨hm, hu⟩)
  have hself : Function.update s.calls n (some task) n = some task := Function.update_self ..
  refine ⟨?_, ?_, ?_, ?_⟩
  · intro m k u v hu hv hmk
    rcases update_calls_eq_some.mp hu with ⟨hm, hu'⟩ | ⟨hm, hu'⟩
    · obtain rfl := Option.some.inj hu'
      rcases update_calls_eq_some.mp hv with ⟨hk, -⟩ | ⟨hk, hv'⟩
      · exact absurd (hm.trans hk.symm) hmk
      · exact (hnew k v hv').symm
    · rcases update_calls_eq_some.mp hv with ⟨hk, hv'⟩ | ⟨hk, hv'⟩
      · obtain rfl := Option.some.inj hv'
        exact hnew m u hu'
      · exact h.compatible m k u v hu' hv' hmk
  · intro m u hu
    rcases update_calls_eq_some.mp hu with ⟨hm, hu'⟩ | ⟨hm, hu'⟩
    · obtain rfl := Option.some.inj hu'
      exact h.pending_new htask hnew
    · rcases hnew m u hu' with ⟨hid, hhost⟩ | ⟨hclient, hremoves, hremove⟩
      · exact (h.pending m u hu').congr rfl rfl (RegistryOp.get_apply spec htask hid)
          (RegistryOp.findByHost_apply spec htask hhost)
      · rw [RegistryOp.eq_remove htask hremove, ← hclient]
        exact (h.pending m u hu').remove_again hremoves
  · intro i hi
    have hown : i ≠ task.client.id := (hi n task hself).symm
    rw [RegistryOp.get_apply spec htask hown]
    exact h.get i fun m u hu => hi m u (hkept m u hu)
  · intro host hhost
    have hown : host ≠ task.client.fullHost := (hhost n task hself).symm
    rw [RegistryOp.findByHost_apply spec htask hown]
    exact h.findByHost host fun m u hu => hhost m u (hkept m u hu)

theorem Follows.iterate {order : List (Sigma fun _ : ClientId => ConnectedClient)}
    (h : s.Follows spec) : Follows { s with reg := s.reg.iterate order } spec where
  compatible := h.compatible
  pending n t ht := (h.pending n t ht).congr (s.reg.get_iterate order _) rfl rfl rfl
  get i hi := (s.reg.get_iterate order i).trans (h.get i hi)
  findByHost := h.findByHost

/-- The calls one after the other, in the order in which they began. -/
def serial (s : SharedRegistry) : Connections := s.begun.foldl RegistryOp.apply Connections.new

theorem follows_step {e : SharedEvent} (h : s.Follows s.serial) (horderly : s.Orderly e)
    (ht : sharedRegistry.step s e = some t) : t.Follows t.serial := by
  cases e with
  | call n op =>
    have hcall := h.call horderly ht
    obtain ⟨-, task, -, rfl⟩ := call_cases ht
    unfold serial
    rw [List.foldl_append]
    exact hcall
  | turn n =>
    have hturn := h.turn ht
    obtain ⟨task, -, rfl⟩ := turn_cases ht
    exact hturn
  | iterate order =>
    obtain rfl := Option.some.inj ht
    exact h.iterate

theorem follows_new : new.Follows new.serial where
  compatible _ _ _ _ ht := nomatch ht
  pending _ _ ht := nomatch ht
  get _ _ := rfl
  findByHost _ _ := rfl

end SharedRegistry

theorem registry_run (ops : List RegistryOp) (reg : Connections) :
    registry.run reg ops = some (ops.foldl RegistryOp.apply reg) := by
  induction ops generalizing reg with
  | nil => rfl
  | cons op ops ih => exact ih (op.apply reg)

/-- Calls that are kept out of each other's way have the effect of the same calls
    made one after the other: at every id and every host that no call under way
    is about, and for every wildcard once none is under way. -/
theorem shared_serializable (es : List SharedEvent) (s : SharedRegistry)
    (horderly : sharedRegistry.Meets SharedRegistry.Orderly SharedRegistry.new es)
    (hrun : sharedRegistry.run SharedRegistry.new es = some s) :
    ∃ spec, registry.run Connections.new s.begun = some spec ∧
      (∀ i, (∀ n t, s.calls n = some t → t.client.id ≠ i) → s.reg.get i = spec.get i) ∧
      (∀ host, (∀ n t, s.calls n = some t → t.client.fullHost ≠ host) →
        s.reg.findByHost host = spec.findByHost host) ∧
      ((∀ n, s.calls n = none) → ∀ domain,
        s.reg.findWildcard domain = none ↔ spec.findWildcard domain = none) := by
  have hfollows : s.Follows s.serial :=
    Machine.run_invariant (I := fun s => s.Follows s.serial)
      (fun _ _ _ hI hg ht => SharedRegistry.follows_step hI hg ht)
      SharedRegistry.follows_new horderly hrun
  refine ⟨s.serial, registry_run s.begun _, hfollows.get, hfollows.findByHost, ?_⟩
  intro hnone domain
  have hget : ∀ i, s.reg.get i = s.serial.get i := by
    intro i
    apply hfollows.get
    intro n t ht
    cases (hnone n).symm.trans ht
  rw [Connections.findWildcard_eq_none, Connections.findWildcard_eq_none]
  simp only [hget]

namespace Overlap

def first : ConnectedClient := ⟨⟨['1']⟩, ['a'], ['b'], false, false, 0⟩
def second : ConnectedClient := ⟨⟨['2']⟩, ['a'], ['b'], false, false, 1⟩

/-- The first client is added, and a task that removes it has found its host. -/
def looking : List SharedEvent :=
  [.call 0 (.add first), .turn 0, .turn 0, .call 1 (.remove first), .turn 1]

def added : SharedRegistry := ⟨Connections.new.add first, fun _ => none, [.add first]⟩

def looked : SharedRegistry :=
  ⟨Connections.new.add first, Function.update (fun _ => none) 1 (some (.removeHost first)),
    [.add first, .remove first]⟩

theorem meets_looking {guard : SharedRegistry → SharedEvent → Prop}
    (hturn : ∀ s n, guard s (.turn n)) (hadd : guard SharedRegistry.new (.call 0 (.add first)))
    (hremove : guard added (.call 1 (.remove first))) {es : List SharedEvent}
    (hrest : sharedRegistry.Meets guard looked es) :
    sharedRegistry.Meets guard SharedRegistry.new (looking ++ es) := by
  have hadded : ∀ a b : Option RegistryTask, Function.update (Function.update (Function.update
      (fun _ => none) 0 a) 0 b) 0 none = added.calls := by
    intro a b
    rw [Function.update_idem, Function.update_idem]
    exact Function.update_eq_self 0 _
  have hlooked : ∀ a : Option RegistryTask, Function.update (Function.update
      (fun _ => none) 1 a) 1 (some (.removeHost first)) = looked.calls := by
    intro a
    rw [Function.update_idem]
    rfl
  refine .cons hadd rfl (.cons (hturn _ _) rfl (.cons (t := added) (hturn _ _) ?_
    (.cons hremove rfl (.cons (t := looked) (hturn _ _) ?_ hrest))))
  · exact congrArg (fun calls => some (SharedRegistry.mk _ calls _)) (hadded _ _)
  · exact congrArg (fun calls => some (SharedRegistry.mk _ calls _)) (hlooked _)

theorem calls_looked {n : Nat} {t : RegistryTask} (h : looked.calls n = some t) :
    n = 1 ∧ t = .removeHost first := by
  match n with
  | 0 => cases h
  | 1 => exact ⟨rfl, (Option.some.inj h).symm⟩
  | n + 2 => cases h

/-- A second task removes it as well. -/
def twice : List SharedEvent :=
  [.call 2 (.remove first), .turn 2, .turn 1, .turn 2, .turn 1, .turn 2]

theorem orderly_twice :
    sharedRegistry.Meets SharedRegistry.Orderly SharedRegistry.new (looking ++ twice) := by
  refine meets_looking (fun _ _ => trivial) nofun nofun (.cons ?_ rfl ?_)
  · intro task htask n t ht
    obtain rfl := Option.some.inj htask
    obtain ⟨-, rfl⟩ := calls_looked ht
    exact Or.inr ⟨rfl, rfl, rfl⟩
  · exact .cons trivial rfl (.cons trivial rfl (.cons trivial rfl (.cons trivial rfl
      (.cons trivial rfl trivial))))

theorem shared_serializable_twice : ∃ s spec,
    sharedRegistry.run SharedRegistry.new (looking ++ twice) = some s ∧
      registry.run Connections.new s.begun = some spec ∧
      (s.reg.get first.id = spec.get first.id ∧
        s.reg.findByHost first.fullHost = spec.findByHost first.fullHost) := by
  obtain ⟨s, hs, hnone⟩ : ∃ s, sharedRegistry.run SharedRegistry.new (looking ++ twice) = some s ∧
      ∀ n, s.calls n = none := by
    refine ⟨_, rfl, ?_⟩
    intro n
    match n with
    | 0 => rfl
    | 1 => rfl
    | 2 => rfl
    | n + 3 => rfl
  obtain ⟨spec, hspec, hget, hfind, -⟩ := shared_serializable _ s orderly_twice hs
  refine ⟨s, spec, hs, hspec, hget _ ?_, hfind _ ?_⟩
  · intro n t ht
    cases (hnone n).symm.trans ht
  · intro n t ht
    cases (hnone n).symm.trans ht

end Overlap

/-! ### The life of a client -/

namespace SharedRegistry

variable {s t : SharedRegistry} {n : Nat}

/-- The conditions on the calls for one client, whatever is done about the others
    at the time: an id belongs to one client; an add begins only while no call for
    the client is under way and no removal of it has begun, and a removal only once
    it has been added and no add of it is under way; nothing calls `update_host`.

    `handle_new_connection` adds a client before it starts the tasks that may remove
    it.  But connections with one reconnect token share an id, and while a task adds
    the client again at a pong another one may begin to remove it: such runs are left
    out here, and the host may go on leading to the removed client in them. -/
def OneLife (s : SharedRegistry) : SharedEvent → Prop
  | .call _ (.add c) =>
    (∀ op ∈ s.begun, ∀ c', op.client? = some c' → c'.id = c.id → c' = c) ∧
      .remove c ∉ s.begun ∧ ∀ m t, s.calls m = some t → t.client ≠ c
  | .call _ (.updateHost _) => False
  | .call _ (.remove c) =>
    .add c ∈ s.begun ∧ ∀ m t, s.calls m = some t → t.client = c → t.removes = true
  | _ => True

/-- What the conditions say about the calls under way. -/
structure Disciplined (s : SharedRegistry) : Prop where
  one : OneConnectionPerId s.begun
  added : ∀ n t, s.calls n = some t → .add t.client ∈ s.begun
  removing : ∀ n t, s.calls n = some t → t.removes = true → .remove t.client ∈ s.begun
  inserting : ∀ n t, s.calls n = some t → t.removes = false → .remove t.client ∉ s.begun
  alone : ∀ n t, s.calls n = some t → t.removes = false →
    ∀ m u, s.calls m = some u → u.client = t.client → m = n

theorem Disciplined.eq_of_added (h : s.Disciplined) {c c' : ConnectedClient}
    (hc : .add c ∈ s.begun) (hc' : .add c' ∈ s.begun) (hid : c.id = c'.id) : c = c' :=
  h.one _ hc _ hc' c c' rfl rfl hid

/-- A call under way after an access was under way before it. -/
theorem turn_origin (h : s.step (.turn n) = some t) {m : Nat} {u : RegistryTask}
    (hu : t.calls m = some u) :
    ∃ u₀, s.calls m = some u₀ ∧ u.client = u₀.client ∧ u.removes = u₀.removes := by
  obtain ⟨task, htask, rfl⟩ := turn_cases h
  rcases update_calls_eq_some.mp hu with ⟨rfl, hnext⟩ | ⟨-, hu⟩
  · exact ⟨task, htask, RegistryTask.turn_next hnext⟩
  · exact ⟨u, hu, rfl, rfl⟩

theorem Disciplined.turn (h : s.Disciplined) (ht : s.step (.turn n) = some t) :
    t.Disciplined := by
  have hbegun : t.begun = s.begun := by
    obtain ⟨task, -, rfl⟩ := turn_cases ht
    rfl
  refine ⟨?_, ?_, ?_, ?_, ?_⟩
  · rw [hbegun]
    exact h.one
  · intro m u hu
    obtain ⟨u₀, hu₀, hclient, -⟩ := turn_origin ht hu
    rw [hbegun, hclient]
    exact h.added m u₀ hu₀
  · intro m u hu hremoves
    obtain ⟨u₀, hu₀, hclient, hsame⟩ := turn_origin ht hu
    rw [hbegun, hclient]
    exact h.removing m u₀ hu₀ (hsame ▸ hremoves)
  · intro m u hu hremoves
    obtain ⟨u₀, hu₀, hclient, hsame⟩ := turn_origin ht hu
    rw [hbegun, hclient]
    exact h.inserting m u₀ hu₀ (hsame ▸ hremoves)
  · intro m u hu hremoves k v hv hvu
    obtain ⟨u₀, hu₀, hclient, hsame⟩ := turn_origin ht hu
    obtain ⟨v₀, hv₀, hvclient, -⟩ := turn_origin ht hv
    exact h.alone m u₀ hu₀ (hsame ▸ hremoves) k v₀ hv₀ (by rw [← hvclient, hvu, hclient])

/-- A client begins its only life. -/
theorem Disciplined.callAdd {c : ConnectedClient} (h : s.Disciplined)
    (hlife : s.OneLife (.call n (.add c))) (ht : s.step (.call n (.add c)) = some t) :
    t.Disciplined := by
  obtain ⟨hnone, task, htask, rfl⟩ := call_cases ht
  obtain rfl := Option.some.inj htask
  obtain ⟨hid, hlive, hfree⟩ := hlife
  refine ⟨?_, ?_, ?_, ?_, ?_⟩
  · intro op hop op' hop' d d' hd hd' heq
    rw [List.mem_append, List.mem_singleton] at hop hop'
    rcases hop with hop | rfl
    · rcases hop' with hop' | rfl
      · exact h.one op hop op' hop' d d' hd hd' heq
      · obtain rfl := Option.some.inj hd'
        exact hid op hop d hd heq
    · obtain rfl := Option.some.inj hd
      rcases hop' with hop' | rfl
      · exact (hid op' hop' d' hd' heq.symm).symm
      · exact Option.some.inj hd'
  · intro m u hu
    rcases update_calls_eq_some.mp hu with ⟨-, hu⟩ | ⟨-, hu⟩
    · obtain rfl := Option.some.inj hu
      exact List.mem_append_right _ List.mem_cons_self
    · exact List.mem_append_left _ (h.added m u hu)
  · intro m u hu hremoves
    rcases update_calls_eq_some.mp hu with ⟨-, hu⟩ | ⟨-, hu⟩
    · obtain rfl := Option.some.inj hu
      cases hremoves
    · exact List.mem_append_left _ (h.removing m u hu hremoves)
  · intro m u hu hremoves
    rw [List.mem_append, List.mem_singleton, not_or]
    refine ⟨?_, nofun⟩
    rcases update_calls_eq_some.mp hu with ⟨-, hu⟩ | ⟨-, hu⟩
    · obtain rfl := Option.some.inj hu
      exact hlive
    · exact h.inserting m u hu hremoves
  · intro m u hu hremoves k v hv hvu
    rcases update_calls_eq_some.mp hu with ⟨hm, hu⟩ | ⟨hm, hu⟩
    · obtain rfl := Option.some.inj hu
      rcases update_calls_eq_some.mp hv with ⟨hk, -⟩ | ⟨-, hv⟩
      · exact hk.trans hm.symm
      · exact absurd hvu (hfree k v hv)
    · rcases update_calls_eq_some.mp hv with ⟨-, hv⟩ | ⟨-, hv⟩
      · obtain rfl := Option.some.inj hv
        exact absurd hvu.symm (hfree m u hu)
      · exact h.alone m u hu hremoves k v hv hvu

/-- A client that has been added begins to be removed. -/
theorem Disciplined.callRemove {c : ConnectedClient} (h : s.Disciplined)
    (hlife : s.OneLife (.call n (.remove c))) (ht : s.step (.call n (.remove c)) = some t) :
    t.Disciplined := by
  obtain ⟨hnone, task, htask, rfl⟩ := call_cases ht
  obtain rfl := Option.some.inj htask
  obtain ⟨hadd, hremovers⟩ := hlife
  refine ⟨?_, ?_, ?_, ?_, ?_⟩
  · -- a removal names a client that has been added
    have hold : ∀ op ∈ s.begun ++ [.remove c], ∀ d, op.client? = some d →
        ∃ op' ∈ s.begun, op'.client? = some d := by
      intro op hop d hd
      rw [List.mem_append, List.mem_singleton] at hop
      rcases hop with hop | rfl
      · exact ⟨op, hop, hd⟩
      · exact ⟨.add c, hadd, hd⟩
    intro op hop op' hop' d d' hd hd' heq
    obtain ⟨o, ho, hod⟩ := hold op hop d hd
    obtain ⟨o', ho', hod'⟩ := hold op' hop' d' hd'
    exact h.one o ho o' ho' d d' hod hod' heq
  · intro m u hu
    rcases update_calls_eq_some.mp hu with ⟨-, hu⟩ | ⟨-, hu⟩
    · obtain rfl := Option.some.inj hu
      exact List.mem_append_left _ hadd
    · exact List.mem_append_left _ (h.added m u hu)
  · intro m u hu hremoves
    rcases update_calls_eq_some.mp hu with ⟨-, hu⟩ | ⟨-, hu⟩
    · obtain rfl := Option.some.inj hu
      exact List.mem_append_right _ List.mem_cons_self
    · exact List.mem_append_left _ (h.removing m u hu hremoves)
  · intro m u hu hremoves
    rcases update_calls_eq_some.mp hu with ⟨-, hu⟩ | ⟨-, hu⟩
    · obtain rfl := Option.some.inj hu
      cases hremoves
    · rw [List.mem_append, List.mem_singleton, not_or]
      refine ⟨h.inserting m u hu hremoves, ?_⟩
      intro heq
      obtain hclient : u.client = c := RegistryOp.remove.inj heq
      rw [hremovers m u hu hclient] at hremoves
      cases hremoves
  · intro m u hu hremoves k v hv hvu
    rcases update_calls_eq_some.mp hu with ⟨-, hu⟩ | ⟨-, hu⟩
    · obtain rfl := Option.some.inj hu
      cases hremoves
    · rcases update_calls_eq_some.mp hv with ⟨-, hv⟩ | ⟨-, hv⟩
      · obtain rfl := Option.some.inj hv
        rw [hremovers m u hu hvu.symm] at hremoves
        cases hremoves
      · exact h.alone m u hu hremoves k v hv hvu

/-- A call that the conditions allow is of a client of its own id, begun and not
    over, and the only one for it unless both remove. -/
theorem Disciplined.call {op : RegistryOp} (h : s.Disciplined) (hlife : s.OneLife (.call n op))
    (ht : s.step (.call n op) = some t) : t.Disciplined := by
  cases op with
  | iterate order =>
    obtain ⟨-, task, htask, -⟩ := call_cases ht
    cases htask
  | updateHost c => exact hlife.elim
  | add c => exact h.callAdd hlife ht
  | remove c => exact h.callRemove hlife ht

/-- The tables know of nobody who has not been added, of everybody who has been and
    has not been removed, and agree about them. -/
structure Consistent (s : SharedRegistry) : Prop where
  filed : Index.Filed ConnectedClient.id ConnectedClient.fullHost s.reg.toIndex
  knownId : ∀ i c, s.reg.get i = some c → .add c ∈ s.begun
  knownHost : ∀ host c, s.reg.findByHost host = some c → .add c ∈ s.begun
  present : ∀ host c, s.reg.findByHost host = some c → s.reg.get c.id = some c
  entered : ∀ n c, s.calls n = some (.insertHost c) → s.reg.get c.id = some c
  leaving : ∀ n c, s.calls n = some (.removeClient c) →
    ∀ host u, s.reg.findByHost host = some u → u.id ≠ c.id
  live : ∀ c, .add c ∈ s.begun → .remove c ∉ s.begun →
    (∀ n, s.calls n ≠ some (.insertClient c)) → s.reg.get c.id = some c
  gone : ∀ c, .remove c ∈ s.begun → (∃ n t, s.calls n = some t ∧ t.client = c) ∨
    s.reg.get c.id = none ∧ ∀ host u, s.reg.findByHost host = some u → u.id ≠ c.id

/-- A call for a client that another one is under way for stays in its place. -/
theorem update_calls_other {calls : Nat → Option RegistryTask} {n : Nat} {task : RegistryTask}
    (htask : calls n = some task) {next : Option RegistryTask} {c : ConnectedClient}
    (hc : task.client ≠ c) (h : ∃ m u, calls m = some u ∧ u.client = c) :
    ∃ m u, Function.update calls n next m = some u ∧ u.client = c := by
  obtain ⟨m, u, hu, hclient⟩ := h
  have hm : m ≠ n := by
    rintro rfl
    obtain rfl : task = u := Option.some.inj (htask.symm.trans hu)
    exact hc hclient
  exact ⟨m, u, update_calls_eq_some.mpr (Or.inr ⟨hm, hu⟩), hclient⟩

section Turn

variable {c : ConnectedClient}

/-- The access of `add` to the clients. -/
theorem Consistent.insertClient (h : s.Consistent) (hd : s.Disciplined)
    (htask : s.calls n = some (.insertClient c)) :
    Consistent { s with
      reg := { s.reg with clients := s.reg.clients.insert c.id c }
      calls := Function.update s.calls n (some (.insertHost c)) } := by
  have hadd : .add c ∈ s.begun := hd.added n _ htask
  have hget : ∀ i, Connections.get { s.reg with clients := s.reg.clients.insert c.id c } i =
      if i = c.id then some c else s.reg.get i := by
    intro i
    exact Table.lookup_insert_ite s.reg.clients c.id i c
  have hremove : ∀ d, .remove d ∈ s.begun → c ≠ d := by
    rintro d hdmem rfl
    exact hd.inserting n _ htask rfl hdmem
  refine ⟨RegistryTask.filed_turn h.filed (.insertClient c), ?_, h.knownHost, ?_, ?_, ?_, ?_, ?_⟩
  · intro i d hi
    rw [hget] at hi
    split at hi
    · obtain rfl := Option.some.inj hi
      exact hadd
    · exact h.knownId i d hi
  · intro host u hu
    rw [hget]
    split
    next hid => rw [hd.eq_of_added (h.knownHost host u hu) hadd hid]
    · exact h.present host u hu
  · intro m d hm
    rw [hget]
    rcases update_calls_eq_some.mp hm with ⟨-, heq⟩ | ⟨hne, hm⟩
    · obtain rfl := RegistryTask.insertHost.inj (Option.some.inj heq)
      exact if_pos rfl
    · split
      next hid => exact congrArg some (hd.eq_of_added hadd (hd.added m _ hm) hid.symm)
      · exact h.entered m d hm
  · intro m d hm
    rcases update_calls_eq_some.mp hm with ⟨-, heq⟩ | ⟨-, hm⟩
    · cases heq
    · exact h.leaving m d hm
  · intro d hdadd hdremove hnot
    rw [hget]
    split
    next hid => rw [hd.eq_of_added hdadd hadd hid]
    next hid =>
      refine h.live d hdadd hdremove ?_
      intro m hm
      by_cases hmn : m = n
      · rw [hmn, htask] at hm
        obtain rfl := RegistryTask.insertClient.inj (Option.some.inj hm)
        exact hid rfl
      · exact hnot m (update_calls_eq_some.mpr (Or.inr ⟨hmn, hm⟩))
  · intro d hdremove
    rcases h.gone d hdremove with hcall | ⟨hnone, hhost⟩
    · exact Or.inl (update_calls_other htask (hremove d hdremove) hcall)
    · refine Or.inr ⟨?_, hhost⟩
      rw [hget, if_neg]
      · exact hnone
      · intro hid
        exact hremove d hdremove (hd.one _ hadd _ hdremove c d rfl rfl hid.symm)

/-- The access of `add` to the hosts. -/
theorem Consistent.insertHost (h : s.Consistent) (hd : s.Disciplined)
    (htask : s.calls n = some (.insertHost c)) :
    Consistent { s with
      reg := s.reg.updateHost c
      calls := Function.update s.calls n none } := by
  have hadd : .add c ∈ s.begun := hd.added n _ htask
  have hfind : ∀ host, (s.reg.updateHost c).findByHost host =
      if host = c.fullHost then some c else s.reg.findByHost host := by
    intro host
    exact Table.lookup_insert_ite s.reg.hosts c.fullHost host c
  have hremove : ∀ d, .remove d ∈ s.begun → c ≠ d := by
    rintro d hdmem rfl
    exact hd.inserting n _ htask rfl hdmem
  have hcalls : ∀ {m u}, Function.update s.calls n none m = some u → s.calls m = some u := by
    intro m u hu
    rcases update_calls_eq_some.mp hu with ⟨-, heq⟩ | ⟨-, hu⟩
    · cases heq
    · exact hu
  refine ⟨h.filed.point c, h.knownId, ?_, ?_, ?_, ?_, ?_, ?_⟩
  · intro host d hhost
    rw [hfind] at hhost
    split at hhost
    · obtain rfl := Option.some.inj hhost
      exact hadd
    · exact h.knownHost host d hhost
  · intro host u hu
    rw [hfind] at hu
    split at hu
    · obtain rfl := Option.some.inj hu
      exact h.entered n c htask
    · exact h.present host u hu
  · intro m d hm
    exact h.entered m d (hcalls hm)
  · intro m d hm host u hu
    rw [hfind] at hu
    split at hu
    · obtain rfl := Option.some.inj hu
      -- nobody removes the client while it is being added
      intro hid
      exact hremove d (hd.removing m _ (hcalls hm) rfl)
        (hd.eq_of_added hadd (hd.added m _ (hcalls hm)) hid)
    · exact h.leaving m d (hcalls hm) host u hu
  · intro d hdadd hdremove hnot
    refine h.live d hdadd hdremove ?_
    intro m hm
    by_cases hmn : m = n
    · rw [hmn, htask] at hm
      cases hm
    · exact hnot m (update_calls_eq_some.mpr (Or.inr ⟨hmn, hm⟩))
  · intro d hdremove
    rcases h.gone d hdremove with hcall | ⟨hnone, hhost⟩
    · exact Or.inl (update_calls_other htask (hremove d hdremove) hcall)
    · refine Or.inr ⟨hnone, ?_⟩
      intro host u hu
      rw [hfind] at hu
      split at hu
      · obtain rfl := Option.some.inj hu
        intro hid
        exact hremove d hdremove (hd.one _ hadd _ hdremove c d rfl rfl hid)
      · exact hhost host u hu

/-- An access of `remove` to the hosts, of which it takes out none or that of its
    client; `next` finds none of the client there if it is the last one. -/
theorem Consistent.hosts (h : s.Consistent) {task next : RegistryTask}
    {hosts : DashMap Text ConnectedClient} (htask : s.calls n = some task)
    (hremoves : task.removes = true) (hnext : next.client = task.client)
    (hnextRemoves : next.removes = true)
    (hsub : ∀ host u, hosts.lookup host = some u → s.reg.findByHost host = some u)
    (hleave : next = .removeClient task.client →
      ∀ host u, hosts.lookup host = some u → u.id ≠ task.client.id) :
    Consistent { s with
      reg := { s.reg with hosts := hosts }
      calls := Function.update s.calls n (some next) } := by
  refine ⟨⟨h.filed.primary, fun host u hu => h.filed.secondary host u (hsub host u hu)⟩,
    h.knownId, fun host u hu => h.knownHost host u (hsub host u hu),
    fun host u hu => h.present host u (hsub host u hu), ?_, ?_, ?_, ?_⟩
  · intro m d hm
    rcases update_calls_eq_some.mp hm with ⟨-, heq⟩ | ⟨-, hm⟩
    · obtain rfl := Option.some.inj heq
      cases hnextRemoves
    · exact h.entered m d hm
  · intro m d hm host u hu
    rcases update_calls_eq_some.mp hm with ⟨-, heq⟩ | ⟨-, hm⟩
    · obtain rfl := Option.some.inj heq
      obtain rfl : d = task.client := hnext
      exact hleave rfl host u hu
    · exact h.leaving m d hm host u (hsub host u hu)
  · intro d hdadd hdremove hnot
    refine h.live d hdadd hdremove ?_
    intro m hm
    by_cases hmn : m = n
    · rw [hmn, htask] at hm
      obtain rfl := Option.some.inj hm
      cases hremoves
    · exact hnot m (update_calls_eq_some.mpr (Or.inr ⟨hmn, hm⟩))
  · intro d hdremove
    rcases h.gone d hdremove with ⟨m, u, hu, hclient⟩ | ⟨hnone, hhost⟩
    · by_cases hmn : m = n
      · rw [hmn, htask] at hu
        obtain rfl := Option.some.inj hu
        exact Or.inl ⟨n, next, update_calls_eq_some.mpr (Or.inl ⟨rfl, rfl⟩), hnext.trans hclient⟩
      · exact Or.inl ⟨m, u, update_calls_eq_some.mpr (Or.inr ⟨hmn, hu⟩), hclient⟩
    · exact Or.inr ⟨hnone, fun host u hu => hhost host u (hsub host u hu)⟩

/-- The last access of `remove`. -/
theorem Consistent.removeClient (h : s.Consistent) (hd : s.Disciplined)
    (htask : s.calls n = some (.removeClient c)) :
    Consistent { s with
      reg := { s.reg with clients := s.reg.clients.erase c.id }
      calls := Function.update s.calls n none } := by
  have hadd : .add c ∈ s.begun := hd.added n _ htask
  have hget : ∀ i, Connections.get { s.reg with clients := s.reg.clients.erase c.id } i =
      if i = c.id then none else s.reg.get i := by
    intro i
    exact Table.lookup_erase_ite s.reg.clients c.id i
  have hcalls : ∀ {m u}, Function.update s.calls n none m = some u → s.calls m = some u := by
    intro m u hu
    rcases update_calls_eq_some.mp hu with ⟨-, heq⟩ | ⟨-, hu⟩
    · cases heq
    · exact hu
  refine ⟨RegistryTask.filed_turn h.filed (.removeClient c), ?_, h.knownHost, ?_, ?_, ?_, ?_, ?_⟩
  · intro i d hi
    rw [hget] at hi
    split at hi
    · cases hi
    · exact h.knownId i d hi
  · intro host u hu
    rw [hget, if_neg (h.leaving n c htask host u hu)]
    exact h.present host u hu
  · intro m d hm
    rw [hget, if_neg]
    · exact h.entered m d (hcalls hm)
    · intro hid
      obtain rfl : d = c := hd.eq_of_added (hd.added m _ (hcalls hm)) hadd hid
      exact hd.inserting m _ (hcalls hm) rfl (hd.removing n (.removeClient d) htask rfl)
  · intro m d hm
    exact h.leaving m d (hcalls hm)
  · intro d hdadd hdremove hnot
    rw [hget, if_neg]
    · refine h.live d hdadd hdremove ?_
      intro m hm
      by_cases hmn : m = n
      · rw [hmn, htask] at hm
        cases hm
      · exact hnot m (update_calls_eq_some.mpr (Or.inr ⟨hmn, hm⟩))
    · intro hid
      obtain rfl := hd.eq_of_added hdadd hadd hid
      exact hdremove (hd.removing n _ htask rfl)
  · intro d hdremove
    by_cases hcd : c = d
    · subst hcd
      exact Or.inr ⟨by rw [hget, if_pos rfl], h.leaving n c htask⟩
    · rcases h.gone d hdremove with hcall | ⟨hnone, hhost⟩
      · exact Or.inl (update_calls_other htask hcd hcall)
      · refine Or.inr ⟨?_, hhost⟩
        rw [hget]
        split
        · rfl
        · exact hnone

end Turn

theorem Consistent.turn (h : s.Consistent) (hd : s.Disciplined)
    (ht : s.step (.turn n) = some t) : t.Consistent := by
  obtain ⟨task, htask, rfl⟩ := turn_cases ht
  have hown : ∀ host u, s.reg.findByHost host = some u → u.id = task.client.id →
      host = task.client.fullHost := by
    intro host u hu hid
    rw [← hd.eq_of_added (h.knownHost host u hu) (hd.added n task htask) hid]
    exact (h.filed.secondary host u hu).symm
  cases task with
  | insertClient c => exact h.insertClient hd htask
  | insertHost c => exact h.insertHost hd htask
  | checkHost c =>
    simp only [RegistryTask.turn]
    split
    next =>
      exact h.hosts htask rfl rfl rfl (fun _ _ hu => hu) nofun
    next hother =>
      refine h.hosts htask rfl rfl rfl (fun _ _ hu => hu) ?_
      intro _ host u hu hid
      obtain rfl : host = c.fullHost := hown host u hu hid
      apply hother
      rw [show s.reg.findByHost c.fullHost = some u from hu, Option.any_some,
        decide_eq_true_eq]
      exact hid
  | removeHost c =>
    have hfind : ∀ host u, (s.reg.hosts.erase c.fullHost).lookup host = some u →
        host ≠ c.fullHost ∧ s.reg.findByHost host = some u := by
      intro host u hu
      rw [Table.lookup_erase_ite] at hu
      split at hu
      · cases hu
      next hne => exact ⟨hne, hu⟩
    refine h.hosts htask rfl rfl rfl (fun host u hu => (hfind host u hu).2) ?_
    intro _ host u hu hid
    obtain ⟨hne, hu⟩ := hfind host u hu
    exact hne (hown host u hu hid)
  | removeClient c => exact h.removeClient hd htask

theorem Consistent.call {op : RegistryOp} (h : s.Consistent) (hlife : s.OneLife (.call n op))
    (ht : s.step (.call n op) = some t) : t.Consistent := by
  obtain ⟨hnone, task, htask, rfl⟩ := call_cases ht
  have hmono : ∀ {o}, o ∈ s.begun → o ∈ s.begun ++ [op] := List.mem_append_left _
  have hkept : ∀ {m u}, s.calls m = some u →
      Function.update s.calls n (some task) m = some u := by
    intro m u hu
    refine update_calls_eq_some.mpr (Or.inr ⟨?_, hu⟩)
    rintro rfl
    cases hnone.symm.trans hu
  refine ⟨h.filed, fun i c hc => hmono (h.knownId i c hc),
    fun host c hc => hmono (h.knownHost host c hc), h.present, ?_, ?_, ?_, ?_⟩
  · intro m c hm
    rcases update_calls_eq_some.mp hm with ⟨-, heq⟩ | ⟨-, hm⟩
    · obtain rfl := Option.some.inj heq
      cases op with
      | updateHost d => exact hlife.elim
      | add d => cases htask
      | remove d => cases htask
      | iterate order => cases htask
    · exact h.entered m c hm
  · intro m c hm
    rcases update_calls_eq_some.mp hm with ⟨-, heq⟩ | ⟨-, hm⟩
    · obtain rfl := Option.some.inj heq
      cases op <;> cases htask
    · exact h.leaving m c hm
  · intro c hadd hremove hnot
    refine h.live c ?_ (fun hr => hremove (hmono hr)) fun m hm => hnot m (hkept hm)
    rw [List.mem_append, List.mem_singleton] at hadd
    rcases hadd with hadd | rfl
    · exact hadd
    · obtain rfl := Option.some.inj htask
      exact absurd (update_calls_eq_some.mpr (Or.inl ⟨rfl, rfl⟩)) (hnot n)
  · intro c hremove
    rw [List.mem_append, List.mem_singleton] at hremove
    rcases hremove with hremove | rfl
    · rcases h.gone c hremove with ⟨m, u, hu, hclient⟩ | hgone
      · exact Or.inl ⟨m, u, hkept hu, hclient⟩
      · exact Or.inr hgone
    · obtain rfl := Option.some.inj htask
      exact Or.inl ⟨n, _, update_calls_eq_some.mpr (Or.inl ⟨rfl, rfl⟩), rfl⟩

theorem Consistent.iterate {order : List (Sigma fun _ : ClientId => ConnectedClient)}
    (h : s.Consistent) : Consistent { s with reg := s.reg.iterate order } where
  filed := ⟨fun i c hc => h.filed.primary i c ((s.reg.get_iterate order i).symm.trans hc),
    h.filed.secondary⟩
  knownId i c hc := h.knownId i c ((s.reg.get_iterate order i).symm.trans hc)
  knownHost := h.knownHost
  present host c hc := (s.reg.get_iterate order c.id).trans (h.present host c hc)
  entered n c hc := (s.reg.get_iterate order c.id).trans (h.entered n c hc)
  leaving := h.leaving
  live c hadd hremove hnot :=
    (s.reg.get_iterate order c.id).trans (h.live c hadd hremove hnot)
  gone c hremove := by
    rw [s.reg.get_iterate order c.id]
    exact h.gone c hremove

theorem lives_step {e : SharedEvent} (h : s.Disciplined ∧ s.Consistent) (hlife : s.OneLife e)
    (ht : sharedRegistry.step s e = some t) : t.Disciplined ∧ t.Consistent := by
  cases e with
  | call n op => exact ⟨h.1.call hlife ht, h.2.call hlife ht⟩
  | turn n => exact ⟨h.1.turn ht, h.2.turn h.1 ht⟩
  | iterate order =>
    obtain rfl := Option.some.inj ht
    exact ⟨⟨h.1.one, h.1.added, h.1.removing, h.1.inserting, h.1.alone⟩, h.2.iterate⟩

theorem lives_new : new.Disciplined ∧ new.Consistent := by
  refine ⟨⟨nofun, nofun, nofun, nofun, nofun⟩, ?_⟩
  exact ⟨Index.Filed.empty, nofun, nofun, nofun, nofun, nofun, nofun, nofun⟩

end SharedRegistry

/-- In every interleaving in which the calls for one client keep to its life (one
    client an id, no add beside another call for it or after its removal has begun, no
    removal beside an add of it, no `update_host`): a host leads to a connected client
    that is registered under it; a client that has been added is found by its id until
    it is removed; and one that has been removed is found nowhere, not even as a
    wildcard. -/
theorem shared_coherent (es : List SharedEvent) (s : SharedRegistry)
    (hlife : sharedRegistry.Meets SharedRegistry.OneLife SharedRegistry.new es)
    (hrun : sharedRegistry.run SharedRegistry.new es = some s) :
    (∀ host c, s.reg.findByHost host = some c → host = c.fullHost ∧ s.reg.get c.id = some c) ∧
    (∀ c, .add c ∈ s.begun → .remove c ∉ s.begun → (∀ n, s.calls n ≠ some (.insertClient c)) →
      s.reg.get c.id = some c) ∧
    ∀ c, .remove c ∈ s.begun → (∀ n t, s.calls n = some t → t.client ≠ c) →
      s.reg.get c.id = none ∧ (∀ host u, s.reg.findByHost host = some u → u.id ≠ c.id) ∧
        ∀ domain, s.reg.findWildcard domain ≠ some c := by
  obtain ⟨-, h⟩ := Machine.run_invariant (I := fun s => s.Disciplined ∧ s.Consistent)
    (fun _ _ _ hI hg ht => SharedRegistry.lives_step hI hg ht)
    SharedRegistry.lives_new hlife hrun
  refine ⟨?_, h.live, ?_⟩
  · intro host c hc
    exact ⟨(h.filed.secondary host c hc).symm, h.present host c hc⟩
  · intro c hremove hover
    rcases h.gone c hremove with ⟨n, t, ht, hclient⟩ | ⟨hget, hhost⟩
    · exact absurd hclient (hover n t ht)
    · refine ⟨hget, hhost, ?_⟩
      intro domain hwild
      obtain ⟨⟨i, hi⟩, -⟩ := Connections.findWildcard_eq_some hwild
      obtain rfl : c.id = i := h.filed.primary i c hi
      cases hget.symm.trans hi

namespace Overlap

/-- The host changes hands before the task goes on. -/
def late : List SharedEvent := [.call 2 (.add second), .turn 2, .turn 2, .turn 1, .turn 1]

theorem oneLife_late :
    sharedRegistry.Meets SharedRegistry.OneLife SharedRegistry.new (looking ++ late) := by
  refine meets_looking (fun _ _ => trivial) ⟨nofun, nofun, nofun⟩ ⟨by simp [added], nofun⟩
    (.cons ⟨?_, by simp [looked, second, first], ?_⟩ rfl ?_)
  · intro op hop c hc hid
    have hfirst : c = first := by
      rcases List.mem_cons.mp hop with rfl | hop
      · exact (Option.some.inj hc).symm
      · obtain rfl := List.mem_singleton.mp hop
        exact (Option.some.inj hc).symm
    rw [hfirst] at hid
    exact absurd hid (by decide)
  · intro n t ht
    obtain ⟨-, rfl⟩ := calls_looked ht
    decide
  · exact .cons trivial rfl (.cons trivial rfl (.cons trivial rfl (.cons trivial rfl trivial)))

/-- Nobody has removed the second client, and yet its host leads nowhere: the
    removal of the first has taken it out. -/
theorem shared_coherent_late : ∃ s,
    sharedRegistry.run SharedRegistry.new (looking ++ late) = some s ∧
      s.reg.get second.id = some second ∧ s.reg.findByHost second.fullHost = none := by
  obtain ⟨s, hs, hbegun, hcalls, hfind⟩ : ∃ s,
      sharedRegistry.run SharedRegistry.new (looking ++ late) = some s ∧
        s.begun = [.add first, .remove first, .add second] ∧
        (∀ n, s.calls n = none) ∧ s.reg.findByHost second.fullHost = none := by
    refine ⟨_, rfl, rfl, ?_, rfl⟩
    intro n
    match n with
    | 0 => rfl
    | 1 => rfl
    | 2 => rfl
    | n + 3 => rfl
  obtain ⟨-, hlive, -⟩ := shared_coherent _ s oneLife_late hs
  refine ⟨s, hs, hlive second ?_ ?_ ?_, hfind⟩
  · simp [hbegun]
  · simp [hbegun, first, second]
  · intro n hn
    cases (hcalls n).symm.trans hn

-- An add that a removal overlaps: the client is removed, and its host leads to it.
example : ∃ s, sharedRegistry.run SharedRegistry.new
    [.call 0 (.add first), .turn 0, .turn 0, .call 0 (.add first), .turn 0,
      .call 1 (.remove first), .turn 1, .turn 1, .turn 1, .turn 0] = some s ∧
    s.reg.get first.id = none ∧ s.reg.findByHost first.fullHost = some first :=
  ⟨_, rfl, rfl, rfl⟩

end Overlap

end Neutun
