/-
  Neutun/Server/Connections.lean
  ==============================
  The server's registry of connected clients (`connected_clients.rs`) and its
  configuration (`config.rs`).

  `CONNECTIONS` is a primary table by client id and a secondary one by host
  name, updated one after the other.  The operations below are those of
  `impl Connections`; `toIndex` reads the registry as an instance of the two
  table collection of `Foundation.SecondaryIndex`, whose rules give the
  invariants.  Closing the client's channel, the other half of
  `Connections::remove`, is part of the server's state, not of the registry.

  A `DashMap` fixes no iteration order, so the order is a component of the
  registry's state that may change at any moment (`RegistryOp.iterate`).
-/
import Neutun.Wire
import Neutun.Foundation.Machine
import Neutun.Foundation.SecondaryIndex

namespace Neutun

open Foundation

/-! ### Configuration -/

/-- `SigKey([u8; 32])`. -/
structure SigKey where
  bytes : Bytes
  length_eq : bytes.length = 32
deriving DecidableEq

/-- `std::net::IpAddr`. -/
inductive IpAddr where
  | V4 (bits : BitVec 32)
  | V6 (bits : BitVec 128)
deriving DecidableEq

/-- The fields of `Config` that the modelled functions read. -/
structure Config where
  allowedHosts : List Text
  blockedSubDomains : List Text
  masterSigKey : SigKey
  blockedIps : List IpAddr
  masterKey : Option Text

/-! ### Connected clients -/

/-- `format!("{}.{}", sub_domain, domain)`. -/
def joinHost (subDomain domain : Text) : Text := subDomain ++ '.' :: domain

/-- `tx` names the channel made by `handle_new_connection`; clones of a client
    share it. -/
structure ConnectedClient where
  id : ClientId
  host : Text
  domain : Text
  isAnonymous : Bool
  wildcard : Bool
  tx : Nat
deriving DecidableEq

def ConnectedClient.fullHost (client : ConnectedClient) : Text :=
  joinHost client.host client.domain

abbrev DashMap (κ ν : Type) := Table κ ν

structure Connections where
  clients : DashMap ClientId ConnectedClient
  hosts : DashMap Text ConnectedClient

namespace Connections

def new : Connections := ⟨∅, ∅⟩

def updateHost (reg : Connections) (client : ConnectedClient) : Connections :=
  { reg with hosts := reg.hosts.insert client.fullHost client }

/-- The registry's part of `Connections::remove`. -/
def remove (reg : Connections) (client : ConnectedClient) : Connections :=
  -- ensure another client isn't using this host
  let hosts :=
    if (reg.hosts.lookup client.fullHost).any fun c => decide (c.id = client.id) then
      reg.hosts.erase client.fullHost
    else reg.hosts
  { clients := reg.clients.erase client.id, hosts := hosts }

def get (reg : Connections) (clientId : ClientId) : Option ConnectedClient :=
  reg.clients.lookup clientId

def findByHost (reg : Connections) (host : Text) : Option ConnectedClient :=
  reg.hosts.lookup host

def findWildcard (reg : Connections) (domain : Text) : Option ConnectedClient :=
  (Table.values reg.clients).find? fun c => c.wildcard && decide (c.domain = domain)

def add (reg : Connections) (client : ConnectedClient) : Connections :=
  { clients := reg.clients.insert client.id client
    hosts := reg.hosts.insert client.fullHost client }

/-- Iterations visit the clients in another order from now on. -/
def iterate (reg : Connections) (order : List (Sigma fun _ : ClientId => ConnectedClient)) :
    Connections :=
  { reg with clients := Table.reorder reg.clients order }

/-! ### The registry as a collection with a secondary index -/

def toIndex (reg : Connections) : Index ClientId Text ConnectedClient := ⟨reg.clients, reg.hosts⟩

theorem toIndex_add (reg : Connections) (c : ConnectedClient) :
    (reg.add c).toIndex = reg.toIndex.put ConnectedClient.id ConnectedClient.fullHost c := rfl

theorem toIndex_updateHost (reg : Connections) (c : ConnectedClient) :
    (reg.updateHost c).toIndex = reg.toIndex.point ConnectedClient.fullHost c := rfl

theorem toIndex_remove (reg : Connections) (c : ConnectedClient) :
    (reg.remove c).toIndex = reg.toIndex.drop ConnectedClient.id ConnectedClient.fullHost c := rfl

theorem get_add (reg : Connections) (c : ConnectedClient) (i : ClientId) :
    (reg.add c).get i = if i = c.id then some c else reg.get i :=
  Index.lookup_primary_put ConnectedClient.id ConnectedClient.fullHost reg.toIndex c i

theorem findByHost_add (reg : Connections) (c : ConnectedClient) (h : Text) :
    (reg.add c).findByHost h = if h = c.fullHost then some c else reg.findByHost h :=
  Index.lookup_secondary_put ConnectedClient.id ConnectedClient.fullHost reg.toIndex c h

theorem get_remove (reg : Connections) (c : ConnectedClient) (i : ClientId) :
    (reg.remove c).get i = if i = c.id then none else reg.get i :=
  Index.lookup_primary_drop ConnectedClient.id ConnectedClient.fullHost reg.toIndex c i

theorem findByHost_remove (reg : Connections) (c : ConnectedClient) (h : Text)
    (u : ConnectedClient) :
    (reg.remove c).findByHost h = some u ↔
      reg.findByHost h = some u ∧ ¬ (h = c.fullHost ∧ u.id = c.id) :=
  Index.lookup_secondary_drop ConnectedClient.id ConnectedClient.fullHost reg.toIndex c h u

@[simp] theorem get_iterate (reg : Connections)
    (order : List (Sigma fun _ : ClientId => ConnectedClient)) (i : ClientId) :
    (reg.iterate order).get i = reg.get i :=
  Table.lookup_reorder reg.clients order i

/-- Whatever the order of the iteration, the wildcard search returns a
    registered wildcard client of the domain. -/
theorem findWildcard_eq_some {reg : Connections} {domain : Text} {c : ConnectedClient}
    (h : reg.findWildcard domain = some c) :
    (∃ i, reg.get i = some c) ∧ c.wildcard = true ∧ c.domain = domain := by
  have hsat := List.find?_some h
  simp only [Bool.and_eq_true, decide_eq_true_eq] at hsat
  exact ⟨Table.mem_values.mp (List.mem_of_find?_eq_some h), hsat⟩

/-- The wildcard search fails only if there is no such client. -/
theorem findWildcard_eq_none {reg : Connections} {domain : Text} :
    reg.findWildcard domain = none ↔
      ∀ i c, reg.get i = some c → c.wildcard = true → c.domain ≠ domain := by
  unfold findWildcard
  rw [List.find?_eq_none]
  constructor
  · intro h i c hc hwild hdom
    exact h c (Table.mem_values.mpr ⟨i, hc⟩) (by simp [hwild, hdom])
  · intro h c hc hsat
    obtain ⟨i, hi⟩ := Table.mem_values.mp hc
    simp only [Bool.and_eq_true, decide_eq_true_eq] at hsat
    exact h i c hi hsat.1 hsat.2

end Connections

/-! ### Sequences of registry operations -/

inductive RegistryOp where
  | add (client : ConnectedClient)
  | updateHost (client : ConnectedClient)
  | remove (client : ConnectedClient)
  | iterate (order : List (Sigma fun _ : ClientId => ConnectedClient))

namespace RegistryOp

def apply (reg : Connections) : RegistryOp → Connections
  | add client => reg.add client
  | updateHost client => reg.updateHost client
  | remove client => reg.remove client
  | iterate order => reg.iterate order

/-- The client the operation is called with. -/
def client? : RegistryOp → Option ConnectedClient
  | add client | updateHost client | remove client => some client
  | iterate _ => none

end RegistryOp

/-- The registry as a machine: it starts as `Connections::new` and takes any
    operation at any time. -/
def registry : Machine Connections RegistryOp where
  start reg := reg = Connections.new
  step reg op := some (RegistryOp.apply reg op)

/-- In every reachable registry each entry is filed under its own id and its own
    full host. -/
theorem registry_filed {reg : Connections} (h : registry.Reachable reg) :
    Index.Filed ConnectedClient.id ConnectedClient.fullHost reg.toIndex := by
  refine Machine.Reachable.invariant
    (I := fun r => Index.Filed ConnectedClient.id ConnectedClient.fullHost r.toIndex)
    ?_ ?_ h
  · intro s hs
    subst hs
    exact Index.Filed.empty
  · intro s op t hI ht
    obtain rfl : RegistryOp.apply s op = t := Option.some.inj ht
    cases op with
    | add c =>
      rw [RegistryOp.apply, Connections.toIndex_add]
      exact hI.put c
    | updateHost c =>
      rw [RegistryOp.apply, Connections.toIndex_updateHost]
      exact hI.point c
    | remove c =>
      rw [RegistryOp.apply, Connections.toIndex_remove]
      exact hI.drop c
    | iterate order =>
      refine ⟨fun k v hv => hI.primary k v ?_, hI.secondary⟩
      exact (Table.lookup_reorder s.clients order k).symm.trans hv

/-- Both tables tell the same story about the clients in `S`. -/
abbrev Coherent (S : ConnectedClient → Prop) (reg : Connections) : Prop :=
  Index.Coherent ConnectedClient.id ConnectedClient.fullHost S reg.toIndex

/-- Each id that the operations mention belongs to one connection: the same
    host, domain, wildcard flag and channel in every call. -/
def OneConnectionPerId (ops : List RegistryOp) : Prop :=
  ∀ op ∈ ops, ∀ op' ∈ ops, ∀ c c', op.client? = some c → op'.client? = some c' →
    c.id = c'.id → c = c'

theorem coherent_iterate {S : ConnectedClient → Prop} {reg : Connections} (h : Coherent S reg)
    (order : List (Sigma fun _ : ClientId => ConnectedClient)) :
    Coherent S (reg.iterate order) where
  primary k v hv := h.primary k v ((Table.lookup_reorder reg.clients order k).symm.trans hv)
  secondary := h.secondary
  known k v hv := h.known k v ((Table.lookup_reorder reg.clients order k).symm.trans hv)
  present i v hv := (Table.lookup_reorder reg.clients order v.id).trans (h.present i v hv)

/-- One `add`, `remove` or change of iteration order keeps the registry coherent. -/
theorem coherent_apply {S : ConnectedClient → Prop}
    (hS : Index.OnePerKey ConnectedClient.id S) {reg : Connections} (h : Coherent S reg)
    {op : RegistryOp} (hop : ∀ c, op ≠ .updateHost c) (hclient : ∀ c, op.client? = some c → S c) :
    Coherent S (RegistryOp.apply reg op) := by
  cases op with
  | add c => exact h.put hS (hclient c rfl)
  | updateHost c => exact absurd rfl (hop c)
  | remove c => exact h.drop hS (hclient c rfl)
  | iterate order => exact coherent_iterate h order

/-- The clients a sequence of operations mentions. -/
def Mentioned (ops : List RegistryOp) (c : ConnectedClient) : Prop :=
  ∃ op ∈ ops, op.client? = some c

theorem OneConnectionPerId.onePerKey {ops : List RegistryOp} (h : OneConnectionPerId ops) :
    Index.OnePerKey ConnectedClient.id (Mentioned ops) := by
  rintro c c' ⟨op, hop, hc⟩ ⟨op', hop', hc'⟩ hid
  exact h op hop op' hop' c c' hc hc' hid

/-- Every sequence of additions and removals leaves the registry coherent. -/
theorem coherent_run {S : ConnectedClient → Prop} (hS : Index.OnePerKey ConnectedClient.id S) :
    ∀ {ops : List RegistryOp} {reg reg' : Connections}, Coherent S reg →
      (∀ op ∈ ops, ∀ c, op ≠ .updateHost c) → (∀ op ∈ ops, ∀ c, op.client? = some c → S c) →
      registry.run reg ops = some reg' → Coherent S reg'
  | [], reg, reg', h, _, _, hrun => by
    obtain rfl : reg = reg' := Option.some.inj hrun
    exact h
  | op :: ops, reg, reg', h, hops, hclients, hrun => by
    obtain ⟨u, hu, hrest⟩ := (registry.run_cons_eq_some).mp hrun
    obtain rfl : RegistryOp.apply reg op = u := Option.some.inj hu
    exact coherent_run hS
      (coherent_apply hS h (hops op List.mem_cons_self) (hclients op List.mem_cons_self))
      (fun o ho => hops o (List.mem_cons_of_mem _ ho))
      (fun o ho => hclients o (List.mem_cons_of_mem _ ho)) hrest

/-- Registry coherence over every sequence of additions and removals, and what a
    removal right after it does. -/
theorem registry_coherence (ops : List RegistryOp) (reg : Connections)
    (hops : ∀ op ∈ ops, ∀ c, op ≠ .updateHost c) (hone : OneConnectionPerId ops)
    (hrun : registry.run Connections.new ops = some reg) :
    -- the entries of the reached registry
    (∀ i c, reg.get i = some c → c.id = i) ∧
    (∀ h c, reg.findByHost h = some c → h = c.fullHost ∧ reg.get c.id = some c) ∧
    ∀ client, OneConnectionPerId (ops ++ [.remove client]) →
      -- the removed client is in neither table and is no wildcard answer
      ((reg.remove client).get client.id = none ∧
        (∀ h c, (reg.remove client).findByHost h = some c → c.id ≠ client.id) ∧
        ∀ order domain, ((reg.remove client).iterate order).findWildcard domain ≠ some client) ∧
      -- every entry of another id is as it was
      ((∀ i, i ≠ client.id → (reg.remove client).get i = reg.get i) ∧
        ∀ h c, c.id ≠ client.id →
          ((reg.remove client).findByHost h = some c ↔ reg.findByHost h = some c)) := by
  have hcoh : Coherent (Mentioned ops) reg :=
    coherent_run hone.onePerKey Index.Coherent.empty hops
      (fun op hop c hc => ⟨op, hop, hc⟩) hrun
  refine ⟨hcoh.primary, fun h c hc => ⟨(hcoh.secondary h c hc).symm, hcoh.present h c hc⟩, ?_⟩
  intro client hone'
  have hS := hone'.onePerKey
  have hclient : Mentioned (ops ++ [.remove client]) client := ⟨.remove client, by simp, rfl⟩
  have hcoh' : Coherent (Mentioned (ops ++ [.remove client])) reg :=
    coherent_run hS Index.Coherent.empty hops
      (fun op hop c hc => ⟨op, List.mem_append_left _ hop, hc⟩) hrun
  obtain ⟨hgone, hnohost⟩ := hcoh'.drop_forgets hS hclient
  refine ⟨⟨hgone, hnohost, ?_⟩, Index.drop_frame reg.toIndex client⟩
  intro order domain hw
  obtain ⟨⟨i, hi⟩, -⟩ := Connections.findWildcard_eq_some hw
  rw [Connections.get_iterate] at hi
  have hid : client.id = i := (hcoh'.drop hS hclient).primary i client hi
  rw [← hid] at hi
  exact absurd (hi.symm.trans hgone) (by simp)

/-- Two connections under one host: removing the first, whose entry the second
    has overwritten, leaves the second in place. -/
theorem registry_coherence_shared_host :
    ∃ (first second : ConnectedClient) (reg : Connections), first.fullHost = second.fullHost ∧
      registry.run Connections.new [.add first, .add second, .remove first] = some reg ∧
      reg.findByHost second.fullHost = some second ∧
      (reg.remove first).findByHost second.fullHost = some second := by
  let first : ConnectedClient := ⟨⟨['1']⟩, ['a'], ['b'], false, false, 0⟩
  let second : ConnectedClient := ⟨⟨['2']⟩, ['a'], ['b'], false, false, 1⟩
  let ops : List RegistryOp := [.add first, .add second, .remove first]
  have hone : OneConnectionPerId (ops ++ [.remove first]) := by
    simp [ops, first, second, OneConnectionPerId, RegistryOp.client?]
  have hone' : OneConnectionPerId ops := by
    simp [ops, first, second, OneConnectionPerId, RegistryOp.client?]
  have hreg := registry_coherence ops _ (by simp [ops]) hone' rfl
  have hframe := ((hreg.2.2 first hone).2.2 second.fullHost second (by decide)).mpr (by decide)
  exact ⟨first, second, _, rfl, rfl, by decide, hframe⟩

end Neutun
