/-
  Neutun/Server/Wildcards.lean
  ============================
  Wildcard clients and the order of the allowed hosts.

  `accept_connection` splits a host at the first allowed host that it is below,
  in the order of the configuration, and asks for a wildcard client of that one
  only.  Where one allowed host is below another, the wildcard client of the
  domain that comes later gets nothing; where none is, the order does not matter
  (`wildcard_routing_iff`).
-/
import Neutun.Server.Routing

namespace Neutun

open Foundation

/-! ### Hosts below a domain -/

/-- `host` is a subdomain of `domain`. -/
def Below (domain host : Text) : Prop := ('.' :: domain) <:+ host

instance (domain host : Text) : Decidable (Below domain host) :=
  inferInstanceAs (Decidable (('.' :: domain) <:+ host))

theorem below_joinHost (subDomain domain : Text) : Below domain (joinHost subDomain domain) :=
  ⟨subDomain, rfl⟩

theorem Below.length_lt {domain host : Text} (h : Below domain host) :
    domain.length < host.length := by
  have := h.length_le
  rwa [List.length_cons] at this

/-- Of two domains of a host the longer one is below the other. -/
theorem Below.nested {d e host : Text} (hd : Below d host) (he : Below e host)
    (hlt : d.length < e.length) : Below d e := by
  have hsuffix : ('.' :: d) <:+ ('.' :: e) :=
    List.suffix_of_suffix_length_le hd he (by simp only [List.length_cons]; omega)
  rcases List.suffix_cons_iff.mp hsuffix with heq | h
  · rw [(List.cons.inj heq).2] at hlt
    exact absurd hlt (Nat.lt_irrefl _)
  · exact h

theorem Below.eq_of_length {d e host : Text} (hd : Below d host) (he : Below e host)
    (hlen : d.length = e.length) : d = e := by
  have hsuffix : ('.' :: d) <:+ ('.' :: e) :=
    List.suffix_of_suffix_length_le hd he (by simp only [List.length_cons]; omega)
  have heq := hsuffix.eq_of_length (by simp only [List.length_cons]; omega)
  exact (List.cons.inj heq).2

theorem colon_not_mem_hostNoPort (header : Text) : ':' ∉ hostNoPort header := by
  intro h
  have := List.mem_takeWhile_imp h
  simp at this

/-- The split is at the first allowed host that the name is below. -/
theorem splitHost_eq_find (allowedHosts : List Text) (host : Text) :
    splitHost allowedHosts host = (allowedHosts.find? fun d => decide (Below d host)).map fun d =>
      (host.take (host.length - (d.length + 1)), d) := rfl

/-- A search with at most one possible answer does not depend on the order. -/
theorem find?_perm {α : Type*} {q : α → Bool} {xs ys : List α} (hperm : ys.Perm xs)
    (hone : ∀ x ∈ xs, ∀ y ∈ xs, q x = true → q y = true → x = y) : ys.find? q = xs.find? q := by
  cases hys : ys.find? q with
  | none =>
    symm
    rw [List.find?_eq_none] at hys ⊢
    intro x hx
    exact hys x (hperm.mem_iff.mpr hx)
  | some y =>
    have hy : y ∈ xs := hperm.mem_iff.mp (List.mem_of_find?_eq_some hys)
    have hqy := List.find?_some hys
    cases hxs : xs.find? q with
    | none => exact absurd hqy (List.find?_eq_none.mp hxs y hy)
    | some x =>
      rw [hone y hy x (List.mem_of_find?_eq_some hxs) hqy (List.find?_some hxs)]

/-! ### Who should get a connection -/

/-- `c` is registered as a wildcard client of the domain. -/
def Connections.HasWildcard (reg : Connections) (domain : Text) (c : ConnectedClient) : Prop :=
  (∃ i, reg.get i = some c) ∧ c.wildcard = true ∧ c.domain = domain

/-- Nobody but the wildcard client of `domain` may get the connections of `host`. -/
structure DueToWildcard (cfg : Config) (reg : Connections) (host domain : Text) : Prop where
  allowed : domain ∈ cfg.allowedHosts
  below : Below domain host
  registered : ∃ c, reg.HasWildcard domain c
  longest : ∀ d ∈ cfg.allowedHosts, Below d host → domain.length < d.length →
    ∀ c, ¬ reg.HasWildcard d c
  unregistered : reg.findByHost host = none
  noApex : host ∉ cfg.allowedHosts
  noControl : ∀ d ∈ cfg.allowedHosts, host ≠ joinHost "wormhole".toList d

/-- No allowed host that a connection can name is below another. -/
def Config.Flat (cfg : Config) : Prop :=
  ∀ d ∈ cfg.allowedHosts, ∀ e ∈ cfg.allowedHosts, ':' ∉ e → ¬ Below d e

section

variable {cfg : Config} {reg : Connections} {header domain : Text}

theorem findWildcard_isSome {c : ConnectedClient} (h : reg.HasWildcard domain c) :
    ∃ found, reg.findWildcard domain = some found ∧ reg.HasWildcard domain found := by
  obtain ⟨⟨i, hi⟩, hwild, hdomain⟩ := h
  cases hfound : reg.findWildcard domain with
  | none => exact absurd hdomain (Connections.findWildcard_eq_none.mp hfound i c hi hwild)
  | some found => exact ⟨found, rfl, Connections.findWildcard_eq_some hfound⟩

/-- The wildcard client gets them exactly if its domain is the first one in the
    configuration that the host is below. -/
theorem forwarded_iff_first (h : DueToWildcard cfg reg (hostNoPort header) domain) :
    (∃ c, reg.HasWildcard domain c ∧ acceptConnection cfg reg header = .Forward c) ↔
      cfg.allowedHosts.find? (fun d => decide (Below d (hostNoPort header))) = some domain := by
  constructor
  · rintro ⟨c, ⟨-, -, hdomain⟩, hforward⟩
    obtain ⟨-, subDomain, first, hsplit, -, hclient⟩ := acceptConnection_eq_forward hforward
    rw [h.unregistered] at hclient
    rcases hclient with hhost | ⟨-, hwild⟩
    · cases hhost
    · have hfirst : first = domain := by
        rw [← (Connections.findWildcard_eq_some hwild).2.2, hdomain]
      rw [splitHost_eq_find, Option.map_eq_some_iff] at hsplit
      obtain ⟨d, hfind, hpair⟩ := hsplit
      rw [hfind, ← hfirst, ← (Prod.mk.inj hpair).2]
  · intro hfind
    obtain ⟨subDomain, hsplit⟩ : ∃ subDomain,
        splitHost cfg.allowedHosts (hostNoPort header) = some (subDomain, domain) := by
      rw [splitHost_eq_find, hfind]
      exact ⟨_, rfl⟩
    obtain ⟨hmem, hjoin⟩ := splitHost_eq_some hsplit
    have hcontrol : subDomain ≠ "wormhole".toList := by
      intro heq
      exact h.noControl domain hmem (heq ▸ hjoin)
    obtain ⟨c, hc⟩ := h.registered
    obtain ⟨found, hfound, hwild⟩ := findWildcard_isSome hc
    refine ⟨found, hwild, ?_⟩
    have hnone := h.unregistered
    rw [hjoin] at hnone
    simp only [acceptConnection, validateHostPrefix_eq, if_neg h.noApex, hsplit, if_neg hcontrol,
      hnone, hfound]

/-- Without nesting a host is below one allowed host at most. -/
theorem Config.Flat.unique (hflat : cfg.Flat) {host d e : Text} (hcolon : ':' ∉ host)
    (hd : d ∈ cfg.allowedHosts) (he : e ∈ cfg.allowedHosts) (hdh : Below d host)
    (heh : Below e host) : d = e := by
  have hname : ∀ x, Below x host → ':' ∉ x := by
    intro x hx hmem
    exact hcolon (hx.subset (List.mem_cons_of_mem _ hmem))
  rcases Nat.lt_trichotomy d.length e.length with hlt | heq | hgt
  · exact absurd (hdh.nested heh hlt) (hflat d hd e he (hname e heh))
  · exact hdh.eq_of_length heh heq
  · exact absurd (heh.nested hdh hgt) (hflat e he d hd (hname d hdh))

theorem Config.Flat.first (hflat : cfg.Flat) (hallowed : domain ∈ cfg.allowedHosts)
    (hbelow : Below domain (hostNoPort header)) :
    cfg.allowedHosts.find? (fun d => decide (Below d (hostNoPort header))) = some domain := by
  cases hfind : cfg.allowedHosts.find? (fun d => decide (Below d (hostNoPort header))) with
  | none =>
    have := List.find?_eq_none.mp hfind domain hallowed
    exact absurd (decide_eq_true hbelow) this
  | some first =>
    have hfirst : Below first (hostNoPort header) := by
      simpa using List.find?_some hfind
    rw [hflat.unique (colon_not_mem_hostNoPort header) (List.mem_of_find?_eq_some hfind) hallowed
      hfirst hbelow]

/-- Without nesting the order of the configuration does not matter. -/
theorem Config.Flat.acceptConnection_perm (hflat : cfg.Flat) {hosts : List Text}
    (hperm : hosts.Perm cfg.allowedHosts) (reg : Connections) (header : Text) :
    acceptConnection { cfg with allowedHosts := hosts } reg header =
      acceptConnection cfg reg header := by
  have hfind : hosts.find? (fun d => decide (Below d (hostNoPort header))) =
      cfg.allowedHosts.find? fun d => decide (Below d (hostNoPort header)) := by
    apply find?_perm hperm
    intro d hd e he hdh heh
    exact hflat.unique (colon_not_mem_hostNoPort header) hd he (of_decide_eq_true hdh)
      (of_decide_eq_true heh)
  have hsplit : splitHost hosts (hostNoPort header) =
      splitHost cfg.allowedHosts (hostNoPort header) := by
    rw [splitHost_eq_find, splitHost_eq_find, hfind]
  simp only [acceptConnection, validateHostPrefix_eq, hsplit, hperm.mem_iff]

/-! ### Nested domains -/

/-- A host under `e` that is too long to be an allowed host. -/
def longHost (cfg : Config) (e : Text) : Text :=
  joinHost (List.replicate (cfg.allowedHosts.flatten.length + 1) 'a') e

theorem longHost_eq_cons (cfg : Config) (e : Text) : ∃ rest, longHost cfg e = 'a' :: rest :=
  ⟨_, rfl⟩

theorem longHost_not_mem (cfg : Config) (e : Text) : longHost cfg e ∉ cfg.allowedHosts := by
  intro hmem
  have hle := (List.sublist_flatten_of_mem hmem).length_le
  rw [longHost, joinHost, List.length_append, List.length_replicate] at hle
  omega

theorem hostNoPort_longHost (cfg : Config) {e : Text} (hcolon : ':' ∉ e) :
    hostNoPort (longHost cfg e) = longHost cfg e := by
  apply hostNoPort_of_no_colon
  simp [longHost, joinHost, hcolon]

/-- The only client, a wildcard client of the domain. -/
def onlyWildcard (domain : Text) : ConnectedClient :=
  ⟨⟨['1']⟩, ['w'], domain, false, true, 0⟩

theorem hasWildcard_only {d : Text} {c : ConnectedClient}
    (h : (Connections.new.add (onlyWildcard domain)).HasWildcard d c) : d = domain := by
  obtain ⟨⟨i, hi⟩, -, rfl⟩ := h
  rw [Connections.get_add] at hi
  split at hi
  · obtain rfl := Option.some.inj hi
    rfl
  · cases hi

theorem dueToWildcard_only {e : Text} (hcolon : ':' ∉ e) (hallowed : domain ∈ cfg.allowedHosts)
    (hbelow : Below domain (longHost cfg e)) :
    DueToWildcard cfg (Connections.new.add (onlyWildcard domain)) (hostNoPort (longHost cfg e))
      domain := by
  obtain ⟨rest, hrest⟩ := longHost_eq_cons cfg e
  rw [hostNoPort_longHost cfg hcolon]
  refine ⟨hallowed, hbelow, ?_, ?_, ?_, longHost_not_mem cfg e, ?_⟩
  · exact ⟨onlyWildcard domain, ⟨⟨['1']⟩, (Connections.get_add _ _ _).trans (if_pos rfl)⟩, rfl, rfl⟩
  · intro d _ _ hlt c hc
    rw [hasWildcard_only hc] at hlt
    exact Nat.lt_irrefl _ hlt
  · have hne : longHost cfg e ≠ (onlyWildcard domain).fullHost := by
      rw [hrest]
      simp [onlyWildcard, ConnectedClient.fullHost, joinHost]
    rw [Connections.findByHost_add, if_neg hne]
    rfl
  · intro d _
    rw [hrest]
    simp [joinHost]

/-- If one allowed host is below another, one of the two loses the connections
    of some host. -/
theorem flat_of_forwarded (h : ∀ reg header domain,
    DueToWildcard cfg reg (hostNoPort header) domain →
      ∃ c, reg.HasWildcard domain c ∧ acceptConnection cfg reg header = .Forward c) :
    cfg.Flat := by
  intro d hd e he hcolon hbelow
  have heh : Below e (longHost cfg e) := below_joinHost _ _
  have hdh : Below d (longHost cfg e) := by
    apply hbelow.trans
    exact ⟨_ ++ ['.'], List.append_assoc _ _ _⟩
  -- whichever comes first, the other one has a wildcard client
  have hfirst : ∀ x ∈ cfg.allowedHosts, Below x (longHost cfg e) →
      cfg.allowedHosts.find? (fun d => decide (Below d (longHost cfg e))) = some x := by
    intro x hx hxh
    have hdue := dueToWildcard_only hcolon hx hxh
    have hfind := (forwarded_iff_first hdue).mp (h _ _ _ hdue)
    rwa [hostNoPort_longHost cfg hcolon] at hfind
  have heq : d = e := Option.some.inj ((hfirst d hd hdh).symm.trans (hfirst e he heh))
  have hlt := hbelow.length_lt
  rw [heq] at hlt
  exact Nat.lt_irrefl _ hlt

end

/-- In one configuration, the connections that are due to the wildcard client of
    a domain go there exactly if the domain comes first among those the host is
    below.  In every registry, and under every order of the allowed hosts, this
    is so exactly if no allowed host is below another. -/
theorem wildcard_routing_iff (cfg : Config) :
    (∀ reg header domain, DueToWildcard cfg reg (hostNoPort header) domain →
      ((∃ c, reg.HasWildcard domain c ∧ acceptConnection cfg reg header = .Forward c) ↔
        cfg.allowedHosts.find? (fun d => decide (Below d (hostNoPort header))) = some domain)) ∧
    ((∀ reg header domain, DueToWildcard cfg reg (hostNoPort header) domain →
        ∃ c, reg.HasWildcard domain c ∧ acceptConnection cfg reg header = .Forward c) ∧
      (∀ hosts, hosts.Perm cfg.allowedHosts → ∀ reg header,
        acceptConnection { cfg with allowedHosts := hosts } reg header =
          acceptConnection cfg reg header) ↔
      cfg.Flat) := by
  refine ⟨fun reg header domain h => forwarded_iff_first h, ?_⟩
  constructor
  · rintro ⟨hforward, -⟩
    exact flat_of_forwarded hforward
  · intro hflat
    constructor
    · intro reg header domain h
      exact (forwarded_iff_first h).mpr (hflat.first h.allowed h.below)
    · intro hosts hperm reg header
      exact hflat.acceptConnection_perm hperm reg header

open AnnouncedHost in
/-- The wildcard client of "a.b.co" gets nothing when "b.co" is configured
    before, and all when it is configured after. -/
theorem wildcard_shadowed :
    let reg := Connections.new.add (onlyWildcard "a.b.co".toList)
    let hosts := ["b.co".toList, "a.b.co".toList]
    DueToWildcard { config with allowedHosts := hosts } reg "x.a.b.co".toList "a.b.co".toList ∧
      acceptConnection { config with allowedHosts := hosts } reg "x.a.b.co".toList = .NotFound ∧
      hosts.reverse.Perm hosts ∧
      acceptConnection { config with allowedHosts := hosts.reverse } reg "x.a.b.co".toList =
        .Forward (onlyWildcard "a.b.co".toList) := by
  intro reg hosts
  refine ⟨⟨by decide, by decide, ?_, ?_, by rfl, by decide, by decide⟩, by rfl,
    List.reverse_perm hosts, by rfl⟩
  · exact ⟨onlyWildcard "a.b.co".toList, ⟨⟨['1']⟩, by rfl⟩, rfl, rfl⟩
  · intro d _ _ hlt c hc
    rw [hasWildcard_only hc] at hlt
    exact Nat.lt_irrefl _ hlt

end Neutun
