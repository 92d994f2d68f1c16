/-
  Neutun/Server/Routing.lean
  ==========================
  Where a remote connection goes (`accept_connection` and `validate_host_prefix`
  of `remote.rs`).

  The host name is split on its bytes, with an index and a slice that panic when
  they are out of range or inside a character; `Panic` makes both visible.
  `validateHostPrefix_eq` shows that the loop is the plain search for the first
  allowed host that the name ends in after a dot, and that it never panics.
-/
import Mathlib.Data.List.TakeWhile
import Neutun.Server.Auth

namespace Neutun

open Foundation

/-! ### Strings as Rust indexes them -/

inductive Panic where
  | IndexOutOfBounds
  | NotACharBoundary
deriving DecidableEq, Repr

/-- `&s[..n]`, absent when `n` is no character boundary of `s`. -/
def sliceTo : Text → Nat → Option Text
  | _, 0 => some []
  | [], _ + 1 => none
  | c :: s, n + 1 =>
    if (String.utf8EncodeChar c).length ≤ n + 1 then
      (sliceTo s (n + 1 - (String.utf8EncodeChar c).length)).map (c :: ·)
    else none

/-- `host.split(":").next()` -/
def hostNoPort (host : Text) : Text := host.takeWhile fun c => !(c == ':')

/-- The loop of `validate_host_prefix` over the configured hosts. -/
def validateHostPrefix (host : Text) : List Text → Except Panic (Option (Text × Text))
  | [] => .ok none
  | allowed :: rest =>
    if utf8 allowed <:+ utf8 host then
      let lenSuffix := (utf8 allowed).length
      let lenHost := (utf8 host).length
      if lenSuffix < lenHost then
        match (utf8 host)[lenHost - lenSuffix - 1]? with
        | none => .error .IndexOutOfBounds
        | some b =>
          if b = UInt8.ofNat '.'.toNat then
            match sliceTo host (lenHost - lenSuffix - 1) with
            | none => .error .NotACharBoundary
            | some subDomain => .ok (some (subDomain, allowed))
          else validateHostPrefix host rest
      else validateHostPrefix host rest
    else validateHostPrefix host rest

/-! ### The split, on characters -/

/-- The first allowed host that `host` ends in after a dot, with what is before
    the dot. -/
def splitHost (allowedHosts : List Text) (host : Text) : Option (Text × Text) :=
  (allowedHosts.find? fun d => decide (('.' :: d) <:+ host)).map fun d =>
    (host.take (host.length - (d.length + 1)), d)

theorem sliceTo_utf8_append (s t : Text) : sliceTo (s ++ t) (utf8 s).length = some s := by
  induction s with
  | nil => cases t <;> rfl
  | cons c s ih =>
    have hpos : 0 < (String.utf8EncodeChar c).length :=
      List.length_pos_iff.mpr (utf8EncodeChar_ne_nil c)
    rw [List.cons_append, utf8_cons, List.length_append]
    obtain ⟨n, hn⟩ : ∃ n, (String.utf8EncodeChar c).length + (utf8 s).length = n + 1 :=
      ⟨_, (Nat.succ_pred_eq_of_pos (by omega)).symm⟩
    rw [hn, sliceTo, if_pos (by omega), ← hn, Nat.add_sub_cancel_left, ih]
    rfl

theorem utf8_dot_cons (s : Text) : utf8 ('.' :: s) = UInt8.ofNat '.'.toNat :: utf8 s := rfl

/-- The byte tests of the loop body, at the level of characters. -/
theorem endsWith_dot_iff (allowed host : Text) :
    (utf8 allowed <:+ utf8 host ∧ (utf8 allowed).length < (utf8 host).length ∧
        (utf8 host)[(utf8 host).length - (utf8 allowed).length - 1]? =
          some (UInt8.ofNat '.'.toNat)) ↔
      ('.' :: allowed) <:+ host := by
  constructor
  · rintro ⟨⟨before, hbefore⟩, hlt, hbyte⟩
    have hlen : (utf8 host).length = before.length + (utf8 allowed).length := by
      rw [← hbefore, List.length_append]
    obtain ⟨xs, b, rfl⟩ : ∃ xs b, before = xs ++ [b] := by
      have hne : before ≠ [] := by
        rintro rfl
        simp only [List.length_nil] at hlen
        omega
      exact ⟨before.dropLast, before.getLast hne, (List.dropLast_append_getLast hne).symm⟩
    rw [hlen, List.length_append, List.length_singleton,
      show xs.length + 1 + (utf8 allowed).length - (utf8 allowed).length - 1 = xs.length by omega,
      ← hbefore, List.append_assoc, List.singleton_append] at hbyte
    rw [List.getElem?_append_right (Nat.le_refl _), Nat.sub_self] at hbyte
    obtain rfl : b = UInt8.ofNat '.'.toNat := by simpa using hbyte
    rw [List.append_assoc, List.singleton_append] at hbefore
    obtain ⟨s, q, hsplit, -, hq⟩ := utf8_eq_append_ascii (by decide) hbefore.symm
    exact ⟨s, by rw [hsplit, utf8_injective hq]; rfl⟩
  · rintro ⟨s, rfl⟩
    have hutf8 : utf8 (s ++ '.' :: allowed) =
        utf8 s ++ UInt8.ofNat '.'.toNat :: utf8 allowed := by
      rw [utf8_append, utf8_dot_cons]
    have hlen : (utf8 (s ++ '.' :: allowed)).length =
        (utf8 s).length + 1 + (utf8 allowed).length := by
      rw [hutf8, List.length_append, List.length_cons]
      omega
    refine ⟨⟨utf8 s ++ [UInt8.ofNat '.'.toNat], by rw [hutf8]; simp⟩, by omega, ?_⟩
    rw [hlen, show (utf8 s).length + 1 + (utf8 allowed).length - (utf8 allowed).length - 1 =
      (utf8 s).length by omega, hutf8, List.getElem?_append_right (Nat.le_refl _), Nat.sub_self]
    rfl

/-- The loop never panics and finds the first match. -/
theorem validateHostPrefix_eq (host : Text) (allowedHosts : List Text) :
    validateHostPrefix host allowedHosts = .ok (splitHost allowedHosts host) := by
  induction allowedHosts with
  | nil => rfl
  | cons allowed rest ih =>
    by_cases hdot : ('.' :: allowed) <:+ host
    · obtain ⟨hends, hlt, hbyte⟩ := (endsWith_dot_iff allowed host).mpr hdot
      have hsplit : splitHost (allowed :: rest) host =
          some (host.take (host.length - (allowed.length + 1)), allowed) := by
        simp [splitHost, hdot]
      rw [hsplit]
      simp only [validateHostPrefix, if_pos hends, if_pos hlt, hbyte, if_true]
      obtain ⟨s, rfl⟩ := hdot
      have hlen : (utf8 (s ++ '.' :: allowed)).length - (utf8 allowed).length - 1 =
          (utf8 s).length := by
        rw [utf8_append, utf8_dot_cons, List.length_append, List.length_cons]
        omega
      rw [hlen, sliceTo_utf8_append]
      simp
    · have hsplit : splitHost (allowed :: rest) host = splitHost rest host := by
        simp [splitHost, hdot]
      rw [hsplit, ← ih]
      simp only [validateHostPrefix]
      -- every test but the last may succeed, the byte before the suffix is no dot
      split
      · next hends =>
        split
        · next hlt =>
          split
          · next hnone =>
            rw [List.getElem?_eq_none_iff] at hnone
            omega
          · next b hb =>
            rw [if_neg fun hbdot => hdot ((endsWith_dot_iff allowed host).mp
              ⟨hends, hlt, by rw [hb, hbdot]⟩)]
        · rfl
      · rfl

/-- A split puts the name together again. -/
theorem splitHost_eq_some {allowedHosts : List Text} {host subDomain domain : Text}
    (h : splitHost allowedHosts host = some (subDomain, domain)) :
    domain ∈ allowedHosts ∧ host = joinHost subDomain domain := by
  obtain ⟨d, hfind, heq⟩ := Option.map_eq_some_iff.mp h
  obtain ⟨rfl, rfl⟩ := Prod.mk.inj heq
  refine ⟨List.mem_of_find?_eq_some hfind, ?_⟩
  obtain ⟨s, rfl⟩ : ('.' :: d) <:+ host := by simpa using List.find?_some hfind
  simp [joinHost]

/-- The allowed host of a split is the first one that fits. -/
theorem splitHost_eq_some_iff {allowedHosts : List Text} {host subDomain domain : Text} :
    splitHost allowedHosts host = some (subDomain, domain) ↔
      joinHost subDomain domain = host ∧ ∃ before after,
        allowedHosts = before ++ domain :: after ∧ ∀ d ∈ before, ¬('.' :: d) <:+ host := by
  constructor
  · intro h
    obtain ⟨d, hfind, heq⟩ := Option.map_eq_some_iff.mp h
    obtain ⟨-, rfl⟩ := Prod.mk.inj heq
    obtain ⟨-, before, after, hsplit, hfirst⟩ := List.find?_eq_some_iff_append.mp hfind
    refine ⟨(splitHost_eq_some h).2.symm, before, after, hsplit, ?_⟩
    intro d' hd'
    simpa using hfirst d' hd'
  · rintro ⟨rfl, before, after, rfl, hfirst⟩
    have hfind : (before ++ domain :: after).find? (fun d =>
        decide (('.' :: d) <:+ joinHost subDomain domain)) = some domain := by
      apply List.find?_eq_some_iff_append.mpr
      refine ⟨by simp [joinHost], before, after, rfl, ?_⟩
      intro d hd
      simpa using hfirst d hd
    rw [splitHost, hfind]
    simp [joinHost]

theorem splitHost_eq_none_iff {allowedHosts : List Text} {host : Text} :
    splitHost allowedHosts host = none ↔ ∀ d ∈ allowedHosts, ¬('.' :: d) <:+ host := by
  simp [splitHost]

theorem splitHost_isSome {allowedHosts : List Text} (subDomain : Text) {domain : Text}
    (h : domain ∈ allowedHosts) : (splitHost allowedHosts (joinHost subDomain domain)).isSome := by
  rw [splitHost, Option.isSome_map, List.find?_isSome]
  exact ⟨domain, h, by simp [joinHost]⟩

/-! ### `accept_connection` -/

/-- What becomes of a remote connection whose `Host` header has been read. -/
inductive Route where
  | HelloWorld
  | InvalidHost
  | Control
  | Forward (client : ConnectedClient)
  | Proxy (instanceOf : Instance)
  | NotFound
  | ErrorLocatingHost
  | Panicked (panic : Panic)

def acceptConnection (cfg : Config) (reg : Connections) (host : Text) : Route :=
  let hostNoPort := hostNoPort host
  if hostNoPort ∈ cfg.allowedHosts then .HelloWorld
  else
    match validateHostPrefix hostNoPort cfg.allowedHosts with
    | .error panic => .Panicked panic
    | .ok none => .InvalidHost
    | .ok (some (subDomain, domain)) =>
      -- Special case -- we redirect this tcp connection to the control server
      if subDomain = "wormhole".toList then .Control
      else
        let fullHost := joinHost subDomain domain
        match reg.findByHost fullHost with
        | some client => .Forward client
        | none =>
          -- try to find a wildcard client for this domain
          match reg.findWildcard domain with
          | some client => .Forward client
          | none =>
            match instanceForHost fullHost with
            | .ok (i, _) => .Proxy i
            | .error .DoesNotServeHost => .NotFound
            | .error _ => .ErrorLocatingHost

/-- What `accept_connection` has established when it forwards to a client. -/
theorem acceptConnection_eq_forward {cfg : Config} {reg : Connections} {host : Text}
    {c : ConnectedClient} (h : acceptConnection cfg reg host = .Forward c) :
    hostNoPort host ∉ cfg.allowedHosts ∧ ∃ subDomain domain,
      splitHost cfg.allowedHosts (hostNoPort host) = some (subDomain, domain) ∧
      subDomain ≠ "wormhole".toList ∧
      (reg.findByHost (hostNoPort host) = some c ∨
        reg.findByHost (hostNoPort host) = none ∧ reg.findWildcard domain = some c) := by
  simp only [acceptConnection, validateHostPrefix_eq] at h
  split at h
  · cases h
  next hallowed =>
  refine ⟨hallowed, ?_⟩
  cases hsplit : splitHost cfg.allowedHosts (hostNoPort host) with
  | none => simp [hsplit] at h
  | some pair =>
    obtain ⟨subDomain, domain⟩ := pair
    refine ⟨subDomain, domain, rfl, ?_⟩
    simp only [hsplit] at h
    split at h
    · cases h
    next hcontrol =>
    refine ⟨hcontrol, ?_⟩
    rw [← (splitHost_eq_some hsplit).2] at h
    split at h
    · next client hclient =>
      obtain rfl : client = c := by simpa using h
      exact Or.inl hclient
    next hnone =>
    split at h
    · next client hclient =>
      obtain rfl : client = c := by simpa using h
      exact Or.inr ⟨hnone, hclient⟩
    · split at h <;> cases h

/-- When the registered client of a host gets its connections. -/
theorem acceptConnection_forward {cfg : Config} {reg : Connections} {host subDomain domain : Text}
    {c : ConnectedClient} (hallowed : hostNoPort host ∉ cfg.allowedHosts)
    (hsplit : splitHost cfg.allowedHosts (hostNoPort host) = some (subDomain, domain))
    (hcontrol : subDomain ≠ "wormhole".toList) (hc : reg.findByHost (hostNoPort host) = some c) :
    acceptConnection cfg reg host = .Forward c := by
  obtain ⟨-, hjoin⟩ := splitHost_eq_some hsplit
  rw [hjoin] at hc
  simp only [acceptConnection, validateHostPrefix_eq, if_neg hallowed, hsplit, if_neg hcontrol, hc]

theorem hostNoPort_of_no_colon {host : Text} (h : ':' ∉ host) : hostNoPort host = host := by
  apply List.takeWhile_eq_self_iff.mpr
  intro c hc
  have hne : c ≠ ':' := fun heq => h (heq ▸ hc)
  simpa using hne

theorem hostNoPort_port {host : Text} (h : ':' ∉ host) (port : Text) :
    hostNoPort (host ++ ':' :: port) = host := by
  have hself := hostNoPort_of_no_colon h
  unfold hostNoPort at hself ⊢
  rw [List.takeWhile_append, hself]
  simp

/-! ### Splitting is exact -/

/-- `accept_connection` without an index or a slice, and with the host itself as
    the key of its lookups. -/
def routeOfHost (cfg : Config) (reg : Connections) (host : Text) : Route :=
  if host ∈ cfg.allowedHosts then .HelloWorld
  else
    match splitHost cfg.allowedHosts host with
    | none => .InvalidHost
    | some (subDomain, domain) =>
      if subDomain = "wormhole".toList then .Control
      else
        match (reg.findByHost host).or (reg.findWildcard domain) with
        | some client => .Forward client
        | none =>
          match instanceForHost host with
          | .ok (i, _) => .Proxy i
          | .error .DoesNotServeHost => .NotFound
          | .error _ => .ErrorLocatingHost

theorem acceptConnection_eq_routeOfHost (cfg : Config) (reg : Connections) (header : Text) :
    acceptConnection cfg reg header = routeOfHost cfg reg (hostNoPort header) := by
  simp only [acceptConnection, routeOfHost, validateHostPrefix_eq]
  cases hsplit : splitHost cfg.allowedHosts (hostNoPort header) with
  | none => rfl
  | some pair =>
    obtain ⟨subDomain, domain⟩ := pair
    simp only [← (splitHost_eq_some hsplit).2]
    cases reg.findByHost (hostNoPort header) with
    | some client => rfl
    | none => cases reg.findWildcard domain <;> rfl

/-- `validate_host_prefix` finds the first allowed host that the name ends in
    after a dot, and splits the name there and nowhere else. -/
theorem validateHostPrefix_exact (allowedHosts : List Text) (host : Text) :
    (∃ result, validateHostPrefix host allowedHosts = .ok result ∧
      (∀ subDomain domain, result = some (subDomain, domain) ↔
        joinHost subDomain domain = host ∧ ∃ before after,
          allowedHosts = before ++ domain :: after ∧ ∀ d ∈ before, ¬('.' :: d) <:+ host) ∧
      (result = none ↔ ∀ d ∈ allowedHosts, ¬('.' :: d) <:+ host)) ∧
    ∀ (cfg : Config) (reg : Connections) (header : Text),
      acceptConnection cfg reg header = routeOfHost cfg reg (hostNoPort header) ∧
        ∀ panic, acceptConnection cfg reg header ≠ .Panicked panic := by
  constructor
  · exact ⟨splitHost allowedHosts host, validateHostPrefix_eq host allowedHosts,
      fun _ _ => splitHost_eq_some_iff, splitHost_eq_none_iff⟩
  · intro cfg reg header
    refine ⟨acceptConnection_eq_routeOfHost cfg reg header, ?_⟩
    intro panic
    rw [acceptConnection_eq_routeOfHost]
    unfold routeOfHost
    repeat' split
    all_goals exact nofun

/-! ### Routing is sound -/

/-- A connection is handed to the client registered under exactly its host, or,
    when there is none, to a wildcard client of the allowed domain its host
    belongs to. -/
theorem routing_sound (cfg : Config) (reg : Connections) (hreg : registry.Reachable reg)
    (host : Text) (c : ConnectedClient) (hfwd : acceptConnection cfg reg host = .Forward c) :
    hostNoPort host ∉ cfg.allowedHosts ∧
      (c.fullHost = hostNoPort host ∨
        c.wildcard = true ∧ c.domain ∈ cfg.allowedHosts ∧
          (∃ before, hostNoPort host = before ++ '.' :: c.domain) ∧
          ∀ other, reg.findByHost (hostNoPort host) ≠ some other) := by
  obtain ⟨hallowed, subDomain, domain, hsplit, -, hclient⟩ := acceptConnection_eq_forward hfwd
  obtain ⟨hmem, hjoin⟩ := splitHost_eq_some hsplit
  refine ⟨hallowed, ?_⟩
  rcases hclient with hclient | ⟨hnone, hwild⟩
  · exact Or.inl ((registry_filed hreg).secondary _ c hclient)
  · obtain ⟨-, hw, rfl⟩ := Connections.findWildcard_eq_some hwild
    exact Or.inr ⟨hw, hmem, ⟨subDomain, hjoin⟩, fun other => by rw [hnone]; exact nofun⟩

/-- A wildcard client of `b` gets a connection for a host nobody registered. -/
theorem routing_sound_wildcard :
    ∃ (cfg : Config) (reg : Connections) (c : ConnectedClient),
      acceptConnection cfg reg "x.b:80".toList = .Forward c ∧ c.fullHost ≠ "x.b".toList ∧
      (c.wildcard = true ∧ c.domain ∈ cfg.allowedHosts) := by
  let cfg : Config := ⟨["b".toList], [], ⟨List.replicate 32 0, rfl⟩, [], none⟩
  let c : ConnectedClient := ⟨⟨['1']⟩, "a".toList, "b".toList, false, true, 0⟩
  have hreach : registry.Reachable (Connections.new.add c) := ⟨_, [.add c], rfl, rfl⟩
  have hfwd : acceptConnection cfg (Connections.new.add c) "x.b:80".toList = .Forward c := by rfl
  have hne : c.fullHost ≠ "x.b".toList := by decide
  refine ⟨cfg, _, c, hfwd, hne, ?_⟩
  rcases (routing_sound cfg _ hreach _ c hfwd).2 with heq | ⟨hwild, hdomain, -⟩
  · exact absurd heq hne
  · exact ⟨hwild, hdomain⟩

/-! ### Announced hosts -/

/-- A registered host gets its connections, under its own spelling and with or
    without a port, unless the name is taken by one of the two special cases of
    `accept_connection` or is cut short at a colon. -/
theorem announced_host_reachable (p : Platform) (cfg : Config) (reg₀ reg : Connections)
    (now : Time) (generated : ClientId) (random : Text) (hello : Option ClientHello)
    (hs : ClientHandshake) (tx : Nat) (port : Text)
    (hauth : authClient p cfg reg₀ now generated random hello = .ok hs)
    (hreg : reg.findByHost hs.fullHost = some (hs.client tx))
    (hcolon : ':' ∉ hs.fullHost) (hapex : hs.fullHost ∉ cfg.allowedHosts)
    (hcontrol : ∀ domain,
      splitHost cfg.allowedHosts hs.fullHost ≠ some ("wormhole".toList, domain)) :
    acceptConnection cfg reg hs.fullHost = .Forward (hs.client tx) ∧
      acceptConnection cfg reg (hs.fullHost ++ ':' :: port) = .Forward (hs.client tx) := by
  obtain ⟨hello, key, -, -, hhello, -⟩ := authClient_ok hauth
  have hdomain := helloDomain_ok hhello
  obtain ⟨⟨subDomain, domain⟩, hsplit⟩ :=
    Option.isSome_iff_exists.mp (splitHost_isSome hs.subDomain hdomain)
  change splitHost cfg.allowedHosts hs.fullHost = some (subDomain, domain) at hsplit
  have hsub : subDomain ≠ "wormhole".toList := fun heq => hcontrol domain (heq ▸ hsplit)
  have hforward : ∀ header, hostNoPort header = hs.fullHost →
      acceptConnection cfg reg header = .Forward (hs.client tx) := by
    intro header hheader
    have hsplit' : splitHost cfg.allowedHosts (hostNoPort header) = some (subDomain, domain) := by
      rw [hheader]; exact hsplit
    exact acceptConnection_forward (by rw [hheader]; exact hapex) hsplit' hsub
      (by rw [hheader]; exact hreg)
  exact ⟨hforward _ (hostNoPort_of_no_colon hcolon), hforward _ (hostNoPort_port hcolon port)⟩

namespace AnnouncedHost

/-- One allowed domain, no blocked names and the key "k". -/
def config : Config := ⟨["b.co".toList], [], ⟨List.replicate 32 0, rfl⟩, [], some "k".toList⟩

def hello (subDomain : Text) : ClientHello :=
  ⟨⟨[]⟩, some subDomain, none, .Auth ⟨"k".toList⟩, none, false⟩

def handshake (subDomain : Text) : ClientHandshake :=
  ⟨⟨['1']⟩, subDomain, "b.co".toList, false, false⟩

end AnnouncedHost

open AnnouncedHost in
/-- The client "a" of "b.co" is reached on any port. -/
theorem announced_host_reachable_plain :
    ∃ reg : Connections,
      acceptConnection config reg "a.b.co:8080".toList = .Forward ((handshake ['a']).client 0) :=
  ⟨Connections.new.add ((handshake ['a']).client 0),
    (announced_host_reachable Platform.ascii config Connections.new _ 0 ⟨['1']⟩ []
      (some (hello "A".toList)) (handshake ['a']) 0 "8080".toList (by rfl) (by rfl) (by decide)
      (by decide) (fun domain h => by
        have hsplit : splitHost config.allowedHosts (handshake ['a']).fullHost =
          some ("a".toList, "b.co".toList) := by decide
        rw [hsplit] at h
        simp at h)).2⟩

open AnnouncedHost in
/-- A client may be admitted and registered as "wormhole", but its connections
    go to the control server. -/
theorem announced_host_unreachable :
    ∃ (hs : ClientHandshake) (reg : Connections),
      authClient Platform.ascii config Connections.new 0 ⟨['1']⟩ []
        (some (hello "wormhole".toList)) = .ok hs ∧ hs.wildcard = false ∧
      reg.findByHost hs.fullHost = some (hs.client 0) ∧
      acceptConnection config reg hs.fullHost = .Control := by
  refine ⟨handshake "wormhole".toList, Connections.new.add ((handshake "wormhole".toList).client 0),
    by rfl, rfl, by rfl, by rfl⟩

end Neutun
