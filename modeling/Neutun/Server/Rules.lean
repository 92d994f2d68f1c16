/-
  Neutun/Server/Rules.lean
  ========================
  The rules of admission, against what `auth_client` checks on each way in.

    * Names: what `sanitize_sub_domain_and_pre_validate` lets through is a
      lower-case name of alphanumeric characters and hyphens, not always a DNS
      label (`accepted_names`).
    * The collision check of the auth service asks for the bare subdomain, which
      is no host, and never finds anybody (`collision_check_iff`).
    * A reconnect token gets a client past the blocked names and past the holder
      of the host (`admission_rules_iff`).
-/
import Neutun.Server.Succession

namespace Neutun

open Foundation

variable {p : Platform} {cfg : Config}

/-! ### Names -/

/-- A label of a host name: ASCII letters in lower case, digits and hyphens, with
    no hyphen at either end. -/
structure DnsLabel (s : Text) : Prop where
  nonempty : s ≠ []
  length : (utf8 s).length ≤ 63
  chars : ∀ c ∈ s, c.isLower = true ∨ c.isDigit = true ∨ c = '-'
  head : s.head? ≠ some '-'
  last : s.getLast? ≠ some '-'

theorem Platform.isAlphanumeric_of_isAlphanum {c : Char} (h : c.isAlphanum = true) :
    p.isAlphanumeric c = true := by
  have hkind : (c.isUpper || c.isLower || c.isDigit) = true := h
  have hz : c.val ≤ 'z'.val := by
    simp only [Bool.or_eq_true] at hkind
    rcases hkind with (hupper | hlower) | hdigit
    · exact UInt32.le_trans (of_decide_eq_true hupper).2 (by decide)
    · exact of_decide_eq_true (Bool.and_eq_true_iff.mp hlower).2
    · exact UInt32.le_trans (of_decide_eq_true (Bool.and_eq_true_iff.mp hdigit).2) (by decide)
  have hascii : c.val.toNat < 0x80 :=
    Nat.lt_of_le_of_lt (UInt32.le_iff_toNat_le.mp hz) (by decide)
  rw [p.isAlphanumeric_ascii c hascii, h]

/-- A label passes the character test, whichever Unicode tables are used. -/
theorem DnsLabel.allowed {s : Text} (h : DnsLabel s) :
    ∀ c ∈ s, p.isAlphanumeric c = true ∨ c = '-' := by
  intro c hc
  rcases h.chars c hc with hlower | hdigit | heq
  · left
    apply p.isAlphanumeric_of_isAlphanum
    change (c.isUpper || c.isLower || c.isDigit) = true
    rw [hlower, Bool.or_true, Bool.true_or]
  · left
    apply p.isAlphanumeric_of_isAlphanum
    change (c.isUpper || c.isLower || c.isDigit) = true
    rw [hdigit, Bool.or_true]
  · exact Or.inr heq

/-- The name checks accept exactly the names that pass each of them. -/
theorem sanitize_eq_ok {reg : Connections} {requested domain s : Text} {clientId : ClientId}
    {wildcard : Bool} :
    sanitizeSubDomainAndPreValidate p cfg reg requested domain clientId wildcard = .ok s ↔
      s = p.toLowercase requested ∧ (∀ c ∈ s, p.isAlphanumeric c = true ∨ c = '-') ∧
        s ∉ cfg.blockedSubDomains ∧ reg.findByHost (joinHost s domain) = none ∧
        (wildcard = true → wildcardInUse reg domain clientId = false) := by
  constructor
  · exact sanitize_ok
  · rintro ⟨rfl, hchars, hblocked, hfree, hwild⟩
    have hallowed : (wildcard && wildcardInUse reg domain clientId) = false := by
      cases hw : wildcard with
      | false => rfl
      | true => exact hwild hw
    rw [sanitize_of_valid hchars hblocked, hfree, hallowed]
    rfl

/-- An accepted name is the request in lower case and has only alphanumeric
    characters and hyphens.  Each request for such a name, so each one for a
    label, is accepted unless the name is blocked or taken. -/
theorem accepted_names (p : Platform) (cfg : Config) (reg : Connections) (requested domain : Text)
    (clientId : ClientId) (wildcard : Bool) :
    (∀ s, sanitizeSubDomainAndPreValidate p cfg reg requested domain clientId wildcard = .ok s →
      s = p.toLowercase requested ∧ ∀ c ∈ s, p.isAlphanumeric c = true ∨ c = '-') ∧
    (DnsLabel (p.toLowercase requested) ∨
        p.toLowercase requested ≠ [] ∧
          (∀ c ∈ p.toLowercase requested, p.isAlphanumeric c = true ∨ c = '-') →
      p.toLowercase requested ∉ cfg.blockedSubDomains →
      reg.findByHost (joinHost (p.toLowercase requested) domain) = none →
      (wildcard = true → wildcardInUse reg domain clientId = false) →
      sanitizeSubDomainAndPreValidate p cfg reg requested domain clientId wildcard =
        .ok (p.toLowercase requested)) := by
  constructor
  · intro s h
    obtain ⟨hlower, hchars, -⟩ := sanitize_eq_ok.mp h
    exact ⟨hlower, hchars⟩
  · intro hname hblocked hfree hwild
    apply sanitize_eq_ok.mpr
    refine ⟨rfl, ?_, hblocked, hfree, hwild⟩
    rcases hname with hlabel | ⟨-, hchars⟩
    · exact hlabel.allowed
    · exact hchars

open AnnouncedHost in
/-- A hyphen is accepted, and so is a name of 64 letters. -/
theorem accepted_no_label :
    (sanitizeSubDomainAndPreValidate Platform.ascii config Connections.new ['-'] "b.co".toList
        ⟨['1']⟩ false = .ok ['-'] ∧ ¬ DnsLabel ['-']) ∧
      sanitizeSubDomainAndPreValidate Platform.ascii config Connections.new
        (List.replicate 64 'a') "b.co".toList ⟨['1']⟩ false = .ok (List.replicate 64 'a') ∧
      ¬ DnsLabel (List.replicate 64 'a') := by
  refine ⟨⟨by rfl, ?_⟩, by rfl, ?_⟩
  · intro h
    exact h.head rfl
  · intro h
    exact absurd h.length (by decide)

/-! ### The collision check of the auth service -/

/-- With an accepted key every name is available, since no host is without a dot. -/
theorem authSubDomain_available {reg : Connections} (hfiled : reg.Filed) {authKey name : Text}
    (hname : ∀ c ∈ name, p.isAlphanumeric c = true ∨ c = '-')
    (hkey : ∀ masterKey, cfg.masterKey = some masterKey → authKey = masterKey) :
    authSubDomain cfg reg authKey name = .ok .Available := by
  have haccepted : ¬ (cfg.masterKey.any fun masterKey => decide (authKey ≠ masterKey)) = true := by
    rw [Option.any_eq_true]
    rintro ⟨masterKey, hmaster, hne⟩
    exact of_decide_eq_true hne (hkey masterKey hmaster)
  unfold authSubDomain
  rw [if_neg haccepted, Connections.findByHost_label hfiled (dot_not_mem hname)]
  rfl

/-- What the check should answer for a name on a domain. -/
def Connections.availability (reg : Connections) (name domain : Text) : AuthResult :=
  if (reg.findByHost (joinHost name domain)).isSome then .ReservedByOther else .Available

/-- In every reachable state the service answers that the name is available.
    That is the right answer exactly where nobody holds the host. -/
theorem collision_check_iff (p : Platform) (cfg : Config) (s : Server)
    (hs : (server p cfg).Reachable s) (authKey name domain : Text)
    (hname : ∀ c ∈ name, p.isAlphanumeric c = true ∨ c = '-')
    (hkey : ∀ masterKey, cfg.masterKey = some masterKey → authKey = masterKey) :
    authSubDomain cfg s.connections authKey name = .ok .Available ∧
      (authSubDomain cfg s.connections authKey name =
          .ok (s.connections.availability name domain) ↔
        s.connections.findByHost (joinHost name domain) = none) := by
  have hfiled : s.connections.Filed := by
    obtain ⟨s₀, es, hstart, hrun⟩ := hs
    obtain rfl : s₀ = Server.new := hstart
    exact (Server.wellFormed_run hrun).sound.filed
  have havailable := authSubDomain_available hfiled hname hkey
  refine ⟨havailable, ?_⟩
  rw [havailable, Connections.availability]
  cases hhost : s.connections.findByHost (joinHost name domain) with
  | none => simp
  | some c => simp

open Recorded Successor in
/-- The client "1" holds "a.b.co", and "a" is said to be available. -/
theorem held_name_available : ∃ s : Server, (server platform config).Reachable s ∧
    s.connections.findByHost (joinHost "a".toList "b.co".toList) = some (handshake.client 0) ∧
    authSubDomain config s.connections "k".toList "a".toList = .ok .Available := by
  obtain ⟨s, hrun, hphase, -, hconn⟩ := run_connect (s := Server.new) (n := 0) rfl
  obtain ⟨t, hstep, -, -, hadded⟩ := Server.register_announced platform config hphase
  have ht : t.connections = Connections.new.add (handshake.client 0) := by
    rw [hadded, hconn]
    rfl
  refine ⟨t, ⟨_, connect 0 ++ [.register 0], rfl, ?_⟩, ?_, ?_⟩
  · exact (Machine.run_append_eq_some _).mpr ⟨s, hrun, (Machine.run_singleton _ _ _).trans hstep⟩
  · rw [ht]
    rfl
  · rw [ht]
    rfl

open Recorded in
/-- Nobody holds anything at the start, and the answer is right. -/
theorem collision_check_iff_start :
    authSubDomain config Server.new.connections "k".toList "a".toList =
      .ok (Server.new.connections.availability "a".toList "b.co".toList) := by
  apply (collision_check_iff platform config Server.new ⟨_, [], rfl, rfl⟩ _ _ _ ?_ ?_).2.mpr
  · rfl
  · simp [platform, Platform.ascii]
  · intro masterKey hmaster
    exact Option.some.inj hmaster

/-! ### The rules -/

/-- What every accepted handshake should meet. -/
structure ClientHandshake.Lawful (cfg : Config) (reg : Connections) (hs : ClientHandshake) :
    Prop where
  domain : hs.domain ∈ cfg.allowedHosts
  unblocked : hs.subDomain ∉ cfg.blockedSubDomains
  host : ∀ c, reg.findByHost hs.fullHost = some c → c.id = hs.id
  wildcard : hs.wildcard = true → ∀ i c, reg.get i = some c → c.wildcard = true →
    c.domain = hs.domain → c.id = hs.id

/-- All registered wildcard clients of the domain have one id. -/
def Connections.OneWildcard (reg : Connections) (domain : Text) : Prop :=
  ∀ i c j c', reg.get i = some c → reg.get j = some c' → c.wildcard = true → c'.wildcard = true →
    c.domain = domain → c'.domain = domain → c.id = c'.id

/-- A token that the hello is admitted by is for a name that is not blocked, on a
    host that nobody else holds. -/
def ClientHello.TokenLawful (p : Platform) (cfg : Config) (reg : Connections) (now : Time)
    (hello : ClientHello) (domain : Text) : Prop :=
  ∀ token payload, hello.subDomain = none → hello.reconnectToken = some token →
    ReconnectTokenPayload.verify p token cfg.masterSigKey now = .ok payload →
    payload.subDomain ∉ cfg.blockedSubDomains ∧
      ∀ c, reg.findByHost (joinHost payload.subDomain domain) = some c → c.id = payload.clientId

/-- The search for a wildcard client sees one of them: that one is all there are
    if they share an id. -/
theorem oneWildcard_iff {reg : Connections} {domain : Text} {id : ClientId}
    (hfree : wildcardInUse reg domain id = false) :
    (∀ i c, reg.get i = some c → c.wildcard = true → c.domain = domain → c.id = id) ↔
      reg.OneWildcard domain := by
  constructor
  · intro h i c j c' hc hc' hw hw' hd hd'
    rw [h i c hc hw hd, h j c' hc' hw' hd']
  · intro h i c hc hw hd
    cases hfound : reg.findWildcard domain with
    | none => exact absurd hd (Connections.findWildcard_eq_none.mp hfound i c hc hw)
    | some found =>
      obtain ⟨⟨j, hj⟩, hw', hd'⟩ := Connections.findWildcard_eq_some hfound
      rw [h i c j found hc hj hw hw' hd hd']
      exact wildcardInUse_eq_false hfree hfound

/-- The ways into a handshake that `authClient_ok` tells apart. -/
def ClientHello.AdmittedBy (p : Platform) (cfg : Config) (reg : Connections) (now : Time)
    (generated : ClientId) (random : Text) (key : SecretKey) (hello : ClientHello)
    (hs : ClientHandshake) : Prop :=
  (∃ name, (hello.subDomain = some name ∨
      hello.subDomain = none ∧ hello.reconnectToken = none ∧ name = random) ∧
    admitSubDomain p cfg reg key generated name hs.domain hello.wildcard = .ok hs) ∨
  ∃ token, hello.subDomain = none ∧ hello.reconnectToken = some token ∧
    handleReconnectToken p cfg reg now token hello.wildcard hs.domain = .ok hs

section

variable {reg : Connections} {now : Time} {generated : ClientId} {random : Text} {key : SecretKey}
  {hello : ClientHello} {hs : ClientHandshake}

/-- The name is neither blocked nor another client's: by the name checks, or if
    the token is lawful. -/
theorem admitted_name_iff (h : hello.AdmittedBy p cfg reg now generated random key hs) :
    (hs.subDomain ∉ cfg.blockedSubDomains ∧
      ∀ c, reg.findByHost hs.fullHost = some c → c.id = hs.id) ↔
        hello.TokenLawful p cfg reg now hs.domain := by
  rcases h with ⟨name, hsub, hadmit⟩ | ⟨token, hsub, htoken, hadmit⟩
  · obtain ⟨-, -, hblocked, hfree, -⟩ := sanitize_ok (admitSubDomain_ok hadmit).1
    constructor
    · intro _ token payload hnone htoken
      rcases hsub with hsome | ⟨-, hnotoken, -⟩
      · rw [hnone] at hsome
        cases hsome
      · rw [htoken] at hnotoken
        cases hnotoken
    · intro _
      refine ⟨hblocked, ?_⟩
      intro c hc
      have hnone : reg.findByHost hs.fullHost = none := hfree
      rw [hnone] at hc
      cases hc
  · obtain ⟨payload, hverify, hshape, -⟩ := handleReconnectToken_ok hadmit
    have hid : hs.id = payload.clientId := by rw [hshape]
    have hname : hs.subDomain = payload.subDomain := by rw [hshape]
    constructor
    · rintro ⟨hblocked, hhost⟩ token' payload' - htoken' hverify'
      obtain rfl : token = token' := Option.some.inj (htoken.symm.trans htoken')
      obtain rfl : payload = payload' := Except.ok.inj (hverify.symm.trans hverify')
      rw [← hname, ← hid]
      exact ⟨hblocked, hhost⟩
    · intro hlawful
      rw [ClientHandshake.fullHost, hname, hid]
      exact hlawful token payload hsub htoken hverify

/-- A wildcard is asked for only where no other client was found to have it. -/
theorem admitted_wildcard (h : hello.AdmittedBy p cfg reg now generated random key hs)
    (hwild : hello.wildcard = true) : wildcardInUse reg hs.domain hs.id = false := by
  rcases h with ⟨name, -, hadmit⟩ | ⟨token, -, -, hadmit⟩
  · obtain ⟨hsanitize, hshape⟩ := admitSubDomain_ok hadmit
    have hid : hs.id = generated := by rw [hshape]
    rw [hid]
    exact (sanitize_ok hsanitize).2.2.2.2 hwild
  · obtain ⟨payload, -, hshape, hfree⟩ := handleReconnectToken_ok hadmit
    have hid : hs.id = payload.clientId := by rw [hshape]
    rw [hid]
    exact hfree hwild

end

/-- An accepted handshake is on an allowed domain.  It meets the other rules
    exactly if its token does, when it came with one, and if the wildcard it asks
    for, when it does, was not given to two clients already. -/
theorem admission_rules_iff (p : Platform) (cfg : Config) (reg : Connections) (now : Time)
    (generated : ClientId) (random domain : Text) (hello : ClientHello) (hs : ClientHandshake)
    (hdomain : helloDomain cfg hello.domain = .ok domain)
    (hok : authClient p cfg reg now generated random (some hello) = .ok hs) :
    hs.domain ∈ cfg.allowedHosts ∧
      (hs.Lawful cfg reg ↔ hello.TokenLawful p cfg reg now domain ∧
        (hello.wildcard = true → reg.OneWildcard domain)) := by
  obtain ⟨hello', key, heq, -, hsame, hwild, hpath⟩ := authClient_ok hok
  obtain rfl : hello = hello' := Option.some.inj heq
  obtain rfl : domain = hs.domain := Except.ok.inj (hdomain.symm.trans hsame)
  have hallowed : hs.domain ∈ cfg.allowedHosts := helloDomain_ok hdomain
  have hname : (hs.subDomain ∉ cfg.blockedSubDomains ∧
      ∀ c, reg.findByHost hs.fullHost = some c → c.id = hs.id) ↔
        hello.TokenLawful p cfg reg now hs.domain :=
    admitted_name_iff hpath
  have hwildcard : (hs.wildcard = true → ∀ i c, reg.get i = some c → c.wildcard = true →
      c.domain = hs.domain → c.id = hs.id) ↔
        (hello.wildcard = true → reg.OneWildcard hs.domain) := by
    rw [hwild]
    refine imp_congr_right fun hw => oneWildcard_iff ?_
    exact admitted_wildcard hpath hw
  refine ⟨hallowed, ?_⟩
  rw [← hname, ← hwildcard]
  constructor
  · intro h
    exact ⟨⟨h.unblocked, h.host⟩, h.wildcard⟩
  · rintro ⟨⟨hunblocked, hhost⟩, hw⟩
    exact ⟨hallowed, hunblocked, hhost, hw⟩

namespace Recorded

/-- The client that took "a.b.co" when the client "1" was away. -/
def taker : ConnectedClient := ⟨⟨"5".toList⟩, "a".toList, "b.co".toList, false, false, 1⟩

theorem token_accepted (reg : Connections) :
    authClient platform config reg 0 ⟨"2".toList⟩ [] (some (hello none false)) =
      .ok ⟨⟨"1".toList⟩, "a".toList, "b.co".toList, true, false⟩ :=
  authClient_token codecs token_issued rfl rfl rfl rfl (by decide) nofun

end Recorded

open Recorded in
/-- The client "1" comes back with its token to where its name is free. -/
theorem admission_rules_iff_free :
    ClientHandshake.Lawful config Connections.new
      ⟨⟨"1".toList⟩, "a".toList, "b.co".toList, true, false⟩ := by
  apply (admission_rules_iff platform config Connections.new 0 ⟨"2".toList⟩ [] "b.co".toList
    (hello none false) _ rfl (token_accepted _)).2.mpr
  refine ⟨?_, nofun⟩
  intro token payload _ _ _
  refine ⟨List.not_mem_nil, ?_⟩
  intro c hc
  cases hc

open Recorded in
/-- It is accepted as well where another client has the name by now. -/
theorem token_overrides_holder :
    registry.run Connections.new [.add taker] = some (Connections.new.add taker) ∧
      ∃ hs, authClient platform config (Connections.new.add taker) 0 ⟨"2".toList⟩ []
          (some (hello none false)) = .ok hs ∧
        (Connections.new.add taker).findByHost hs.fullHost = some taker ∧ taker.id ≠ hs.id ∧
        ¬ hs.Lawful config (Connections.new.add taker) := by
  refine ⟨rfl, _, token_accepted _, rfl, by decide, ?_⟩
  intro h
  exact absurd (h.host taker rfl) (by decide)

end Neutun
