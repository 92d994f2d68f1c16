/-
  Neutun/Server/Auth.lean
  =======================
  Admission of a client (`auth/client_auth.rs`, `auth/simple_auth.rs`,
  `auth/reconnect_token.rs`).

  `authClient` is the function of the same name without its websocket: `.error`
  is the `ServerHello` it sends before it gives up, `.ok` the handshake it
  returns.  Its inputs besides the registry and the configuration are what its
  environment supplies: the parsed hello, the time, and the two random values it
  may draw.

  The libraries the server calls here are a `Platform`: the codecs and the MAC
  under reconnect tokens, and the Unicode tables behind `is_alphanumeric` and
  `to_lowercase`, which differ between toolchains and of which only the ASCII
  part is fixed.
-/
import Neutun.Server.Connections

namespace Neutun

open Foundation

/-! ### Libraries -/

/-- `DateTime<Utc>`. -/
abbrev Time := Int

structure ReconnectTokenPayload where
  subDomain : Text
  clientId : ClientId
  expires : Time
deriving DecidableEq

structure Signature where
  hex : Text
deriving DecidableEq

structure ReconnectTokenInner where
  payload : Text
  sig : Signature
deriving DecidableEq

structure Platform where
  /-- `char::is_alphanumeric` -/
  isAlphanumeric : Char → Bool
  /-- `str::to_lowercase` -/
  toLowercase : Text → Text
  isAlphanumeric_ascii : ∀ c : Char, c.val.toNat < 0x80 → isAlphanumeric c = c.isAlphanum
  toLowercase_ascii : ∀ s : Text, (∀ c ∈ s, c.val.toNat < 0x80) → toLowercase s = s.map Char.toLower
  /-- `HMAC::mac(data, key)` -/
  mac : Bytes → Bytes → Bytes
  hexEncode : Bytes → Text
  hexDecode : Text → Option Bytes
  base64Encode : Bytes → Text
  base64Decode : Text → Option Bytes
  payloadToJson : ReconnectTokenPayload → Option Text
  payloadFromJson : Text → Option ReconnectTokenPayload
  innerToJson : ReconnectTokenInner → Option Bytes
  innerFromJson : Bytes → Option ReconnectTokenInner

/-- Tables that know ASCII only, and no codecs: enough for names and hellos in
    ASCII that carry no token. -/
def Platform.ascii : Platform where
  isAlphanumeric c := c.isAlphanum
  toLowercase s := s.map Char.toLower
  isAlphanumeric_ascii _ _ := rfl
  toLowercase_ascii _ _ := rfl
  mac _ _ := []
  hexEncode _ := []
  hexDecode _ := none
  base64Encode _ := []
  base64Decode _ := none
  payloadToJson _ := none
  payloadFromJson _ := none
  innerToJson _ := none
  innerFromJson _ := none

variable (p : Platform) (cfg : Config)

/-! ### Reconnect tokens -/

inductive TokenError where
  | Json
  | Base64
  | InvalidSignature
  | Expired
deriving DecidableEq, Repr

def SigKey.sign (key : SigKey) (data : Bytes) : Signature := ⟨p.hexEncode (p.mac data key.bytes)⟩

def SigKey.verify (key : SigKey) (data : Bytes) (signature : Signature) : Bool :=
  match p.hexDecode signature.hex with
  | none => false
  | some sig => decide (sig = p.mac data key.bytes)

def ReconnectTokenPayload.intoToken (payload : ReconnectTokenPayload) (key : SigKey) :
    Except TokenError ReconnectToken :=
  match p.payloadToJson payload with
  | none => .error .Json
  | some text =>
    match p.innerToJson ⟨text, key.sign p (utf8 text)⟩ with
    | none => .error .Json
    | some tok => .ok ⟨p.base64Encode tok⟩

def ReconnectTokenPayload.verify (tok : ReconnectToken) (key : SigKey) (now : Time) :
    Except TokenError ReconnectTokenPayload :=
  match p.base64Decode tok.text with
  | none => .error .Base64
  | some bytes =>
    match p.innerFromJson bytes with
    | none => .error .Json
    | some inner =>
      if key.verify p (utf8 inner.payload) inner.sig then
        match p.payloadFromJson inner.payload with
        | none => .error .Json
        | some payload => if payload.expires < now then .error .Expired else .ok payload
      else .error .InvalidSignature

/-! ### Other instances (`network/mod.rs`) -/

inductive NetworkError where
  | IoError
  | Request
  | Resolver
  | DoesNotServeHost
deriving DecidableEq, Repr

structure Instance where
  ip : Bytes

/-- The gossip lookup is disabled in the source. -/
def instanceForHost (_host : Text) : Except NetworkError (Instance × ClientId) :=
  .error .DoesNotServeHost

/-- Another instance answers that it serves the host for another client. -/
def hostedElsewhere (host : Text) (clientId : ClientId) : Bool :=
  match instanceForHost host with
  | .error .DoesNotServeHost => false
  | .ok (_, existingClient) => decide (existingClient ≠ clientId)
  | .error _ => false

/-! ### The subdomain checks -/

structure ClientHandshake where
  id : ClientId
  subDomain : Text
  domain : Text
  isAnonymous : Bool
  wildcard : Bool
deriving DecidableEq

/-- The host a handshake asks for. -/
def ClientHandshake.fullHost (h : ClientHandshake) : Text := joinHost h.subDomain h.domain

/-- The client `handle_new_connection` makes from a handshake and a channel. -/
def ClientHandshake.client (h : ClientHandshake) (tx : Nat) : ConnectedClient :=
  ⟨h.id, h.subDomain, h.domain, h.isAnonymous, h.wildcard, tx⟩

inductive AuthResult where
  | ReservedByYou
  | ReservedByOther
  | ReservedByYouButDelinquent
  | PaymentRequired
  | Available
deriving DecidableEq, Repr

/-- `SimpleAuthService::auth_sub_domain`.  The collision check looks up the bare
    subdomain. -/
def authSubDomain (reg : Connections) (authKey subDomain : Text) : Except Unit AuthResult :=
  if cfg.masterKey.any fun masterKey => decide (authKey ≠ masterKey) then .ok .PaymentRequired
  else if (reg.findByHost subDomain).isSome then .ok .ReservedByOther
  else .ok .Available

/-- Another client than `clientId` is found as the wildcard of the domain. -/
def wildcardInUse (reg : Connections) (domain : Text) (clientId : ClientId) : Bool :=
  (reg.findWildcard domain).any fun existing => decide (existing.id ≠ clientId)

def sanitizeSubDomainAndPreValidate (reg : Connections) (requestedSubDomain domain : Text)
    (clientId : ClientId) (wildcard : Bool) : Except ServerHello Text :=
  let subDomain := p.toLowercase requestedSubDomain
  if 0 < (subDomain.filter fun c => !(p.isAlphanumeric c || c == '-')).length then
    .error .InvalidSubDomain
  else if subDomain ∈ cfg.blockedSubDomains then .error .SubDomainInUse
  -- ensure this sub-domain isn't taken
  else if (reg.findByHost (joinHost subDomain domain)).isSome then .error .SubDomainInUse
  else if hostedElsewhere (joinHost subDomain domain) clientId then .error .SubDomainInUse
  else if wildcard && wildcardInUse reg domain clientId then .error .SubDomainInUse
  else .ok subDomain

/-! ### `auth_client` -/

def handleReconnectToken (reg : Connections) (now : Time) (token : ReconnectToken)
    (wildcard : Bool) (domain : Text) : Except ServerHello ClientHandshake :=
  match ReconnectTokenPayload.verify p token cfg.masterSigKey now with
  | .error _ => .error .AuthFailed
  | .ok payload =>
    if wildcard && wildcardInUse reg domain payload.clientId then .error .SubDomainInUse
    else .ok ⟨payload.clientId, payload.subDomain, domain, true, wildcard⟩

/-- Determine the domain of a hello. -/
def helloDomain (requested : Option Text) : Except ServerHello Text :=
  match requested with
  | some d => if d ∈ cfg.allowedHosts then .ok d else .error .InvalidSubDomain
  | none =>
    match cfg.allowedHosts with
    | first :: _ => .ok first
    | [] => .error (.Error "Server misconfigured".toList)

/-- The path of a requested and of a random subdomain: the checks on the name,
    then the key. -/
def admitSubDomain (reg : Connections) (key : SecretKey) (clientId : ClientId)
    (subDomain domain : Text) (wildcard : Bool) : Except ServerHello ClientHandshake :=
  match sanitizeSubDomainAndPreValidate p cfg reg subDomain domain clientId wildcard with
  | .error e => .error e
  | .ok requestedSubDomain =>
    match authSubDomain cfg reg key.text requestedSubDomain with
    | .ok .Available | .ok .ReservedByYou =>
      .ok ⟨clientId, requestedSubDomain, domain, false, wildcard⟩
    | .ok .ReservedByYouButDelinquent | .ok .PaymentRequired => .error .AuthFailed
    | .ok .ReservedByOther => .error .SubDomainInUse
    | .error _ => .error .AuthFailed

/-- `generated` and `random` are what `ClientId::generate` and
    `ServerHello::random_domain` return in this call; no hello is `none`, the
    message that does not parse. -/
def authClient (reg : Connections) (now : Time) (generated : ClientId) (random : Text)
    (clientHello : Option ClientHello) : Except ServerHello ClientHandshake :=
  match clientHello with
  | none => .error .AuthFailed
  | some hello =>
    match helloDomain cfg hello.domain with
    | .error e => .error e
    | .ok domain =>
      match hello.clientType with
      | .Anonymous => .error .AuthFailed
      | .Auth key =>
        match hello.subDomain with
        | some requested => admitSubDomain p cfg reg key generated requested domain hello.wildcard
        | none =>
          match hello.reconnectToken with
          | some token => handleReconnectToken p cfg reg now token hello.wildcard domain
          | none => admitSubDomain p cfg reg key generated random domain hello.wildcard

/-! ### What an admission guarantees -/

variable {p cfg}

theorem wildcardInUse_eq_false {reg : Connections} {domain : Text} {clientId : ClientId}
    (h : wildcardInUse reg domain clientId = false) {c : ConnectedClient}
    (hc : reg.findWildcard domain = some c) : c.id = clientId := by
  simpa [wildcardInUse, hc] using h

/-- Everything the name checks establish about the name they return. -/
theorem sanitize_ok {reg : Connections} {requested domain s : Text} {clientId : ClientId}
    {wildcard : Bool}
    (h : sanitizeSubDomainAndPreValidate p cfg reg requested domain clientId wildcard = .ok s) :
    s = p.toLowercase requested ∧ (∀ c ∈ s, p.isAlphanumeric c = true ∨ c = '-') ∧
      s ∉ cfg.blockedSubDomains ∧ reg.findByHost (joinHost s domain) = none ∧
      (wildcard = true → wildcardInUse reg domain clientId = false) := by
  simp only [sanitizeSubDomainAndPreValidate] at h
  split at h
  · cases h
  next hchars =>
  split at h
  · cases h
  next hblocked =>
  split at h
  · cases h
  next hfree =>
  split at h
  · cases h
  split at h
  · cases h
  next hwild =>
  obtain rfl : p.toLowercase requested = s := Except.ok.inj h
  refine ⟨rfl, ?_, hblocked, by simpa using hfree, ?_⟩
  · intro c hc
    by_contra hbad
    refine hchars (List.length_pos_of_mem (List.mem_filter.mpr ⟨hc, ?_⟩))
    simpa using hbad
  · intro hw
    simpa [hw] using hwild

/-- Of a name with the right characters that is not blocked the checks ask only who
    is registered. -/
theorem sanitize_of_valid {requested : Text}
    (hchars : ∀ c ∈ p.toLowercase requested, p.isAlphanumeric c = true ∨ c = '-')
    (hblocked : p.toLowercase requested ∉ cfg.blockedSubDomains) (reg : Connections)
    (domain : Text) (clientId : ClientId) (wildcard : Bool) :
    sanitizeSubDomainAndPreValidate p cfg reg requested domain clientId wildcard =
      if (reg.findByHost (joinHost (p.toLowercase requested) domain)).isSome ||
          wildcard && wildcardInUse reg domain clientId then .error .SubDomainInUse
      else .ok (p.toLowercase requested) := by
  have hvalid : ¬ 0 < ((p.toLowercase requested).filter
      fun c => !(p.isAlphanumeric c || c == '-')).length := by
    rw [Nat.not_lt, Nat.le_zero, List.length_eq_zero_iff, List.filter_eq_nil_iff]
    intro c hc
    rcases hchars c hc with halnum | rfl
    · simp [halnum]
    · simp
  have hnowhere : hostedElsewhere (joinHost (p.toLowercase requested) domain) clientId =
      false := rfl
  unfold sanitizeSubDomainAndPreValidate
  cases hhost : (reg.findByHost (joinHost (p.toLowercase requested) domain)).isSome <;>
    simp only [if_neg hvalid, if_neg hblocked, hhost, hnowhere, Bool.false_or, Bool.true_or,
      Bool.false_eq_true, if_false, if_true]

/-- A name of the allowed characters is a single label. -/
theorem dot_not_mem {name : Text}
    (h : ∀ c ∈ name, p.isAlphanumeric c = true ∨ c = '-') : '.' ∉ name := by
  intro hdot
  rcases h '.' hdot with halnum | heq
  · rw [p.isAlphanumeric_ascii '.' (by decide)] at halnum
    exact absurd halnum (by decide)
  · exact absurd heq (by decide)

theorem admitSubDomain_ok {reg : Connections} {key : SecretKey} {clientId : ClientId}
    {subDomain domain : Text} {wildcard : Bool} {hs : ClientHandshake}
    (h : admitSubDomain p cfg reg key clientId subDomain domain wildcard = .ok hs) :
    sanitizeSubDomainAndPreValidate p cfg reg subDomain domain clientId wildcard =
        .ok hs.subDomain ∧
      hs = ⟨clientId, hs.subDomain, domain, false, wildcard⟩ := by
  unfold admitSubDomain at h
  split at h
  · cases h
  next s hs' =>
  split at h
  · exact ⟨by rw [← Except.ok.inj h]; exact hs', by rw [← Except.ok.inj h]⟩
  · exact ⟨by rw [← Except.ok.inj h]; exact hs', by rw [← Except.ok.inj h]⟩
  all_goals cases h

theorem handleReconnectToken_ok {reg : Connections} {now : Time} {token : ReconnectToken}
    {wildcard : Bool} {domain : Text} {hs : ClientHandshake}
    (h : handleReconnectToken p cfg reg now token wildcard domain = .ok hs) :
    ∃ payload, ReconnectTokenPayload.verify p token cfg.masterSigKey now = .ok payload ∧
      hs = ⟨payload.clientId, payload.subDomain, domain, true, wildcard⟩ ∧
      (wildcard = true → wildcardInUse reg domain payload.clientId = false) := by
  unfold handleReconnectToken at h
  split at h
  · cases h
  next payload hv =>
  split at h
  · cases h
  next hwild =>
  refine ⟨payload, hv, (Except.ok.inj h).symm, ?_⟩
  intro hw
  simpa [hw] using hwild

theorem helloDomain_ok {requested : Option Text} {d : Text}
    (h : helloDomain cfg requested = .ok d) : d ∈ cfg.allowedHosts := by
  unfold helloDomain at h
  split at h
  · split at h
    next hmem =>
      obtain rfl := Except.ok.inj h
      exact hmem
    · cases h
  · split at h
    next first rest hcfg =>
      obtain rfl := Except.ok.inj h
      rw [hcfg]
      exact List.mem_cons_self
    · cases h

theorem helloDomain_requested {requested : Option Text} {domain : Text}
    (h : helloDomain cfg requested = .ok domain) :
    ∀ d, requested = some d → d ∈ cfg.allowedHosts := by
  rintro d rfl
  by_contra hd
  simp [helloDomain, hd] at h

/-- An accepted hello came with a key, on an allowed domain, and went through
    the name checks or through a verified token. -/
theorem authClient_ok {reg : Connections} {now : Time} {generated : ClientId} {random : Text}
    {clientHello : Option ClientHello} {hs : ClientHandshake}
    (h : authClient p cfg reg now generated random clientHello = .ok hs) :
    ∃ hello key, clientHello = some hello ∧ hello.clientType = .Auth key ∧
      helloDomain cfg hello.domain = .ok hs.domain ∧ hs.wildcard = hello.wildcard ∧
      ((∃ name, (hello.subDomain = some name ∨
            hello.subDomain = none ∧ hello.reconnectToken = none ∧ name = random) ∧
          admitSubDomain p cfg reg key generated name hs.domain hello.wildcard = .ok hs) ∨
        ∃ token, hello.subDomain = none ∧ hello.reconnectToken = some token ∧
          handleReconnectToken p cfg reg now token hello.wildcard hs.domain = .ok hs) := by
  unfold authClient at h
  split at h
  · cases h
  next hello =>
  split at h
  · cases h
  next domain hdomain =>
  split at h
  · cases h
  next key hkey =>
  refine ⟨hello, key, rfl, hkey, ?_⟩
  split at h
  next name hsub =>
    have hshape := (admitSubDomain_ok h).2
    have hd : hs.domain = domain := by rw [hshape]
    have hw : hs.wildcard = hello.wildcard := by rw [hshape]
    exact ⟨hd ▸ hdomain, hw, Or.inl ⟨name, Or.inl hsub, hd ▸ h⟩⟩
  next hsub =>
    split at h
    next token htok =>
      obtain ⟨payload, -, hshape, -⟩ := handleReconnectToken_ok h
      have hd : hs.domain = domain := by rw [hshape]
      have hw : hs.wildcard = hello.wildcard := by rw [hshape]
      exact ⟨hd ▸ hdomain, hw, Or.inr ⟨token, hsub, htok, hd ▸ h⟩⟩
    next htok =>
      have hshape := (admitSubDomain_ok h).2
      have hd : hs.domain = domain := by rw [hshape]
      have hw : hs.wildcard = hello.wildcard := by rw [hshape]
      exact ⟨hd ▸ hdomain, hw, Or.inl ⟨random, Or.inr ⟨hsub, htok, rfl⟩, hd ▸ h⟩⟩

theorem admitSubDomain_unique {reg₁ reg₂ : Connections} {key : SecretKey} {clientId : ClientId}
    {subDomain domain : Text} {wildcard : Bool} {h₁ h₂ : ClientHandshake}
    (hok₁ : admitSubDomain p cfg reg₁ key clientId subDomain domain wildcard = .ok h₁)
    (hok₂ : admitSubDomain p cfg reg₂ key clientId subDomain domain wildcard = .ok h₂) :
    h₁ = h₂ := by
  obtain ⟨hsan₁, hshape₁⟩ := admitSubDomain_ok hok₁
  obtain ⟨hsan₂, hshape₂⟩ := admitSubDomain_ok hok₂
  rw [hshape₁, hshape₂, (sanitize_ok hsan₁).1, (sanitize_ok hsan₂).1]

theorem handleReconnectToken_unique {reg₁ reg₂ : Connections} {now : Time}
    {token : ReconnectToken} {wildcard : Bool} {domain : Text} {h₁ h₂ : ClientHandshake}
    (hok₁ : handleReconnectToken p cfg reg₁ now token wildcard domain = .ok h₁)
    (hok₂ : handleReconnectToken p cfg reg₂ now token wildcard domain = .ok h₂) : h₁ = h₂ := by
  obtain ⟨payload₁, hverify₁, hshape₁, -⟩ := handleReconnectToken_ok hok₁
  obtain ⟨payload₂, hverify₂, hshape₂, -⟩ := handleReconnectToken_ok hok₂
  obtain rfl : payload₁ = payload₂ := Except.ok.inj (hverify₁.symm.trans hverify₂)
  rw [hshape₁, hshape₂]

/-- The registry decides whether a hello is accepted, not what for. -/
theorem authClient_unique {reg₁ reg₂ : Connections} {now : Time} {generated : ClientId}
    {random : Text} {clientHello : Option ClientHello} {h₁ h₂ : ClientHandshake}
    (hok₁ : authClient p cfg reg₁ now generated random clientHello = .ok h₁)
    (hok₂ : authClient p cfg reg₂ now generated random clientHello = .ok h₂) : h₁ = h₂ := by
  unfold authClient at hok₁ hok₂
  cases clientHello with
  | none => cases hok₁
  | some hello =>
    simp only at hok₁ hok₂
    cases hdomain : helloDomain cfg hello.domain with
    | error e => simp [hdomain] at hok₁
    | ok domain =>
      simp only [hdomain] at hok₁ hok₂
      cases hkey : hello.clientType with
      | Anonymous => simp [hkey] at hok₁
      | Auth key =>
        simp only [hkey] at hok₁ hok₂
        cases hsub : hello.subDomain with
        | some name =>
          simp only [hsub] at hok₁ hok₂
          exact admitSubDomain_unique hok₁ hok₂
        | none =>
          simp only [hsub] at hok₁ hok₂
          cases htoken : hello.reconnectToken with
          | some token =>
            simp only [htoken] at hok₁ hok₂
            exact handleReconnectToken_unique hok₁ hok₂
          | none =>
            simp only [htoken] at hok₁ hok₂
            exact admitSubDomain_unique hok₁ hok₂

end Neutun
