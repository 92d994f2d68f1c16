/-
  Neutun/Server/Tokens.lean
  =========================
  Reconnect tokens, from the ping loop that issues them to the hello that
  presents them.

    * The hello that the library builds around a token is one that `auth_client`
      refuses (`reconnect_refused`).
    * A token is signed over the subdomain and the client's id.  The domain and
      the wildcard flag are taken from the hello, which is not signed
      (`token_grant_iff`).
    * What `into_token` signs is what `verify` checks, to the byte
      (`token_agreement`).
-/
import Neutun.Foundation.Codec
import Neutun.Server.Refinement

namespace Neutun

open Foundation

variable {p : Platform} {cfg : Config}

/-! ### Issued tokens -/

/-- What is encoded can be decoded. -/
structure Platform.Codecs (p : Platform) : Prop where
  payload : ∀ x text, p.payloadToJson x = some text → p.payloadFromJson text = some x
  inner : ∀ x bytes, p.innerToJson x = some bytes → p.innerFromJson bytes = some x
  base64 : ∀ bytes, p.base64Decode (p.base64Encode bytes) = some bytes
  hex : ∀ bytes, p.hexDecode (p.hexEncode bytes) = some bytes

theorem SigKey.verify_eq_true_iff (key : SigKey) (data : Bytes) (signature : Signature) :
    key.verify p data signature = true ↔
      p.hexDecode signature.hex = some (p.mac data key.bytes) := by
  unfold SigKey.verify
  cases p.hexDecode signature.hex <;> simp

/-- Another key accepts a signature only if it makes the same MAC. -/
theorem SigKey.verify_sign_iff (hp : p.Codecs) (key key' : SigKey) (data : Bytes) :
    key'.verify p data (key.sign p data) = true ↔ p.mac data key.bytes = p.mac data key'.bytes := by
  rw [SigKey.verify_eq_true_iff, SigKey.sign, hp.hex, Option.some.injEq]

theorem SigKey.verify_sign (hp : p.Codecs) (key : SigKey) (data : Bytes) :
    key.verify p data (key.sign p data) = true := (SigKey.verify_sign_iff hp key key data).mpr rfl

/-- The text and the three encodings behind an issued token. -/
theorem ReconnectTokenPayload.intoToken_ok {payload : ReconnectTokenPayload} {key : SigKey}
    {token : ReconnectToken} (h : payload.intoToken p key = .ok token) :
    ∃ text bytes, p.payloadToJson payload = some text ∧
      p.innerToJson ⟨text, key.sign p (utf8 text)⟩ = some bytes ∧
      token = ⟨p.base64Encode bytes⟩ := by
  unfold intoToken at h
  split at h
  · cases h
  next text htext =>
  split at h
  · cases h
  next bytes hbytes =>
  exact ⟨text, bytes, htext, hbytes, (Except.ok.inj h).symm⟩

/-- A token verifies to the payload it was made from, until that expires. -/
theorem ReconnectTokenPayload.verify_intoToken (hp : p.Codecs) {payload : ReconnectTokenPayload}
    {key : SigKey} {token : ReconnectToken} (h : payload.intoToken p key = .ok token)
    (now : Time) : ReconnectTokenPayload.verify p token key now =
      if payload.expires < now then .error .Expired else .ok payload := by
  obtain ⟨text, bytes, htext, hbytes, rfl⟩ := intoToken_ok h
  simp only [verify, hp.base64, hp.inner _ _ hbytes, SigKey.verify_sign hp, if_true,
    hp.payload _ _ htext]

/-- Under a key with another MAC for its text a token is refused, expired or not. -/
theorem ReconnectTokenPayload.verify_intoToken_of_ne (hp : p.Codecs)
    {payload : ReconnectTokenPayload} {key key' : SigKey} {token : ReconnectToken}
    (h : payload.intoToken p key = .ok token) (now : Time)
    (hmac : ∀ text, p.payloadToJson payload = some text →
      p.mac (utf8 text) key.bytes ≠ p.mac (utf8 text) key'.bytes) :
    ReconnectTokenPayload.verify p token key' now = .error .InvalidSignature := by
  obtain ⟨text, bytes, htext, hbytes, rfl⟩ := intoToken_ok h
  have hrefused : ¬key'.verify p (utf8 text) (key.sign p (utf8 text)) = true := by
    rw [SigKey.verify_sign_iff hp]
    exact hmac text htext
  simp only [verify, hp.base64, hp.inner _ _ hbytes, if_neg hrefused]

/-- An accepted token, layer by layer. -/
theorem ReconnectTokenPayload.verify_eq_ok_iff (token : ReconnectToken) (key : SigKey) (now : Time)
    (payload : ReconnectTokenPayload) : ReconnectTokenPayload.verify p token key now = .ok payload ↔
      ∃ bytes inner, p.base64Decode token.text = some bytes ∧ p.innerFromJson bytes = some inner ∧
        p.hexDecode inner.sig.hex = some (p.mac (utf8 inner.payload) key.bytes) ∧
        p.payloadFromJson inner.payload = some payload ∧ now ≤ payload.expires := by
  constructor
  · intro h
    unfold verify at h
    split at h
    · cases h
    next bytes hbytes =>
    split at h
    · cases h
    next inner hinner =>
    split at h
    next hmac =>
      split at h
      · cases h
      next found hfound =>
      split at h
      · cases h
      next hexpired =>
      obtain rfl := Except.ok.inj h
      exact ⟨bytes, inner, hbytes, hinner, (SigKey.verify_eq_true_iff _ _ _).mp hmac, hfound,
        Int.not_lt.mp hexpired⟩
    · cases h
  · rintro ⟨bytes, inner, hbytes, hinner, hmac, hpayload, hnow⟩
    simp only [verify, hbytes, hinner, (SigKey.verify_eq_true_iff _ _ _).mpr hmac, if_true,
      hpayload, if_neg (Int.not_lt.mpr hnow)]

/-- Everything can be encoded, and decodes to what it was. -/
structure Platform.RoundTrips (p : Platform) : Prop where
  payload : ∀ x, ∃ text, p.payloadToJson x = some text ∧ p.payloadFromJson text = some x
  inner : ∀ x, ∃ bytes, p.innerToJson x = some bytes ∧ p.innerFromJson bytes = some x
  base64 : ∀ bytes, p.base64Decode (p.base64Encode bytes) = some bytes
  hex : ∀ bytes, p.hexDecode (p.hexEncode bytes) = some bytes

theorem Platform.RoundTrips.codecs (hp : p.RoundTrips) : p.Codecs where
  payload := by
    intro x text h
    obtain ⟨text', hto, hfrom⟩ := hp.payload x
    obtain rfl := Option.some.inj (h.symm.trans hto)
    exact hfrom
  inner := by
    intro x bytes h
    obtain ⟨bytes', hto, hfrom⟩ := hp.inner x
    obtain rfl := Option.some.inj (h.symm.trans hto)
    exact hfrom
  base64 := hp.base64
  hex := hp.hex

theorem ReconnectTokenPayload.intoToken_isOk (hp : p.RoundTrips) (payload : ReconnectTokenPayload)
    (key : SigKey) : ∃ token, payload.intoToken p key = .ok token := by
  obtain ⟨text, htext, -⟩ := hp.payload payload
  obtain ⟨bytes, hbytes, -⟩ := hp.inner ⟨text, key.sign p (utf8 text)⟩
  exact ⟨⟨p.base64Encode bytes⟩, by simp only [intoToken, htext, hbytes]⟩

/-- The payload that the ping loop of a client makes a token of. -/
def ConnectedClient.tokenPayload (c : ConnectedClient) (now : Time) : ReconnectTokenPayload :=
  ⟨c.host, c.id, now + 2 * 60⟩

/-- A client's token is good for its id and name, whatever the key. -/
theorem authClient_token (hp : p.Codecs) {c : ConnectedClient} {issued : Time}
    {token : ReconnectToken}
    (htoken : (c.tokenPayload issued).intoToken p cfg.masterSigKey = .ok token)
    {reg : Connections} {now : Time} {generated : ClientId} {random domain : Text}
    {hello : ClientHello} {key : SecretKey} (hkey : hello.clientType = .Auth key)
    (hsub : hello.subDomain = none) (hcarries : hello.reconnectToken = some token)
    (hdomain : helloDomain cfg hello.domain = .ok domain) (hnow : now ≤ issued + 2 * 60)
    (hwild : hello.wildcard = true → wildcardInUse reg domain c.id = false) :
    authClient p cfg reg now generated random (some hello) =
      .ok ⟨c.id, c.host, domain, true, hello.wildcard⟩ := by
  have hverify : ReconnectTokenPayload.verify p token cfg.masterSigKey now =
      .ok (c.tokenPayload issued) := by
    rw [ReconnectTokenPayload.verify_intoToken hp htoken]
    exact if_neg (Int.not_lt.mpr hnow)
  have hfree : (hello.wildcard && wildcardInUse reg domain c.id) = false := by
    cases hw : hello.wildcard with
    | false => rfl
    | true => exact hwild hw
  simp only [authClient, hdomain, hkey, hsub, hcarries, handleReconnectToken, hverify,
    ConnectedClient.tokenPayload, hfree, Bool.false_eq_true, if_false]

/-! ### Recorded tokens -/

namespace Recorded

/-- The client "1" has "a" of "b.co" for two minutes from the epoch on. -/
def payload : ReconnectTokenPayload := ⟨"a".toList, ⟨"1".toList⟩, 120⟩

def payloadJson : Text :=
  "\x7b\"sub_domain\":\"a\",\"client_id\":\"1\",".toList ++
    "\"expires\":\"1970-01-01T00:02:00Z\"\x7d".toList

/-- The HMAC-SHA256 of the payload under a key of zeros. -/
def sig : Bytes :=
  [0xe9, 0xf3, 0x92, 0xa5, 0xe6, 0x85, 0x84, 0x30, 0xa7, 0xce, 0xaf, 0x1f, 0xab, 0xb4,
     0x59, 0xd8, 0x4c, 0xfb, 0x9b, 0x30, 0x48, 0xd4, 0x14, 0xdd, 0x3b, 0x73, 0x10, 0x1a,
     0xbf, 0x8f, 0xb4, 0x4a]

def sigHex : Text := "e9f392a5e6858430a7ceaf1fabb459d84cfb9b3048d414dd3b73101abf8fb44a".toList

def inner : ReconnectTokenInner := ⟨payloadJson, ⟨sigHex⟩⟩

def innerJson : Text :=
  "\x7b\"payload\":\"\x7b\\\"sub_domain\\\":\\\"a\\\",".toList ++
    "\\\"client_id\\\":\\\"1\\\",\\\"expires\\\":\\\"1970-01-01T00:02:00Z\\\"\x7d\",".toList ++
    "\"sig\":\"".toList ++ sigHex ++ "\"\x7d".toList

def token : ReconnectToken :=
  ⟨"eyJwYXlsb2FkIjoie1wic3ViX2RvbWFpblwiOlwiYVwiLFwiY2xpZW50X2lkXCI6XCIxXCIsXCJleH".toList ++
    "BpcmVzXCI6XCIxOTcwLTAxLTAxVDAwOjAyOjAwWlwifSIsInNpZyI6ImU5ZjM5MmE1ZTY4NTg0MzBh".toList ++
    "N2NlYWYxZmFiYjQ1OWQ4NGNmYjliMzA0OGQ0MTRkZDNiNzMxMDFhYmY4ZmI0NGEifQ==".toList⟩

/-- A text codec that is known at one point and spells out all other bytes. -/
def encode (known : Bytes) (text : Text) (bytes : Bytes) : Text :=
  if bytes = known then text else '!' :: bytes.map fun b => Char.ofNat b.toNat

def decode (known : Bytes) (text : Text) (encoded : Text) : Option Bytes :=
  if encoded = text then some known
  else
    match encoded with
    | '!' :: spelled => some (spelled.map fun c => UInt8.ofNat c.toNat)
    | _ => none

theorem ofNat_toNat (b : UInt8) : UInt8.ofNat (Char.ofNat b.toNat).toNat = b := by
  have hb : b.toNat < 0xd800 := by
    have := b.toNat_lt
    omega
  have hchar : (Char.ofNat b.toNat).toNat = b.toNat := by
    rw [Char.ofNat, dif_pos (Or.inl hb)]
    rfl
  rw [hchar, UInt8.ofNat_toNat]

theorem decode_encode {known : Bytes} {text : Text} (htext : text.head? ≠ some '!')
    (bytes : Bytes) : decode known text (encode known text bytes) = some bytes := by
  unfold encode
  split
  next heq => simp [decode, heq]
  · unfold decode
    rw [if_neg (by rintro rfl; exact htext rfl)]
    simp [Function.comp_def, ofNat_toNat]

/-- The libraries, as they answer for this token. -/
def platform : Platform where
  isAlphanumeric := Platform.ascii.isAlphanumeric
  toLowercase := Platform.ascii.toLowercase
  isAlphanumeric_ascii := Platform.ascii.isAlphanumeric_ascii
  toLowercase_ascii := Platform.ascii.toLowercase_ascii
  mac data key := if data = utf8 payloadJson ∧ key = List.replicate 32 0 then sig else []
  hexEncode := encode sig sigHex
  hexDecode := decode sig sigHex
  base64Encode := encode (utf8 innerJson) token.text
  base64Decode := decode (utf8 innerJson) token.text
  payloadToJson x := if x = payload then some payloadJson else none
  payloadFromJson text := if text = payloadJson then some payload else none
  innerToJson x := if x = inner then some (utf8 innerJson) else none
  innerFromJson bytes := if bytes = utf8 innerJson then some inner else none

theorem codecs : platform.Codecs where
  payload := by
    intro x text h
    simp only [platform, Option.ite_none_right_eq_some, Option.some.injEq] at h ⊢
    exact ⟨h.2.symm, h.1.symm⟩
  inner := by
    intro x bytes h
    simp only [platform, Option.ite_none_right_eq_some, Option.some.injEq] at h ⊢
    exact ⟨h.2.symm, h.1.symm⟩
  base64 := decode_encode (by decide)
  hex := decode_encode (by decide)

/-- Two allowed hosts and the key "k". -/
def config : Config :=
  { AnnouncedHost.config with allowedHosts := ["b.co".toList, "c.co".toList] }

/-- The client that the token was issued for. -/
def holder : ConnectedClient := ⟨⟨"1".toList⟩, "a".toList, "b.co".toList, true, false, 0⟩

theorem token_issued : (holder.tokenPayload 0).intoToken platform config.masterSigKey =
    .ok token := by
  have hpayload : holder.tokenPayload 0 = payload := rfl
  have hsign : config.masterSigKey.sign platform (utf8 payloadJson) = ⟨sigHex⟩ := by
    simp [SigKey.sign, platform, encode, config, AnnouncedHost.config]
  have hjson : platform.payloadToJson payload = some payloadJson := by simp [platform]
  have hinner : platform.innerToJson ⟨payloadJson, ⟨sigHex⟩⟩ = some (utf8 innerJson) := by
    simp [platform, inner]
  have hbase64 : platform.base64Encode (utf8 innerJson) = token.text := by
    simp [platform, encode]
  simp only [ReconnectTokenPayload.intoToken, hpayload, hjson, hsign, hinner, hbase64]

/-- A hello with the token and a wrong key. -/
def hello (domain : Option Text) (wildcard : Bool) : ClientHello :=
  ⟨⟨[]⟩, none, domain, .Auth ⟨"x".toList⟩, some token, wildcard⟩

end Recorded

/-! ### Issue and verification -/

/-- What `into_token` makes of a payload is accepted under its key until the
    payload expires, and under a key with another MAC never; and whatever token
    is accepted carries the payload that its MAC was made for. -/
theorem token_agreement (p : Platform) (hp : p.RoundTrips) (payload : ReconnectTokenPayload)
    (key : SigKey) (now : Time) :
    (∃ token, payload.intoToken p key = .ok token ∧
      (now ≤ payload.expires → ReconnectTokenPayload.verify p token key now = .ok payload) ∧
      (payload.expires < now →
        ReconnectTokenPayload.verify p token key now = .error .Expired) ∧
      ∀ key' : SigKey, (∀ text, p.payloadToJson payload = some text →
          p.mac (utf8 text) key.bytes ≠ p.mac (utf8 text) key'.bytes) →
        ReconnectTokenPayload.verify p token key' now = .error .InvalidSignature) ∧
    ∀ (token : ReconnectToken) (accepted : ReconnectTokenPayload),
      ReconnectTokenPayload.verify p token key now = .ok accepted →
        ∃ bytes inner, p.base64Decode token.text = some bytes ∧
          p.innerFromJson bytes = some inner ∧
          p.hexDecode inner.sig.hex = some (p.mac (utf8 inner.payload) key.bytes) ∧
          p.payloadFromJson inner.payload = some accepted ∧ now ≤ accepted.expires := by
  constructor
  · obtain ⟨token, htoken⟩ := ReconnectTokenPayload.intoToken_isOk hp payload key
    have hverify := ReconnectTokenPayload.verify_intoToken hp.codecs htoken now
    refine ⟨token, htoken, ?_, ?_, ?_⟩
    · intro hnow
      rw [hverify, if_neg (Int.not_lt.mpr hnow)]
    · intro hexpired
      rw [hverify, if_pos hexpired]
    · intro key' hmac
      exact ReconnectTokenPayload.verify_intoToken_of_ne hp.codecs htoken now hmac
  · intro token accepted haccepted
    exact (ReconnectTokenPayload.verify_eq_ok_iff token key now accepted).mp haccepted

namespace Recorded

instance : Encodable ReconnectTokenPayload :=
  Encodable.ofLeftInverse (fun x => (x.subDomain, x.clientId.text, x.expires))
    (fun x => ⟨x.1, ⟨x.2.1⟩, x.2.2⟩) fun _ => rfl

instance : Encodable ReconnectTokenInner :=
  Encodable.ofLeftInverse (fun x => (x.payload, x.sig.hex)) (fun x => ⟨x.1, ⟨x.2⟩⟩) fun _ => rfl

def payloadCodec : Codec ReconnectTokenPayload Char :=
  .known payload payloadJson '1' ⟨'\x7b', by decide, by decide⟩

def innerCodec : Codec ReconnectTokenInner UInt8 :=
  .known inner (utf8 innerJson) 1 ⟨0x7b, by decide, by decide⟩

/-- The libraries, with an encoding for every value. -/
def fullPlatform : Platform :=
  { platform with
    payloadToJson := fun x => some (payloadCodec.encode x)
    payloadFromJson := payloadCodec.decode
    innerToJson := fun x => some (innerCodec.encode x)
    innerFromJson := innerCodec.decode }

theorem roundTrips : fullPlatform.RoundTrips where
  payload x := ⟨_, rfl, payloadCodec.decode_encode x⟩
  inner x := ⟨_, rfl, innerCodec.decode_encode x⟩
  base64 := codecs.base64
  hex := codecs.hex

end Recorded

open Recorded in
/-- The recorded token is good at the last moment, too late after it, and worth
    nothing under a key of ones. -/
theorem token_agreement_recorded :
    ∃ token, payload.intoToken fullPlatform config.masterSigKey = .ok token ∧
      ReconnectTokenPayload.verify fullPlatform token config.masterSigKey 120 = .ok payload ∧
      ReconnectTokenPayload.verify fullPlatform token config.masterSigKey 121 =
        .error .Expired ∧
      ReconnectTokenPayload.verify fullPlatform token ⟨List.replicate 32 1, rfl⟩ 120 =
        .error .InvalidSignature ∧
      ∃ bytes inner, fullPlatform.base64Decode token.text = some bytes ∧
        fullPlatform.innerFromJson bytes = some inner ∧
        fullPlatform.payloadFromJson inner.payload = some payload := by
  obtain ⟨⟨token, htoken, hvalid, -, hother⟩, haccepted⟩ :=
    token_agreement fullPlatform roundTrips payload config.masterSigKey 120
  obtain ⟨⟨token', htoken', -, hexpired, -⟩, -⟩ :=
    token_agreement fullPlatform roundTrips payload config.masterSigKey 121
  obtain rfl := Except.ok.inj (htoken.symm.trans htoken')
  have hok := hvalid (by decide)
  obtain ⟨bytes, inner', hbytes, hinner, -, hpayload, -⟩ := haccepted token payload hok
  refine ⟨token, htoken, hok, hexpired (by decide), hother _ ?_, bytes, inner', hbytes, hinner,
    hpayload⟩
  intro text htext
  obtain rfl : payloadJson = text :=
    (Codec.known_encode _).symm.trans (Option.some.inj htext)
  simp [fullPlatform, platform, config, AnnouncedHost.config, sig]

/-! ### Presented tokens -/

/-- The hello that `connect_to_wormhole` presents a token with is refused, for
    every token. -/
theorem reconnect_refused (p : Platform) (cfg : Config) (reg : Connections) (now : Time)
    (generated id : ClientId) (random : Text) (token : ReconnectToken) (wildcard : Bool) :
    authClient p cfg reg now generated random (some (.reconnect id token wildcard)) =
        .error (if cfg.allowedHosts = [] then .Error "Server misconfigured".toList
          else .AuthFailed) ∧
      ∀ hs, authClient p cfg reg now generated random (some (.reconnect id token wildcard)) ≠
        .ok hs := by
  have hrefused : authClient p cfg reg now generated random (some (.reconnect id token wildcard)) =
      .error (if cfg.allowedHosts = [] then .Error "Server misconfigured".toList
        else .AuthFailed) := by
    cases hcfg : cfg.allowedHosts with
    | nil => simp [authClient, helloDomain, ClientHello.reconnect, hcfg]
    | cons first rest => simp [authClient, helloDomain, ClientHello.reconnect, hcfg]
  refine ⟨hrefused, ?_⟩
  intro hs hok
  rw [hrefused] at hok
  cases hok

open Recorded in
/-- The client "1" comes back for its name before its token expires, nobody has
    taken the name, and it is told that its key is wrong. -/
theorem reconnect_refused_in_time :
    payload.intoToken platform config.masterSigKey = .ok token ∧ (0 : Time) ≤ payload.expires ∧
      Connections.new.findByHost holder.fullHost = none ∧
      authClient platform config Connections.new 0 ⟨"2".toList⟩ []
        (some (.reconnect ⟨"3".toList⟩ token false)) = .error .AuthFailed := by
  refine ⟨token_issued, by decide, rfl, ?_⟩
  rfl

/-- What a hello that carries a token of the client `c` is granted is what `c` had,
    exactly if it asks for no more. -/
theorem token_grant_iff (p : Platform) (hp : p.Codecs) (cfg : Config) (c : ConnectedClient)
    (issued : Time) (token : ReconnectToken)
    (htoken : (c.tokenPayload issued).intoToken p cfg.masterSigKey = .ok token)
    (reg : Connections) (now : Time) (generated : ClientId) (random : Text) (hello : ClientHello)
    (hcarries : hello.reconnectToken = some token) (hs : ClientHandshake)
    (hok : authClient p cfg reg now generated random (some hello) = .ok hs) :
    (hs.subDomain = c.host ∧ hs.domain = c.domain ∧ (hs.wildcard = true → c.wildcard = true)) ↔
      helloDomain cfg hello.domain = .ok c.domain ∧
        (hello.wildcard = true → c.wildcard = true) ∧
        ∀ name, hello.subDomain = some name → p.toLowercase name = c.host := by
  obtain ⟨hello', key, heq, -, hdomain, hwild, hpath⟩ := authClient_ok hok
  obtain rfl : hello = hello' := Option.some.inj heq
  -- the name comes from the token, unless the hello states one itself
  have hname : hs.subDomain = c.host ↔
      ∀ name, hello.subDomain = some name → p.toLowercase name = c.host := by
    rcases hpath with ⟨name, hname | ⟨-, hnone, -⟩, hadmit⟩ | ⟨token', hsub, htoken', hrec⟩
    · have hlower := (sanitize_ok (admitSubDomain_ok hadmit).1).1
      rw [hname, hlower]
      simp
    · rw [hcarries] at hnone
      cases hnone
    · obtain rfl : token = token' := Option.some.inj (hcarries.symm.trans htoken')
      obtain ⟨payload, hverify, hshape, -⟩ := handleReconnectToken_ok hrec
      rw [ReconnectTokenPayload.verify_intoToken hp htoken] at hverify
      split at hverify
      · cases hverify
      · obtain rfl := Except.ok.inj hverify
        rw [hshape, hsub]
        simp [ConnectedClient.tokenPayload]
  rw [hname, hdomain, hwild, Except.ok.injEq]
  tauto

open Recorded in
/-- With its token and no key the client "1" gets its own name back. -/
theorem token_grant_iff_same :
    ∃ hs, authClient platform config Connections.new 0 ⟨"2".toList⟩ []
        (some (hello none false)) = .ok hs ∧
      hs.subDomain = holder.host ∧ hs.domain = holder.domain ∧ hs.wildcard = false := by
  have hok : authClient platform config Connections.new 0 ⟨"2".toList⟩ []
      (some (hello none false)) = .ok ⟨⟨"1".toList⟩, "a".toList, "b.co".toList, true, false⟩ :=
    authClient_token codecs token_issued rfl rfl rfl rfl (by decide) nofun
  obtain ⟨hsub, hdomain, -⟩ := (token_grant_iff platform codecs config holder 0 token token_issued
    Connections.new 0 ⟨"2".toList⟩ [] (hello none false) rfl _ hok).mpr
      ⟨rfl, nofun, nofun⟩
  exact ⟨_, hok, hsub, hdomain, rfl⟩

open Recorded in
/-- With its token and no key it gets the name under another domain as well, and
    all of that domain. -/
theorem token_grants_more :
    (holder.tokenPayload 0).intoToken platform config.masterSigKey = .ok token ∧
      ∃ hs, authClient platform config Connections.new 0 ⟨"2".toList⟩ []
          (some (hello (some "c.co".toList) true)) = .ok hs ∧
        hs.domain ≠ holder.domain ∧ hs.wildcard = true ∧ holder.wildcard = false := by
  refine ⟨token_issued, ⟨⟨"1".toList⟩, "a".toList, "c.co".toList, true, true⟩, ?_, by decide, rfl,
    rfl⟩
  exact authClient_token codecs token_issued rfl rfl rfl (by rfl) (by decide) fun _ => rfl

end Neutun
