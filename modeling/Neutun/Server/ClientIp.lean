/-
  Neutun/Server/ClientIp.lean
  ===========================
  The address that the block list is asked about (`client_ip` in
  `control_server.rs`).

  Behind the documented proxy the peer's address is the last element of
  `X-Forwarded-For` and the whole of `X-Real-IP`.  `client_ip` takes the first
  element of `X-Forwarded-For`, which the peer may have written itself.
-/
import Neutun.Cli.Migration
import Neutun.Foundation.Reader
import Neutun.Server.Tokens

namespace Neutun

open Foundation

/-! ### `IpAddr::from_str` -/

namespace IpAddr

open Reader

def readOctet (index : Nat) : Reader (BitVec 8) := do
  let n ← separator '.' index (number 10 3 255 false)
  pure (BitVec.ofNat 8 n)

def readIpv4Addr : Reader (BitVec 32) := do
  let one ← readOctet 0
  let two ← readOctet 1
  let three ← readOctet 2
  let four ← readOctet 3
  pure (one ++ two ++ three ++ four)

/-- Groups of an IPv6 address as long as they follow, and whether an IPv4 address
    stands for the last two; `left` of the groups are to come. -/
def readGroups (i : Nat) : Nat → Reader (List (BitVec 16) × Bool)
  | 0 => pure ([], false)
  | left + 1 =>
    (do
      -- there must be room for two groups
      guard (0 < left)
      let v4 ← separator ':' i readIpv4Addr
      pure ([v4.extractLsb' 16 16, v4.extractLsb' 0 16], true)) <|>
    (do
      let group ← separator ':' i (number 16 4 65535 true)
      let (groups, v4) ← readGroups (i + 1) left
      pure (BitVec.ofNat 16 group :: groups, v4)) <|>
    pure ([], false)

def ofGroups (groups : List (BitVec 16)) : BitVec 128 :=
  groups.foldl (fun bits group => (bits <<< 16) ||| group.setWidth 128) 0

def readIpv6Addr : Reader (BitVec 128) := do
  let (head, headIpv4) ← readGroups 0 8
  if head.length = 8 then pure (ofGroups head)
  -- the IPv4 part is not allowed before `::`
  else if headIpv4 = true then failure
  else do
    givenChar ':'
    givenChar ':'
    let (tail, _) ← readGroups 0 (8 - (head.length + 1))
    let zeros := List.replicate (8 - head.length - tail.length) 0
    pure (ofGroups (head ++ zeros ++ tail))

def readIpAddr : Reader IpAddr :=
  (do
    let v4 ← readIpv4Addr
    pure (.V4 v4)) <|>
  (do
    let v6 ← readIpv6Addr
    pure (.V6 v6))

def fromStr : Text → Option IpAddr := parseWith readIpAddr

example : fromStr "192.0.2.1".toList = some (.V4 0xc0000201) := by decide
example : fromStr "192.0.2.01".toList = none := by decide
example : fromStr "2001:db8::192.0.2.1".toList =
    some (.V6 0x20010db80000000000000000c0000201) := by decide +kernel

/-! ### The characters of an address -/

/-- The characters that addresses are written with. -/
def IsAddrChar (c : Char) : Prop := isDigit 16 c = true ∨ c = '.' ∨ c = ':'

theorem consumes_readOctet (index : Nat) : Consumes IsAddrChar (readOctet index) := by
  apply Consumes.bind
  · apply Consumes.separator (Or.inr (Or.inl rfl))
    apply consumes_number
    intro c hc
    exact Or.inl (isDigit_of_le (by omega) hc)
  · intro n
    exact consumes_pure _

theorem consumes_readIpv4Addr : Consumes IsAddrChar readIpv4Addr := by
  apply (consumes_readOctet 0).bind
  intro one
  apply (consumes_readOctet 1).bind
  intro two
  apply (consumes_readOctet 2).bind
  intro three
  apply (consumes_readOctet 3).bind
  intro four
  exact consumes_pure _

theorem consumes_readGroups (i left : Nat) : Consumes IsAddrChar (readGroups i left) := by
  induction left generalizing i with
  | zero => exact consumes_pure _
  | succ left ih =>
    apply Consumes.orElse
    · apply (consumes_guard _).bind
      intro _
      apply (Consumes.separator (Or.inr (Or.inr rfl)) consumes_readIpv4Addr).bind
      intro v4
      exact consumes_pure _
    · apply Consumes.orElse
      · apply Consumes.bind
        · apply Consumes.separator (Or.inr (Or.inr rfl))
          apply consumes_number
          intro c hc
          exact Or.inl hc
        · intro group
          apply (ih (i + 1)).bind
          intro groups
          exact consumes_pure _
      · exact consumes_pure _

theorem consumes_readIpv6Addr : Consumes IsAddrChar readIpv6Addr := by
  apply (consumes_readGroups 0 8).bind
  rintro ⟨head, headIpv4⟩
  have hcolon : Consumes IsAddrChar (givenChar ':') := consumes_givenChar (Or.inr (Or.inr rfl))
  simp only
  split_ifs
  · exact consumes_pure _
  · exact consumes_failure
  · apply hcolon.bind
    intro _
    apply hcolon.bind
    intro _
    apply (consumes_readGroups 0 _).bind
    intro tail
    exact consumes_pure _

/-- A text that is an address has no other characters. -/
theorem fromStr_chars {s : Text} {a : IpAddr} (h : fromStr s = some a) : ∀ c ∈ s, IsAddrChar c := by
  refine parseWith_consumes ?_ h
  apply Consumes.orElse
  · apply consumes_readIpv4Addr.bind
    intro v4
    exact consumes_pure _
  · apply consumes_readIpv6Addr.bind
    intro v6
    exact consumes_pure _

theorem IsAddrChar.bounds {c : Char} (h : IsAddrChar c) : 0x2e ≤ c.toNat ∧ c.toNat < 0x7f := by
  rcases h with h | rfl | rfl
  · obtain ⟨hlow, hhigh⟩ := isDigit_bounds h
    omega
  · decide
  · decide

end IpAddr

/-! ### `client_ip` -/

/-- The bytes of a header's value. -/
abbrev HeaderValue := Bytes

/-- Visible ASCII and the tab. -/
def isVisible (b : UInt8) : Bool := decide (0x20 ≤ b.toNat ∧ b.toNat < 0x7f ∨ b.toNat = 9)

/-- `HeaderValue::to_str` of `http`, as documented: the value is scanned, and is a text
    only if it has nothing but visible ASCII characters. -/
def toStr (value : HeaderValue) : Option Text :=
  if value.all isVisible = true then some (value.map fun b => Char.ofNat b.toNat) else none

/-- `warp::header::optional::<String>`, as documented: `None` where there is no such
    header, `Some` of the value where it parses, and otherwise a rejection of the
    request as one with an invalid header. -/
def optionalHeader : Option HeaderValue → Option (Option Text)
  | none => some none
  | some value => (toStr value).map some

/-- The headers that `client_ip` reads. -/
structure PeerHeaders where
  xForwardedFor : Option HeaderValue
  xRealIp : Option HeaderValue

/-- `s.split(',').next()` -/
def firstElement (s : Text) : Text := s.takeWhile fun c => !(c == ',')

/-- Absent where the filter rejects the request. -/
def clientIp (headers : PeerHeaders) : Option IpAddr := do
  let fwd ← optionalHeader headers.xForwardedFor
  let realIp ← optionalHeader headers.xRealIp
  -- the first address in the comma-separated list
  let fromFwd := fwd.bind fun s => IpAddr.fromStr (Cli.trim (firstElement s))
  let fromReal := realIp.bind fun s => IpAddr.fromStr (Cli.trim s)
  some ((fromFwd <|> fromReal).getD (.V4 0))

/-- The route of the control server: `client_ip`, then `handle_new_connection` up to
    the end of the handshake. -/
def Server.wormhole (p : Platform) (cfg : Config) (s : Server) (n : Nat) (headers : PeerHeaders)
    (clientHello : Option (Option ClientHello)) (now : Time) (generated : ClientId)
    (random : Text) : Option Server :=
  (clientIp headers).bind fun ip => s.hello p cfg n ip clientHello now generated random

/-- What the documented proxy sends for a peer with the address `remoteAddr` that has
    itself sent `forwarded`: `X-Real-IP $remote_addr` and
    `X-Forwarded-For $proxy_add_x_forwarded_for`. -/
def proxied (remoteAddr : Text) (forwarded : Option HeaderValue) : PeerHeaders where
  xForwardedFor := some (forwarded.elim (utf8 remoteAddr) fun v =>
    v ++ utf8 ", ".toList ++ utf8 remoteAddr)
  xRealIp := some (utf8 remoteAddr)

/-! ### Texts in headers -/

/-- A value is a text exactly if both of its parts are. -/
theorem toStr_append (v w : HeaderValue) :
    toStr (v ++ w) = (toStr v).bind fun s => (toStr w).map fun t => s ++ t := by
  unfold toStr
  rw [List.all_append, List.map_append]
  cases v.all isVisible <;> cases w.all isVisible <;> rfl

theorem utf8EncodeChar_ascii {c : Char} (h : c.toNat < 0x80) :
    String.utf8EncodeChar c = [UInt8.ofNat c.toNat] := by
  have hle : c.val.toNat ≤ 0x7f := by
    change c.toNat ≤ 0x7f
    omega
  unfold String.utf8EncodeChar
  simp only
  rw [if_pos hle]
  rfl

/-- A text of visible characters goes through a header. -/
theorem toStr_utf8 {s : Text} (h : ∀ c ∈ s, 0x20 ≤ c.toNat ∧ c.toNat < 0x7f) :
    toStr (utf8 s) = some s := by
  induction s with
  | nil => rfl
  | cons c s ih =>
    obtain ⟨⟨hlow, hhigh⟩, hs⟩ := List.forall_mem_cons.mp h
    have hchar : toStr (String.utf8EncodeChar c) = some [c] := by
      rw [utf8EncodeChar_ascii (by omega)]
      have hbyte : (UInt8.ofNat c.toNat).toNat = c.toNat := by
        rw [UInt8.toNat_ofNat']
        omega
      unfold toStr isVisible
      simp [hbyte, hlow, hhigh]
    rw [utf8_cons, toStr_append, hchar, ih hs]
    rfl

/-! ### Behind the proxy -/

theorem firstElement_append (s t : Text) : firstElement (s ++ ',' :: t) = firstElement s := by
  induction s with
  | nil => rfl
  | cons c s ih =>
    unfold firstElement at ih ⊢
    rw [List.cons_append, List.takeWhile_cons, List.takeWhile_cons, ih]

theorem trim_eq_self {s : Text} (h : ∀ c ∈ s, Cli.isWhitespace c = false) : Cli.trim s = s := by
  have hdrop : s.dropWhile Cli.isWhitespace = s := by
    cases s with
    | nil => rfl
    | cons c s => exact List.dropWhile_cons_of_neg (by simp [h c (List.mem_cons_self)])
  rw [Cli.trim, hdrop, List.rdropWhile_eq_self_iff]
  intro hne
  rw [h _ (List.getLast_mem hne)]
  exact Bool.false_ne_true

variable {a : IpAddr} {remoteAddr : Text}

/-- The text of an address is one element without anything to trim. -/
theorem fromStr_trim_firstElement (h : IpAddr.fromStr remoteAddr = some a) :
    firstElement remoteAddr = remoteAddr ∧ Cli.trim remoteAddr = remoteAddr ∧
      toStr (utf8 remoteAddr) = some remoteAddr := by
  have hbounds : ∀ c ∈ remoteAddr, 0x2e ≤ c.toNat ∧ c.toNat < 0x7f := by
    intro c hc
    exact (IpAddr.fromStr_chars h c hc).bounds
  refine ⟨?_, ?_, ?_⟩
  · apply List.takeWhile_eq_self_iff.mpr
    intro c hc
    have hcomma : c ≠ ',' := by
      rintro rfl
      exact absurd (hbounds _ hc).1 (by decide)
    simp [hcomma]
  · apply trim_eq_self
    intro c hc
    obtain ⟨hlow, hhigh⟩ := hbounds c hc
    unfold Cli.isWhitespace
    simp only [decide_eq_false_iff_not]
    omega
  · apply toStr_utf8
    intro c hc
    obtain ⟨hlow, hhigh⟩ := hbounds c hc
    exact ⟨by omega, hhigh⟩

/-- What the peer sends goes first: only where it begins with no address does the
    peer's own count. -/
theorem clientIp_proxied (h : IpAddr.fromStr remoteAddr = some a) (forwarded : Option HeaderValue) :
    clientIp (proxied remoteAddr forwarded) = forwarded.elim (some a) fun v =>
      (toStr v).map fun s => (IpAddr.fromStr (Cli.trim (firstElement s))).getD a := by
  obtain ⟨hfirst, htrim, htext⟩ := fromStr_trim_firstElement h
  cases forwarded with
  | none =>
    simp only [clientIp, proxied, Option.elim, optionalHeader, htext, Option.map_some,
      Option.bind_eq_bind, Option.bind_some, hfirst, htrim, h]
    rfl
  | some v =>
    have hsep : toStr (utf8 ", ".toList) = some [',', ' '] := by decide
    simp only [clientIp, proxied, Option.elim, optionalHeader, toStr_append, htext, hsep,
      Option.map_some, Option.bind_eq_bind, Option.bind_some, htrim, h]
    cases toStr v with
    | none => rfl
    | some s =>
      simp only [Option.bind_some, Option.map_some, List.append_assoc, List.cons_append,
        firstElement_append]
      cases IpAddr.fromStr (Cli.trim (firstElement s)) <;> rfl

/-- The peer is known by its own address, and its connection is closed before any
    handshake. -/
structure StaysBlocked (p : Platform) (cfg : Config) (a : IpAddr) (headers : PeerHeaders) :
    Prop where
  yields : clientIp headers = some a
  closed : ∀ s n clientHello now generated random t,
    Server.wormhole p cfg s n headers clientHello now generated random = some t →
      (t.conns n).phase = .rejected

/-- What the peer has sent is a text, and does not begin with the address of another. -/
def BeginsWithNoOther (a : IpAddr) : Option HeaderValue → Prop
  | none => True
  | some v => ∃ s, toStr v = some s ∧
      ∀ b, IpAddr.fromStr (Cli.trim (firstElement s)) = some b → b = a

variable {p : Platform} {cfg : Config}

/-- A blocked address gets no further than the first message. -/
theorem staysBlocked_of_yields {headers : PeerHeaders} (hblocked : a ∈ cfg.blockedIps)
    (h : clientIp headers = some a) : StaysBlocked p cfg a headers := by
  refine ⟨h, ?_⟩
  intro s n clientHello now generated random t ht
  unfold Server.wormhole at ht
  rw [h, Option.bind_some] at ht
  obtain ⟨-, rfl⟩ := Server.hello_cases ht
  have hnone : s.authClientHandshake p cfg a clientHello now generated random = none := by
    unfold Server.authClientHandshake
    rw [if_pos hblocked]
  rw [hnone, Server.conns_setConn, if_pos rfl]
  rfl

/-- Behind the documented proxy a blocked address stays blocked exactly if what its
    peer sends as `X-Forwarded-For` begins with no address but this one. -/
theorem blocked_behind_proxy_iff (hremote : IpAddr.fromStr remoteAddr = some a)
    (hblocked : a ∈ cfg.blockedIps) (forwarded : Option HeaderValue) :
    StaysBlocked p cfg a (proxied remoteAddr forwarded) ↔ BeginsWithNoOther a forwarded := by
  have hclient := clientIp_proxied hremote forwarded
  cases forwarded with
  | none => exact iff_of_true (staysBlocked_of_yields hblocked hclient) trivial
  | some v =>
    rw [Option.elim_some] at hclient
    constructor
    · intro hblock
      obtain ⟨s, hs, hget⟩ := Option.map_eq_some_iff.mp (hclient.symm.trans hblock.yields)
      refine ⟨s, hs, ?_⟩
      intro b hb
      rw [hb] at hget
      exact hget
    · rintro ⟨s, hs, hother⟩
      apply staysBlocked_of_yields hblocked
      rw [hclient, hs, Option.map_some]
      cases hb : IpAddr.fromStr (Cli.trim (firstElement s)) with
      | none => rfl
      | some b =>
        rw [hother b hb]
        rfl

namespace BlockedPeer

def address : IpAddr := .V4 0xcb007109

def peer : Text := "203.0.113.9".toList

def config : Config := { Recorded.config with blockedIps := [address] }

end BlockedPeer

open BlockedPeer in
/-- A peer that forwards for nobody it can name. -/
theorem blocked_behind_proxy_unknown :
    StaysBlocked Recorded.platform config address
      (proxied peer (some (utf8 "unknown, 1.2.3.4".toList))) := by
  refine (blocked_behind_proxy_iff (by decide) (by decide) _).mpr ?_
  refine ⟨"unknown, 1.2.3.4".toList, by decide, ?_⟩
  intro b hb
  have hnone : IpAddr.fromStr (Cli.trim (firstElement "unknown, 1.2.3.4".toList)) = none := by
    decide
  rw [hnone] at hb
  cases hb

open BlockedPeer in
/-- A peer that says it forwards for another address is taken for that one. -/
theorem blocked_peer_forwards :
    address ∈ config.blockedIps ∧ IpAddr.fromStr peer = some address ∧
      clientIp (proxied peer (some (utf8 "1.2.3.4".toList))) =
        some (.V4 0x01020304) ∧
      ¬ StaysBlocked Recorded.platform config address
        (proxied peer (some (utf8 "1.2.3.4".toList))) := by
  have hother : clientIp (proxied peer (some (utf8 "1.2.3.4".toList))) =
      some (.V4 0x01020304) := by decide
  refine ⟨by decide, by decide, hother, ?_⟩
  intro h
  have hsame := hother.symm.trans h.yields
  revert hsame
  decide

end Neutun
