/-
  Neutun/Wire.lean
  ================
  What the two ends of a tunnel share (`neutun_lib/src/lib.rs`): identifiers, the
  two hello messages, and the control packets with their byte format; and what
  reads and writes on websockets and sockets can result in.

  A packet is one tag byte, the eight bytes of a stream id, and for `Data` and
  for a `Ping` with a token the rest of the message.  Whether a `Ping` carries a
  token is told by two reserved stream ids.
-/
import Neutun.Foundation.Utf8

namespace Neutun

open Foundation

abbrev Bytes := List UInt8

/-! ### Identifiers and hello messages -/

/-- `StreamId([u8; 8])`. -/
structure StreamId where
  bytes : Bytes
  length_eq : bytes.length = 8
deriving DecidableEq

/-- `ClientId(String)`. -/
structure ClientId where
  text : Text
deriving DecidableEq, Repr

structure SecretKey where
  text : Text
deriving DecidableEq, Repr

structure ReconnectToken where
  text : Text
deriving DecidableEq, Repr

inductive ClientType where
  | Auth (key : SecretKey)
  | Anonymous
deriving DecidableEq, Repr

structure ClientHello where
  id : ClientId
  subDomain : Option Text
  domain : Option Text
  clientType : ClientType
  reconnectToken : Option ReconnectToken
  wildcard : Bool
deriving DecidableEq, Repr

namespace ClientHello

/-- `id` is what `ClientId::generate` returns. -/
def generate (id : ClientId) (subDomain domain : Option Text) (typ : ClientType)
    (wildcard : Bool) : ClientHello :=
  ⟨id, subDomain, domain, typ, none, wildcard⟩

def reconnect (id : ClientId) (reconnectToken : ReconnectToken) (wildcard : Bool) : ClientHello :=
  ⟨id, none, none, .Anonymous, some reconnectToken, wildcard⟩

end ClientHello

inductive ServerHello where
  | Success (subDomain hostname : Text) (clientId : ClientId)
  | SubDomainInUse
  | InvalidSubDomain
  | AuthFailed
  | Error (message : Text)
deriving DecidableEq, Repr

/-! ### Control packets -/

inductive ControlPacket where
  | Init (id : StreamId)
  | Data (id : StreamId) (data : Bytes)
  | Refused (id : StreamId)
  | End (id : StreamId)
  | Ping (token : Option ReconnectToken)
deriving DecidableEq

/-- `EMPTY_STREAM`, the id of a `Ping` without a token. -/
def emptyStream : StreamId := ⟨[0x0F, 0, 0, 0, 0, 0, 0, 0], rfl⟩

/-- `TOKEN_STREAM`, the id of a `Ping` with one. -/
def tokenStream : StreamId := ⟨[0x0F, 0, 0, 0, 0, 0, 0, 1], rfl⟩

/-- The stream of the runs that show the theorems at work. -/
def sampleStream : StreamId := ⟨[1, 2, 3, 4, 5, 6, 7, 8], rfl⟩

namespace ControlPacket

def serialize : ControlPacket → Bytes
  | Init sid => [0x01] ++ sid.bytes
  | Data sid data => [0x02] ++ sid.bytes ++ data
  | Refused sid => [0x03] ++ sid.bytes
  | End sid => [0x04] ++ sid.bytes
  | Ping tok =>
    let data := tok.elim emptyStream.bytes fun t => tokenStream.bytes ++ utf8 t.text
    [0x05] ++ data

/-- The first byte, the eight bytes of the stream id and the rest, when the
    message has that many. -/
def splitHeader : Bytes → Option (UInt8 × StreamId × Bytes)
  | [] => none
  | tag :: rest =>
    if h : 8 ≤ rest.length then
      some (tag, ⟨rest.take 8, by rw [List.length_take]; omega⟩, rest.drop 8)
    else none

def deserialize (data : Bytes) : Except String ControlPacket :=
  match splitHeader data with
  | none => .error "invalid DataPacket, missing stream id"
  | some (tag, streamId, rest) =>
    if tag = 0x01 then .ok (Init streamId)
    else if tag = 0x02 then .ok (Data streamId rest)
    else if tag = 0x03 then .ok (Refused streamId)
    else if tag = 0x04 then .ok (End streamId)
    else if tag = 0x05 then
      if streamId = emptyStream then .ok (Ping none)
      else .ok (Ping (some ⟨fromUtf8Lossy rest⟩))
    else .error "invalid control byte in DataPacket"

theorem splitHeader_cons (tag : UInt8) (sid : StreamId) (rest : Bytes) :
    splitHeader (tag :: (sid.bytes ++ rest)) = some (tag, sid, rest) := by
  obtain ⟨bytes, hlen⟩ := sid
  rw [splitHeader, dif_pos (by rw [List.length_append, hlen]; omega)]
  simp only [Option.some.injEq, Prod.mk.injEq, StreamId.mk.injEq, true_and]
  exact ⟨List.take_left' hlen, List.drop_left' hlen⟩

/-- A message shorter than a header is refused, whatever its bytes. -/
theorem splitHeader_eq_none {data : Bytes} : splitHeader data = none ↔ data.length < 9 := by
  cases data with
  | nil => simp [splitHeader]
  | cons tag rest =>
    rw [splitHeader]
    by_cases h : 8 ≤ rest.length
    · simp [h]
    · simp only [h, dite_false, true_iff, List.length_cons]
      omega

/-- Decoding undoes encoding, for every packet. -/
theorem deserialize_serialize (p : ControlPacket) : deserialize p.serialize = .ok p := by
  cases p with
  | Init sid =>
    have h := splitHeader_cons 0x01 sid []
    rw [List.append_nil] at h
    simp [serialize, deserialize, h]
  | Data sid data => simp [serialize, deserialize, splitHeader_cons]
  | Refused sid =>
    have h := splitHeader_cons 0x03 sid []
    rw [List.append_nil] at h
    simp [serialize, deserialize, h]
  | End sid =>
    have h := splitHeader_cons 0x04 sid []
    rw [List.append_nil] at h
    simp [serialize, deserialize, h]
  | Ping tok =>
    cases tok with
    | none =>
      have h := splitHeader_cons 0x05 emptyStream []
      rw [List.append_nil] at h
      simp [serialize, deserialize, h]
    | some t =>
      have hne : tokenStream ≠ emptyStream := by decide
      simp [serialize, deserialize, splitHeader_cons, hne]

theorem splitHeader_eq_some {data rest : Bytes} {tag : UInt8} {sid : StreamId} :
    splitHeader data = some (tag, sid, rest) ↔ data = tag :: (sid.bytes ++ rest) := by
  constructor
  · intro h
    cases data with
    | nil => simp [splitHeader] at h
    | cons b bs =>
      rw [splitHeader] at h
      by_cases hlen : 8 ≤ bs.length
      · rw [dif_pos hlen] at h
        simp only [Option.some.injEq, Prod.mk.injEq] at h
        obtain ⟨rfl, rfl, rfl⟩ := h
        rw [List.take_append_drop]
      · rw [dif_neg hlen] at h
        simp at h
  · rintro rfl
    exact splitHeader_cons tag sid rest

/-- What each accepted message is read as, by its three parts. -/
theorem deserialize_eq_ok {data : Bytes} {p : ControlPacket} :
    deserialize data = .ok p ↔ ∃ tag sid rest, data = tag :: (sid.bytes ++ rest) ∧
      (tag = 0x01 ∧ p = Init sid ∨ tag = 0x02 ∧ p = Data sid rest ∨
        tag = 0x03 ∧ p = Refused sid ∨ tag = 0x04 ∧ p = End sid ∨
        tag = 0x05 ∧ sid = emptyStream ∧ p = Ping none ∨
        tag = 0x05 ∧ sid ≠ emptyStream ∧ p = Ping (some ⟨fromUtf8Lossy rest⟩)) := by
  constructor
  · intro h
    rw [deserialize] at h
    split at h
    · cases h
    · next tag sid rest hsplit =>
      refine ⟨tag, sid, rest, splitHeader_eq_some.mp hsplit, ?_⟩
      split_ifs at h with h₁ h₂ h₃ h₄ h₅ he <;> cases h <;> simp [*]
  · rintro ⟨tag, sid, rest, rfl, h⟩
    rw [deserialize, splitHeader_cons]
    rcases h with ⟨rfl, rfl⟩ | ⟨rfl, rfl⟩ | ⟨rfl, rfl⟩ | ⟨rfl, rfl⟩ | ⟨rfl, he, rfl⟩ |
      ⟨rfl, he, rfl⟩
      <;> simp [*]

/-- The messages that are written exactly as `serialize` writes them: nothing
    behind the id but the data of a `Data` and the token of a `Ping`, a `Ping`
    under one of the two reserved ids, a token in valid UTF-8. -/
def Canonical (data : Bytes) : Prop :=
  (data.head? = some 0x01 ∨ data.head? = some 0x03 ∨ data.head? = some 0x04) ∧ data.length = 9 ∨
    data.head? = some 0x02 ∨
    data.head? = some 0x05 ∧ (data.drop 1).take 8 = emptyStream.bytes ∧ data.length = 9 ∨
    data.head? = some 0x05 ∧ (data.drop 1).take 8 = tokenStream.bytes ∧ ValidUtf8 (data.drop 9)

theorem canonical_iff {tag : UInt8} {sid : StreamId} {rest : Bytes} :
    Canonical (tag :: (sid.bytes ++ rest)) ↔
      (tag = 0x01 ∨ tag = 0x03 ∨ tag = 0x04) ∧ rest = [] ∨ tag = 0x02 ∨
        tag = 0x05 ∧ sid = emptyStream ∧ rest = [] ∨
        tag = 0x05 ∧ sid = tokenStream ∧ ValidUtf8 rest := by
  have hdrop : (tag :: (sid.bytes ++ rest)).drop 9 = rest := by
    rw [List.drop_succ_cons, List.drop_left' sid.length_eq]
  have htake : (sid.bytes ++ rest).take 8 = sid.bytes := List.take_left' sid.length_eq
  have hlen : (tag :: (sid.bytes ++ rest)).length = 9 ↔ rest = [] := by
    rw [List.length_cons, List.length_append, sid.length_eq, ← List.length_eq_zero_iff]
    omega
  have hid (other : StreamId) : sid.bytes = other.bytes ↔ sid = other := by
    cases sid
    cases other
    simp
  rw [Canonical, hdrop, hlen, List.head?_cons, List.drop_one, List.tail_cons, htake, hid, hid]
  simp only [Option.some.injEq]

theorem deserialize_isOk {data : Bytes} :
    (∃ p, deserialize data = .ok p) ↔
      9 ≤ data.length ∧ ∃ tag, data.head? = some tag ∧ 1 ≤ tag ∧ tag ≤ 5 := by
  constructor
  · rintro ⟨p, h⟩
    obtain ⟨tag, sid, rest, rfl, htag⟩ := deserialize_eq_ok.mp h
    constructor
    · rw [List.length_cons, List.length_append, sid.length_eq]
      omega
    · refine ⟨tag, rfl, ?_⟩
      rcases htag with ⟨rfl, _⟩ | ⟨rfl, _⟩ | ⟨rfl, _⟩ | ⟨rfl, _⟩ | ⟨rfl, _⟩ | ⟨rfl, _⟩ <;> decide
  · rintro ⟨hlen, tag, htag, hlow, hhigh⟩
    cases hsplit : splitHeader data with
    | none =>
      have := splitHeader_eq_none.mp hsplit
      omega
    | some parts =>
      obtain ⟨b, sid, rest⟩ := parts
      have hdata := splitHeader_eq_some.mp hsplit
      rw [hdata, List.head?_cons, Option.some.injEq] at htag
      subst htag
      have hcases : b = 0x01 ∨ b = 0x02 ∨ b = 0x03 ∨ b = 0x04 ∨ b = 0x05 := by
        simp only [UInt8.le_iff_toNat_le, UInt8.reduceToNat] at hlow hhigh
        simp only [← UInt8.toNat_inj, UInt8.reduceToNat]
        omega
      rw [deserialize, hsplit]
      rcases hcases with rfl | rfl | rfl | rfl | rfl
      · exact ⟨_, rfl⟩
      · exact ⟨_, rfl⟩
      · exact ⟨_, rfl⟩
      · exact ⟨_, rfl⟩
      · by_cases he : sid = emptyStream
        · exact ⟨Ping none, by simp [he]⟩
        · exact ⟨Ping (some ⟨fromUtf8Lossy rest⟩), by simp [he]⟩

/-- A message is what its packet is written as exactly when it is canonical. -/
theorem serialize_eq_iff {data : Bytes} {p : ControlPacket} (h : deserialize data = .ok p) :
    p.serialize = data ↔ Canonical data := by
  obtain ⟨tag, sid, rest, rfl, htag⟩ := deserialize_eq_ok.mp h
  rw [canonical_iff]
  rcases htag with ⟨rfl, rfl⟩ | ⟨rfl, rfl⟩ | ⟨rfl, rfl⟩ | ⟨rfl, rfl⟩ | ⟨rfl, he, rfl⟩ |
    ⟨rfl, he, rfl⟩
  · simp [serialize]
  · simp [serialize]
  · simp [serialize]
  · simp [serialize]
  · subst he
    have hne : emptyStream ≠ tokenStream := by decide
    simp [serialize, hne]
  · -- the id of a token's `Ping` is lost, so it has to be the one that is written
    have happend : tokenStream.bytes ++ utf8 (fromUtf8Lossy rest) = sid.bytes ++ rest ↔
        sid = tokenStream ∧ ValidUtf8 rest := by
      rw [validUtf8_iff]
      constructor
      · intro heq
        have hlen : tokenStream.bytes.length = sid.bytes.length := by
          rw [tokenStream.length_eq, sid.length_eq]
        obtain ⟨hid, hrest⟩ := List.append_inj heq hlen
        refine ⟨?_, hrest⟩
        cases sid
        simp only [tokenStream, StreamId.mk.injEq]
        exact hid.symm
      · rintro ⟨rfl, hrest⟩
        rw [hrest]
    simpa [serialize, he] using happend

theorem serialize_ne_nil (p : ControlPacket) : p.serialize ≠ [] := by
  cases p <;> simp [serialize]

end ControlPacket

/-- What one end sends is what the other one reads, also under the reserved
    stream ids, so no two packets look the same on the way. -/
theorem packet_round_trip :
    (∀ p : ControlPacket, ControlPacket.deserialize p.serialize = .ok p) ∧
      Function.Injective ControlPacket.serialize := by
  refine ⟨ControlPacket.deserialize_serialize, ?_⟩
  intro p q h
  have hp := ControlPacket.deserialize_serialize p
  rw [h, ControlPacket.deserialize_serialize q] at hp
  exact (Except.ok.inj hp).symm

/-- The decoder's language.  It accepts what has a header and a known tag, and
    of that the canonical messages are the ones it would write itself; each other
    one stands for a packet that is written differently and read the same. -/
theorem decoder_language (data : Bytes) :
    ((∃ p, ControlPacket.deserialize data = .ok p) ↔
      9 ≤ data.length ∧ ∃ tag, data.head? = some tag ∧ 1 ≤ tag ∧ tag ≤ 5) ∧
    ∀ p, ControlPacket.deserialize data = .ok p →
      (p.serialize = data ↔ ControlPacket.Canonical data) ∧
      (¬ ControlPacket.Canonical data →
        p.serialize ≠ data ∧ ControlPacket.deserialize p.serialize = .ok p) := by
  refine ⟨ControlPacket.deserialize_isOk, ?_⟩
  intro p h
  have hiff := ControlPacket.serialize_eq_iff h
  refine ⟨hiff, ?_⟩
  intro hcanonical
  exact ⟨fun heq => hcanonical (hiff.mp heq), ControlPacket.deserialize_serialize p⟩

/-! ### Websockets and sockets -/

/-- A websocket message. -/
inductive Message where
  | Text (bytes : Bytes)
  | Binary (bytes : Bytes)
  | Ping (bytes : Bytes)
  | Pong (bytes : Bytes)
  | Close (bytes : Bytes)
deriving DecidableEq

/-- The result of `stream.next().await` on a websocket. -/
inductive NextMessage where
  | ok (message : Message)
  | err
  | done
deriving DecidableEq

/-- The result of `write_all`: a failed one has written some part. -/
inductive WriteResult where
  | ok
  | err (written : Nat)
deriving DecidableEq

/-- What is written of the bytes given to `write_all`. -/
def WriteResult.written (result : WriteResult) (data : Bytes) : Bytes :=
  match result with
  | ok => data
  | err n => data.take n

/-- The result of a socket `read`; no bytes are the end of the stream. -/
inductive ReadResult where
  | ok (data : Bytes)
  | err
deriving DecidableEq

end Neutun
