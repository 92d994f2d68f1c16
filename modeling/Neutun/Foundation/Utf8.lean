/-
  Neutun/Foundation/Utf8.lean
  ===========================
  UTF-8 at the level of byte lists: the encoding of a text, its lossy decoding,
  and what a split of the bytes says about the text.

  A text is the list of its Unicode scalar values, so it is valid by
  construction; its bytes are `utf8 s`.  The decoder replaces each maximal
  invalid part by U+FFFD, the way `String::from_utf8_lossy` is documented to.

  The two facts used by the layers above are `fromUtf8Lossy_utf8` (decoding is
  the identity on what the encoder emits) and `utf8_eq_append_ascii` (a byte
  below 0x80 in the encoding is a character of the text: UTF-8 never hides an
  ASCII byte inside a longer sequence).
-/
import Mathlib.Data.List.Basic

namespace Foundation

/-- A text: its Unicode scalar values in order. -/
abbrev Text := List Char

/-- Whether a text is in a list of texts is decided with this instance. -/
instance Text.lawfulBEq : LawfulBEq Text := inferInstance

/-- The UTF-8 encoding of a text. -/
def utf8 (s : Text) : List UInt8 := s.flatMap String.utf8EncodeChar

@[simp] theorem utf8_nil : utf8 [] = [] := rfl

@[simp] theorem utf8_cons (c : Char) (s : Text) :
    utf8 (c :: s) = String.utf8EncodeChar c ++ utf8 s := rfl

@[simp] theorem utf8_append (s t : Text) : utf8 (s ++ t) = utf8 s ++ utf8 t := by
  simp [utf8]

/-! ### Decoding one scalar value -/

/-- A continuation byte. -/
def isCont (b : UInt8) : Bool := 0x80 ≤ b.toNat && b.toNat ≤ 0xBF

/-- The second bytes allowed after a given first byte: they exclude overlong
    forms, surrogates and values above U+10FFFF. -/
def isSecond (first : Nat) (b : UInt8) : Bool :=
  isCont b &&
    (if first = 0xE0 then 0xA0 ≤ b.toNat
     else if first = 0xED then b.toNat ≤ 0x9F
     else if first = 0xF0 then 0x90 ≤ b.toNat
     else if first = 0xF4 then b.toNat ≤ 0x8F
     else true)

/-- The scalar value at the head of a byte list and the number of its bytes, or
    the number of bytes of the maximal invalid part there. -/
def decodeHead : List UInt8 → Except Nat (Char × Nat)
  | [] => .error 0
  | b₀ :: rest =>
    let x := b₀.toNat
    if x < 0x80 then .ok (Char.ofNat x, 1)
    else if 0xC2 ≤ x && x ≤ 0xDF then
      match rest with
      | b₁ :: _ =>
        if isCont b₁ then .ok (Char.ofNat ((x - 0xC0) * 64 + (b₁.toNat - 0x80)), 2) else .error 1
      | [] => .error 1
    else if 0xE0 ≤ x && x ≤ 0xEF then
      match rest with
      | b₁ :: b₂ :: _ =>
        if isSecond x b₁ then
          if isCont b₂ then
            .ok (Char.ofNat ((x - 0xE0) * 4096 + (b₁.toNat - 0x80) * 64 + (b₂.toNat - 0x80)), 3)
          else .error 2
        else .error 1
      | [b₁] => if isSecond x b₁ then .error 2 else .error 1
      | [] => .error 1
    else if 0xF0 ≤ x && x ≤ 0xF4 then
      match rest with
      | b₁ :: b₂ :: b₃ :: _ =>
        if isSecond x b₁ then
          if isCont b₂ then
            if isCont b₃ then
              .ok (Char.ofNat ((x - 0xF0) * 262144 + (b₁.toNat - 0x80) * 4096
                + (b₂.toNat - 0x80) * 64 + (b₃.toNat - 0x80)), 4)
            else .error 3
          else .error 2
        else .error 1
      | [b₁, b₂] => if isSecond x b₁ then (if isCont b₂ then .error 3 else .error 2) else .error 1
      | [b₁] => if isSecond x b₁ then .error 2 else .error 1
      | [] => .error 1
    else .error 1

theorem toNat_ofNat_of_lt {n : Nat} (h : n < 256) : (UInt8.ofNat n).toNat = n := by
  rw [UInt8.toNat_ofNat']
  exact Nat.mod_eq_of_lt h

/-- The head of an encoded text decodes to its first character. -/
theorem decodeHead_utf8EncodeChar (c : Char) (rest : List UInt8) :
    decodeHead (String.utf8EncodeChar c ++ rest) =
      .ok (c, (String.utf8EncodeChar c).length) := by
  have hvalid : c.val.toNat < 0xD800 ∨ (0xDFFF < c.val.toNat ∧ c.val.toNat < 0x110000) := c.valid
  have hc : Char.ofNat c.val.toNat = c := Char.ofNat_toNat c
  generalize hv : c.val.toNat = v at hvalid hc
  unfold String.utf8EncodeChar
  simp only [hv]
  by_cases h₁ : v ≤ 0x7f
  · rw [if_pos h₁]
    have hx : (UInt8.ofNat v).toNat = v := toNat_ofNat_of_lt (by omega)
    simp only [List.singleton_append, decodeHead, hx]
    rw [if_pos (by omega), hc]
    rfl
  rw [if_neg h₁]
  by_cases h₂ : v ≤ 0x7ff
  · rw [if_pos h₂]
    have hx : (UInt8.ofNat (v / 64 % 0x20 + 0xc0)).toNat = v / 64 + 0xc0 := by
      rw [toNat_ofNat_of_lt (by omega)]; omega
    have hy : (UInt8.ofNat (v % 0x40 + 0x80)).toNat = v % 64 + 0x80 :=
      toNat_ofNat_of_lt (by omega)
    simp only [List.cons_append, List.nil_append, decodeHead, hx, isCont, hy]
    rw [if_neg (by omega), if_pos (by simp; omega), if_pos (by simp; omega)]
    rw [show (v / 64 + 0xc0 - 0xC0) * 64 + (v % 64 + 0x80 - 0x80) = v by omega, hc]
    rfl
  rw [if_neg h₂]
  by_cases h₃ : v ≤ 0xffff
  · rw [if_pos h₃]
    have hx : (UInt8.ofNat (v / 4096 % 0x10 + 0xe0)).toNat = v / 4096 + 0xe0 := by
      rw [toNat_ofNat_of_lt (by omega)]; omega
    have hy : (UInt8.ofNat (v / 64 % 0x40 + 0x80)).toNat = v / 64 % 64 + 0x80 :=
      toNat_ofNat_of_lt (by omega)
    have hz : (UInt8.ofNat (v % 0x40 + 0x80)).toNat = v % 64 + 0x80 :=
      toNat_ofNat_of_lt (by omega)
    have hsecond : isSecond (v / 4096 + 0xe0) (UInt8.ofNat (v / 64 % 0x40 + 0x80)) = true := by
      simp only [isSecond, isCont, hy]
      split_ifs <;> simp <;> omega
    have hthird : isCont (UInt8.ofNat (v % 0x40 + 0x80)) = true := by
      simp only [isCont, hz]; simp; omega
    simp only [List.cons_append, List.nil_append, decodeHead, hx, hsecond, hthird, hy, hz]
    rw [if_neg (by omega), if_neg (by simp), if_pos (by simp; omega)]
    simp only [if_true]
    rw [show (v / 4096 + 0xe0 - 0xE0) * 4096 + (v / 64 % 64 + 0x80 - 0x80) * 64
        + (v % 64 + 0x80 - 0x80) = v by omega, hc]
    rfl
  · rw [if_neg h₃]
    have hw : (UInt8.ofNat (v / 262144 % 0x08 + 0xf0)).toNat = v / 262144 + 0xf0 := by
      rw [toNat_ofNat_of_lt (by omega)]; omega
    have hx : (UInt8.ofNat (v / 4096 % 0x40 + 0x80)).toNat = v / 4096 % 64 + 0x80 :=
      toNat_ofNat_of_lt (by omega)
    have hy : (UInt8.ofNat (v / 64 % 0x40 + 0x80)).toNat = v / 64 % 64 + 0x80 :=
      toNat_ofNat_of_lt (by omega)
    have hz : (UInt8.ofNat (v % 0x40 + 0x80)).toNat = v % 64 + 0x80 :=
      toNat_ofNat_of_lt (by omega)
    have hsecond : isSecond (v / 262144 + 0xf0) (UInt8.ofNat (v / 4096 % 0x40 + 0x80)) = true := by
      simp only [isSecond, isCont, hx]
      split_ifs <;> simp <;> omega
    have hthird : isCont (UInt8.ofNat (v / 64 % 0x40 + 0x80)) = true := by
      simp only [isCont, hy]; simp; omega
    have hfourth : isCont (UInt8.ofNat (v % 0x40 + 0x80)) = true := by
      simp only [isCont, hz]; simp; omega
    simp only [List.cons_append, List.nil_append, decodeHead, hw, hsecond, hthird, hfourth,
      hx, hy, hz]
    rw [if_neg (by omega), if_neg (by simp), if_neg (by simp),
      if_pos (by simp; omega)]
    simp only [if_true]
    rw [show (v / 262144 + 0xf0 - 0xF0) * 262144 + (v / 4096 % 64 + 0x80 - 0x80) * 4096
        + (v / 64 % 64 + 0x80 - 0x80) * 64 + (v % 64 + 0x80 - 0x80) = v by omega, hc]
    rfl

/-! ### Lossy decoding -/

/-- The loop of `fromUtf8Lossy`; the fuel bounds the number of characters. -/
def fromUtf8LossyLoop : Nat → List UInt8 → Text
  | 0, _ => []
  | _ + 1, [] => []
  | fuel + 1, b :: bs =>
    match decodeHead (b :: bs) with
    | .ok (c, n) => c :: fromUtf8LossyLoop fuel ((b :: bs).drop n)
    | .error n => Char.ofNat 0xFFFD :: fromUtf8LossyLoop fuel ((b :: bs).drop n)

/-- `String::from_utf8_lossy`: every step consumes at least one byte, so the
    length of the input is fuel enough. -/
def fromUtf8Lossy (bytes : List UInt8) : Text := fromUtf8LossyLoop bytes.length bytes

theorem utf8EncodeChar_ne_nil (c : Char) : String.utf8EncodeChar c ≠ [] := by
  intro h
  have hlen := String.length_utf8EncodeChar c
  rw [h] at hlen
  exact absurd hlen (Nat.ne_of_lt c.utf8Size_pos)

theorem fromUtf8LossyLoop_utf8 (s : Text) :
    ∀ fuel, (utf8 s).length ≤ fuel → fromUtf8LossyLoop fuel (utf8 s) = s := by
  induction s with
  | nil =>
    intro fuel _
    cases fuel <;> rfl
  | cons c s ih =>
    intro fuel hfuel
    have hhead := decodeHead_utf8EncodeChar c (utf8 s)
    obtain ⟨b, bs, hb⟩ := List.exists_cons_of_ne_nil (utf8EncodeChar_ne_nil c)
    rw [utf8_cons, List.length_append] at hfuel
    have hpos : 0 < (String.utf8EncodeChar c).length := by simp [hb]
    cases fuel with
    | zero => omega
    | succ fuel =>
      have hrest := ih fuel (by omega)
      rw [hb, List.cons_append] at hhead
      rw [utf8_cons, hb, List.cons_append, fromUtf8LossyLoop, hhead]
      simp only
      rw [← List.cons_append, List.drop_left, hrest]

/-- Lossy decoding is the identity on encoded texts. -/
@[simp] theorem fromUtf8Lossy_utf8 (s : Text) : fromUtf8Lossy (utf8 s) = s :=
  fromUtf8LossyLoop_utf8 s _ (Nat.le_refl _)

theorem utf8_injective : Function.Injective utf8 := by
  intro s t h
  rw [← fromUtf8Lossy_utf8 s, h, fromUtf8Lossy_utf8]

/-! ### Strict decoding -/

/-- Valid UTF-8: the encoding of some text. -/
def ValidUtf8 (bytes : List UInt8) : Prop := ∃ s, utf8 s = bytes

/-- `std::str::from_utf8`: what is not valid is refused. -/
def fromUtf8 (bytes : List UInt8) : Option Text :=
  if utf8 (fromUtf8Lossy bytes) = bytes then some (fromUtf8Lossy bytes) else none

theorem validUtf8_iff {bytes : List UInt8} :
    ValidUtf8 bytes ↔ utf8 (fromUtf8Lossy bytes) = bytes := by
  constructor
  · rintro ⟨s, rfl⟩
    rw [fromUtf8Lossy_utf8]
  · intro h
    exact ⟨_, h⟩

instance (bytes : List UInt8) : Decidable (ValidUtf8 bytes) := decidable_of_iff _ validUtf8_iff.symm

@[simp] theorem fromUtf8_utf8 (s : Text) : fromUtf8 (utf8 s) = some s := by
  simp [fromUtf8]

/-! ### Splits of the bytes at an ASCII byte -/

/-- An encoding is one ASCII byte or has no ASCII byte at all. -/
theorem utf8EncodeChar_ascii_or (c : Char) :
    (c.val.toNat < 0x80 ∧ String.utf8EncodeChar c = [UInt8.ofNat c.val.toNat]) ∨
      ∀ b ∈ String.utf8EncodeChar c, 0x80 ≤ b.toNat := by
  have hvalid : c.val.toNat < 0xD800 ∨ (0xDFFF < c.val.toNat ∧ c.val.toNat < 0x110000) := c.valid
  unfold String.utf8EncodeChar
  simp only
  generalize c.val.toNat = v at *
  by_cases h₁ : v ≤ 0x7f
  · exact Or.inl ⟨by omega, by rw [if_pos h₁]⟩
  · right
    rw [if_neg h₁]
    split_ifs <;> intro b hb <;>
      simp only [List.mem_cons, List.not_mem_nil, or_false] at hb <;>
      rcases hb with rfl | rfl | rfl | rfl <;> rw [UInt8.toNat_ofNat'] <;> omega

/-- Where an encoded text has an ASCII byte, the text has that character. -/
theorem utf8_eq_append_ascii {s : Text} {xs ys : List UInt8} {b : UInt8} (hb : b.toNat < 0x80)
    (h : utf8 s = xs ++ b :: ys) :
    ∃ p q, s = p ++ Char.ofNat b.toNat :: q ∧ utf8 p = xs ∧ utf8 q = ys := by
  induction s generalizing xs with
  | nil => simp at h
  | cons c s ih =>
    rw [utf8_cons] at h
    rcases List.append_eq_append_iff.mp h with ⟨as, hxs, hrest⟩ | ⟨bs, hc, hrest⟩
    · -- the byte lies behind the first character
      obtain ⟨p, q, rfl, rfl, rfl⟩ := ih hrest
      exact ⟨c :: p, q, rfl, by rw [utf8_cons, hxs], rfl⟩
    · cases bs with
      | nil =>
        obtain ⟨p, q, rfl, hp, rfl⟩ := @ih [] (by simpa using hrest.symm)
        refine ⟨c :: p, q, rfl, ?_, rfl⟩
        rw [utf8_cons, hp, hc, List.append_nil, List.append_nil]
      | cons b' bs =>
        -- the byte lies inside the encoding of the first character, which is then ASCII
        obtain ⟨rfl, hys⟩ : b = b' ∧ ys = bs ++ utf8 s := by simpa using hrest
        rcases utf8EncodeChar_ascii_or c with ⟨hlt, henc⟩ | hall
        · rw [henc] at hc
          have hxs : xs = [] := by
            cases xs with
            | nil => rfl
            | cons x xs => simp at hc
          subst hxs
          obtain ⟨hcb, rfl⟩ : UInt8.ofNat c.val.toNat = b ∧ bs = [] := by simpa using hc
          refine ⟨[], s, ?_, rfl, by simpa using hys.symm⟩
          rw [← hcb, toNat_ofNat_of_lt (by omega)]
          exact congrArg (· :: s) (Char.ofNat_toNat c).symm
        · have := hall b (by rw [hc]; simp)
          omega

end Foundation
