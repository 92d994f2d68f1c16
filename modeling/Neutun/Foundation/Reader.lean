/-
  Neutun/Foundation/Reader.lean
  =============================
  Readers of a text, in the manner of the address parser of the standard library:
  a reader takes what it reads off the front of a text, and one that fails leaves
  the text as it was, so that another may try.

  `Consumes P` says of a reader that it takes off nothing but characters of `P`.
  It goes through all combinators, and `parseWith_consumes` turns it into a fact
  about the texts that are accepted as a whole.
-/
import Mathlib.Data.List.TakeWhile
import Mathlib.Data.Option.Basic
import Neutun.Foundation.Utf8

namespace Foundation

/-- What is read, with the rest of the text. -/
abbrev Reader := StateT Text Option

namespace Reader

variable {α β : Type}

def givenChar (c : Char) : Reader Unit
  | [] => none
  | d :: rest => if d = c then some ((), rest) else none

/-- Between the parts of a sequence, so not before the first. -/
def separator (sep : Char) (index : Nat) (inner : Reader α) : Reader α :=
  if 0 < index then do
    givenChar sep
    inner
  else inner

/-- `char::to_digit` -/
def toDigit (radix : Nat) (c : Char) : Option Nat :=
  let n := c.toNat
  let digit :=
    if 0x30 ≤ n ∧ n ≤ 0x39 then some (n - 0x30)
    else if 0x61 ≤ n ∧ n ≤ 0x7a then some (n - 0x61 + 10)
    else if 0x41 ≤ n ∧ n ≤ 0x5a then some (n - 0x41 + 10)
    else none
  digit.filter fun d => decide (d < radix)

def isDigit (radix : Nat) (c : Char) : Bool := (toDigit radix c).isSome

theorem isDigit_of_le {radix radix' : Nat} (hle : radix ≤ radix') {c : Char}
    (h : isDigit radix c = true) : isDigit radix' c = true := by
  unfold isDigit toDigit at *
  rw [Option.isSome_filter, Option.any_eq_true] at *
  obtain ⟨d, hd, hlt⟩ := h
  exact ⟨d, hd, decide_eq_true ((of_decide_eq_true hlt).trans_le hle)⟩

theorem isDigit_bounds {radix : Nat} {c : Char} (h : isDigit radix c = true) :
    0x30 ≤ c.toNat ∧ c.toNat ≤ 0x7a := by
  unfold isDigit toDigit at h
  rw [Option.isSome_filter, Option.any_eq_true] at h
  obtain ⟨d, hd, -⟩ := h
  split_ifs at hd <;> omega

/-- All the digits that follow, if they are no more than `maxDigits` and their value
    no more than `bound`. -/
def number (radix maxDigits bound : Nat) (allowZeroPrefix : Bool) : Reader Nat := fun s =>
  let digits := s.takeWhile (isDigit radix)
  let result := digits.foldl (fun n c => n * radix + (toDigit radix c).getD 0) 0
  if maxDigits < digits.length then none
  else if digits = [] then none
  else if allowZeroPrefix = false ∧ s.head? = some '0' ∧ 1 < digits.length then none
  else if result ≤ bound then some (result, s.dropWhile (isDigit radix))
  else none

/-- A reader that has to take the whole text. -/
def parseWith (r : Reader α) (s : Text) : Option α :=
  match r s with
  | some (a, []) => some a
  | _ => none

/-! ### What a reader takes off -/

def Consumes (P : Char → Prop) (r : Reader α) : Prop :=
  ∀ s a rest, r s = some (a, rest) → ∃ before, s = before ++ rest ∧ ∀ c ∈ before, P c

variable {P : Char → Prop}

theorem consumes_pure (a : α) : Consumes P (pure a) := by
  intro s b rest h
  obtain ⟨rfl, rfl⟩ := Prod.mk.inj (Option.some.inj h)
  exact ⟨[], rfl, by simp⟩

theorem consumes_failure : Consumes P (failure : Reader α) := by
  intro s a rest h
  cases h

theorem Consumes.bind {r : Reader α} {f : α → Reader β} (hr : Consumes P r)
    (hf : ∀ a, Consumes P (f a)) : Consumes P (r >>= f) := by
  intro s b rest h
  obtain ⟨⟨a, middle⟩, ha, hb⟩ := Option.bind_eq_some_iff.mp h
  obtain ⟨before, rfl, hbefore⟩ := hr s a middle ha
  obtain ⟨before', rfl, hbefore'⟩ := hf a middle b rest hb
  refine ⟨before ++ before', (List.append_assoc _ _ _).symm, ?_⟩
  intro c hc
  rcases List.mem_append.mp hc with hc | hc
  · exact hbefore c hc
  · exact hbefore' c hc

theorem Consumes.orElse {r r' : Reader α} (hr : Consumes P r) (hr' : Consumes P r') :
    Consumes P (r <|> r') := by
  intro s a rest h
  have h : (r s <|> r' s) = some (a, rest) := h
  rcases (Option.orElse_eq_some _ _ _).mp h with h | ⟨-, h⟩
  · exact hr s a rest h
  · exact hr' s a rest h

theorem consumes_guard (p : Prop) [Decidable p] : Consumes P (guard p : Reader Unit) := by
  unfold guard
  split
  · exact consumes_pure ()
  · exact consumes_failure

theorem consumes_givenChar {c : Char} (hc : P c) : Consumes P (givenChar c) := by
  intro s a rest h
  unfold givenChar at h
  split at h
  · cases h
  next d rest' =>
    split at h
    next heq =>
      obtain ⟨-, rfl⟩ := Prod.mk.inj (Option.some.inj h)
      refine ⟨[d], rfl, ?_⟩
      intro e he
      rw [List.mem_singleton.mp he, heq]
      exact hc
    · cases h

theorem Consumes.separator {sep : Char} {index : Nat} {inner : Reader α} (hsep : P sep)
    (hinner : Consumes P inner) : Consumes P (separator sep index inner) := by
  unfold Reader.separator
  split
  · apply (consumes_givenChar hsep).bind
    intro _
    exact hinner
  · exact hinner

theorem consumes_number {radix maxDigits bound : Nat} {allowZeroPrefix : Bool}
    (hdigit : ∀ c, isDigit radix c = true → P c) :
    Consumes P (number radix maxDigits bound allowZeroPrefix) := by
  intro s a rest h
  unfold number at h
  simp only at h
  split_ifs at h
  obtain ⟨-, rfl⟩ := Prod.mk.inj (Option.some.inj h)
  refine ⟨s.takeWhile (isDigit radix), List.takeWhile_append_dropWhile.symm, ?_⟩
  intro c hc
  exact hdigit c (List.mem_takeWhile_imp hc)

/-- A text that is taken as a whole has only such characters. -/
theorem parseWith_consumes {r : Reader α} (hr : Consumes P r) {s : Text} {a : α}
    (h : parseWith r s = some a) : ∀ c ∈ s, P c := by
  unfold parseWith at h
  split at h
  next b hb =>
    obtain ⟨before, rfl, hbefore⟩ := hr s b [] hb
    rw [List.append_nil]
    exact hbefore
  · cases h

end Reader

end Foundation
