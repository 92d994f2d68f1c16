/-
  Neutun/Foundation/Codec.lean
  ============================
  Values written out and read back.

  A `Codec` reads what it has written, and says nothing of any other text: that
  may be unreadable, or another way to write the same value.
-/
import Mathlib.Logic.Encodable.Basic
import Mathlib.Logic.Equiv.List

namespace Foundation

structure Codec (α β : Type*) where
  encode : α → List β
  decode : List β → Option α
  decode_encode : ∀ a, decode (encode a) = some a

namespace Codec

variable {α β : Type*}

attribute [simp] Codec.decode_encode

/-- A codec that is known at one value: it counts out all others, and reads nothing
    else. -/
def known [DecidableEq α] [DecidableEq β] [Encodable α] (a : α) (text : List β) (mark : β)
    (htext : ∃ b ∈ text, b ≠ mark) : Codec α β where
  encode x := if x = a then text else List.replicate (Encodable.encode x) mark
  decode written :=
    if written = text then some a
    else if ∀ b ∈ written, b = mark then Encodable.decode written.length
    else none
  decode_encode := by
    intro x
    by_cases hx : x = a
    · rw [if_pos hx, if_pos rfl, hx]
    · have hne : List.replicate (Encodable.encode x) mark ≠ text := by
        rintro rfl
        obtain ⟨b, hb, hmark⟩ := htext
        exact hmark (List.eq_of_mem_replicate hb)
      rw [if_neg hx, if_neg hne, if_pos fun b hb => List.eq_of_mem_replicate hb,
        List.length_replicate, Encodable.encodek]

theorem known_encode [DecidableEq α] [DecidableEq β] [Encodable α] {a : α} {text : List β}
    {mark : β} (htext : ∃ b ∈ text, b ≠ mark) : (known a text mark htext).encode a = text :=
  if_pos rfl

end Codec

/-- Characters by their numbers. -/
instance encodableChar : Encodable Char :=
  Encodable.ofLeftInverse Char.toNat Char.ofNat Char.ofNat_toNat

instance encodableUInt16 : Encodable UInt16 :=
  Encodable.ofLeftInverse UInt16.toNat UInt16.ofNat fun _ => UInt16.ofNat_toNat

end Foundation
