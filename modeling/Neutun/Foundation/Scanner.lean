/-
  Neutun/Foundation/Scanner.lean
  ==============================
  Scanners: a text is gone through once from left to right, and items are put out
  on the way and at the end.

  Two rules bound what comes out by what went in.  A state has a weight, for what
  it has taken and not yet put out; if no step changes the total of what is put out
  and what is held, or none raises it, the same is true of the whole scan
  (`sum_scan_eq`, `sum_scan_le`).
-/
import Mathlib
import Neutun.Foundation.Utf8

namespace Foundation

/-- A scanner over states `σ` that puts out items `ω`. -/
structure Scanner (σ ω : Type) where
  step : σ → Char → σ × List ω
  finish : σ → List ω

namespace Scanner

variable {σ ω : Type} (S : Scanner σ ω)

def scan : σ → Text → List ω
  | s, [] => S.finish s
  | s, c :: t => (S.step s c).2 ++ scan (S.step s c).1 t

/-- The state after a text and what has been put out by then. -/
def steps : σ → Text → σ × List ω
  | s, [] => (s, [])
  | s, c :: t => ((steps (S.step s c).1 t).1, (S.step s c).2 ++ (steps (S.step s c).1 t).2)

theorem scan_nil (s : σ) : S.scan s [] = S.finish s := rfl

theorem scan_cons (s : σ) (c : Char) (t : Text) :
    S.scan s (c :: t) = (S.step s c).2 ++ S.scan (S.step s c).1 t := rfl

theorem scan_append (s : σ) (t u : Text) :
    S.scan s (t ++ u) = (S.steps s t).2 ++ S.scan (S.steps s t).1 u := by
  induction t generalizing s with
  | nil => rfl
  | cons c t ih =>
    rw [List.cons_append, scan_cons, ih, ← List.append_assoc]
    rfl

/-! ### Weights -/

variable (weight : ω → Nat) (held : σ → Nat) (cost : Char → Nat)

theorem sum_scan_eq
    (hstep : ∀ s c, ((S.step s c).2.map weight).sum + held (S.step s c).1 = cost c + held s)
    (hfinish : ∀ s, ((S.finish s).map weight).sum = held s) (s : σ) (t : Text) :
    ((S.scan s t).map weight).sum = (t.map cost).sum + held s := by
  induction t generalizing s with
  | nil => exact (hfinish s).trans (Nat.zero_add _).symm
  | cons c t ih =>
    have hc := hstep s c
    rw [scan_cons, List.map_append, List.sum_append, ih, List.map_cons, List.sum_cons]
    omega

/-- At the end the items may weigh a little more. -/
theorem sum_scan_le (slack : Nat)
    (hstep : ∀ s c, ((S.step s c).2.map weight).sum + held (S.step s c).1 ≤ cost c + held s)
    (hfinish : ∀ s, ((S.finish s).map weight).sum ≤ held s + slack) (s : σ) (t : Text) :
    ((S.scan s t).map weight).sum ≤ (t.map cost).sum + held s + slack := by
  induction t generalizing s with
  | nil =>
    have hs := hfinish s
    rw [scan_nil, List.map_nil, List.sum_nil]
    omega
  | cons c t ih =>
    have hc := hstep s c
    have ht := ih (S.step s c).1
    rw [scan_cons, List.map_append, List.sum_append, List.map_cons, List.sum_cons]
    omega

end Scanner

end Foundation
