/-
  Neutun/Foundation/Dialogue.lean
  ===============================
  Programs that ask for one line after another.

  A `Dialogue` asks a question, which may show what will be taken if nothing is
  entered, and goes on with what is read; which question comes next depends on the
  answers so far.  Where the input ends, every further line is a blank one.

  What a question shows ought to mean the same typed out as left out.  A dialogue
  all of whose questions are so is `Transparent`, and does not tell apart what was
  typed with and without them (`answer_alike`).

  A dialogue that may fail ends with an `Option`.  One that fails at a certain line
  and nowhere else (`FailsAt`) has failed exactly if that line is among those it has
  read (`answer_eq_none_iff`).
-/
import Mathlib.Data.List.Basic

namespace Foundation

/-- A dialogue over lines `β` that ends with an `α`. -/
inductive Dialogue (β α : Type*) where
  | done (a : α)
  | ask (shown : β) (next : β → Dialogue β α)

namespace Dialogue

variable {α β γ : Type*}

/-- One dialogue after the other. -/
def bind : Dialogue β α → (α → Dialogue β γ) → Dialogue β γ
  | done a, f => f a
  | ask shown next, f => ask shown fun line => (next line).bind f

/-- One dialogue after the other, unless the first fails. -/
def bindSome (d : Dialogue β (Option α)) (f : α → Dialogue β (Option γ)) :
    Dialogue β (Option γ) :=
  d.bind fun o => o.elim (done none) f

section

variable (blank : β)

/-- What comes of the lines that are typed, and those that are left. -/
def answer : Dialogue β α → List β → α × List β
  | done a, lines => (a, lines)
  | ask _ next, [] => (next blank).answer []
  | ask _ next, line :: rest => (next line).answer rest

/-- The lines that are read, also those after the end of the input. -/
def reads : Dialogue β α → List β → List β
  | done _, _ => []
  | ask _ next, [] => blank :: (next blank).reads []
  | ask _ next, line :: rest => line :: (next line).reads rest

/-- Whatever is asked, what is shown goes for nothing typed. -/
def Transparent : Dialogue β α → Prop
  | done _ => True
  | ask shown next => next shown = next blank ∧ ∀ line, (next line).Transparent

/-- The same lines, but for some questions of which one answer is what they show and
    the other nothing. -/
inductive Alike : Dialogue β α → List β → List β → Prop
  | ended (d : Dialogue β α) (lines : List β) : Alike d lines lines
  | same {shown : β} {next : β → Dialogue β α} {line : β} {rest rest' : List β}
      (h : Alike (next line) rest rest') : Alike (ask shown next) (line :: rest) (line :: rest')
  | shown {shown : β} {next : β → Dialogue β α} {rest rest' : List β}
      (h : Alike (next blank) rest rest') : Alike (ask shown next) (shown :: rest) (blank :: rest')
  | shownLast {shown : β} {next : β → Dialogue β α} {rest : List β}
      (h : Alike (next blank) rest []) : Alike (ask shown next) (shown :: rest) []

end

/-- It fails as soon as it reads `bad`, and otherwise ends in something that is `P`. -/
def FailsAt (bad : β) (P : α → Prop) : Dialogue β (Option α) → Prop
  | done o => ∃ a, o = some a ∧ P a
  | ask _ next => next bad = done none ∧ ∀ line, line ≠ bad → (next line).FailsAt bad P

variable {blank : β}

theorem answer_ask (shown : β) (next : β → Dialogue β α) (lines : List β) :
    (ask shown next).answer blank lines =
      (next (lines.headD blank)).answer blank lines.tail := by
  cases lines <;> rfl

theorem answer_bind (d : Dialogue β α) (f : α → Dialogue β γ) (lines : List β) :
    (d.bind f).answer blank lines =
      (f (d.answer blank lines).1).answer blank (d.answer blank lines).2 := by
  induction d generalizing lines with
  | done a => rfl
  | ask shown next ih =>
    cases lines with
    | nil => exact ih blank []
    | cons line rest => exact ih line rest

theorem reads_ask (shown : β) (next : β → Dialogue β α) (lines : List β) :
    (ask shown next).reads blank lines =
      lines.headD blank :: (next (lines.headD blank)).reads blank lines.tail := by
  cases lines <;> rfl

theorem reads_bind (d : Dialogue β α) (f : α → Dialogue β γ) (lines : List β) :
    (d.bind f).reads blank lines =
      d.reads blank lines ++
        (f (d.answer blank lines).1).reads blank (d.answer blank lines).2 := by
  induction d generalizing lines with
  | done a => rfl
  | ask shown next ih =>
    cases lines with
    | nil => exact congrArg (List.cons blank) (ih blank [])
    | cons line rest => exact congrArg (List.cons line) (ih line rest)

theorem Transparent.bind {d : Dialogue β α} {f : α → Dialogue β γ} (hd : d.Transparent blank)
    (hf : ∀ a, (f a).Transparent blank) : (d.bind f).Transparent blank := by
  induction d with
  | done a => exact hf a
  | ask shown next ih =>
    refine ⟨?_, fun line => ih line (hd.2 line)⟩
    exact congrArg (fun rest => rest.bind f) hd.1

theorem Transparent.bindSome {d : Dialogue β (Option α)} {f : α → Dialogue β (Option γ)}
    (hd : d.Transparent blank) (hf : ∀ a, (f a).Transparent blank) :
    (d.bindSome f).Transparent blank := by
  refine hd.bind ?_
  intro o
  cases o with
  | none => trivial
  | some a => exact hf a

/-- What goes on afterwards asks other questions. -/
theorem Alike.bind {d : Dialogue β α} {lines lines' : List β} (h : d.Alike blank lines lines')
    (f : α → Dialogue β γ) : (d.bind f).Alike blank lines lines' := by
  induction h with
  | ended d lines => exact .ended _ _
  | same h ih => exact .same ih
  | shown h ih => exact .shown ih
  | shownLast h ih => exact .shownLast ih

/-- A transparent dialogue ends the same. -/
theorem answer_alike {d : Dialogue β α} {lines lines' : List β} (hd : d.Transparent blank)
    (h : d.Alike blank lines lines') : d.answer blank lines = d.answer blank lines' := by
  induction h with
  | ended d lines => rfl
  | same h ih => exact ih (hd.2 _)
  | @shown shown next rest rest' h ih =>
    change (next shown).answer blank rest = (next blank).answer blank rest'
    rw [hd.1]
    exact ih (hd.2 _)
  | @shownLast shown next rest h ih =>
    change (next shown).answer blank rest = (next blank).answer blank []
    rw [hd.1]
    exact ih (hd.2 _)

/-! ### Dialogues that fail at one line only -/

theorem FailsAt.bindSome {bad : β} {P : α → Prop} {Q : γ → Prop} {d : Dialogue β (Option α)}
    {f : α → Dialogue β (Option γ)} (hd : d.FailsAt bad P)
    (hf : ∀ a, P a → (f a).FailsAt bad Q) : (d.bindSome f).FailsAt bad Q := by
  induction d with
  | done o =>
    obtain ⟨a, rfl, ha⟩ := hd
    exact hf a ha
  | ask shown next ih =>
    refine ⟨?_, fun line hline => ih line (hd.2 line hline)⟩
    exact congrArg (fun rest => rest.bindSome f) hd.1

/-- It has failed exactly if it has read the line it fails at. -/
theorem answer_eq_none_iff {bad : β} {P : α → Prop} {d : Dialogue β (Option α)}
    (hd : d.FailsAt bad P) (lines : List β) :
    (d.answer blank lines).1 = none ↔ bad ∈ d.reads blank lines := by
  induction d generalizing lines with
  | done o =>
    obtain ⟨a, rfl, -⟩ := hd
    exact ⟨nofun, nofun⟩
  | ask shown next ih =>
    rw [answer_ask, reads_ask, List.mem_cons]
    by_cases hbad : lines.headD blank = bad
    · rw [hbad, hd.1]
      exact ⟨fun _ => Or.inl rfl, fun _ => rfl⟩
    · rw [ih _ (hd.2 _ hbad)]
      exact ⟨Or.inr, fun h => h.resolve_left fun heq => hbad heq.symm⟩

theorem FailsAt.of_answer {bad : β} {P : α → Prop} {d : Dialogue β (Option α)}
    (hd : d.FailsAt bad P) {lines : List β} {a : α} (h : (d.answer blank lines).1 = some a) :
    P a := by
  induction d generalizing lines with
  | done o =>
    obtain ⟨b, rfl, hb⟩ := hd
    obtain rfl : b = a := Option.some.inj h
    exact hb
  | ask shown next ih =>
    rw [answer_ask] at h
    by_cases hbad : lines.headD blank = bad
    · rw [hbad, hd.1] at h
      cases h
    · exact ih _ (hd.2 _ hbad) h

end Dialogue

end Foundation
