/-
  Neutun/Foundation/Conduit.lean
  ==============================
  First-in first-out transport in several stages.

  What is put in at one end passes through stages (queues, links) and comes out at
  the other.  `Conveys` is the invariant of the whole: what was put in is what has
  come out, then what is in transit, then what was lost, and nothing is lost as
  long as the conduit is open.  Stages are concatenated, the last one first, so
  that moving something from one stage to the next changes nothing.

  `Wires` is a family of links, one for each number; `accepted` says what of
  the attempts to send to a family of channels comes through.
-/
import Mathlib.Logic.Function.Basic
import Mathlib.Data.List.Infix
import Neutun.Foundation.Channel

namespace Foundation

variable {α β : Type*}

/-! ### Links -/

/-- The item, if it is for the number `n`. -/
def on (n : Nat) (item : Option (Nat × α)) : Option α :=
  item.bind fun x => if x.1 = n then some x.2 else none

@[simp] theorem on_none (n : Nat) : on n (none : Option (Nat × α)) = none := rfl

theorem on_some (n m : Nat) (a : α) : on n (some (m, a)) = if m = n then some a else none := rfl

theorem on_eq_some {n : Nat} {item : Option (Nat × α)} {a : α} :
    on n item = some a ↔ item = some (n, a) := by
  cases item with
  | none => simp
  | some x =>
    obtain ⟨m, b⟩ := x
    rw [on_some]
    split
    next h => simp [h]
    next h => simp [h]

/-- What is in transit on each link. -/
abbrev Wires (α : Type*) := Nat → List α

namespace Wires

/-- Put one item on a link. -/
def put (ws : Wires α) : Option (Nat × α) → Wires α
  | none => ws
  | some (n, a) => Function.update ws n (ws n ++ [a])

/-- Take one item off a link; it has to be the first one. -/
def take [DecidableEq α] (ws : Wires α) : Option (Nat × α) → Option (Wires α)
  | none => some ws
  | some (n, a) =>
    match ws n with
    | b :: rest => if b = a then some (Function.update ws n rest) else none
    | [] => none

theorem put_apply (ws : Wires α) (item : Option (Nat × α)) (m : Nat) :
    ws.put item m = ws m ++ (on m item).toList := by
  cases item with
  | none => exact (List.append_nil _).symm
  | some x =>
    obtain ⟨n, a⟩ := x
    change Function.update ws n (ws n ++ [a]) m = _
    rw [Function.update_apply, on_some]
    by_cases h : m = n
    · rw [if_pos h, if_pos h.symm, h]
      rfl
    · rw [if_neg h, if_neg (Ne.symm h)]
      exact (List.append_nil _).symm

theorem take_apply [DecidableEq α] {ws ws' : Wires α} {item : Option (Nat × α)}
    (h : ws.take item = some ws') (m : Nat) : ws m = (on m item).toList ++ ws' m := by
  cases item with
  | none =>
    obtain rfl : ws = ws' := Option.some.inj h
    rfl
  | some x =>
    obtain ⟨n, a⟩ := x
    change (match ws n with
      | b :: rest => if b = a then some (Function.update ws n rest) else none
      | [] => none) = some ws' at h
    split at h
    next b rest hn =>
      split at h
      next heq =>
        obtain rfl := Option.some.inj h
        rw [Function.update_apply, on_some]
        by_cases hm : m = n
        · rw [if_pos hm, if_pos hm.symm, hm, hn, heq]
          rfl
        · rw [if_neg hm, if_neg (Ne.symm hm)]
          rfl
      · cases h
    · cases h

/-- What is on a link after a step was there before or has been put there. -/
theorem mem_put {ws : Wires α} {item : Option (Nat × α)} {m : Nat} {a : α}
    (h : a ∈ ws.put item m) : a ∈ ws m ∨ item = some (m, a) := by
  rw [put_apply, List.mem_append] at h
  rcases h with h | h
  · exact Or.inl h
  · exact Or.inr (on_eq_some.mp (Option.mem_toList.mp h))

theorem mem_of_mem_take [DecidableEq α] {ws ws' : Wires α} {item : Option (Nat × α)}
    (h : ws.take item = some ws') {m : Nat} {a : α} (ha : a ∈ ws' m) : a ∈ ws m := by
  rw [take_apply h m]
  exact List.mem_append_right _ ha

theorem mem_of_take [DecidableEq α] {ws ws' : Wires α} {n : Nat} {a : α}
    (h : ws.take (some (n, a)) = some ws') : a ∈ ws n := by
  rw [take_apply h n, on_some, if_pos rfl]
  exact List.mem_append_left _ List.mem_cons_self

end Wires

/-! ### Channels that many send to -/

/-- What is sent to one of many channels: a closed one takes nothing. -/
def accepted (chs : Nat → Channel α) (attempt : Option (Nat × α)) : Option (Nat × α) :=
  attempt.filter fun sent => !(chs sent.1).closed

variable {chs : Nat → Channel α} {attempt : Option (Nat × α)}

theorem accepted_eq_some {n : Nat} {a : α} : accepted chs attempt = some (n, a) ↔
    attempt = some (n, a) ∧ (chs n).closed = false := by
  rw [accepted, Option.filter_eq_some_iff]
  simp

theorem on_accepted (n : Nat) :
    on n (accepted chs attempt) = if (chs n).closed then none else on n attempt := by
  apply Option.ext
  intro a
  rw [on_eq_some, accepted_eq_some]
  cases (chs n).closed with
  | false =>
    rw [if_neg Bool.false_ne_true, on_eq_some]
    exact and_iff_left rfl
  | true => simp

/-- Nothing is sent. -/
theorem Channel.Step.of_quiet (chs : Nat → Channel α) {n : Nat} {taken : Option α}
    {ch' : Channel α} (hnone : attempt = none) (htaken : taken = none)
    (hqueue : ch'.queue = (chs n).queue) (hclosed : (chs n).closed = true → ch'.closed = true) :
    Channel.Step (on n (accepted chs attempt)) taken (chs n) ch' := by
  refine .keep ?_ htaken hqueue hclosed
  rw [hnone]
  rfl

/-- One attempt, seen from each of the channels. -/
theorem Channel.Step.of_attempt (chs : Nat → Channel α) {n m : Nat} {a : α}
    {taken : Option α} {ch' : Channel α} (hattempt : attempt = some (m, a)) (htaken : taken = none)
    (hsent : n = m → (chs n).closed = false → ch' = ⟨(chs n).queue ++ [a], false⟩)
    (hkept : (n = m → (chs n).closed = true) →
      ch'.queue = (chs n).queue ∧ ((chs n).closed = true → ch'.closed = true)) :
    Channel.Step (on n (accepted chs attempt)) taken (chs n) ch' := by
  by_cases hopen : n = m ∧ (chs n).closed = false
  · obtain ⟨rfl, hopen⟩ := hopen
    refine .send a ?_ htaken hopen (hsent rfl hopen)
    exact on_eq_some.mpr (accepted_eq_some.mpr ⟨hattempt, hopen⟩)
  · have hrefused : n = m → (chs n).closed = true := by
      intro hn
      by_contra hne
      exact hopen ⟨hn, by simpa using hne⟩
    obtain ⟨hqueue, hclosed⟩ := hkept hrefused
    refine .keep ?_ htaken hqueue hclosed
    rw [Option.eq_none_iff_forall_ne_some]
    intro b hb
    obtain ⟨hb, hb'⟩ := accepted_eq_some.mp (on_eq_some.mp hb)
    rw [hattempt] at hb
    obtain ⟨rfl, -⟩ := Prod.mk.inj (Option.some.inj hb)
    rw [hrefused rfl] at hb'
    cases hb'

/-! ### Conduits -/

/-- Of what was `sent`, some has come `out` and some is in `transit`; the rest is
    lost, and there is no rest while the conduit is open. -/
def Conveys (sent out transit : List α) (isOpen : Prop) : Prop :=
  ∃ lost, sent = out ++ transit ++ lost ∧ (isOpen → lost = [])

namespace Conveys

variable {sent out transit : List α} {P Q : Prop}

theorem nil (P : Prop) : Conveys ([] : List α) [] [] P := ⟨[], rfl, fun _ => rfl⟩

/-- Put something in. -/
theorem put (h : Conveys sent out transit P) (hopen : P) (xs : List α) :
    Conveys (sent ++ xs) out (transit ++ xs) P := by
  obtain ⟨lost, hsent, hlost⟩ := h
  refine ⟨[], ?_, fun _ => rfl⟩
  rw [hsent, hlost hopen]
  simp only [List.append_nil, List.append_assoc]

/-- Put something into a closed conduit. -/
theorem putClosed (h : Conveys sent out transit P) (hclosed : ¬ P) (xs : List α) :
    Conveys (sent ++ xs) out transit P := by
  obtain ⟨lost, hsent, -⟩ := h
  refine ⟨lost ++ xs, ?_, fun hopen => absurd hopen hclosed⟩
  rw [hsent]
  simp only [List.append_assoc]

/-- Something comes out. -/
theorem get {xs : List α} (h : Conveys sent out (xs ++ transit) P) :
    Conveys sent (out ++ xs) transit P := by
  obtain ⟨lost, hsent, hlost⟩ := h
  refine ⟨lost, ?_, hlost⟩
  rw [hsent]
  simp only [List.append_assoc]

/-- Things move on, some perhaps out at the other end. -/
theorem move {out' transit' : List α} (h : Conveys sent out transit P)
    (hmove : out' ++ transit' = out ++ transit) : Conveys sent out' transit' P := by
  obtain ⟨lost, hsent, hlost⟩ := h
  refine ⟨lost, ?_, hlost⟩
  rw [hmove, hsent]

/-- The conduit breaks, and with it goes the end of what was in transit. -/
theorem lose {xs : List α} (h : Conveys sent out (transit ++ xs) P) (hclosed : ¬ Q) :
    Conveys sent out transit Q := by
  obtain ⟨lost, hsent, -⟩ := h
  refine ⟨xs ++ lost, ?_, fun hopen => absurd hopen hclosed⟩
  rw [hsent]
  simp only [List.append_assoc]

theorem close (h : Conveys sent out transit P) (hQ : Q → P) : Conveys sent out transit Q := by
  obtain ⟨lost, hsent, hlost⟩ := h
  exact ⟨lost, hsent, fun hopen => hlost (hQ hopen)⟩

/-- A channel as the first stage: what a step sends is put in, and what it takes is
    in transit further on. -/
theorem channelStep {source : List β} {f : α → List β} {out transit : List β} {a b : Option α}
    {ch ch' : Channel α} (h : Channel.Step a b ch ch')
    (hconv : Conveys source out (transit ++ ch.queue.flatMap f) (ch.closed = false)) :
    Conveys (source ++ a.toList.flatMap f) out
      (transit ++ b.toList.flatMap f ++ ch'.queue.flatMap f) (ch'.closed = false) := by
  cases h with
  | keep hsent htaken hqueue hclosed =>
    rw [hsent, htaken, hqueue]
    simp only [Option.toList_none, List.flatMap_nil, List.append_nil]
    apply hconv.close
    intro hopen
    by_contra hne
    rw [hclosed (by simpa using hne)] at hopen
    cases hopen
  | send x hsent htaken hopen hch =>
    rw [hsent, htaken, hch]
    have hput := hconv.put hopen (f x)
    simpa [List.append_assoc, hopen] using hput
  | take x hsent htaken hqueue hclosed =>
    rw [hsent, htaken, hclosed]
    rw [hqueue] at hconv
    simpa [List.append_assoc] using hconv
  | drop hsent htaken hch =>
    rw [hsent, htaken, hch]
    simp only [Option.toList_none, List.flatMap_nil, List.append_nil, Channel.disconnect_queue]
    exact hconv.lose nofun

/-- What has come out and what may still come out are an initial part of what was
    sent. -/
theorem append_isPrefix (h : Conveys sent out transit P) : out ++ transit <+: sent := by
  obtain ⟨lost, hsent, -⟩ := h
  rw [hsent]
  exact List.prefix_append _ _

/-- What comes out is an initial part of what was sent. -/
theorem isPrefix (h : Conveys sent out transit P) : out <+: sent := by
  obtain ⟨lost, hsent, -⟩ := h
  rw [hsent, List.append_assoc]
  exact List.prefix_append _ _

/-- An open conduit with nothing in transit has delivered everything. -/
theorem delivered (h : Conveys sent out [] P) (hopen : P) : out = sent := by
  obtain ⟨lost, hsent, hlost⟩ := h
  rw [hsent, hlost hopen]
  simp only [List.append_nil]

end Conveys

end Foundation
