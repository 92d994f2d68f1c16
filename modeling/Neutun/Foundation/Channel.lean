/-
  Neutun/Foundation/Channel.lean
  ==============================
  Unbounded multi-producer channels with one receiver.

  A sender can be told that the channel is closed, either because some sender
  closed it or because the receiver is gone; both look the same from the sending
  side, and neither can be undone.  Closing leaves the queued messages for the
  receiver, dropping the receiver throws them away.
-/
import Mathlib.Data.List.Basic

namespace Foundation

/-- The messages in transit and whether sends are still accepted. -/
structure Channel (α : Type*) where
  queue : List α
  closed : Bool
deriving DecidableEq, Repr

namespace Channel

variable {α β : Type*}

/-- The channel as it is created. -/
def fresh : Channel α := ⟨[], false⟩

/-- Send one message; `none` is the error of a closed channel. -/
def send (ch : Channel α) (a : α) : Option (Channel α) :=
  if ch.closed then none else some { ch with queue := ch.queue ++ [a] }

/-- Close from the sending side. -/
def close (ch : Channel α) : Channel α := { ch with closed := true }

/-- The receiver is dropped. -/
def disconnect (_ : Channel α) : Channel α := ⟨[], true⟩

/-- Send and ignore the outcome. -/
def sendOrDrop (ch : Channel α) (a : α) : Channel α := (ch.send a).getD ch

@[simp] theorem close_closed (ch : Channel α) : ch.close.closed = true := rfl
@[simp] theorem disconnect_queue (ch : Channel α) : ch.disconnect.queue = [] := rfl
@[simp] theorem disconnect_closed (ch : Channel α) : ch.disconnect.closed = true := rfl

theorem send_of_open {ch : Channel α} (h : ch.closed = false) (a : α) :
    ch.send a = some { ch with queue := ch.queue ++ [a] } := by
  rw [send, h]
  rfl

theorem send_of_closed {ch : Channel α} (h : ch.closed = true) (a : α) : ch.send a = none := by
  rw [send, h]
  rfl

theorem send_eq_none {ch : Channel α} {a : α} : ch.send a = none ↔ ch.closed = true := by
  cases h : ch.closed with
  | false => simp [send_of_open h]
  | true => simp [send_of_closed h]

theorem send_eq_some {ch ch' : Channel α} {a : α} :
    ch.send a = some ch' ↔ ch.closed = false ∧ ch' = ⟨ch.queue ++ [a], false⟩ := by
  cases h : ch.closed with
  | false => simp [send, h, eq_comm]
  | true => simp [send_of_closed h]

@[simp] theorem sendOrDrop_closed (ch : Channel α) (a : α) :
    (ch.sendOrDrop a).closed = ch.closed := by
  unfold sendOrDrop send
  cases h : ch.closed <;> simp [h]

theorem sendOrDrop_queue (ch : Channel α) (a : α) :
    (ch.sendOrDrop a).queue = if ch.closed then ch.queue else ch.queue ++ [a] := by
  unfold sendOrDrop send
  cases ch.closed <;> rfl

/-- What a step does to a channel that it sends `sent` to and takes `taken` from:
    nothing but that, a closing of the channel or the drop of its receiver. -/
inductive Step (sent taken : Option α) (ch ch' : Channel α) : Prop where
  | keep (hsent : sent = none) (htaken : taken = none) (hqueue : ch'.queue = ch.queue)
    (hclosed : ch.closed = true → ch'.closed = true)
  | send (a : α) (hsent : sent = some a) (htaken : taken = none) (hopen : ch.closed = false)
    (hch : ch' = ⟨ch.queue ++ [a], false⟩)
  | take (a : α) (hsent : sent = none) (htaken : taken = some a)
    (hqueue : ch.queue = a :: ch'.queue) (hclosed : ch'.closed = ch.closed)
  | drop (hsent : sent = none) (htaken : taken = none) (hch : ch' = ch.disconnect)

theorem Step.of_eq {sent taken : Option α} {ch ch' : Channel α} (hsent : sent = none)
    (htaken : taken = none) (h : ch' = ch) : Step sent taken ch ch' := by
  subst h
  exact .keep hsent htaken rfl id

/-- What is queued after a step was queued before or has been sent. -/
theorem Step.mem {sent taken : Option α} {ch ch' : Channel α} (h : Step sent taken ch ch') {a : α}
    (ha : a ∈ ch'.queue) : a ∈ ch.queue ∨ sent = some a := by
  cases h with
  | keep _ _ hqueue _ =>
    left
    rwa [← hqueue]
  | send b hsent _ _ hch =>
    rw [hch] at ha
    rcases List.mem_append.mp ha with ha | ha
    · exact Or.inl ha
    · right
      rw [hsent, List.mem_singleton.mp ha]
  | take b _ _ hqueue _ =>
    left
    rw [hqueue]
    exact List.mem_cons_of_mem b ha
  | drop _ _ hch =>
    rw [hch] at ha
    cases ha

/-- A closed channel stays closed. -/
theorem Step.closed {sent taken : Option α} {ch ch' : Channel α} (h : Step sent taken ch ch')
    (hclosed : ch.closed = true) : ch'.closed = true := by
  cases h with
  | keep _ _ _ hkept => exact hkept hclosed
  | send _ _ _ hopen _ =>
    rw [hclosed] at hopen
    cases hopen
  | take _ _ _ _ hsame => rw [hsame, hclosed]
  | drop _ _ hch => rw [hch, disconnect_closed]

end Channel

end Foundation
