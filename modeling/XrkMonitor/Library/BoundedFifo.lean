import Mathlib.Data.List.Basic

/-!
# Bounded queues

A bounded queue takes what is put into it unless it is full, and hands it out
in order. `FifoTrace` relates the history of its puts, with what was refused, to
what was taken out and what is in it.
-/

namespace XrkMonitor.Library

variable {α : Type*} {capacity : Nat} {puts : List (α × Bool)} {taken queue : List α}

/-- The puts of a queue, each with whether it was refused, what was taken out and what is in it. -/
inductive FifoTrace (capacity : Nat) : List (α × Bool) → List α → List α → Prop
  | empty : FifoTrace capacity [] [] []
  | put {puts : List (α × Bool)} {taken queue : List α} (x : α) :
      FifoTrace capacity puts taken queue → queue.length < capacity →
      FifoTrace capacity (puts ++ [(x, false)]) taken (queue ++ [x])
  | refuse {puts : List (α × Bool)} {taken queue : List α} (x : α) :
      FifoTrace capacity puts taken queue → queue.length = capacity →
      FifoTrace capacity (puts ++ [(x, true)]) taken queue
  | take {puts : List (α × Bool)} {taken queue : List α} {x : α} :
      FifoTrace capacity puts taken (x :: queue) → FifoTrace capacity puts (taken ++ [x]) queue

/-- The puts that were not refused. -/
def acceptedPuts (puts : List (α × Bool)) : List α :=
  (puts.filter fun p => !p.2).map Prod.fst

theorem acceptedPuts_concat (puts : List (α × Bool)) (x : α) (refused : Bool) :
    acceptedPuts (puts ++ [(x, refused)]) =
      acceptedPuts puts ++ if refused then [] else [x] := by
  cases refused with
  | false => simp [acceptedPuts]
  | true => simp [acceptedPuts]

theorem FifoTrace.acceptedPuts_eq (h : FifoTrace capacity puts taken queue) :
    acceptedPuts puts = taken ++ queue := by
  induction h with
  | empty => rfl
  | put x _ _ ih => rw [acceptedPuts_concat, ih, if_neg (by decide), List.append_assoc]
  | refuse x _ _ ih => rw [acceptedPuts_concat, ih, if_pos rfl, List.append_nil]
  | take _ ih => rw [ih, List.append_assoc, List.singleton_append]

end XrkMonitor.Library
