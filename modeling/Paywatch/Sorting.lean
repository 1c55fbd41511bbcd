/-!
# Sorting

Stable sorting of lists by insertion, given what comes strictly before what.
-/

namespace Paywatch

variable {α : Type}

/-- Inserts an element in front of the first one that is not strictly before it. -/
def insertBy (before : α → α → Bool) (x : α) : List α → List α
  | [] => [x]
  | y :: rest => if before y x then y :: insertBy before x rest else x :: y :: rest

/-- The elements in order; those of which neither is before the other keep
their places. -/
def sortBy (before : α → α → Bool) (xs : List α) : List α := xs.foldr (insertBy before) []

/-- The first of the elements that no other is before. -/
def firstBy (before : α → α → Bool) : List α → Option α
  | [] => none
  | x :: rest => some (rest.foldl (fun best y => if before y best then y else best) x)

theorem perm_insertBy (before : α → α → Bool) (x : α) (xs : List α) :
    (insertBy before x xs).Perm (x :: xs) := by
  induction xs with
  | nil => exact .refl _
  | cons y rest ih =>
    rw [insertBy]
    split
    · exact (ih.cons y).trans (.swap x y rest)
    · exact .refl _

/-- Sorting only changes the order. -/
theorem perm_sortBy (before : α → α → Bool) (xs : List α) :
    (sortBy before xs).Perm xs := by
  induction xs with
  | nil => exact .refl _
  | cons x rest ih => exact (perm_insertBy before x _).trans (ih.cons x)

end Paywatch
