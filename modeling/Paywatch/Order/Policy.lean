/-!
# Matching rules

How much a payment has to bring, and which of several routes it settles.
-/

namespace Paywatch

/-- What amount settles a route. -/
inductive AmountPolicy where
  /-- The amount due and no other. -/
  | exact
  /-- The amount due or more. -/
  | atLeast
deriving DecidableEq, Repr

/-- Which of two routes of the same age is settled first. -/
inductive TieBreak where
  | oldestId
  /-- The route whose due amount is nearer to the payment. -/
  | closestAmount
deriving DecidableEq, Repr

structure MatchingRules where
  defaultPolicy : AmountPolicy := .atLeast
  /-- A payment below the amount due settles a route that takes at least it. -/
  partialFills : Bool := false
  tieBreak : TieBreak := .oldestId
deriving DecidableEq, Repr, Inhabited

end Paywatch
