import Mathlib.Data.List.Lex
import Mathlib.Data.Prod.Lex
import Paywatch.Matching.Plan
import Paywatch.Proofs.Basic

/-!
# Ranks

What comes first is decided by ranks: a transfer is ranked by its age and its
identifier, a route that a transfer could settle by its age, by how near its amount is,
and by its identifier.  Ranks are ordered linearly, and different things have different
ranks.  So the order in which things were listed decides nothing.
-/

namespace Paywatch

section Ranks

variable {α β : Type} [LinearOrder β] {before : α → α → Bool} {rank : α → β}
    {xs ys : List α}

/-- To come before is to have the lower rank. -/
def Ranks (before : α → α → Bool) (rank : α → β) : Prop :=
  ∀ x y, before x y = true ↔ rank x < rank y

theorem Ranks.not_before (ranks : Ranks before rank) {x y : α} :
    before x y = false ↔ rank y ≤ rank x := by
  rw [← Bool.not_eq_true, ranks x y, not_lt]

/-- Sorting goes up in rank. -/
theorem Ranks.pairwise_sortBy (ranks : Ranks before rank) :
    (sortBy before xs).Pairwise fun x y => rank x ≤ rank y := by
  have sorted : (sortBy before xs).Pairwise fun x y => before y x = false := by
    apply Paywatch.pairwise_sortBy
    · intro x y first
      exact ranks.not_before.2 ((ranks x y).1 first).le
    · intro x y z first second
      rw [ranks.not_before] at first second ⊢
      exact first.trans second
  exact sorted.imp fun {x y} later => ranks.not_before.1 later

/-- Where different elements have different ranks, sorting forgets how
they were listed. -/
theorem Ranks.sortBy_eq_of_perm (ranks : Ranks before rank) (perm : xs.Perm ys)
    (distinct : ∀ x ∈ xs, ∀ y ∈ xs, rank x = rank y → x = y) :
    sortBy before xs = sortBy before ys := by
  have same : (sortBy before xs).Perm (sortBy before ys) :=
    (perm_sortBy before xs).trans (perm.trans (perm_sortBy before ys).symm)
  apply List.Perm.eq_of_pairwise ?_ ranks.pairwise_sortBy ranks.pairwise_sortBy same
  intro x y inFirst inSecond low high
  apply distinct x (mem_sortBy.1 inFirst) y ?_ (le_antisymm low high)
  exact perm.mem_iff.2 (mem_sortBy.1 inSecond)

/-- Whoever is kept in a search for the first element has the lowest rank of
all that were looked at. -/
theorem Ranks.foldl_le (ranks : Ranks before rank) (best : α) (xs : List α) :
    ∀ x ∈ best :: xs,
      rank (xs.foldl (fun best y => if before y best then y else best) best) ≤
        rank x := by
  induction xs generalizing best with
  | nil => simp
  | cons y rest ih =>
      rw [List.foldl_cons]
      split
      · rename_i better
        have lower := ih y
        simp only [List.forall_mem_cons] at lower ⊢
        exact ⟨lower.1.trans ((ranks y best).1 better).le, lower⟩
      · rename_i notBetter
        have lower := ih best
        simp only [List.forall_mem_cons] at lower ⊢
        have behind := ranks.not_before.1 (Bool.not_eq_true _ ▸ notBetter)
        exact ⟨lower.1, lower.1.trans behind, lower.2⟩

/-- The first element has the lowest rank. -/
theorem Ranks.le_of_firstBy (ranks : Ranks before rank) {x : α}
    (first : firstBy before xs = some x) : ∀ y ∈ xs, rank x ≤ rank y := by
  cases xs with
  | nil => cases first
  | cons best rest =>
      rw [firstBy, Option.some.injEq] at first
      rw [← first]
      exact ranks.foldl_le best rest

end Ranks

/-- An instant is known by its fields. -/
theorem Instant.fields_injective {t u : Instant} (same : t.fields = u.fields) :
    t = u := by
  cases t
  cases u
  simp only [fields, List.cons.injEq, Int.natCast_inj, and_true] at same
  simp only [mk.injEq]
  exact same

theorem Instant.fields_inj {t u : Instant} : t.fields = u.fields ↔ t = u :=
  ⟨fields_injective, congrArg _⟩

theorem Instant.before_iff (t u : Instant) : t.before u = true ↔ t.fields < u.fields :=
  decide_eq_true_iff

theorem Id.value_inj {entity : Entity} {i j : Id entity} :
    i.ulid.value = j.ulid.value ↔ i = j := by
  constructor
  · intro same
    rcases i with ⟨⟨m, small⟩⟩
    rcases j with ⟨⟨n, small'⟩⟩
    cases same
    rfl
  · intro same
    rw [same]

/-! ## Transfers by age -/

namespace Transfer

/-- Older transfers come first, and those of one age by their identifiers. -/
def rank (t : Transfer) : List Int ×ₗ Nat := toLex (t.createdAt.fields, t.id.ulid.value)

theorem ranks_createdBefore : Ranks createdBefore rank := by
  intro t u
  rw [rank, rank, Prod.Lex.toLex_lt_toLex, Instant.fields_inj, ← Instant.before_iff]
  simp only [createdBefore, Bool.or_eq_true, Bool.and_eq_true, beq_iff_eq,
    decide_eq_true_eq]
  rfl

theorem id_eq_of_rank_eq {t u : Transfer} (same : t.rank = u.rank) : t.id = u.id :=
  Id.value_inj.1 (congrArg (·.2) (toLex.injective same))

end Transfer

namespace MatchingRules

variable {ctx : MatchContext}

/-- Older routes come first;  of one age, nearer ones, if that is the rule;  at last
the identifier decides. -/
def rank (rules : MatchingRules) (amount : Amount) (r : Route) (due : Amount) :
    List Int ×ₗ Nat ×ₗ Nat :=
  toLex (r.createdAt.fields, toLex (match rules.tieBreak with
    | .oldestId => 0
    | .closestAmount => (amount.distance due).units, r.id.ulid.value))

theorem ranks_prefers (rules : MatchingRules) (amount : Amount) :
    Ranks (rules.prefers amount) fun c => rules.rank amount c.route c.due := by
  intro a b
  simp only [rank, Prod.Lex.toLex_lt_toLex, Instant.fields_inj, ← Instant.before_iff,
    prefers, Bool.or_eq_true, Bool.and_eq_true, beq_iff_eq]
  cases rules.tieBreak with
  | oldestId =>
      simp only [decide_eq_true_eq, Nat.lt_irrefl, false_or, true_and]
      rfl
  | closestAmount =>
      simp only [Bool.or_eq_true, Bool.and_eq_true, beq_iff_eq, decide_eq_true_eq,
        Amount.units_inj]
      rfl

theorem id_eq_of_rank_eq {rules : MatchingRules} {amount due due' : Amount} {r r' : Route}
    (same : rules.rank amount r due = rules.rank amount r' due') : r.id = r'.id :=
  Id.value_inj.1 (congrArg (fun key => (ofLex (ofLex key).2).2) same)

/-- A lower rank never belongs to a younger route. -/
theorem not_before_of_rank_le {rules : MatchingRules} {amount due due' : Amount}
    {r r' : Route} (lower : rules.rank amount r due ≤ rules.rank amount r' due') :
    r'.createdAt.before r.createdAt = false := by
  rw [← Bool.not_eq_true, Instant.before_iff]
  intro younger
  exact absurd (Prod.Lex.toLex_lt_toLex.2 (Or.inl younger)) (not_lt.2 lower)

end MatchingRules

end Paywatch
