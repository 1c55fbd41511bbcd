import Mathlib.Data.List.DropRight
import Mathlib.Logic.Relation
import Paywatch.Sorting
import Paywatch.Table

/-!
# Results, tables, sorted lists and runs

What the proofs use again and again about the data that everything is built from.
-/

namespace Paywatch

section Except

variable {ε α β : Type}

theorem bind_eq_ok {x : Except ε α} {f : α → Except ε β} {b : β} :
    x >>= f = .ok b ↔ ∃ a, x = .ok a ∧ f a = .ok b := by
  cases x with
  | error e => simp [bind, Except.bind]
  | ok a => simp [bind, Except.bind]

theorem bind_eq_error {x : Except ε α} {f : α → Except ε β} {e : ε} :
    x >>= f = .error e ↔ x = .error e ∨ ∃ a, x = .ok a ∧ f a = .error e := by
  cases x with
  | error e' => simp [bind, Except.bind]
  | ok a => simp [bind, Except.bind]

theorem mapError_eq_ok {δ : Type} {f : ε → δ} {x : Except ε α} {a : α} :
    x.mapError f = .ok a ↔ x = .ok a := by
  cases x with
  | error e => exact ⟨nofun, nofun⟩
  | ok b =>
      constructor <;>
      · rintro ⟨⟩
        rfl

theorem forM_eq_ok (f : α → Except ε Unit) (xs : List α) :
    xs.forM f = .ok () ↔ ∀ x ∈ xs, f x = .ok () := by
  induction xs with
  | nil => simp [List.forM, pure, Except.pure]
  | cons x rest ih =>
      rw [List.forall_mem_cons, ← ih, List.forM]
      cases f x with
      | error e => simp [bind, Except.bind]
      | ok u => simp [bind, Except.bind]

/-- Checks that are alike on all elements of a list are alike on the list. -/
theorem forM_congr {f g : α → Except ε Unit} {xs : List α} (same : ∀ x ∈ xs, f x = g x) :
    xs.forM f = xs.forM g := by
  induction xs with
  | nil => rfl
  | cons x rest ih =>
      rw [List.forall_mem_cons] at same
      rw [List.forM, List.forM, same.1, ih same.2]

/-- A check of all elements fails as one of them does. -/
theorem error_of_forM {f : α → Except ε Unit} {xs : List α} {e : ε}
    (failed : xs.forM f = .error e) : ∃ x ∈ xs, f x = .error e := by
  induction xs with
  | nil => cases failed
  | cons x rest ih =>
      rw [List.forM] at failed
      rcases bind_eq_error.1 failed with here | ⟨_, -, later⟩
      · exact ⟨x, List.mem_cons_self, here⟩
      · obtain ⟨y, member, failed⟩ := ih later
        exact ⟨y, List.mem_cons_of_mem _ member, failed⟩

end Except

namespace Table

variable {κ α : Type} [DecidableEq κ]

/-- What a table holds stays when a fresh key is added. -/
theorem get?_insert_of_fresh {t : Table κ α} {k j : κ} {a b : α} (fresh : t.get? k = none)
    (found : t.get? j = some a) : (t.insert k b).get? j = some a := by
  rw [get?_insert, if_neg]
  · exact found
  · rintro rfl
    rw [fresh] at found
    cases found

/-- The values of a table were given under their keys. -/
theorem mem_of_get?_ofValues {key : α → κ} {xs : List α} {k : κ} {a : α}
    (found : (ofValues key xs).get? k = some a) : a ∈ xs ∧ key a = k := by
  have all : ∀ (ys : List α) (t : Table κ α),
    (∀ j b, t.get? j = some b → b ∈ xs ∧ key b = j) →
      (∀ b ∈ ys, b ∈ xs) → ∀ j b,
        (ys.foldl (fun t a => t.insert (key a) a) t).get? j = some b → b ∈ xs ∧
        key b = j := by
    intro ys
    induction ys with
    | nil => exact fun t given _ => given
    | cons y rest ih =>
        intro t given among
        rw [List.forall_mem_cons] at among
        apply ih _ ?_ among.2
        intro j b there
        rw [get?_insert] at there
        split at there
        · rename_i here
          cases there
          exact ⟨among.1, here⟩
        · exact given j b there
  exact all xs empty (by simp) (fun _ member => member) k a found

/-- A value that is the only one with its key is found under it. -/
theorem get?_ofValues {key : α → κ} {xs : List α} {a : α} (member : a ∈ xs)
    (only : ∀ b ∈ xs, key b = key a → b = a) :
    (ofValues key xs).get? (key a) = some a := by
  cases found : (ofValues key xs).get? (key a) with
  | some b =>
      obtain ⟨among, sameKey⟩ := mem_of_get?_ofValues found
      rw [only b among sameKey]
  | none =>
      have stays : ∀ (ys : List α) (t : Table κ α), (a ∈ ys ∨ (t.get? (key a)).isSome) →
          ((ys.foldl (fun t a => t.insert (key a) a) t).get? (key a)).isSome := by
        intro ys
        induction ys with
        | nil => simp
        | cons y rest ih =>
            intro t given
            apply ih
            rcases given with member | there
            · rcases List.mem_cons.1 member with rfl | later
              · exact Or.inr (by rw [get?_insert, if_pos rfl]; rfl)
              · exact Or.inl later
            · refine Or.inr ?_
              rw [get?_insert]
              split
              · rfl
              · exact there
      have some := stays xs empty (Or.inl member)
      rw [show xs.foldl _ empty = ofValues key xs from rfl, found] at some
      cases some

/-- A key under which everything passes the test keeps its value. -/
theorem get?_filter_of_passes (t : Table κ α) {p : κ → α → Bool} {k : κ}
    (passes : ∀ a, p k a = true) : (t.filter p).get? k = t.get? k := by
  rw [get?_filter]
  cases t.get? k with
  | none => rfl
  | some a => exact Option.filter_some_pos (passes a)

omit [DecidableEq κ] in
theorem ext_entries {t u : Table κ α} (same : t.entries = u.entries) : t = u := by
  cases t
  cases u
  cases same
  rfl

omit [DecidableEq κ] in
theorem entries_filter (t : Table κ α) (p : κ → α → Bool) :
    (t.filter p).entries = t.entries.filter fun e => p e.1 e.2 := rfl

omit [DecidableEq κ] in
/-- It does not matter which of two tests an entry has to pass first. -/
theorem filter_comm (t : Table κ α) (p q : κ → α → Bool) :
    (t.filter p).filter q = (t.filter q).filter p :=
  ext_entries (by simp only [entries_filter, List.filter_filter, Bool.and_comm])

/-- A new key is added at the end. -/
theorem entries_insert_of_fresh {t : Table κ α} {k : κ} (fresh : t.get? k = none)
    (a : α) :
    (t.insert k a).entries = t.entries ++ [(k, a)] := by
  have puts : ∀ es : List (κ × α), find k es = none → put k a es = es ++ [(k, a)] := by
    intro es
    induction es with
    | nil => exact fun _ => rfl
    | cons e rest ih =>
        obtain ⟨j, b⟩ := e
        intro absent
        rw [find] at absent
        split at absent
        · cases absent
        · rename_i other
          rw [put, if_neg other, ih absent, List.cons_append]
  exact puts t.entries fresh

/-- A key that fails the test is not seen through it, and one that passes is
added to what is seen. -/
theorem filter_insertNew (t : Table κ α) (q : κ → Bool) (k : κ) (a : α) :
    (t.insertNew k a).filter (fun j _ => q j) =
      if q k then (t.filter fun j _ => q j).insertNew k a
      else t.filter fun j _ => q j := by
  have seen : q k = true → (t.filter fun j _ => q j).get? k = t.get? k := by
    intro passes
    rw [get?_filter]
    cases t.get? k <;> simp [passes]
  unfold insertNew contains
  cases found : t.get? k with
  | some b =>
      simp only [Option.isSome_some, if_true]
      split
      · rename_i passes
        rw [seen passes, found, Option.isSome_some, if_pos rfl]
      · rfl
  | none =>
      simp only [Option.isSome_none, Bool.false_eq_true, if_false]
      apply ext_entries
      rw [entries_filter, entries_insert_of_fresh found, List.filter_append]
      split
      · rename_i passes
        have fresh := (seen passes).trans found
        rw [fresh, Option.isSome_none, if_neg Bool.false_ne_true,
          entries_insert_of_fresh fresh]
        simp [entries_filter, passes]
      · rename_i fails
        simp [entries_filter, fails]

end Table

/-- An element of a list with one more is an old one, or that one in its last place. -/
theorem getElem?_snoc {α : Type*} {xs : List α} {x y : α} {k : Nat} :
    (xs ++ [y])[k]? = some x ↔ xs[k]? = some x ∨ k = xs.length ∧ x = y := by
  rcases Nat.lt_or_ge k xs.length with old | last
  · rw [List.getElem?_append_left old]
    constructor
    · exact Or.inl
    · rintro (found | ⟨rfl, -⟩)
      · exact found
      · exact absurd old (Nat.lt_irrefl _)
  · rw [List.getElem?_append_right last, List.getElem?_eq_none last,
      List.getElem?_singleton]
    constructor
    · intro found
      obtain ⟨here, same⟩ := Option.ite_none_right_eq_some.1 found
      exact Or.inr ⟨by omega, (Option.some.inj same).symm⟩
    · rintro (⟨⟨⟩⟩ | ⟨rfl, rfl⟩)
      simp

/-- An element of a list after one was replaced is that one in its place, or
an old one in another. -/
theorem getElem?_replaced {α : Type*} {xs : List α} {x y : α} {j k : Nat}
    (found : (xs.set j y)[k]? = some x) : k = j ∧ x = y ∨ k ≠ j ∧ xs[k]? = some x := by
  rw [List.getElem?_set] at found
  split at found
  · rename_i here
    obtain ⟨-, same⟩ := Option.ite_none_right_eq_some.1 found
    exact Or.inl ⟨here.symm, (Option.some.inj same).symm⟩
  · rename_i elsewhere
    exact Or.inr ⟨Ne.symm elsewhere, found⟩

/-- Of the last elements, when one more is added, the first one makes room for it,
if there is none left. -/
theorem rtake_concat {α : Type*} {xs : List α} {x : α} {room : Nat} (some : 0 < room) :
    (xs ++ [x]).rtake room =
      (if (xs.rtake room).length = room then (xs.rtake room).tail else xs.rtake room) ++
        [x] := by
  obtain ⟨n, rfl⟩ := Nat.exists_eq_succ_of_ne_zero (Nat.pos_iff_ne_zero.1 some)
  rw [List.rtake_concat_succ]
  congr 1
  unfold List.rtake
  by_cases full : n + 1 ≤ xs.length
  · have size : (xs.drop (xs.length - (n + 1))).length = n + 1 := by simp; omega
    rw [if_pos size, List.tail_drop]
    congr 1
    omega
  · have size : (xs.drop (xs.length - (n + 1))).length ≠ n + 1 := by simp; omega
    rw [if_neg size]
    congr 1
    omega

theorem rtake_eq_nil {α : Type*} {xs : List α} {room : Nat} (some : 0 < room) :
    xs.rtake room = [] ↔ xs = [] := by
  rw [List.rtake, List.drop_eq_nil_iff, ← List.length_eq_zero_iff]
  omega

theorem mem_sortBy {α : Type} {before : α → α → Bool} {xs : List α} {x : α} :
    x ∈ sortBy before xs ↔ x ∈ xs :=
  (perm_sortBy before xs).mem_iff

/-- After sorting nothing stands before what it should come after. -/
theorem pairwise_sortBy {α : Type} {before : α → α → Bool} {xs : List α}
    (asymmetric : ∀ x y, before x y = true → before y x = false)
    (transitive : ∀ x y z, before y x = false → before z y = false → before z x = false) :
    (sortBy before xs).Pairwise fun x y => before y x = false := by
  have inserts : ∀ (x : α) (ys : List α), (ys.Pairwise fun x y => before y x = false) →
      (insertBy before x ys).Pairwise fun x y => before y x = false := by
    intro x ys
    induction ys with
    | nil => exact fun _ => List.pairwise_singleton _ x
    | cons y rest ih =>
        intro sorted
        rw [insertBy]
        rw [List.pairwise_cons] at sorted
        split
        · rename_i first
          refine List.pairwise_cons.2 ⟨?_, ih sorted.2⟩
          intro z member
          rcases List.mem_cons.1 ((perm_insertBy before x rest).mem_iff.1 member) with
            rfl | later
          · exact asymmetric y z first
          · exact sorted.1 z later
        · rename_i after
          have behind : before y x = false := Bool.not_eq_true _ ▸ after
          refine List.pairwise_cons.2 ⟨?_, List.pairwise_cons.2 sorted⟩
          intro z member
          rcases List.mem_cons.1 member with rfl | later
          · exact behind
          · exact transitive x y z behind (sorted.1 z later)
  induction xs with
  | nil => exact List.Pairwise.nil
  | cons x rest ih => exact inserts x _ ih

/-- Where every act that can be carried out is a step, acts one after the
other are a run. -/
theorem reflTransGen_of_foldlM {σ : Type*} {α : Type*} {step : σ → σ → Prop}
    {act : σ → α → Option σ} (steps : ∀ s a after, act s a = some after → step s after)
    {acts : List α} {s after : σ} (played : acts.foldlM act s = some after) :
    Relation.ReflTransGen step s after := by
  induction acts generalizing s with
  | nil =>
      cases played
      exact .refl
  | cons a rest ih =>
      rw [List.foldlM_cons] at played
      obtain ⟨there, first, others⟩ := Option.bind_eq_some_iff.1 played
      exact .head (steps s a there first) (ih others)

end Paywatch
