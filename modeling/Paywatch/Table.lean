/-!
# Tables

A finite map kept as a list of entries in the order in which their keys came
first. A key occurs once. The view of a table is `get?`; each operation has
one equation through it.
-/

namespace Paywatch

structure Table (κ α : Type) where
  entries : List (κ × α)
  distinct : (entries.map Prod.fst).Nodup

namespace Table

variable {κ α : Type} [DecidableEq κ]

def empty : Table κ α := ⟨[], by simp⟩

instance : Inhabited (Table κ α) := ⟨empty⟩

/-- The value under a key in a list of entries. -/
def find (k : κ) : List (κ × α) → Option α
  | [] => none
  | (j, a) :: rest => if j = k then some a else find k rest

/-- Replaces the value of a key, or adds an entry at the end. -/
def put (k : κ) (a : α) : List (κ × α) → List (κ × α)
  | [] => [(k, a)]
  | (j, b) :: rest => if j = k then (j, a) :: rest else (j, b) :: put k a rest

theorem mem_map_fst_put (k : κ) (a : α) (es : List (κ × α)) (j : κ) :
    j ∈ (put k a es).map Prod.fst ↔ j = k ∨ j ∈ es.map Prod.fst := by
  induction es with
  | nil => simp [put]
  | cons e rest ih =>
    obtain ⟨i, b⟩ := e
    by_cases h : i = k
    · subst h; simp [put]
    · simp only [put, h, if_false, List.map_cons, List.mem_cons, ih]
      constructor
      · rintro (h | h | h) <;> simp [h]
      · rintro (h | h | h) <;> simp [h]

theorem nodup_put (k : κ) (a : α) {es : List (κ × α)}
    (distinct : (es.map Prod.fst).Nodup) :
    ((put k a es).map Prod.fst).Nodup := by
  induction es with
  | nil => simp [put]
  | cons e rest ih =>
    obtain ⟨i, b⟩ := e
    simp only [List.map_cons, List.nodup_cons] at distinct
    by_cases h : i = k
    · subst h
      simp only [put, if_true, List.map_cons, List.nodup_cons]
      exact distinct
    · simp only [put, h, if_false, List.map_cons, List.nodup_cons]
      refine ⟨fun mem => ?_, ih distinct.2⟩
      rcases (mem_map_fst_put k a rest i).1 mem with rfl | mem
      · exact h rfl
      · exact distinct.1 mem

theorem find_put (k : κ) (a : α) (es : List (κ × α)) (j : κ) :
    find j (put k a es) = if k = j then some a else find j es := by
  induction es with
  | nil => simp [put, find]
  | cons e rest ih =>
    obtain ⟨i, b⟩ := e
    by_cases h : i = k
    · subst h
      by_cases hj : i = j <;> simp [put, find, hj]
    · by_cases hj : i = j
      · subst hj
        simp [put, find, h, Ne.symm h]
      · simp [put, find, h, hj, ih]

/-- The value under a key. -/
def get? (t : Table κ α) (k : κ) : Option α := find k t.entries

def contains (t : Table κ α) (k : κ) : Bool := (t.get? k).isSome

def values (t : Table κ α) : List α := t.entries.map Prod.snd

/-- Sets the value of a key. -/
def insert (t : Table κ α) (k : κ) (a : α) : Table κ α :=
  ⟨put k a t.entries, nodup_put k a t.distinct⟩

/-- Sets the value of a key that has none. -/
def insertNew (t : Table κ α) (k : κ) (a : α) : Table κ α :=
  if t.contains k then t else t.insert k a

/-- Keeps the entries that pass a test. -/
def filter (t : Table κ α) (p : κ → α → Bool) : Table κ α :=
  ⟨t.entries.filter fun e => p e.1 e.2,
    t.distinct.sublist (List.Sublist.map _ (List.filter_sublist))⟩

def erase (t : Table κ α) (k : κ) : Table κ α := t.filter fun j _ => j ≠ k

/-- Changes the value of a key, if it has one. -/
def modify (t : Table κ α) (k : κ) (f : α → α) : Table κ α :=
  match t.get? k with
  | some a => t.insert k (f a)
  | none => t

/-- The table of these values, each under its own key; of two with one key
the last counts. -/
def ofValues (key : α → κ) (xs : List α) : Table κ α :=
  xs.foldl (fun t a => t.insert (key a) a) empty

@[simp] theorem get?_empty (k : κ) : (empty : Table κ α).get? k = none := rfl

theorem get?_insert (t : Table κ α) (k : κ) (a : α) (j : κ) :
    (t.insert k a).get? j = if k = j then some a else t.get? j :=
  find_put k a t.entries j

theorem get?_insertNew (t : Table κ α) (k : κ) (a : α) (j : κ) :
    (t.insertNew k a).get? j = if k = j ∧ t.get? k = none then some a else t.get? j := by
  unfold insertNew contains
  cases h : t.get? k <;> simp [get?_insert]

theorem get?_modify (t : Table κ α) (k : κ) (f : α → α) (j : κ) :
    (t.modify k f).get? j = if k = j then (t.get? j).map f else t.get? j := by
  unfold modify
  cases h : t.get? k with
  | none =>
    by_cases hj : k = j
    · subst hj; simp [h]
    · simp [hj]
  | some a =>
    by_cases hj : k = j
    · subst hj; simp [get?_insert, h]
    · simp [get?_insert, hj]

/-- An entry is in the list exactly if its value is found under its key. -/
theorem mem_entries_iff {t : Table κ α} {k : κ} {a : α} :
    (k, a) ∈ t.entries ↔ t.get? k = some a := by
  obtain ⟨es, distinct⟩ := t
  show (k, a) ∈ es ↔ find k es = some a
  induction es with
  | nil => simp [find]
  | cons e rest ih =>
    obtain ⟨i, b⟩ := e
    simp only [List.map_cons, List.nodup_cons] at distinct
    by_cases h : i = k
    · subst h
      have notMem : (i, a) ∉ rest := fun mem => distinct.1 (List.mem_map_of_mem mem)
      simp [find, notMem, eq_comm]
    · simp [find, h, ih distinct.2, Ne.symm h]

theorem mem_values_iff {t : Table κ α} {a : α} :
    a ∈ t.values ↔ ∃ k, t.get? k = some a := by
  simp only [values, List.mem_map, Prod.exists, exists_eq_right]
  exact ⟨fun ⟨k, mem⟩ => ⟨k, mem_entries_iff.1 mem⟩,
    fun ⟨k, found⟩ => ⟨k, mem_entries_iff.2 found⟩⟩

theorem get?_filter (t : Table κ α) (p : κ → α → Bool) (k : κ) :
    (t.filter p).get? k = (t.get? k).filter (p k) := by
  apply Option.ext
  intro a
  rw [← mem_entries_iff]
  simp [filter, mem_entries_iff, Option.filter_eq_some_iff]

theorem get?_erase (t : Table κ α) (k j : κ) :
    (t.erase k).get? j = if j = k then none else t.get? j := by
  rw [erase, get?_filter]
  by_cases h : j = k <;> cases t.get? j <;> simp [h]

end Table

end Paywatch
