import Mathlib.Logic.Relation
import Paywatch.Proofs.Flow.Rules

/-!
# The calls of a flow

`Leads` says what a flow may come to under a rule, and `Makes` which calls it may make
on the way, and in which state each of them is made.  A call that a composed flow makes
is made by one of its parts.  An invariant that every call keeps holds wherever a call
is made, and in the end.
-/

namespace Paywatch

namespace Flow

variable {σ α β : Type} {answers : Answering σ} {s after there : σ} {c : Call}
    {x : Flow α}

/-- Under the rule the flow may come to make this call, in this state. -/
def Makes (answers : Answering σ) : Flow α → σ → Call → σ → Prop
  | done _, _, _, _ => False
  | call d next, s, c, there =>
    (c = d ∧ there = s) ∨
      ∃ reply mid, answers s d reply mid ∧ (next reply).Makes answers mid c there

@[simp] theorem not_makes_pure (a : α) : ¬ (pure a : Flow α).Makes answers s c there := id

@[simp] theorem makes_ask {d : Call} :
    (ask d).Makes answers s c there ↔ c = d ∧ there = s := by
  constructor
  · rintro (here | ⟨_, _, _, ⟨⟩⟩)
    exact here
  · exact Or.inl

/-- A call of a composed flow is made by its first part, or by its second
after the first. -/
theorem makes_bind {f : α → Flow β} : (x >>= f).Makes answers s c there ↔
    x.Makes answers s c there ∨
      ∃ a mid, x.Leads answers s a mid ∧ (f a).Makes answers mid c there := by
  show (x.bind f).Makes answers s c there ↔ _
  induction x generalizing s with
  | done a =>
      constructor
      · intro makes
        exact Or.inr ⟨a, s, ⟨rfl, rfl⟩, makes⟩
      · rintro (⟨⟨⟩⟩ | ⟨a', mid, ⟨rfl, rfl⟩, makes⟩)
        exact makes
  | call d next ih =>
      simp only [Flow.bind, Makes, ih]
      constructor
      · rintro (here | ⟨reply, mid, answer, first | ⟨a, later, leads, makes⟩⟩)
        · exact Or.inl (Or.inl here)
        · exact Or.inl (Or.inr ⟨reply, mid, answer, first⟩)
        · exact Or.inr ⟨a, later, ⟨reply, mid, answer, leads⟩, makes⟩
      · rintro ((here | ⟨reply, mid, answer, first⟩) | ⟨a, later,
          ⟨reply, mid, answer, leads⟩, makes⟩)
        · exact Or.inl here
        · exact Or.inr ⟨reply, mid, answer, Or.inl first⟩
        · exact Or.inr ⟨reply, mid, answer, Or.inr ⟨a, later, leads, makes⟩⟩

/-- What all calls of a flow are like, each call that it makes is like. -/
theorem Only.makes {allowed : Call → Prop} (only : x.Only allowed)
    (makes : x.Makes answers s c there) : allowed c := by
  induction x generalizing s with
  | done a => exact makes.elim
  | call d next ih =>
      rcases makes with ⟨rfl, -⟩ | ⟨reply, mid, -, later⟩
      · exact only.1
      · exact ih reply (only.2 reply) later

/-- What all calls are like that a flow may make however they are answered,
all its calls are like. -/
theorem only_of_makes {allowed : Call → Prop}
    (all : ∀ c there, x.Makes (fun (_ : Unit) _ _ _ => True) () c there → allowed c) :
    x.Only allowed := by
  induction x with
  | done a => trivial
  | call d next ih =>
      refine ⟨all d () (Or.inl ⟨rfl, rfl⟩), fun reply => ih reply fun c there later => ?_⟩
      exact all c there (Or.inr ⟨reply, (), trivial, later⟩)

/-- If the first part of a composed flow makes calls of one kind only, another
call is made after it. -/
theorem Only.makes_bind {allowed : Call → Prop} {f : α → Flow β} (only : x.Only allowed)
    (makes : (x >>= f).Makes answers s c there) : allowed c ∨
      ∃ a mid, x.Leads answers s a mid ∧ (f a).Makes answers mid c there :=
  (Flow.makes_bind.1 makes).imp_left only.makes

/-! ## Invariants -/

section Invariant

variable {inv : σ → Prop}

/-- Every answer to a call that the flow makes keeps the invariant. -/
def Maintains (answers : Answering σ) (inv : σ → Prop) (x : Flow α) (s : σ) : Prop :=
  ∀ c there reply after, x.Makes answers s c there → inv there →
    answers there c reply after → inv after

/-- What is maintained holds in the end. -/
theorem Leads.maintained {a : α} (leads : x.Leads answers s a after)
    (maintains : x.Maintains answers inv s) (start : inv s) : inv after := by
  induction x generalizing s with
  | done b =>
      obtain ⟨-, rfl⟩ := leads
      exact start
  | call d next ih =>
      obtain ⟨reply, mid, answer, rest⟩ := leads
      refine ih reply rest (fun c there r later makes => ?_) ?_
      · exact maintains c there r later (Or.inr ⟨reply, mid, answer, makes⟩)
      · exact maintains d s reply mid (Or.inl ⟨rfl, rfl⟩) start answer

/-- What is maintained holds wherever a call is made. -/
theorem Makes.maintained (makes : x.Makes answers s c there)
    (maintains : x.Maintains answers inv s) (start : inv s) : inv there := by
  induction x generalizing s with
  | done b => exact makes.elim
  | call d next ih =>
      rcases makes with ⟨-, rfl⟩ | ⟨reply, mid, answer, later⟩
      · exact start
      · refine ih reply later (fun c there r last makes => ?_) ?_
        · exact maintains c there r last (Or.inr ⟨reply, mid, answer, makes⟩)
        · exact maintains d s reply mid (Or.inl ⟨rfl, rfl⟩) start answer

end Invariant

/-! ## Trying a flow -/

/-- The batch that a call is to commit. -/
def batch? : Call → Option Batch
  | .ledger (.commit b) => some b
  | _ => none

theorem eq_of_batch? {b : Batch} (isBatch : batch? c = some b) :
    c = .ledger (.commit b) := by
  cases c with
  | ledger c =>
      cases c with
      | commit b' =>
          cases isBatch
          rfl
      | _ => cases isBatch
  | _ => cases isBatch

section Proposed

variable {perform : (c : Call) → σ → c.Reply × σ} {check : σ → Call → Bool}

/-- The first batch that a flow comes to commit when it runs alone, and where, if all
calls before it pass the check. -/
def proposed? (perform : (c : Call) → σ → c.Reply × σ) (check : σ → Call → Bool) :
    Flow α → σ → Option (Batch × σ)
  | done _, _ => none
  | call c next, s =>
    match batch? c with
    | some b => some (b, s)
    | none =>
      if check s c then (next (perform c s).1).proposed? perform check (perform c s).2
        else none

/-- If calls that pass the check are answered by the rule, the batch is one that the
flow may come to commit. -/
theorem makes_of_proposed?
    (sound : ∀ s c, check s c = true → answers s c (perform c s).1 (perform c s).2)
    {b : Batch} (proposed : x.proposed? perform check s = some (b, there)) :
    x.Makes answers s (.ledger (.commit b)) there := by
  induction x generalizing s with
  | done a => cases proposed
  | call d next ih =>
      rw [proposed?] at proposed
      split at proposed
      · rename_i isBatch
        cases proposed
        exact Or.inl ⟨(eq_of_batch? isBatch).symm, rfl⟩
      · obtain ⟨passed, later⟩ := Option.ite_none_right_eq_some.1 proposed
        exact Or.inr ⟨_, _, sound s d passed, ih _ later⟩

end Proposed

end Flow

namespace Attempt

variable {σ ε α : Type} {answers : Answering σ} {s there : σ} {c : Call} {exhausted : ε}
variable {attempt : Flow (Attempt ε α)}

/-- Attempts that found another writer faster, one after the other. -/
def Retries (answers : Answering σ) (attempt : Flow (Attempt ε α)) : σ → σ → Prop :=
  Relation.ReflTransGen fun s there => attempt.Leads answers s .conflict there

/-- A call of a repeated attempt is made by one attempt, after others that
found a conflict. -/
theorem makes_upTo {n : Nat}
    (makes : (upTo exhausted attempt n).Makes answers s c there) :
    ∃ mid, Retries answers attempt s mid ∧ attempt.Makes answers mid c there := by
  induction n generalizing s with
  | zero => exact makes.elim
  | succ n ih =>
      rw [upTo, Flow.makes_bind] at makes
      rcases makes with first | ⟨a, mid, leads, later⟩
      · exact ⟨s, .refl, first⟩
      · cases a with
        | done x => exact later.elim
        | failed e => exact later.elim
        | conflict =>
            obtain ⟨last, retries, makes⟩ := ih later
            exact ⟨last, .head leads retries, makes⟩

/-- What one attempt relates if it finds a conflict, repeated attempts relate. -/
theorem Retries.related {R : σ → σ → Prop} (retries : Retries answers attempt s there)
    (refl : ∀ s, R s s) (trans : ∀ s mid after, R s mid → R mid after → R s after)
    (each : ∀ s after, attempt.Leads answers s .conflict after → R s after) :
    R s there := by
  induction retries with
  | refl => exact refl s
  | tail _ step ih => exact trans _ _ _ ih (each _ _ step)

/-- Repeated attempts end as the last of them does, after others that found a conflict. -/
theorem leads_upTo {n : Nat} {after : σ} {result : Except ε α}
    (leads : (upTo exhausted attempt n).Leads answers s result after) :
    (Retries answers attempt s after ∧ result = .error exhausted) ∨
      ∃ last, Retries answers attempt s last ∧
        ((∃ a, attempt.Leads answers last (.done a) after ∧ result = .ok a) ∨
          ∃ e, attempt.Leads answers last (.failed e) after ∧ result = .error e) := by
  induction n generalizing s with
  | zero =>
      obtain ⟨rfl, rfl⟩ := leads
      exact Or.inl ⟨.refl, rfl⟩
  | succ n ih =>
      rw [upTo] at leads
      obtain ⟨a, mid, first, rest⟩ := Flow.leads_bind.1 leads
      cases a with
      | done a =>
          obtain ⟨rfl, rfl⟩ := rest
          exact Or.inr ⟨s, .refl, Or.inl ⟨a, first, rfl⟩⟩
      | failed e =>
          obtain ⟨rfl, rfl⟩ := rest
          exact Or.inr ⟨s, .refl, Or.inr ⟨e, first, rfl⟩⟩
      | conflict =>
          rcases ih rest with ⟨retries, ended⟩ | ⟨last, retries, ended⟩
          · exact Or.inl ⟨.head first retries, ended⟩
          · exact Or.inr ⟨last, .head first retries, ended⟩

end Attempt

end Paywatch
