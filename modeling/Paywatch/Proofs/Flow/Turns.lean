import Paywatch.Flow.Attempt
import Paywatch.Proofs.Flow.Rules

/-!
# Turns

A task that runs among others takes turns at the ledger.  Between two of its turns the
ledger may have become any other, so all that a task can rely on is what it was told in
its own turns so far.  `Obeys` says that each turn of a flow obeys a rule about them,
and that they reach a goal when the flow ends.  It is proved along the flow, and then
holds of it among any others.
-/

namespace Paywatch

/-- One call of a task to the ledger. -/
structure Turn where
  /-- Later turns of any task have higher numbers. -/
  number : Nat
  task : Nat
  call : Ledger.Call
  /-- The ledger that the call was made to. -/
  before : Ledger

namespace Turn

def after (t : Turn) : Ledger := (t.before.perform t.call).2

end Turn

namespace Flow

variable {α β : Type} {rule : List Turn → Turn → Prop} {past : List Turn}

/-- After the turns `past`, newest first, every turn of the flow obeys the rule, and its
end reaches the goal.  Each call may be answered in any way, and by any ledger. -/
def Obeys (rule : List Turn → Turn → Prop) (goal : List Turn → α → Prop) :
    Flow α → List Turn → Prop
  | done a, past => goal past a
  | call (.ledger c) next, past =>
    ∀ t : Turn, t.call = c → (∀ p ∈ past, p.number < t.number) →
      rule past t ∧ (next (t.before.perform c).1).Obeys rule goal (t :: past)
  | call _ next, past => ∀ reply, (next reply).Obeys rule goal past

@[simp] theorem obeys_pure {goal : List Turn → α → Prop} {a : α} :
    (pure a : Flow α).Obeys rule goal past ↔ goal past a := Iff.rfl

theorem obeys_ledger {c : Ledger.Call} {goal : List Turn → c.Reply → Prop} :
    (ledger c).Obeys rule goal past ↔
      ∀ t : Turn, t.call = c → (∀ p ∈ past, p.number < t.number) →
        rule past t ∧ goal (t :: past) (t.before.perform c).1 := Iff.rfl

@[simp] theorem obeys_bind {x : Flow α} {f : α → Flow β} {goal : List Turn → β → Prop} :
    (x >>= f).Obeys rule goal past ↔
      x.Obeys rule (fun past a => (f a).Obeys rule goal past) past := by
  show (x.bind f).Obeys rule goal past ↔ _
  induction x generalizing past with
  | done a => exact Iff.rfl
  | call c next ih => cases c <;> simp only [bind, Obeys, ih]

/-- A weaker rule is obeyed as well, and a weaker goal is reached. -/
theorem Obeys.imp {rule' : List Turn → Turn → Prop} {goal goal' : List Turn → α → Prop}
    {x : Flow α} (obeys : x.Obeys rule goal past)
    (rules : ∀ past t, rule past t → rule' past t)
    (goals : ∀ past a, goal past a → goal' past a) : x.Obeys rule' goal' past := by
  induction x generalizing past with
  | done a => exact goals past a obeys
  | call c next ih =>
      cases c with
      | ledger c =>
          intro t called later
          obtain ⟨obeyed, rest⟩ := obeys t called later
          exact ⟨rules past t obeyed, ih _ rest⟩
      | _ => exact fun reply => ih reply (obeys reply)

/-- At the end of a flow, its turns have been added to those before, and each of
them obeyed the rule. -/
theorem Obeys.collect {goal : List Turn → α → Prop} {x : Flow α}
    (obeys : x.Obeys rule goal past) :
    x.Obeys rule (fun now a => goal now a ∧ past ⊆ now ∧
      ∀ t ∈ now, t ∈ past ∨ ∃ before, rule before t) past := by
  induction x generalizing past with
  | done a => exact ⟨obeys, fun _ member => member, fun _ member => Or.inl member⟩
  | call c next ih =>
      cases c with
      | ledger c =>
          intro t called later
          obtain ⟨obeyed, rest⟩ := obeys t called later
          refine ⟨obeyed, (ih _ rest).imp (fun _ _ => id) ?_⟩
          rintro now a ⟨reached, more, all⟩
          refine ⟨reached, fun p member => more (List.mem_cons_of_mem _ member), ?_⟩
          intro p member
          rcases all p member with old | new
          · rcases List.mem_cons.1 old with rfl | older
            · exact Or.inr ⟨past, obeyed⟩
            · exact Or.inl older
          · exact Or.inr new
      | _ => exact fun reply => ih reply (obeys reply)

/-- The flow takes no turn. -/
def Silent : Flow α → Prop
  | done _ => True
  | call (.ledger _) _ => False
  | call _ next => ∀ reply, (next reply).Silent

theorem Silent.obeys {goal : List Turn → α → Prop} {x : Flow α} (silent : x.Silent)
    (goals : ∀ a, goal past a) : x.Obeys rule goal past := by
  induction x with
  | done a => exact goals a
  | call c next ih =>
      cases c with
      | ledger c => exact silent.elim
      | _ => exact fun reply => ih reply (silent reply)

/-- A flow takes no turn if none of its calls is one to the ledger. -/
theorem Only.silent {x : Flow α} (only : x.Only Call.Outside) : x.Silent := by
  induction x with
  | done a => trivial
  | call c next ih =>
      cases c with
      | ledger c => exact only.1.elim
      | _ => exact fun reply => ih reply (only.2 reply)

theorem silent_publishAll (ns : List Notice) : (publishAll ns).Silent := by
  unfold publishAll
  induction ns with
  | nil => trivial
  | cons n rest ih => exact fun _ => ih

end Flow

/-- Attempts that obey the rule whatever went before do so when they are repeated, and
reach what the last of them reaches. -/
theorem Attempt.obeys_upTo {ε α : Type} {rule : List Turn → Turn → Prop}
    {goal : List Turn → Except ε α → Prop} {exhausted : ε} {attempt : Flow (Attempt ε α)}
    {start : List Turn} (failed : ∀ past e, goal past (.error e))
    (once : ∀ past, start ⊆ past → attempt.Obeys rule
      (fun now a => ∀ x, a = .done x → goal now (.ok x)) past) (n : Nat) :
    (upTo exhausted attempt n).Obeys rule goal start := by
  suffices all : ∀ past, start ⊆ past →
    (upTo exhausted attempt n).Obeys rule goal past from all start fun _ member => member
  induction n with
  | zero => exact fun past _ => failed past _
  | succ n ih =>
      intro past more
      rw [upTo, Flow.obeys_bind]
      apply (once past more).collect.imp (fun _ _ => id)
      rintro now a ⟨reached, added, -⟩
      cases a with
      | done x => exact reached x rfl
      | failed e => exact failed now e
      | conflict => exact ih now fun _ member => added (more member)

end Paywatch
