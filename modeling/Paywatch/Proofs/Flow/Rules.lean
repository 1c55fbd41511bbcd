import Paywatch.Proofs.Flow.Surroundings
import Paywatch.Proofs.Ledger.Settlement

/-!
# Flows under a rule

What answers the calls of a flow is a rule over states of any kind: surroundings that
only the flow changes, surroundings that others share, or a mere script of answers.
`Leads` says what a flow may come to under a rule, and the flows that run alone are
those under the rule of their surroundings.  `Surely` says that it comes to something,
and to what in any case.
-/

namespace Paywatch

/-- How calls may be answered: the state before, the call, its reply, and
the state after. -/
abbrev Answering (σ : Type) := σ → (c : Call) → c.Reply → σ → Prop

/-- Somewhere under the rule a provider of the chain gives the block. -/
def Gives {σ : Type} (answers : Answering σ) (chain : ChainId) (b : Block) : Prop :=
  ∃ s height after, answers s (.node chain (.block height)) (.ok b) after

/-- Whoever is asked for the block at a height gives one of that height. -/
def GivesInPlace {σ : Type} (answers : Answering σ) : Prop :=
  ∀ s chain height b after,
    answers s (.node chain (.block height)) (.ok b) after → b.height = height

/-- The calls are answered as in surroundings that only the flow changes. -/
def Alone (catalog : Catalog) (answers : Answering Surroundings) : Prop :=
  ∀ s c reply after, answers s c reply after → s.Answers catalog c reply after

/-- Every call is answered somehow, except that there may be no new identifier left. -/
def Responsive {σ : Type} (answers : Answering σ) : Prop :=
  ∀ s c, c ≠ .stamp → ∃ reply after, answers s c reply after

/-- The notice that a call publishes, if it does. -/
def Call.notices : Call → List Notice
  | .publish n => [n]
  | _ => []

/-- The calls are answered by the rule, and what is published is noted
down, newest first. -/
def Telling {σ : Type} (answers : Answering σ) : Answering (σ × List Notice) :=
  fun s c reply after => answers s.1 c reply after.1 ∧ after.2 = c.notices ++ s.2

/-- A call that commits nothing. -/
def Call.Plain : Call → Prop
  | .ledger (.commit _) => False
  | .ledger (.commitPlan ..) => False
  | _ => True

/-- A call that publishes nothing, and only asks if it is made to the ledger. -/
def Call.Mute : Call → Prop
  | .ledger c => c.asks = true
  | .publish _ => False
  | _ => True

theorem Call.Mute.plain {c : Call} (mute : c.Mute) : c.Plain := by
  cases c with
  | ledger c =>
      cases c with
      | commit b => cases mute
      | commitPlan writes p => cases mute
      | _ => trivial
  | _ => trivial

/-- A call that has nothing to do with the ledger and publishes nothing. -/
def Call.Outside : Call → Prop
  | .ledger _ => False
  | .publish _ => False
  | _ => True

theorem Call.Outside.mute {c : Call} (outside : c.Outside) : c.Mute := by
  cases c with
  | ledger c => exact outside.elim
  | _ => exact outside

theorem Alone.givesInPlace {catalog : Catalog} {answers : Answering Surroundings}
    (alone : Alone catalog answers) : GivesInPlace answers := by
  intro s chain height b after answer
  exact ((alone _ _ _ _ answer).1 b rfl).2

theorem Alone.chain_of_gives {catalog : Catalog} {answers : Answering Surroundings}
    (alone : Alone catalog answers) {chain : ChainId} {b : Block}
    (gives : Gives answers chain b) : b.chain = chain := by
  obtain ⟨s, height, after, answer⟩ := gives
  exact ((alone _ _ _ _ answer).1 b rfl).1

namespace Flow

variable {σ α β : Type} {answers : Answering σ} {s after : σ}

/-- Under the rule the flow may end with this result and lead there. -/
def Leads (answers : Answering σ) : Flow α → σ → α → σ → Prop
  | done a, s, b, after => b = a ∧ after = s
  | call c next, s, b, after =>
    ∃ reply there, answers s c reply there ∧ (next reply).Leads answers there b after

@[simp] theorem leads_pure {a b : α} :
    Leads answers (pure a) s b after ↔ b = a ∧ after = s := Iff.rfl

@[simp] theorem leads_ask {c : Call} {reply : c.Reply} :
    Leads answers (ask c) s reply after ↔ answers s c reply after := by
  constructor
  · rintro ⟨reply', there, answer, rfl, rfl⟩
    exact answer
  · intro answer
    exact ⟨reply, after, answer, rfl, rfl⟩

@[simp] theorem leads_bind {x : Flow α} {f : α → Flow β} {b : β} :
    Leads answers (x >>= f) s b after ↔
      ∃ a there, Leads answers x s a there ∧ Leads answers (f a) there b after := by
  show Leads answers (x.bind f) s b after ↔ _
  induction x generalizing s with
  | done a =>
      constructor
      · intro leads
        exact ⟨a, s, ⟨rfl, rfl⟩, leads⟩
      · rintro ⟨a', there, ⟨rfl, rfl⟩, leads⟩
        exact leads
  | call c next ih =>
      simp only [Flow.bind, Leads, ih]
      constructor
      · rintro ⟨reply, there, answer, a, later, first, second⟩
        exact ⟨a, later, ⟨reply, there, answer, first⟩, second⟩
      · rintro ⟨a, later, ⟨reply, there, answer, first⟩, second⟩
        exact ⟨reply, there, answer, a, later, first, second⟩

/-- A rule that allows more allows what the flow came to. -/
theorem Leads.imp {more : Answering σ} {x : Flow α} {a : α}
    (leads : x.Leads answers s a after)
    (allows : ∀ s c reply after, answers s c reply after → more s c reply after) :
    x.Leads more s a after := by
  induction x generalizing s with
  | done b => exact leads
  | call c next ih =>
      obtain ⟨reply, there, answer, rest⟩ := leads
      exact ⟨reply, there, allows _ _ _ _ answer, ih reply rest⟩

/-- To run alone is to follow the rule of the surroundings. -/
theorem leads_iff_runs {catalog : Catalog} {x : Flow α} {s : Surroundings} {a : α}
    {after : Surroundings} :
    x.Leads (Surroundings.Answers catalog) s a after ↔ x.Runs catalog s a after := by
  induction x generalizing s with
  | done b => exact Iff.rfl
  | call c next ih => simp only [Leads, Runs, ih]

theorem Leads.runs {catalog : Catalog} {answers : Answering Surroundings} {x : Flow α}
    {a : α} {s after : Surroundings} (alone : Alone catalog answers)
    (leads : x.Leads answers s a after) : x.Runs catalog s a after :=
  leads_iff_runs.1 (leads.imp alone)

/-- All calls of the flow are of this kind, whatever the answers. -/
def Only (allowed : Call → Prop) : Flow α → Prop
  | done _ => True
  | call c next => allowed c ∧ ∀ reply, (next reply).Only allowed

section Only

variable {allowed : Call → Prop}

theorem only_pure (a : α) : (pure a : Flow α).Only allowed := trivial

theorem only_ask {c : Call} : (ask c).Only allowed ↔ allowed c := by
  simp [ask, Only]

theorem only_bind {x : Flow α} {f : α → Flow β} (first : x.Only allowed)
    (second : ∀ a, (f a).Only allowed) : (x >>= f).Only allowed := by
  show (x.bind f).Only allowed
  induction x with
  | done a => exact second a
  | call c next ih => exact ⟨first.1, fun reply => ih reply (first.2 reply)⟩

theorem Only.imp {more : Call → Prop} {x : Flow α} (only : x.Only allowed)
    (allows : ∀ c, allowed c → more c) : x.Only more := by
  induction x with
  | done a => trivial
  | call c next ih => exact ⟨allows c only.1, fun reply => ih reply (only.2 reply)⟩

theorem Only.mute {x : Flow α} (only : x.Only Call.Outside) : x.Only Call.Mute :=
  only.imp fun _ => Call.Outside.mute

theorem Only.plain {x : Flow α} (only : x.Only Call.Mute) : x.Only Call.Plain :=
  only.imp fun _ => Call.Mute.plain

theorem only_publishAll (publishes : ∀ n, allowed (.publish n)) (ns : List Notice) :
    (publishAll ns).Only allowed := by
  unfold publishAll
  induction ns with
  | nil => exact only_pure ()
  | cons n rest ih => exact only_bind (only_ask.2 (publishes n)) fun _ => ih

/-- What holds between the states before and after each call of the flow
holds for all of it. -/
theorem Only.related {R : σ → σ → Prop} {x : Flow α} {a : α} (only : x.Only allowed)
    (refl : ∀ s, R s s)
    (trans : ∀ s there after, R s there → R there after → R s after)
    (each : ∀ s c reply after, allowed c → answers s c reply after → R s after)
    (leads : x.Leads answers s a after) : R s after := by
  induction x generalizing s with
  | done b =>
      obtain ⟨-, rfl⟩ := leads
      exact refl after
  | call c next ih =>
      obtain ⟨reply, there, answer, rest⟩ := leads
      exact trans s there after (each s c reply there only.1 answer)
        (ih reply (only.2 reply) rest)

/-- What no call of the flow changes, the flow does not change. -/
theorem Only.kept {γ : Type} {x : Flow α} {a : α} (only : x.Only allowed) (part : σ → γ)
    (kept : ∀ s c reply after, allowed c → answers s c reply after → part after = part s)
    (leads : x.Leads answers s a after) : part after = part s :=
  only.related (R := fun s after => part after = part s) (fun _ => rfl)
    (fun _ _ _ first second => second.trans first) kept leads

end Only

/-- A mute flow does as it would, and nothing is noted down. -/
theorem leads_telling_of_mute {x : Flow α} {a : α} {s after : σ × List Notice}
    (only : x.Only Call.Mute) :
    x.Leads (Telling answers) s a after ↔ x.Leads answers s.1 a after.1 ∧
      after.2 = s.2 := by
  induction x generalizing s with
  | done b =>
      rw [Leads, Leads, and_assoc, Prod.ext_iff]
  | call c next ih =>
      have silent : c.notices = [] := by
        cases c with
        | publish n => exact only.1.elim
        | _ => rfl
      constructor
      · rintro ⟨reply, there, ⟨answer, same⟩, rest⟩
        rw [silent, List.nil_append] at same
        obtain ⟨leads, told⟩ := (ih reply (only.2 reply)).1 rest
        exact ⟨⟨reply, there.1, answer, leads⟩, told.trans same⟩
      · rintro ⟨⟨reply, there, answer, leads⟩, told⟩
        refine ⟨reply, (there, s.2), ⟨answer, ?_⟩,
          (ih reply (only.2 reply)).2 ⟨leads, told⟩⟩
        rw [silent, List.nil_append]

/-! ## Flows that are sure to end -/

/-- The flow comes to an end, and reaches this goal wherever it ends. -/
structure Surely (answers : Answering σ) (x : Flow α) (s : σ) (goal : α → σ → Prop) :
    Prop where
  ends : ∃ a after, x.Leads answers s a after
  reaches : ∀ a after, x.Leads answers s a after → goal a after

section Surely

variable {goal : α → σ → Prop} {x : Flow α}

theorem Surely.exists (surely : Surely answers x s goal) :
    ∃ a after, x.Leads answers s a after ∧ goal a after := by
  obtain ⟨a, after, leads⟩ := surely.ends
  exact ⟨a, after, leads, surely.reaches a after leads⟩

theorem surely_pure {a : α} (reached : goal a s) : Surely answers (pure a) s goal where
  ends := ⟨a, s, rfl, rfl⟩
  reaches := by
    rintro _ _ ⟨rfl, rfl⟩
    exact reached

theorem surely_ask {c : Call} {goal : c.Reply → σ → Prop}
    (answered : ∃ reply after, answers s c reply after)
    (reached : ∀ reply after, answers s c reply after → goal reply after) :
    Surely answers (ask c) s goal where
  ends := by
    obtain ⟨reply, after, answer⟩ := answered
    exact ⟨reply, after, leads_ask.2 answer⟩
  reaches reply after leads := reached reply after (leads_ask.1 leads)

theorem surely_bind {f : α → Flow β} {goal : β → σ → Prop}
    (surely : Surely answers x s fun a there => Surely answers (f a) there goal) :
    Surely answers (x >>= f) s goal where
  ends := by
    obtain ⟨a, there, first, rest⟩ := surely.exists
    obtain ⟨b, after, second⟩ := rest.ends
    exact ⟨b, after, leads_bind.2 ⟨a, there, first, second⟩⟩
  reaches b after leads := by
    obtain ⟨a, there, first, second⟩ := leads_bind.1 leads
    exact (surely.reaches a there first).reaches b after second

theorem Surely.imp {weaker : α → σ → Prop} (surely : Surely answers x s goal)
    (implies : ∀ a after, goal a after → weaker a after) : Surely answers x s weaker where
  ends := surely.ends
  reaches a after leads := implies a after (surely.reaches a after leads)

/-- Wherever the first flow leads, the second comes to its goal from there. -/
theorem Surely.bind {f : α → Flow β} {last : β → σ → Prop}
    (first : Surely answers x s goal)
    (second : ∀ a there, goal a there → Surely answers (f a) there last) :
    Surely answers (x >>= f) s last :=
  surely_bind (first.imp second)

end Surely

/-! ## Trying a flow -/

section Run

variable {perform : (c : Call) → σ → c.Reply × σ} {check : σ → Call → Bool}

/-- Every call of the flow passes a check where it is made. -/
def passes (perform : (c : Call) → σ → c.Reply × σ) (check : σ → Call → Bool) :
    Flow α → σ → Bool
  | done _, _ => true
  | call c next, s =>
    check s c && (next (perform c s).1).passes perform check (perform c s).2

/-- Runs a flow alone, if all its calls pass the check. -/
def run? (perform : (c : Call) → σ → c.Reply × σ) (check : σ → Call → Bool) (x : Flow α)
    (s : σ) : Option (α × σ) :=
  if x.passes perform check s then some (x.run perform s) else none

/-- If calls that pass the check are answered by the rule, so is the flow. -/
theorem leads_of_run?
    (sound : ∀ s c, check s c = true → answers s c (perform c s).1 (perform c s).2)
    {x : Flow α} {a : α} (ran : x.run? perform check s = some (a, after)) :
    x.Leads answers s a after := by
  unfold run? at ran
  split at ran
  · rename_i passed
    have result := Option.some.inj ran
    clear ran
    induction x generalizing s with
    | done b =>
        cases result
        exact ⟨rfl, rfl⟩
    | call c next ih =>
        simp only [passes, Bool.and_eq_true] at passed
        exact ⟨_, _, sound _ _ passed.1, ih _ passed.2 result⟩
  · cases ran

end Run

end Flow

end Paywatch
