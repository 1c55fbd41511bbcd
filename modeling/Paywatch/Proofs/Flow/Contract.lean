import Paywatch.Proofs.Flow.Conduct

/-!
# Contracts

A task that shares its surroundings with others relies on how its calls are answered,
and guarantees in turn what it calls.  `Guarantees` says both at once, along the flow:
as long as each call is answered as agreed, each call that is made is allowed where it
is made, and the flow reaches its goal if it ends.
-/

namespace Paywatch

namespace Flow

variable {σ α β : Type} {rely : Answering σ} {allowed : σ → Call → Prop} {s : σ}

/-- As long as calls are answered as agreed, only such calls are made as are allowed,
and the goal is reached in the end. -/
def Guarantees (rely : Answering σ) (allowed : σ → Call → Prop) (goal : α → σ → Prop) :
    Flow α → σ → Prop
  | done a, s => goal a s
  | call c next, s =>
    allowed s c ∧ ∀ reply after, rely s c reply after →
      (next reply).Guarantees rely allowed goal after

@[simp] theorem guarantees_pure {goal : α → σ → Prop} {a : α} :
    (pure a : Flow α).Guarantees rely allowed goal s ↔ goal a s := Iff.rfl

theorem guarantees_ask {c : Call} {goal : c.Reply → σ → Prop} :
    (ask c).Guarantees rely allowed goal s ↔
      allowed s c ∧ ∀ reply after, rely s c reply after → goal reply after := Iff.rfl

/-- A flow that begins with a call. -/
theorem guarantees_ask_bind {c : Call} {f : c.Reply → Flow β} {goal : β → σ → Prop} :
    (ask c >>= f).Guarantees rely allowed goal s ↔ allowed s c ∧
      ∀ reply after, rely s c reply after →
        (f reply).Guarantees rely allowed goal after := Iff.rfl

theorem guarantees_ledger_bind {c : Ledger.Call} {f : c.Reply → Flow β}
    {goal : β → σ → Prop} :
    (ledger c >>= f).Guarantees rely allowed goal s ↔ allowed s (.ledger c) ∧
      ∀ reply after, rely s (.ledger c) reply after →
        (f reply).Guarantees rely allowed goal after :=
  Iff.rfl

@[simp] theorem guarantees_bind {x : Flow α} {f : α → Flow β} {goal : β → σ → Prop} :
    (x >>= f).Guarantees rely allowed goal s ↔
      x.Guarantees rely allowed (fun a mid => (f a).Guarantees rely allowed goal mid)
        s := by
  show (x.bind f).Guarantees rely allowed goal s ↔ _
  induction x generalizing s with
  | done a => exact Iff.rfl
  | call c next ih => simp only [Flow.bind, Guarantees, ih]

/-- A weaker goal is reached as well. -/
theorem Guarantees.imp {goal goal' : α → σ → Prop} {x : Flow α}
    (guarantees : x.Guarantees rely allowed goal s)
    (weaker : ∀ a after, goal a after → goal' a after) :
    x.Guarantees rely allowed goal' s := by
  induction x generalizing s with
  | done a => exact weaker a s guarantees
  | call c next ih =>
      exact ⟨guarantees.1, fun reply after answer =>
        ih reply (guarantees.2 reply after answer)⟩

/-- A flow all of whose calls are of a kind that is always allowed keeps to whatever
relation their answers keep to. -/
theorem Only.guarantees {kind : Call → Prop} {R : σ → σ → Prop} {x : Flow α}
    (only : x.Only kind) (allows : ∀ s c, kind c → allowed s c) (refl : ∀ s, R s s)
    (trans : ∀ s mid after, R s mid → R mid after → R s after)
    (each : ∀ s c reply after, kind c → rely s c reply after → R s after) :
    x.Guarantees rely allowed (fun _ after => R s after) s := by
  induction x generalizing s with
  | done a => exact refl s
  | call c next ih =>
      refine ⟨allows s c only.1, fun reply mid answer => ?_⟩
      have first := each s c reply mid only.1 answer
      exact (ih reply (only.2 reply)).imp fun _ after rest => trans s mid after first rest

/-- Where announcing is allowed, all is announced. -/
theorem guarantees_publishAll (ns : List Notice) {goal : Unit → σ → Prop}
    (publishes : ∀ s n, allowed s (.publish n)) (reached : ∀ u after, goal u after) :
    (publishAll ns).Guarantees rely allowed goal s := by
  have announces : (publishAll ns).Only fun c => ∃ n, c = .publish n :=
    only_publishAll (fun n => ⟨n, rfl⟩) ns
  refine (announces.guarantees (R := fun _ _ => True) ?_ (fun _ => trivial)
    (fun _ _ _ _ _ => trivial)
    fun _ _ _ _ _ _ => trivial).imp fun u after _ => reached u after
  rintro s c ⟨n, rfl⟩
  exact publishes s n

/-- The goal is reached wherever the flow may end. -/
theorem Guarantees.reaches {goal : α → σ → Prop} {x : Flow α} {a : α} {after : σ}
    (guarantees : x.Guarantees rely allowed goal s) (leads : x.Leads rely s a after) :
    goal a after := by
  induction x generalizing s with
  | done b =>
      obtain ⟨rfl, rfl⟩ := leads
      exact guarantees
  | call c next ih =>
      obtain ⟨reply, there, answer, rest⟩ := leads
      exact ih reply (guarantees.2 reply there answer) rest

/-- Where every call is answered, a flow is sure to reach what it guarantees. -/
theorem Guarantees.surely {goal : α → σ → Prop} {x : Flow α}
    (guarantees : x.Guarantees rely allowed goal s)
    (answered : ∀ s c, ∃ reply after, rely s c reply after) : Surely rely x s goal where
  ends := by
    clear guarantees
    induction x generalizing s with
    | done a => exact ⟨a, s, rfl, rfl⟩
    | call c next ih =>
        obtain ⟨reply, there, answer⟩ := answered s c
        obtain ⟨a, after, leads⟩ := ih reply (s := there)
        exact ⟨a, after, reply, there, answer, leads⟩
  reaches _ _ := guarantees.reaches

end Flow

namespace Attempt

variable {σ ε α : Type} {rely : Answering σ} {allowed : σ → Call → Prop} {s : σ}
variable {goal : Except ε α → σ → Prop} {exhausted : ε} {attempt : Flow (Attempt ε α)}

/-- What an attempt reaches that is to reach a goal, or to leave things such
that another may be made. -/
def Concludes (goal : Except ε α → σ → Prop) (again : σ → Prop) : Attempt ε α → σ → Prop
  | done a, s => goal (.ok a) s
  | conflict, s => again s
  | failed e, s => goal (.error e) s

/-- What each attempt reaches from where another may be made, repeated attempts reach. -/
theorem guarantees_upTo (again : σ → Prop)
    (once : ∀ s, again s → attempt.Guarantees rely allowed (Concludes goal again) s)
    (tired : ∀ s, again s → goal (.error exhausted) s) (n : Nat) (start : again s) :
    (upTo exhausted attempt n).Guarantees rely allowed goal s := by
  induction n generalizing s with
  | zero => exact tired s start
  | succ n ih =>
      rw [upTo, Flow.guarantees_bind]
      refine (once s start).imp fun a after concluded => ?_
      cases a with
      | done a => exact concluded
      | failed e => exact concluded
      | conflict => exact ih concluded

end Attempt

end Paywatch
