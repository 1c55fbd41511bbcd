import Mathlib.Data.List.Count
import Mathlib.Data.List.Perm.Basic
import Paywatch.Proofs.Matching.Amounts
import Paywatch.Proofs.Matching.Reports

/-!
# Notices match the books

Blocks are ingested and taken back, routes are opened and payments are settled by tasks
that take turns at one ledger in any order, and each task tells of what it settled when
its commit is accepted.  Once all tasks have ended, what was told are the settlements
that the consumed routes say, one for one.
-/

namespace Paywatch

/-! ## Lists in parts -/

section Parts

variable {α β γ ι : Type}

/-- What the members of a list give, each with the part that its member belongs to. -/
def tagged (part : α → ι) (f : α → List γ) (xs : List α) : List (ι × γ) :=
  xs.flatMap fun x => (f x).map (Prod.mk (part x))

theorem map_snd_tagged (part : α → ι) (f : α → List γ) (xs : List α) :
    (tagged part f xs).map Prod.snd = xs.flatMap f := by
  simp [tagged, List.map_flatMap, Function.comp_def]

variable [DecidableEq ι] [DecidableEq γ]

theorem count_tagged (part : α → ι) (f : α → List γ) (xs : List α) (k : ι) (c : γ) :
    (tagged part f xs).count (k, c) = ((xs.filter (part · == k)).flatMap f).count c := by
  induction xs with
  | nil => rfl
  | cons x rest ih =>
      rw [tagged, List.flatMap_cons, List.count_append, ← tagged, ih, List.filter_cons]
      by_cases here : part x = k
      · rw [if_pos (beq_iff_eq.2 here), List.flatMap_cons, List.count_append, here,
          List.count_map_of_injective _ _ fun _ _ same => (Prod.mk.inj same).2]
      · have none : (k, c) ∉ (f x).map (Prod.mk (part x)) := by simp [here]
        rw [if_neg (by simpa using here), List.count_eq_zero_of_not_mem none,
          Nat.zero_add]

/-- Two lists give the same if each part of the one gives the same as that
part of the other. -/
theorem perm_flatMap_of_parts {xs : List α} {ys : List β} (part : α → ι) (part' : β → ι)
    (f : α → List γ) (g : β → List γ) (parts : ∀ k,
      ((xs.filter (part · == k)).flatMap f).Perm ((ys.filter (part' · == k)).flatMap g)) :
    (xs.flatMap f).Perm (ys.flatMap g) := by
  rw [← map_snd_tagged part f xs, ← map_snd_tagged part' g ys]
  apply List.Perm.map
  rw [List.perm_iff_count]
  rintro ⟨k, c⟩
  rw [count_tagged, count_tagged]
  exact (parts k).count_eq c

end Parts

/-! ## What tasks settle -/

theorem Ledger.Call.settled_of_asks {l : Ledger} {c : Ledger.Call}
    (asks : c.asks = true) :
    c.settled l = [] := by
  cases c with
  | commit b => cases asks
  | commitPlan writes p => cases asks
  | _ => rfl

theorem Ledger.Call.settled_of_isApart {l : Ledger} {c : Ledger.Call}
    (apart : c.IsApart l) : c.settled l = [] := by
  cases c with
  | commit b => exact apart.elim
  | commitPlan writes p => exact apart.elim
  | _ => rfl

namespace World

/-- The claims that were settled so far, the latest first. -/
def settled (w : World) : List Claim := w.trace.flatMap Turn.settled

variable {s : Settings} {w after : World}

/-- What a task settles fits to the routes as they are by then. -/
theorem Watched.matched (watched : Watched w) (ruled : Ruled s w) {k : Nat}
    {c : Ledger.Call} {next : c.Reply → Flow Bool}
    (running : w.tasks[k]? = some (.call (.ledger c) next)) :
    w.ledger.WellMatched (c.settled w.ledger) := by
  obtain ⟨ts, -, ⟨-, nothing⟩ | ⟨m, mPast, chain, draft, -, ok, claims⟩⟩ :=
    (ruled.lawful running).planned
  · rw [show c.settled w.ledger = [] from nothing]
    exact ⟨rfl, by simp⟩
  · have settled : draft.claims = c.settled w.ledger := claims
    obtain ⟨filed, drifts⟩ := watched.seen m (List.mem_filter.1 mPast).1
    rw [← settled]
    apply wellMatched_of_plan filed drifts ok
    rw [settled]
    exact Ledger.Call.claimable

/-- The routes account for whatever was settled. -/
theorem accounted_run (run : Run s start w) : w.ledger.Accounted w.settled := by
  induction run with
  | refl => exact Ledger.accounted_empty
  | tail run step ih =>
      have ruled := ruled_run run
      have watched := watched_run run
      cases step with
      | start o => exact ih
      | turn k c next running fresh =>
          apply ih.perform watched.filed (watched.matched ruled running)
          exact fun r opens => ⟨(ruled.lawful running).new r opens, fresh r opens⟩
      | ask k c next reply running elsewhere => exact ih
      | other c apart =>
          have settled := Ledger.Call.settled_of_isApart apart
          have accounted :=
            ih.perform watched.filed (c := c) (by rw [settled]; exact ⟨rfl, by simp⟩)
            (by rintro r rfl; exact apart.elim)
          rw [settled] at accounted
          exact accounted
      | wait ticks => exact ih.congr rfl

end World

/-- A world, and what its tasks told, newest first. -/
structure Bulletin where
  world : World
  told : List (Nat × Notice)

namespace Bulletin

def start : Bulletin := ⟨World.start, []⟩

/-- What a task told. -/
def toldBy (b : Bulletin) (k : Nat) : List Notice :=
  (b.told.filter (·.1 == k)).map Prod.snd

/-- What a task did to the ledger and what it told. -/
def recordOf (b : Bulletin) (k : Nat) : Record :=
  ⟨(b.world.turnsOf k).filter (!·.call.asks), b.toldBy k⟩

/-- The settlements that were told of. -/
def announced (b : Bulletin) : List Settlement :=
  b.told.filterMap fun (_, n) => n.settlement?

inductive Step (s : Settings) : Bulletin → Bulletin → Prop where
  | start (b : Bulletin) (o : Operation) :
      Step s b { b with world := { b.world with tasks := b.world.tasks ++ [o.flow s] } }
  /-- A task takes a turn.  The identifier of a route that it inserts is new. -/
  | turn (b : Bulletin) (k : Nat) (c : Ledger.Call) (next : c.Reply → Flow Bool)
      (running : b.world.tasks[k]? = some (.call (.ledger c) next))
      (fresh : ∀ r, c = .insertRoute r → b.world.ledger.routes.get? r.id = none) :
      Step s b { b with
        world := {
          ledger := (b.world.ledger.perform c).2
          tasks := b.world.tasks.set k (next (b.world.ledger.perform c).1)
          trace := ⟨b.world.trace.length, k, c, b.world.ledger⟩ :: b.world.trace } }
  | tell (b : Bulletin) (k : Nat) (n : Notice) (next : Unit → Flow Bool)
      (running : b.world.tasks[k]? = some (.call (.publish n) next)) :
      Step s b ⟨{ b.world with tasks := b.world.tasks.set k (next ()) }, (k, n) :: b.told⟩
  /-- A task asks anything else, and may get any answer. -/
  | ask (b : Bulletin) (k : Nat) (c : Call) (next : c.Reply → Flow Bool) (reply : c.Reply)
      (running : b.world.tasks[k]? = some (.call c next)) (outside : c.Outside) :
      Step s b { b with
        world := { b.world with tasks := b.world.tasks.set k (next reply) } }
  /-- Somebody else makes a call. -/
  | other (b : Bulletin) (c : Ledger.Call) (apart : c.IsApart b.world.ledger) :
      Step s b { b with world := { b.world with ledger := (b.world.ledger.perform c).2 } }
  | wait (b : Bulletin) (ticks : Nat) :
      Step s b { b with world := { b.world with ledger := b.world.ledger.wait ticks } }

abbrev Run (s : Settings) : Bulletin → Bulletin → Prop := Relation.ReflTransGen (Step s)

variable {s : Settings} {b after : Bulletin}

/-- Without what was told it is a run of tasks as any. -/
theorem world_run (run : Run s start b) : World.Run s World.start b.world := by
  induction run with
  | refl => exact .refl
  | tail _ step ih =>
      refine ih.tail ?_
      cases step with
      | start o => exact .start _ o
      | turn k c next running fresh => exact .turn _ k c next running fresh
      | tell k n next running => exact .ask _ k (.publish n) next () running (by simp)
      | ask k c next reply running outside =>
          refine .ask _ k c next reply running ?_
          rintro q rfl
          exact outside
      | other c apart => exact .other _ c apart
      | wait ticks => exact .wait _ ticks

/-- Whatever tasks did, they told something along with it. -/
theorem exists_run {w : World} (run : World.Run s World.start w) :
    ∃ told, Run s start ⟨w, told⟩ := by
  induction run with
  | refl => exact ⟨[], .refl⟩
  | tail _ step ih =>
      obtain ⟨told, run⟩ := ih
      cases step with
      | start o => exact ⟨told, run.tail (.start _ o)⟩
      | turn k c next running fresh =>
          exact ⟨told, run.tail (.turn _ k c next running fresh)⟩
      | ask k c next reply running elsewhere =>
          cases c with
          | ledger q => exact absurd rfl (elsewhere q)
          | publish n => exact ⟨(k, n) :: told, run.tail (.tell _ k n next running)⟩
          | _ => exact ⟨told, run.tail (.ask _ k _ next reply running trivial)⟩
      | other c apart => exact ⟨told, run.tail (.other _ c apart)⟩
      | wait ticks => exact ⟨told, run.tail (.wait _ ticks)⟩

/-! ## Every task keeps its record -/

/-- Wherever a task may come to from its record so far, all is reported. -/
structure Kept (b : Bulletin) : Prop where
  reports : ∀ (k : Nat) (x : Flow Bool), b.world.tasks[k]? = some x → ∀ ok after,
    x.Leads Record.Answers (b.recordOf k) ok after → Record.empty.Reported after ok
  nobody : ∀ k, b.world.tasks.length ≤ k → b.recordOf k = Record.empty

theorem kept_start : Kept start where
  reports := by simp [start, World.start]
  nobody _ _ := rfl

/-- A task starts with nothing on its record. -/
theorem Kept.started (kept : Kept b) (o : Operation) :
    Kept { b with world := { b.world with tasks := b.world.tasks ++ [o.flow s] } } where
  reports := by
    intro k x running ok after leads
    rcases Nat.lt_or_ge k b.world.tasks.length with old | new
    · rw [List.getElem?_append_left old] at running
      exact kept.reports k x running ok after leads
    · rw [List.getElem?_append_right new] at running
      obtain ⟨_, rfl⟩ := List.getElem?_eq_some_iff.1 running
      rw [List.getElem_singleton] at leads
      have reported : (b.recordOf k).Reported after ok := Operation.reported leads
      rwa [kept.nobody k new] at reported
  nobody := by
    intro k beyond
    rw [List.length_append] at beyond
    exact kept.nobody k (by omega)

/-- A task goes on as its record says, and the others have theirs as they were. -/
theorem Kept.went (kept : Kept b) {k : Nat} {c : Call} {next : c.Reply → Flow Bool}
    {reply : c.Reply} (running : b.world.tasks[k]? = some (.call c next))
    (tasks : after.world.tasks = b.world.tasks.set k (next reply))
    (answer : Record.Answers (b.recordOf k) c reply (after.recordOf k))
    (others : ∀ j, j ≠ k → after.recordOf j = b.recordOf j) : Kept after where
  reports := by
    intro j x found ok last leads
    rw [tasks, List.getElem?_set] at found
    split at found
    · rename_i here
      subst here
      obtain ⟨-, found⟩ := Option.ite_none_right_eq_some.1 found
      cases found
      exact kept.reports k _ running ok last ⟨reply, _, answer, leads⟩
    · rename_i elsewhere
      rw [others j (Ne.symm elsewhere)] at leads
      exact kept.reports j x found ok last leads
  nobody := by
    intro j beyond
    rw [tasks, List.length_set] at beyond
    obtain ⟨started, -⟩ := List.getElem?_eq_some_iff.1 running
    rw [others j (by omega)]
    exact kept.nobody j beyond

theorem kept_step (kept : Kept b) (step : Step s b after) : Kept after := by
  cases step with
  | start o => exact kept.started o
  | turn k c next running fresh =>
      apply kept.went running rfl
      · refine ⟨b.world.trace.length, k, b.world.ledger, rfl, ?_⟩
        simp only [recordOf, toldBy, World.turnsOf, List.filter_cons,
          beq_self_eq_true, if_true]
        cases c.asks <;> rfl
      · intro j elsewhere
        simp only [recordOf, toldBy, World.turnsOf, List.filter_cons]
        rw [if_neg (by simpa using Ne.symm elsewhere)]
  | tell k n next running =>
      apply kept.went running rfl
      · simp only [Record.Answers, recordOf, toldBy, World.turnsOf, List.filter_cons,
          beq_self_eq_true, if_true, List.map_cons]
      · intro j elsewhere
        simp only [recordOf, toldBy, World.turnsOf, List.filter_cons]
        rw [if_neg (by simpa using Ne.symm elsewhere)]
  | ask k c next reply running outside =>
      apply kept.went running rfl
      · cases c with
        | ledger q => exact outside.elim
        | publish n => exact outside.elim
        | _ => rfl
      · exact fun _ _ => rfl
  | other c apart => exact ⟨kept.reports, kept.nobody⟩
  | wait ticks => exact ⟨kept.reports, kept.nobody⟩

theorem kept_run (run : Run s start b) : Kept b := by
  induction run with
  | refl => exact kept_start
  | tail _ step ih => exact kept_step ih step

/-! ## The books -/

/-- Questions settle nothing. -/
theorem settled_recordOf (b : Bulletin) (k : Nat) : (b.recordOf k).settled =
    (b.world.turnsOf k).flatMap fun t => t.settled.map Claim.settlement := by
  simp only [Record.settled, recordOf, List.map_flatMap]
  generalize b.world.turnsOf k = turns
  induction turns with
  | nil => rfl
  | cons t rest ih =>
      rw [List.filter_cons, List.flatMap_cons, ← ih]
      cases asks : t.call.asks with
      | false => rfl
      | true =>
          rw [if_neg (by simp), Turn.settled, Ledger.Call.settled_of_asks asks]
          rfl

theorem announced_recordOf (b : Bulletin) (k : Nat) : (b.recordOf k).announced =
    (b.told.filter (·.1 == k)).flatMap fun x => x.2.settlement?.toList := by
  rw [Record.announced, recordOf, toldBy, List.filterMap_map,
    List.filterMap_eq_flatMap_toList]
  rfl

/-- What was told is what was settled, task by task. -/
theorem Kept.announced_perm (kept : Kept b)
    (ended : ∀ x ∈ b.world.tasks, ∃ ok, x = .done ok) :
    b.announced.Perm (b.world.settled.map Claim.settlement) := by
  rw [announced, List.filterMap_eq_flatMap_toList, World.settled, List.map_flatMap]
  apply perm_flatMap_of_parts (·.1) (·.task)
  intro k
  rw [← announced_recordOf,
    show (b.world.trace.filter (·.task == k)) = b.world.turnsOf k from rfl,
    ← settled_recordOf]
  rcases Nat.lt_or_ge k b.world.tasks.length with started | beyond
  · obtain ⟨ok, done⟩ := ended _ (List.getElem_mem started)
    have reported := kept.reports k _ (List.getElem?_eq_getElem started) ok (b.recordOf k)
      (by rw [done]; exact ⟨rfl, rfl⟩)
    obtain ⟨new, settled, announced⟩ := reported.announced
    rw [settled]
    exact announced
  · rw [kept.nobody k beyond]
    exact .rfl

/-- Once all tasks have ended, what was told are the settlements that the consumed
routes say, one for one.  A task that failed has told nothing, and whatever a task
tried has left the ledger as it was, unless it opened a route or its commit was
accepted and the task succeeded. -/
theorem settlements_told (run : Run s start b) :
    ((∀ x ∈ b.world.tasks, ∃ ok, x = .done ok) →
      b.announced.Perm b.world.ledger.settlements) ∧
    ∀ k ok, b.world.tasks[k]? = some (.done ok) → (ok = false → b.toldBy k = []) ∧
      ∀ t ∈ b.world.turnsOf k, t.after = t.before ∨ t.Opens ∨ ok = true ∧
        t.accepted = true := by
  have kept := kept_run run
  have reached := world_run run
  constructor
  · intro ended
    exact (kept.announced_perm ended).trans
      ((World.accounted_run reached).perm (World.watched_run reached).filed)
  · intro k ok ended
    have reported := kept.reports k _ ended ok _ ⟨rfl, rfl⟩
    refine ⟨reported.silent, ?_⟩
    intro t turn
    cases asks : t.call.asks with
    | true => exact Or.inl (Ledger.perform_asks t.before asks)
    | false =>
        rcases reported.deeds t (List.mem_filter.2 ⟨turn, by simp [asks]⟩) with old | new
        · cases old
        · exact new

/-- The two settlements of the example are told of. -/
theorem settlements_told_overtaking : ∃ b, Run World.partialSettings start b ∧
    b.world.ledger.settlements.length = 2 ∧
      b.announced.Perm b.world.ledger.settlements := by
  have played :
      ((World.overtaking ++ [World.Act.go 2]).foldlM
        (World.act World.partialSettings Session.sampleCatalog Session.homeBranch)
        World.start).any (fun w => w.isFinished && w.ledger.settlements.length == 2) =
        true := by decide +kernel
  obtain ⟨w, reached, ends⟩ := (Option.any_eq_true _ _).1 played
  rw [Bool.and_eq_true, beq_iff_eq] at ends
  obtain ⟨told, run⟩ := exists_run (World.run_of_play reached)
  exact ⟨_, run, ends.2, (settlements_told run).1 fun x member =>
    ⟨true, World.finished_of_isFinished ends.1 x member⟩⟩

end Bulletin

end Paywatch
