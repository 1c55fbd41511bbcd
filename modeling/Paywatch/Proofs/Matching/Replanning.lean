import Paywatch.Proofs.Matching.Bureau
import Paywatch.Proofs.Matching.Undisturbed

/-!
# Settlements that are planned again

A settlement that lost a route to another one is planned again from what the ledger
holds now.  The transfers that it was started with are not read again, though.  If one
of them has settled a route in the meantime, every new plan may claim it once more, and
is refused once more although nobody disturbs it.  That is all that can go wrong:  an
attempt that nobody disturbs is committed, unless its plan is stale in this sense, and
then no further attempt helps.
-/

namespace Paywatch

/-- The plan that would be made of the transfers now claims one that
settled a route before. -/
def Ledger.Stale (l : Ledger) (rules : MatchingRules) (chain : ChainId)
    (ts : List Transfer) : Prop :=
  ∃ draft, rules.plan (l.matchContext chain (MatchKey.ofTransfers ts)) ts = .ok draft ∧
    ∃ k ∈ draft.claims, l.isClaimed k.transferId = true

instance (l : Ledger) (rules : MatchingRules) (chain : ChainId) (ts : List Transfer) :
    Decidable (l.Stale rules chain ts) :=
  match planned : rules.plan (l.matchContext chain (MatchKey.ofTransfers ts)) ts with
  | .ok draft =>
    decidable_of_iff (∃ k ∈ draft.claims, l.isClaimed k.transferId = true)
      (by simp [Ledger.Stale, planned])
  | .error e => isFalse (by simp [Ledger.Stale, planned])

namespace MatchingRules

variable {rules : MatchingRules} {chain : ChainId} {new stored : List Transfer}
    {l : Ledger}

/-- Nobody disturbs the making of a plan:  its claims are on what is open. -/
theorem quietly_settleOnce (ordered : l.Ordered) (different : Different (new ++ stored))
    {goal : Attempt SettleError Plan → Ledger → Prop}
    (commits : ∀ draft plan now, l.Later now →
      rules.plan (l.matchContext chain (MatchKey.ofTransfers (new ++ stored)))
        (new ++ stored) = .ok draft →
          (∀ k ∈ draft.claims,
            k.OnOpen (l.matchContext chain (MatchKey.ofTransfers (new ++ stored)))) →
              plan.claims = draft.claims →
                (Attempt.conclude SettleError.ledger plan plan.notices
                  (Flow.ledger (.commitPlan (new.map .insert) plan))).Quietly goal now) :
    (rules.settleOnce chain new stored).Quietly goal l := by
  rw [settleOnce_eq]
  refine Flow.quietly_ledger_bind rfl ?_
  rintro _ ⟨ticks, rfl⟩
  have same :
      ((l.wait ticks).perform
        (.matchContext chain (MatchKey.ofTransfers (new ++ stored)))).1 =
      l.matchContext chain (MatchKey.ofTransfers (new ++ stored)) := rfl
  obtain ⟨draft, planned, onOpen⟩ :=
    ordered.plan rules chain (MatchKey.ofTransfers (new ++ stored)) different
  simp only [same, planned]
  refine Flow.guarantees_bind.2 ((Draft.quietly_stamp _ _).imp ?_)
  rintro plan now ⟨claims, later⟩
  exact commits draft plan now (Ledger.Later.trans ⟨ticks, rfl⟩ later) planned
    onOpen claims

/-- An attempt is committed if its plan is not stale. -/
theorem quietly_settleOnce_of_not_stale (ordered : l.Ordered)
    (different : Different (new ++ stored))
    (current : ¬ l.Stale rules chain (new ++ stored)) :
    (rules.settleOnce chain new stored).Quietly
      (fun result _ => ∃ plan, result = .done plan) l := by
  refine quietly_settleOnce ordered different
    fun draft plan now later planned onOpen claims => ?_
  refine Attempt.guarantees_conclude
    ((Flow.guarantees_ask (c := .ledger (.commitPlan (new.map .insert) plan))).2
      ⟨trivial, ?_⟩)
  rintro reply after ⟨last, since, answer, -⟩
  obtain ⟨ticks, rfl⟩ := later.trans since
  have accepted : reply = .ok () := by
    rw [answer]
    refine Ledger.commitPlan_of_checks new fun k member => ?_
    rw [claims] at member
    refine ordered.checkClaim_of_onOpen (onOpen k member)
      (Bool.eq_false_iff.2 fun claimed => ?_)
    exact current ⟨draft, planned, k, member, claimed⟩
  subst accepted
  exact Flow.guarantees_publishAll _ (fun _ _ => trivial) fun _ _ => ⟨plan, rfl⟩

/-- An attempt whose plan is stale ends with a conflict. -/
theorem quietly_settleOnce_of_stale (ordered : l.Ordered)
    (different : Different (new ++ stored))
    (stale : l.Stale rules chain (new ++ stored)) :
    (rules.settleOnce chain new stored).Quietly
      (fun result after => result = .conflict ∧ l.Later after) l := by
  obtain ⟨draft, planned, k, member, claimed⟩ := stale
  refine quietly_settleOnce ordered different
    fun draft' plan now later planned' _ claims => ?_
  obtain rfl := Except.ok.inj (planned.symm.trans planned')
  refine Attempt.guarantees_conclude
    ((Flow.guarantees_ask (c := .ledger (.commitPlan (new.map .insert) plan))).2
      ⟨trivial, ?_⟩)
  rintro reply after ⟨last, since, answer, same⟩
  have passed := later.trans since
  obtain ⟨ticks, rfl⟩ := passed
  obtain ⟨route, refused⟩ := Ledger.commitPlan_of_claimed (l := l.wait ticks) new
    (claims ▸ member : k ∈ plan.claims) claimed
  obtain rfl := answer.trans refused
  rw [same, Ledger.perform, Ledger.attempt_refused refused]
  exact ⟨rfl, ticks, rfl⟩

/-- A settlement whose plan is stale fails, however often it is planned again. -/
theorem quietly_settle_of_stale (ordered : l.Ordered)
    (different : Different (new ++ stored))
    (stale : l.Stale rules chain (new ++ stored)) :
    (rules.settle chain new stored).Quietly
      (fun result _ => result = .error (.conflict Attempt.limit)) l := by
  refine Attempt.guarantees_upTo l.Later (fun now later => ?_)
    (fun _ _ => rfl) _ (Ledger.Later.refl l)
  obtain ⟨ticks, rfl⟩ := later
  have still : (l.wait ticks).Stale rules chain (new ++ stored) := stale
  have ordered' : (l.wait ticks).Ordered := ordered.congr rfl rfl rfl
  refine (quietly_settleOnce_of_stale ordered' different still).imp ?_
  rintro _ after ⟨rfl, later⟩
  exact Ledger.Later.trans ⟨ticks, rfl⟩ later

end MatchingRules

namespace Bureau

variable {w : Bureau}

/-- If nobody else writes to the ledger during an attempt to settle new transfers
together with stored ones that were once found unmatched, the attempt is committed,
unless its plan is stale.  Then one of the stored transfers settled a route in the
meantime, and a settlement fails although nobody disturbs it. -/
theorem settles_unless_stale (run : Run start w) {rules : MatchingRules} {chain : ChainId}
    {new stored : List Transfer} (about : w.About (rules.settleOnce chain new stored))
    (known : stored = [] ∨ stored ∈ w.found) :
    (¬ w.ledger.Stale rules chain (new ++ stored) →
      Flow.Surely Undisturbed (rules.settleOnce chain new stored) w.ledger
        fun result _ => ∃ plan, result = .done plan) ∧
    (w.ledger.Stale rules chain (new ++ stored) →
      (∃ t ∈ stored, w.ledger.isClaimed t.id = true) ∧
      Flow.Surely Undisturbed (rules.settle chain new stored) w.ledger
        fun result _ => result = .error (.conflict Attempt.limit)) := by
  obtain ⟨holder, tidy⟩ := tidy_run run
  have ordered := tidy.orderly.ordered
  obtain ⟨differ, unused⟩ := tidy.brought about fun _ _ => MatchingRules.held_of_prudently
  have different : Different (new ++ stored) := by
    rcases known with none | found
    · rwa [none, List.append_nil]
    · obtain ⟨apart, final⟩ := tidy.found _ found
      refine different_append.2 ⟨differ, apart, fun t brought u revisited same => ?_⟩
      obtain ⟨v, there, -⟩ := final u revisited
      rw [← same, (unused t brought).1] at there
      cases there
  refine ⟨fun current => ?_, fun stale => ⟨?_, ?_⟩⟩
  · exact (MatchingRules.quietly_settleOnce_of_not_stale ordered different current).surely
  · obtain ⟨draft, planned, k, member, claimed⟩ := stale
    obtain ⟨t, among, -, same⟩ := settles_of_plan planned k member
    rw [same] at claimed
    rcases List.mem_append.1 among with isNew | revisited
    · rw [(unused t isNew).2] at claimed
      cases claimed
    · exact ⟨t, revisited, claimed⟩
  · exact (MatchingRules.quietly_settle_of_stale ordered different stale).surely

/-- Stored transfers that were found unmatched may be settled next. -/
theorem about_settle (rules : MatchingRules) (chain : ChainId) {stored : List Transfer}
    (known : stored ∈ w.found) :
    ∃ after, Step w after ∧ after.ledger = w.ledger ∧ after.found = w.found ∧
      after.About (rules.settleOnce chain [] stored) := by
  let j : Duty := .settle rules chain [] stored
  refine ⟨_, .start w j (by simp [j, Duty.brings]) List.nodup_nil (Or.inr known), rfl,
    rfl, w.tasks.length, _,
    List.getElem?_concat_length.trans (congrArg some (bind_assoc ..))⟩

/-- A payment is confirmed, and then a route is opened that asks for it.  The payment is
found, but not settled yet. -/
def meeting : List Act :=
  [.acquire ⟨1⟩ "worker" 10, .start ingestPaid] ++ .replicate 7 (.go 0) ++
    [.start ingestNext] ++
    .replicate 7 (.go 1) ++ asking ⟨.ofNat 1⟩ 2 ++ .replicate 4 (.go 3)

/-- The payment settles the route, and then another one is opened that
asks for the same. -/
def overtaking : List Act :=
  .replicate 4 (.go 3) ++ asking ⟨.ofNat 3⟩ 4 ++ .replicate 5 (.go 5)

/-- The attempt ends with a conflict. -/
def conflicts : Attempt SettleError Plan × Ledger → Bool
  | (.conflict, _) => true
  | _ => false

/-- Something that was found is stale by now, and an attempt to settle it
ends with a conflict. -/
def hasStale (w : Bureau) : Bool :=
  w.found.any fun stored => decide (w.ledger.Stale {} ⟨1⟩ stored) &&
    (Undisturbed.trial? (MatchingRules.settleOnce {} ⟨1⟩ [] stored) w.ledger).any
      conflicts

/-- Something was found that is not stale, and with one more schedule it is. -/
def turnsStale (w : Bureau) : Bool :=
  w.found.any (fun stored => stored.length == 1 &&
    !decide (w.ledger.Stale {} ⟨1⟩ stored)) && (play overtaking w).any hasStale

/-- The schedules are played:  what was found first could be settled, and
later it is stale. -/
theorem exists_turnsStale : ∃ w w', Run start w ∧ Run w w' ∧
    (∃ stored ∈ w.found, stored.length = 1 ∧ ¬ w.ledger.Stale {} ⟨1⟩ stored) ∧
    ∃ stored ∈ w'.found, w'.ledger.Stale {} ⟨1⟩ stored ∧
      ∃ after, (MatchingRules.settleOnce {} ⟨1⟩ [] stored).Leads Undisturbed w'.ledger
        .conflict after := by
  have played : (play meeting start).any turnsStale = true := by decide +kernel
  obtain ⟨w, reached, turns⟩ := (Option.any_eq_true _ _).1 played
  rw [turnsStale, Bool.and_eq_true] at turns
  obtain ⟨current, goesOn⟩ := turns
  obtain ⟨w', goesOn, stale⟩ := (Option.any_eq_true _ _).1 goesOn
  refine ⟨w, w', run_of_play reached, run_of_play goesOn, ?_, ?_⟩
  · obtain ⟨stored, known, isCurrent⟩ := List.any_eq_true.1 current
    simp only [Bool.and_eq_true, beq_iff_eq, Bool.not_eq_true',
      decide_eq_false_iff_not] at isCurrent
    exact ⟨stored, known, isCurrent⟩
  · obtain ⟨stored, known, isStale⟩ := List.any_eq_true.1 stale
    rw [Bool.and_eq_true, decide_eq_true_eq] at isStale
    obtain ⟨⟨result, after⟩, tries, ended⟩ := (Option.any_eq_true _ _).1 isStale.2
    cases result with
    | conflict =>
        exact ⟨stored, known, isStale.1, after, Undisturbed.leads_of_trial? tries⟩
    | _ => cases ended

/-- A payment is settled next to a route that asks for it, and another time when it has
settled that route and a second one asks for the same. -/
theorem settles_unless_stale_meeting : ∃ (w w' : Bureau) (stored stored' : List Transfer),
    Run start w ∧ stored ∈ w.found ∧ stored.length = 1 ∧
    Flow.Surely Undisturbed (MatchingRules.settleOnce {} ⟨1⟩ [] stored) w.ledger
      (fun result _ => ∃ plan, result = .done plan) ∧
    Run w w' ∧ stored' ∈ w'.found ∧ (∃ t ∈ stored', w'.ledger.isClaimed t.id = true) ∧
    Flow.Surely Undisturbed (MatchingRules.settle {} ⟨1⟩ [] stored') w'.ledger
      (fun result _ => result = .error (.conflict Attempt.limit)) := by
  obtain ⟨w, w', first, later, ⟨stored, known, one, current⟩, stored', known', stale,
    -⟩ := exists_turnsStale
  obtain ⟨next, step, same, found, about⟩ := about_settle {} ⟨1⟩ known
  obtain ⟨next', step', same', found', about'⟩ := about_settle {} ⟨1⟩ known'
  have settles :=
    (settles_unless_stale (first.tail step) about (Or.inr (found ▸ known))).1
  have fails :=
    (settles_unless_stale ((first.trans later).tail step') about'
      (Or.inr (found' ▸ known'))).2
  rw [same] at settles
  rw [same'] at fails
  obtain ⟨claimed, gives⟩ := fails stale
  exact ⟨w, w', stored, stored', first, known, one, settles current, later, known',
    claimed, gives⟩

/-- An attempt to settle that nobody disturbs may end with a conflict. -/
theorem replanning_may_fail : ¬ ∀ (w : Bureau) (rules : MatchingRules) (chain : ChainId)
    (new stored : List Transfer), Run start w →
      w.About (rules.settleOnce chain new stored) →
    (stored = [] ∨ stored ∈ w.found) →
      Flow.Surely Undisturbed (rules.settleOnce chain new stored) w.ledger
      fun result _ => ∃ plan, result = .done plan := by
  intro converges
  obtain ⟨w, w', first, later, -, stored, known, -, after, leads⟩ := exists_turnsStale
  obtain ⟨next, step, same, found, about⟩ := about_settle {} ⟨1⟩ known
  have run := (first.trans later).tail step
  have commits := converges next {} ⟨1⟩ [] stored run about (Or.inr (found ▸ known))
  rw [same] at commits
  obtain ⟨plan, isDone⟩ := commits.reaches _ after leads
  cases isDone

end Bureau

end Paywatch
