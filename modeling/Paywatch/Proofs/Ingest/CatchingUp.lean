import Paywatch.Proofs.Ingest.Playing

/-!
# Catching up in step

Every way in which catching up can go, with the tracker of before or a new one, is a run
of the worker's pursuit.  So it never fails because a batch does not link, and when it
comes to its end, or is told to stop, the tracker stands at the watermark.
-/

namespace Paywatch

variable {answers : Answering Surroundings} {i : Ingest}

/-- Renewing keeps the lease, and fails only if it is lost. -/
theorem Keeper.leads_renewIfDue {chain : ChainId} (placing : Placing chain answers)
    {k : Keeper} {s after : Surroundings} {r : Except LedgerError Keeper}
    (leads : k.renewIfDue.Leads answers s r after) :
    (∀ k', r = .ok k' → k'.lease = k.lease) ∧ ∀ e, r = .error e →
      e.isMismatch = false := by
  unfold renewIfDue at leads
  obtain ⟨now, there, asks, leads⟩ := Flow.leads_bind.1 leads
  split at leads
  · obtain ⟨rfl, -⟩ := leads
    exact ⟨by rintro _ ⟨⟩; rfl, by rintro _ ⟨⟩⟩
  · obtain ⟨reply, later, renews, leads⟩ := Flow.leads_bind.1 leads
    obtain ⟨l, -, same, -⟩ := placing.ledger _ _ _ _ (Flow.leads_ask.1 renews)
    cases reply with
    | ok u =>
        obtain ⟨rfl, -⟩ := leads
        exact ⟨by rintro _ ⟨⟩; rfl, by rintro _ ⟨⟩⟩
    | error e =>
        obtain ⟨rfl, -⟩ := leads
        refine ⟨by rintro _ ⟨⟩, ?_⟩
        rintro _ ⟨⟩
        simp only [Ledger.perform, Ledger.attempt, Ledger.renew] at same
        split at same
        · cases same
        · rename_i refused
          cases same
          split at refused
          · split at refused <;> cases refused
            rfl
          · cases refused
            rfl

namespace Pursuit

variable {s : Pursuit} {lease : Lease}

/-- A flow that commits nothing is a run that leaves the worker as it is. -/
theorem run_plain {α : Type} {x : Flow α} {a : α} {after : Surroundings}
    (only : x.Only Call.Plain) (leads : x.Leads answers s.surroundings a after) :
    Run i answers s { s with surroundings := after } := by
  induction x generalizing s with
  | done b =>
      obtain ⟨-, rfl⟩ := leads
      exact .refl
  | call c next ih =>
      obtain ⟨reply, there, answer, rest⟩ := leads
      exact .head (.ask s c reply there only.1 answer)
        (ih reply (s := { s with surroundings := there }) (only.2 reply) rest)

/-- A flow of the worker went from one state to another. -/
structure Comes (i : Ingest) (answers : Answering Surroundings) (s after : Pursuit) :
    Prop where
  run : Run i answers s after
  locked : Locked i answers after

theorem Comes.trans {s there after : Pursuit} (first : Comes i answers s there)
    (second : Comes i answers there after) : Comes i answers s after :=
  ⟨first.run.trans second.run, second.locked⟩

theorem Comes.plain (placing : Placing i.chain answers) (locked : Locked i answers s)
    {α : Type} {x : Flow α} {a : α} {after : Surroundings} (only : x.Only Call.Plain)
    (leads : x.Leads answers s.surroundings a after) :
    Comes i answers s { s with surroundings := after } :=
  ⟨run_plain only leads, locked.kept (placing.kept only leads)⟩

theorem Comes.step (placing : Placing i.chain answers) (locked : Locked i answers s)
    {after : Pursuit} (step : Step i answers s after) : Comes i answers s after :=
  ⟨.single step, locked_step placing locked step⟩

/-- Applying all messages ends with none left, or fails, but not for a lack of links. -/
theorem comes_applyAll (placing : Placing i.chain answers) (locked : Locked i answers s)
    (leaseChain : lease.chain = i.chain) {messages : List Message}
    (all : s.messages = messages) {r : Except WorkerError Unit} {after : Surroundings}
    (leads : (i.applyAll lease messages).Leads answers s.surroundings r after) :
    ∃ s', Comes i answers s s' ∧ s'.tracker = s.tracker ∧ s'.stance = s.stance ∧
      s'.surroundings = after ∧ (r = .ok () → s'.messages = []) ∧
      ∀ e, r = .error e → e.isMismatch = false := by
  induction messages generalizing s with
  | nil =>
      obtain ⟨rfl, rfl⟩ := leads
      exact ⟨s, ⟨.refl, locked⟩, rfl, rfl, rfl, fun _ => all, by rintro _ ⟨⟩⟩
  | cons m rest ih =>
      rw [Ingest.applyAll] at leads
      obtain ⟨result, there, applies, leads⟩ := Flow.leads_bind.1 leads
      cases result with
      | error e =>
          obtain ⟨rfl, rfl⟩ := leads
          have due : s.Due (.message m) := Or.inl (by rw [all]; rfl)
          have first :=
            Comes.step placing locked (.fail s _ lease e _ due leaseChain applies)
          refine ⟨_, first, rfl, rfl, rfl, by rintro ⟨⟩, ?_⟩
          rintro _ ⟨⟩
          exact (locked.linking placing due leaseChain applies).1
      | ok u =>
          have first :=
            Comes.step placing locked (.apply s m rest lease _ all leaseChain applies)
          obtain ⟨s', more, tracker, stance, rests⟩ := ih first.locked rfl leads
          exact ⟨s', first.trans more, tracker, stance, rests⟩

/-- Catching up came from one state to another. -/
structure CatchesUp (i : Ingest) (answers : Answering Surroundings) (s : Pursuit)
    (c : CatchUp) (there : Surroundings) (after : Pursuit) :
    Prop extends Comes i answers s after where
  tracker : after.tracker = c.tracker
  surroundings : after.surroundings = there
  linking : ∀ e, c.outcome = .error e → e.isMismatch = false
  applied : ∀ report, c.outcome = .ok report → after.stance = .following ∧
    after.messages = []

theorem CatchesUp.after {there : Pursuit} {c : CatchUp} {surroundings : Surroundings}
    {after : Pursuit} (first : Comes i answers s there)
    (rest : CatchesUp i answers there c surroundings after) :
    CatchesUp i answers s c surroundings after :=
  { rest with toComes := first.trans rest.toComes }

/-- It failed, but not for a lack of links. -/
theorem CatchesUp.of_error {t : Tracker} {k : Keeper} {e : WorkerError} {after : Pursuit}
    (comes : Comes i answers s after) (tracker : after.tracker = t)
    (linking : e.isMismatch = false) :
    CatchesUp i answers s ⟨t, k, .error e⟩ after.surroundings after where
  toComes := comes
  tracker := tracker
  surroundings := rfl
  linking := by
    rintro _ ⟨⟩
    exact linking
  applied := by rintro _ ⟨⟩

/-- It came to its end, or was told to stop. -/
theorem CatchesUp.of_ok {t : Tracker} {k : Keeper} {report : Option CatchUpReport}
    {after : Pursuit} (comes : Comes i answers s after) (tracker : after.tracker = t)
    (following : after.stance = .following) (none : after.messages = []) :
    CatchesUp i answers s ⟨t, k, .ok report⟩ after.surroundings after where
  toComes := comes
  tracker := tracker
  surroundings := rfl
  linking := by rintro _ ⟨⟩
  applied _ _ := ⟨following, none⟩

/-- A round towards the head ends the catching up, or comes to the next round with
all messages applied. -/
theorem toHead_round (placing : Placing i.chain answers) (locked : Locked i answers s)
    {fuel : Nat} {k : Keeper} {report : CatchUpReport} {c : CatchUp}
    {after : Surroundings} (leaseChain : k.lease.chain = i.chain)
    (following : s.stance = .following) (none : s.messages = [])
    (leads : (CatchUp.toHead i fuel s.tracker k report).Leads answers
      s.surroundings c after) :
    (∃ s', CatchesUp i answers s c after s') ∨
      ∃ (s' : Pursuit) (k' : Keeper) (report' : CatchUpReport), Comes i answers s s' ∧
        s'.stance = .following ∧ s'.messages = [] ∧ k'.lease.chain = i.chain ∧
        Flow.Leads answers
          (match fuel with
            | 0 => pure ⟨s'.tracker, k', .ok (some report')⟩
            | fuel + 1 => CatchUp.toHead i fuel s'.tracker k' report')
          s'.surroundings c after := by
  unfold CatchUp.toHead at leads
  split at leads
  · obtain ⟨stopped, s₁, asks, leads⟩ := Flow.leads_bind.1 leads
    have first := Comes.plain placing locked (Flow.only_ask.2 (by trivial)) asks
    split at leads
    · obtain ⟨rfl, rfl⟩ := leads
      exact Or.inl ⟨_, .of_ok first rfl following none⟩
    · obtain ⟨renewed, s₂, renews, leads⟩ := Flow.leads_bind.1 leads
      have second :=
        first.trans (Comes.plain placing first.locked k.only_renewIfDue renews)
      obtain ⟨sameLease, lost⟩ := Keeper.leads_renewIfDue placing renews
      cases renewed with
      | error e =>
          obtain ⟨rfl, rfl⟩ := leads
          exact Or.inl ⟨_, .of_error second rfl (lost e rfl)⟩
      | ok k' =>
          have leaseChain' : k'.lease.chain = i.chain := by
            rw [sameLease k' rfl, leaseChain]
          obtain ⟨a, s₃, advances, leads⟩ := Flow.leads_bind.1 leads
          have third := second.trans (Comes.step placing second.locked
            (.advance _ report.head false a s₃ following advances))
          split at leads
          · obtain ⟨rfl, rfl⟩ := leads
            exact Or.inl ⟨_, .of_error third rfl rfl⟩
          · obtain ⟨result, s₄, applies, leads⟩ := Flow.leads_bind.1 leads
            obtain ⟨s', applied, tracker, stance, rfl, empties, linking⟩ :=
              comes_applyAll placing third.locked leaseChain' (by rw [none]; rfl) applies
            have fourth := third.trans applied
            have still : s'.stance = .following := stance.trans following
            have same : s'.tracker = a.tracker := tracker
            cases result with
            | error e =>
                obtain ⟨rfl, rfl⟩ := leads
                exact Or.inl ⟨s', .of_error fourth tracker (linking e rfl)⟩
            | ok u =>
                cases outcome : a.outcome with
                | error e =>
                    simp only [outcome] at leads
                    obtain ⟨rfl, rfl⟩ := leads
                    exact Or.inl ⟨s', .of_error fourth tracker rfl⟩
                | ok u =>
                    simp only [outcome, ← same] at leads
                    exact Or.inr ⟨s', k', _, fourth, still, empties rfl,
                      leaseChain', leads⟩
  · obtain ⟨rfl, rfl⟩ := leads
    exact Or.inl ⟨s, .of_ok ⟨.refl, locked⟩ rfl following none⟩

theorem catchesUp_toHead (placing : Placing i.chain answers) (locked : Locked i answers s)
    {fuel : Nat} {k : Keeper} {report : CatchUpReport} {c : CatchUp}
    {after : Surroundings} (leaseChain : k.lease.chain = i.chain)
    (following : s.stance = .following) (none : s.messages = [])
    (leads : (CatchUp.toHead i fuel s.tracker k report).Leads answers
      s.surroundings c after) :
    ∃ s', CatchesUp i answers s c after s' := by
  induction fuel generalizing s k report with
  | zero =>
      rcases toHead_round placing locked leaseChain following none leads with
        ended | ⟨s', k', report', comes, following, none, -, leads⟩
      · exact ended
      · obtain ⟨rfl, rfl⟩ := leads
        exact ⟨s', .of_ok comes rfl following none⟩
  | succ fuel ih =>
      rcases toHead_round placing locked leaseChain following none leads with
        ended | ⟨s', k', report', comes, following, none, leaseChain, leads⟩
      · exact ended
      · obtain ⟨last, caught⟩ := ih comes.locked leaseChain following none leads
        exact ⟨last, .after comes caught⟩

theorem catchesUp_rebase (placing : Placing i.chain answers) (locked : Locked i answers s)
    {k : Keeper} {report : CatchUpReport} {c : CatchUp} {after : Surroundings}
    (leaseChain : k.lease.chain = i.chain) (idle : s.stance = .idle)
    (above : ∀ mark, s.ledger.watermark i.chain = some mark →
      mark.height < report.resumeFrom)
    (leads : (CatchUp.rebase i s.tracker k report).Leads answers s.surroundings c after) :
    ∃ s', CatchesUp i answers s c after s' := by
  unfold CatchUp.rebase at leads
  obtain ⟨renewed, s₁, renews, leads⟩ := Flow.leads_bind.1 leads
  have first := Comes.plain placing locked k.only_renewIfDue renews
  have kept := placing.kept k.only_renewIfDue renews
  obtain ⟨sameLease, lost⟩ := Keeper.leads_renewIfDue placing renews
  cases renewed with
  | error e =>
      obtain ⟨rfl, rfl⟩ := leads
      exact ⟨_, .of_error first rfl (lost e rfl)⟩
  | ok k' =>
      have leaseChain' : k'.lease.chain = i.chain := by rw [sameLease k' rfl, leaseChain]
      obtain ⟨fetched, s₂, fetches, leads⟩ := Flow.leads_bind.1 leads
      cases fetched with
      | error e =>
          obtain ⟨rfl, rfl⟩ := leads
          have second := first.trans
            (Comes.plain placing first.locked (Tracker.only_fetchBlock _ _) fetches)
          exact ⟨_, .of_error second rfl rfl⟩
      | ok b =>
          have stillAbove : ∀ mark, s₁.ledger.watermark i.chain = some mark →
              mark.height < report.resumeFrom :=
            fun mark isMark => above mark ((congrArg Place.mark kept).symm.trans isMark)
          have second := first.trans (Comes.step placing first.locked
            (.rebase _ report.resumeFrom b s₂ idle stillAbove fetches))
          obtain ⟨result, s₃, ingests, leads⟩ := Flow.leads_bind.1 leads
          have errand : ((Errand.base b).run i k'.lease).Leads answers s₂
              (result.map fun _ => ()) s₃ :=
            Flow.leads_bind.2 ⟨result, s₃, ingests, rfl, rfl⟩
          cases result with
          | error e =>
              obtain ⟨rfl, rfl⟩ := leads
              have third := second.trans (Comes.step placing second.locked
                (.fail _ (.base b) k'.lease e _ rfl leaseChain' errand))
              have linking :=
                second.locked.linking placing (show Due _ (.base b) from rfl)
                leaseChain' errand
              exact ⟨_, .of_error third rfl linking.1⟩
          | ok x =>
              have third := second.trans (Comes.step placing second.locked
                (.ground _ b k'.lease s₃ rfl leaseChain' errand))
              have none := (second.locked.unsettled (by rintro ⟨⟩)).1
              obtain ⟨last, caught⟩ :=
                catchesUp_toHead placing third.locked leaseChain' rfl none leads
              exact ⟨last, .after third caught⟩

/-- Where catching up starts anew lies above the watermark. -/
theorem lt_resumeHeight {watermark : Option BlockRef} {head : Height} {depth : UInt64}
    (old : watermark.filter (fun mark => CatchUp.below head depth ≤ mark.height) = none)
    {mark : BlockRef} (isMark : watermark = some mark) :
    mark.height < CatchUp.resumeHeight (watermark.map (·.height)) head depth := by
  subst isMark
  have lower : ¬ CatchUp.below head depth ≤ mark.height := by
    simpa [Option.filter] using old
  have low : mark.height < CatchUp.below head depth := UInt64.not_le.1 lower
  simp only [Option.map_some, CatchUp.resumeHeight]
  rw [if_pos (UInt64.le_of_lt low)]
  exact low

/-- Catching up, with the tracker of before or a new one, is a run. -/
theorem catchesUp_run (placing : Placing i.chain answers) (locked : Locked i answers s)
    {depth : UInt64} {t : Tracker} {k : Keeper} {c : CatchUp} {after : Surroundings}
    (leaseChain : k.lease.chain = i.chain)
    (sameOrNew : t = s.tracker ∨ ∃ settings, t = .new i.chain settings)
    (leads : (CatchUp.run i depth t k).Leads answers s.surroundings c after) :
    ∃ s', CatchesUp i answers s c after s' := by
  have first := Comes.step placing locked (.restart s t sameOrNew)
  unfold CatchUp.run at leads
  obtain ⟨asked, s₁, asks, leads⟩ := Flow.leads_bind.1 leads
  have second :=
    first.trans (Comes.plain placing first.locked (Tracker.only_queryHead t) asks)
  cases asked with
  | error e =>
      obtain ⟨rfl, rfl⟩ := leads
      exact ⟨_, .of_error second rfl rfl⟩
  | ok head =>
      obtain ⟨watermark, s₂, asks, leads⟩ := Flow.leads_bind.1 leads
      have third :=
        second.trans
          (Comes.plain placing second.locked (Flow.only_ask.2 (by trivial)) asks)
      -- The answer is the watermark that the ledger has from here on.
      have isWatermark : s₂.ledger.watermark i.chain = watermark := by
        obtain ⟨l, samePlace, rfl, -⟩ := placing.ledger _ _ _ _ (Flow.leads_ask.1 asks)
        have kept := placing.kept (Flow.only_ask.2 (by trivial)) asks
        exact congrArg Place.mark (kept.trans samePlace.symm)
      simp only at leads
      split at leads
      · rename_i old
        obtain ⟨last, caught⟩ := catchesUp_rebase placing third.locked leaseChain rfl
          (fun mark isMark => lt_resumeHeight old (isWatermark.symm.trans isMark)) leads
        exact ⟨last, .after third caught⟩
      · rename_i mark recent
        have isMark : s₂.ledger.watermark i.chain = some mark :=
          isWatermark.trans (Option.filter_eq_some_iff.1 recent).1
        obtain ⟨t', s₃, resumes, leads⟩ := Flow.leads_bind.1 leads
        have fourth := third.trans (Comes.step placing third.locked
          (.resume _ mark t' s₃ rfl isMark resumes))
        obtain ⟨last, caught⟩ :=
          catchesUp_toHead placing fourth.locked leaseChain rfl rfl leads
        exact ⟨last, .after fourth caught⟩

/-- Tracker and ledger stay in lock-step, however nodes answer, calls fail and the
worker is started again.  When all messages are applied, the tracker stands at the
watermark.  No base block, next message or last message, applied once more, fails to
link.  And catching up is among the runs, does not fail to link either, and leaves the
tracker at the watermark. -/
theorem lockstep (placing : Placing i.chain answers) {settings : TrackerSettings}
    (run : Run i answers (start i settings) s) :
    (s.stance = .following → s.messages = [] →
      s.tracker.tip? = s.ledger.watermark i.chain) ∧
    (∀ errand lease e there, s.Due errand → lease.chain = i.chain →
      (errand.run i lease).Leads answers s.surroundings (.error e) there →
        e.isMismatch = false) ∧
    ∀ depth t k c there, (t = s.tracker ∨ ∃ settings, t = .new i.chain settings) →
      k.lease.chain = i.chain →
      (CatchUp.run i depth t k).Leads answers s.surroundings c there →
      (∀ e, c.outcome = .error e → e.isMismatch = false) ∧
      (∀ report, c.outcome = .ok report →
        c.tracker.tip? = there.ledger.watermark i.chain) ∧
      ∃ s', Run i answers (start i settings) s' ∧ s'.tracker = c.tracker ∧
        s'.surroundings = there := by
  have together : ∀ {s : Pursuit}, Locked i answers s → s.stance = .following →
      s.messages = [] → s.tracker.tip? = s.ledger.watermark i.chain := by
    intro s locked following none
    have reached := locked.reached following
    rw [none] at reached
    rw [← reached]
    exact (locked.agree following).tip
  have locked := locked_run placing run
  refine ⟨together locked, ?_, ?_⟩
  · intro errand lease e there due leaseChain leads
    exact (locked.linking placing due leaseChain leads).1
  · intro depth t k c there sameOrNew leaseChain leads
    obtain ⟨s', caught⟩ := catchesUp_run placing locked leaseChain sameOrNew leads
    refine ⟨caught.linking, ?_, s', run.trans caught.run, caught.tracker,
      caught.surroundings⟩
    intro report ended
    obtain ⟨following, none⟩ := caught.applied report ended
    rw [← caught.tracker, ← caught.surroundings]
    exact together caught.locked following none

/-- The worker follows the chain, has applied everything, and stands at a block. -/
def hasArrived (tip : BlockRef) (s : Pursuit) : Bool :=
  (s.stance matches .following) && s.messages.isEmpty && s.tracker.tip? == some tip

theorem hasArrived_iff {tip : BlockRef} : s.hasArrived tip = true ↔
    s.stance = .following ∧ s.messages = [] ∧ s.tracker.tip? = some tip := by
  unfold hasArrived
  cases s.stance <;> simp

/-- A worker that went over to another branch and was started again has come to the
third block, and so has the ledger. -/
theorem lockstep_onward : Placing ⟨1⟩ sampleAnswers ∧ ∃ s,
    Run Session.sampleIngest sampleAnswers
      (start Session.sampleIngest Session.sampleSettings) s ∧
    s.tracker.tip? = some ⟨3, "0xb3"⟩ ∧ s.ledger.watermark ⟨1⟩ = some ⟨3, "0xb3"⟩ ∧
    ∀ errand e there, s.Due errand →
      (errand.run Session.sampleIngest Session.sampleLease).Leads sampleAnswers
        s.surroundings (.error e) there → e.isMismatch = false := by
  have placing : Placing ⟨1⟩ sampleAnswers :=
    Surroundings.alone_answersFrom.placing ⟨1⟩
  have played : (play (outward ++ onward)).any (hasArrived ⟨3, "0xb3"⟩) = true := by
    decide +kernel
  obtain ⟨s, run, arrived⟩ := exists_run_of_play played
  obtain ⟨following, none, tip⟩ := hasArrived_iff.1 arrived
  obtain ⟨together, links, -⟩ := lockstep placing run
  refine ⟨placing, s, run, tip, (together following none).symm.trans tip, ?_⟩
  intro errand e there due leads
  exact links errand Session.sampleLease e there due rfl leads

end Pursuit

end Paywatch
