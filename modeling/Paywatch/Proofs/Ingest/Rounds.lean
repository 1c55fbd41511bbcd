import Paywatch.Ingest.CatchUp
import Paywatch.Ingest.Worker
import Paywatch.Proofs.Flow.Conduct
import Paywatch.Proofs.Head.Reach
import Paywatch.Proofs.Ingest.Playing

/-!
# Catching up comes to an end

Catching up is a loop that ends when the tracker has come to the head, and every round
that succeeds takes the tracker further.  So there are no more rounds than blocks
between the tip and the head, and the fuel that bounds the loop never runs out.

All this holds whatever the settings are.  But where the tip and the greatest number
of blocks for one poll add up to more than a word, no round succeeds:  the sum
overflows before the first block.
-/

namespace Paywatch

/-! ## Settings that were accepted -/

namespace ChainSettings

variable {engine : EngineSettings} {c : ChainSettings}

theorem fault_of_mem {seen : List ChainId} {chains : List ChainSettings}
    (fine : firstFault? engine seen chains = none) (listed : c ∈ chains) :
    c.fault? engine = none := by
  induction chains generalizing seen with
  | nil => cases listed
  | cons d rest ih =>
      rw [firstFault?] at fine
      split at fine
      · cases fine
      · rw [Option.or_eq_none_iff] at fine
        rcases List.mem_cons.1 listed with rfl | later
        · exact fine.1
        · exact ih fine.2 later

/-- At least one block may be taken at once. -/
theorem maxBlocks_pos (fine : c.fault? engine = none) : 1 ≤ c.maxBlocksPerPoll.toNat := by
  unfold fault? at fine
  simp only at fine
  split at fine
  · cases fine
  · split at fine
    · cases fine
    · split at fine
      · cases fine
      · rename_i positive
        rcases Nat.eq_zero_or_pos c.maxBlocksPerPoll.toNat with zero | positive'
        · exact absurd (UInt64.toNat_inj.1 zero) positive
        · exact positive'

end ChainSettings

theorem Settings.maxBlocks_pos {settings : Settings} {c : ChainSettings}
    (accepted : settings.check = .ok ()) (listed : c ∈ settings.chains) :
    1 ≤ c.maxBlocksPerPoll.toNat := by
  unfold check at accepted
  split at accepted
  · cases accepted
  · rename_i fine
    unfold fault? at fine
    split at fine
    · cases fine
    · have chainsFine := (Option.or_eq_none_iff.1 fine).1
      exact ChainSettings.maxBlocks_pos (ChainSettings.fault_of_mem chainsFine listed)

namespace Tracker

theorem foldl_follow_settings (t : Tracker) (messages : List Message) :
    (messages.foldl follow t).settings = t.settings := by
  induction messages generalizing t with
  | nil => rfl
  | cons m rest ih =>
      rw [List.foldl_cons, ih]
      cases m <;> rfl

end Tracker

/-! ## What ingesting cannot fail with -/

namespace Ingest

variable {σ : Type} {answers : Answering σ} {s last : σ} {i : Ingest} {e : WorkerError}

theorem ne_overflow_of_ofCommit {α : Type} {x : α} {reply : Except LedgerError Unit}
    (failed : Attempt.ofCommit WorkerError.ledger x reply = .failed e) :
    e ≠ .tracker .overflow := by
  cases reply with
  | ok u => cases failed
  | error e' =>
      simp only [Attempt.ofCommit] at failed
      split at failed
      · cases failed
      · cases failed
        rintro ⟨⟩

theorem ne_overflow_of_blockOnce {start : Batch} {failures : Nat}
    {events : List ChainEvent} {new : List Transfer}
    (leads : (i.blockOnce start failures events new).Leads answers s (.failed e) last) :
    e ≠ .tracker .overflow := by
  obtain ⟨stored, s₁, -, leads⟩ := Flow.leads_bind.1 leads
  obtain ⟨now, s₂, -, leads⟩ := Flow.leads_bind.1 leads
  obtain ⟨planned, s₃, -, leads⟩ := Flow.leads_bind.1 leads
  cases planned with
  | error e' =>
      cases leads.1
      rintro ⟨⟩
  | ok p =>
      obtain ⟨reply, s₄, -, leads⟩ := Flow.leads_bind.1 leads
      split at leads
      · obtain ⟨_, _, -, same, -⟩ := Flow.leads_bind.1 leads
        cases same
      · exact ne_overflow_of_ofCommit leads.1.symm

theorem ne_overflow_of_block {lease : Lease} {b : Block} {base : Bool}
    (leads : (i.block lease b base).Leads answers s (.error e) last) :
    e ≠ .tracker .overflow := by
  obtain ⟨extraction, s₁, -, leads⟩ := Flow.leads_bind.1 leads
  cases extraction with
  | error e' =>
      cases leads.1
      rintro ⟨⟩
  | ok x =>
      obtain ⟨known, s₂, -, leads⟩ := Flow.leads_bind.1 leads
      obtain ⟨time, s₃, -, leads⟩ := Flow.leads_bind.1 leads
      obtain ⟨new, s₄, -, leads⟩ := Flow.leads_bind.1 leads
      rcases Attempt.leads_upTo leads with
        ⟨-, same⟩ | ⟨_, -, ⟨_, -, same⟩ | ⟨e', failed, same⟩⟩
      · cases same
        rintro ⟨⟩
      · cases same
      · cases same
        exact ne_overflow_of_blockOnce failed

theorem ne_overflow_of_revert {lease : Lease} {range : RevertedRange}
    (leads : (i.revert lease range).Leads answers s (.error e) last) :
    e ≠ .tracker .overflow := by
  rcases Attempt.leads_upTo leads with
    ⟨-, same⟩ | ⟨_, -, ⟨_, -, same⟩ | ⟨e', failed, same⟩⟩
  · cases same
    rintro ⟨⟩
  · cases same
  · cases same
    obtain ⟨stored, s₁, -, leads⟩ := Flow.leads_bind.1 failed
    obtain ⟨reply, s₂, -, leads⟩ := Flow.leads_bind.1 leads
    split at leads
    · obtain ⟨_, _, -, same, -⟩ := Flow.leads_bind.1 leads
      cases same
    · exact ne_overflow_of_ofCommit leads.1.symm

theorem ne_overflow_of_apply {lease : Lease} {m : Message}
    (leads : (i.apply lease m).Leads answers s (.error e) last) :
    e ≠ .tracker .overflow := by
  cases m with
  | accepted b live =>
      obtain ⟨result, there, ingests, same, -⟩ := Flow.leads_bind.1 leads
      cases result with
      | ok r => cases same
      | error e' =>
          cases same
          exact ne_overflow_of_block ingests
  | reverted range =>
      obtain ⟨result, there, reverts, same, -⟩ := Flow.leads_bind.1 leads
      cases result with
      | ok r => cases same
      | error e' =>
          cases same
          exact ne_overflow_of_revert reverts
  | unavailable attempt retryIn => cases leads.1
  | halted reason => cases leads.1

theorem ne_overflow_of_applyAll {lease : Lease} {messages : List Message}
    (leads : (i.applyAll lease messages).Leads answers s (.error e) last) :
    e ≠ .tracker .overflow := by
  induction messages generalizing s with
  | nil => cases leads.1
  | cons m rest ih =>
      obtain ⟨result, there, applies, leads⟩ := Flow.leads_bind.1 leads
      cases result with
      | ok u => exact ih leads
      | error e' =>
          cases leads.1
          exact ne_overflow_of_apply applies

end Ingest

namespace CatchUp

/-- Where the loop stands. -/
structure Stage where
  tracker : Tracker
  keeper : Keeper
  report : CatchUpReport

/-- One pass through the loop:  it is the last one, or the loop goes on. -/
def pass (i : Ingest) (x : Stage) : Flow (CatchUp ⊕ Stage) := do
  unless x.tracker.tip?.any (·.height < x.report.head) do
    return .inl ⟨x.tracker, x.keeper, .ok (some x.report)⟩
  if ← Flow.ask .stopRequested then return .inl ⟨x.tracker, x.keeper, .ok none⟩
  match ← x.keeper.renewIfDue with
  | .error e => return .inl ⟨x.tracker, x.keeper, .error (.ledger e)⟩
  | .ok k =>
    let a ← x.tracker.advance x.report.head false
    if a.panics then return .inl ⟨a.tracker, k, .error (.tracker .overflow)⟩
    match ← i.applyAll k.lease a.messages with
    | .error e => return .inl ⟨a.tracker, k, .error e⟩
    | .ok () =>
      match a.outcome with
      | .error e => return .inl ⟨a.tracker, k, .error (.tracker e)⟩
      | .ok () => return .inr ⟨a.tracker, k, a.messages.foldl count x.report⟩

/-- What follows a pass of the bounded loop. -/
def after (i : Ingest) : (fuel : Nat) → CatchUp ⊕ Stage → Flow CatchUp
  | _, .inl c => pure c
  | 0, .inr y => pure ⟨y.tracker, y.keeper, .ok (some y.report)⟩
  | fuel + 1, .inr y => toHead i fuel y.tracker y.keeper y.report

/-- The bounded loop makes one pass after the other. -/
theorem toHead_eq (i : Ingest) (fuel : Nat) (x : Stage) :
    toHead i fuel x.tracker x.keeper x.report = pass i x >>= after i fuel := by
  unfold toHead pass
  by_cases below : x.tracker.tip?.any (·.height < x.report.head) = true
  · rw [if_pos below, if_pos below, bind_assoc]
    congr 1
    funext stopped
    cases stopped with
    | true => rfl
    | false =>
        simp only [Bool.false_eq_true, if_false, bind_assoc]
        congr 1
        funext renewed
        cases renewed with
        | error e => rfl
        | ok k =>
            simp only [bind_assoc]
            congr 1
            funext a
            split
            · rfl
            · rw [bind_assoc]
              congr 1
              funext applied
              cases applied with
              | error e => rfl
              | ok u =>
                  cases a.outcome with
                  | error e => rfl
                  | ok u => cases fuel <;> rfl
  · rw [if_neg below, if_neg below]
    rfl

theorem head_foldl_count (report : CatchUpReport) (messages : List Message) :
    (messages.foldl count report).head = report.head := by
  induction messages generalizing report with
  | nil => rfl
  | cons m rest ih =>
      rw [List.foldl_cons, ih]
      cases m <;> rfl

/-! ## Rounds -/

section Loop

variable {σ : Type} {answers : Answering σ} {i : Ingest} {x y z : Stage}
    {s there last : σ}

/-- So many rounds that succeeded, one after the other. -/
inductive Rounds (i : Ingest) (answers : Answering σ) :
    Nat → Stage → σ → Stage → σ → Prop where
  | none (x : Stage) (s : σ) : Rounds i answers 0 x s x s
  | next {n : Nat} {x y z : Stage} {s there last : σ}
      (round : (pass i x).Leads answers s (.inr y) there)
      (more : Rounds i answers n y there z last) : Rounds i answers (n + 1) x s z last

/-- The loop without a bound:  it ends with the first pass that is the last one. -/
def Loops (i : Ingest) (answers : Answering σ) (n : Nat) (x : Stage) (s : σ) (c : CatchUp)
    (last : σ) : Prop :=
  ∃ y there, Rounds i answers n x s y there ∧ (pass i y).Leads answers there (.inl c) last

/-- The tracker has a window without gaps, and takes at least one block at once. -/
structure Stage.Fit (x : Stage) : Prop where
  consecutive : x.tracker.window.Consecutive
  atLeastOne : 1 ≤ x.tracker.settings.maxBlocksPerPoll.toNat

/-- What a pass did that is not the end of the loop. -/
theorem advance_of_pass (round : (pass i x).Leads answers s (.inr y) there) :
    ∃ tip a s₁ s₂, x.tracker.tip? = some tip ∧ tip.height < x.report.head ∧
      (x.tracker.advance x.report.head false).Leads answers s₁ a s₂ ∧ a.outcome = .ok () ∧
      y.tracker = a.tracker ∧ y.report = a.messages.foldl count x.report := by
  unfold pass at round
  split at round
  · rename_i below
    obtain ⟨tip, isTip, lower⟩ := (Option.any_eq_true _ _).1 below
    obtain ⟨stopped, s₁, -, round⟩ := Flow.leads_bind.1 round
    split at round
    · cases round.1
    · obtain ⟨renewed, s₂, -, round⟩ := Flow.leads_bind.1 round
      cases renewed with
      | error e => cases round.1
      | ok k =>
          obtain ⟨a, s₃, advances, round⟩ := Flow.leads_bind.1 round
          split at round
          · cases round.1
          · obtain ⟨applied, s₄, -, round⟩ := Flow.leads_bind.1 round
            cases applied with
            | error e => cases round.1
            | ok u =>
                cases outcome : a.outcome with
                | error e =>
                    simp only [outcome] at round
                    cases round.1
                | ok u =>
                    simp only [outcome] at round
                    obtain ⟨rfl, -⟩ := Sum.inr.inj round.1
                    exact ⟨tip, a, s₂, s₃, isTip, by simpa using lower,
                      advances, outcome, rfl, rfl⟩
  · cases round.1

/-- A round that succeeds takes the tracker further up, but not beyond the head, and
leaves it fit for the next one. -/
theorem Stage.Fit.round (inPlace : GivesInPlace answers) (fit : x.Fit)
    (round : (pass i x).Leads answers s (.inr y) there) :
    y.Fit ∧ y.report.head = x.report.head ∧
      y.tracker.settings = x.tracker.settings ∧ ∃ tip tip', x.tracker.tip? = some tip ∧
        y.tracker.tip? = some tip' ∧ tip.height.toNat < tip'.height.toNat ∧
        tip'.height.toNat ≤ x.report.head.toNat := by
  obtain ⟨tip, a, s₁, s₂, isTip, ahead, advances, ok, sameTracker, counted⟩ :=
    advance_of_pass round
  have atLeastOne := fit.atLeastOne
  have lower := UInt64.lt_iff_toNat_lt.1 ahead
  obtain ⟨-, tip', isTip', reached⟩ :=
    (Tracker.reaches_advance inPlace fit.consecutive isTip ahead advances).1 ok
  have sent := Tracker.leads_advance inPlace fit.consecutive advances
  have sameSettings : y.tracker.settings = x.tracker.settings := by
    rw [sameTracker, ← sent.reached, Tracker.foldl_follow_settings]
  have sameHead : y.report.head = x.report.head := by rw [counted, head_foldl_count]
  refine ⟨⟨?_, ?_⟩, sameHead, sameSettings, tip, tip', isTip,
    sameTracker ▸ isTip', ?_, ?_⟩
  · rw [sameTracker]
    exact sent.window
  · rw [sameSettings]
    exact atLeastOne
  · rw [reached, Tracker.reach]
    omega
  · rw [reached]
    exact Nat.min_le_left _ _

theorem Stage.Fit.rounds_lt (inPlace : GivesInPlace answers) (fit : x.Fit)
    (round : (CatchUp.pass i x).Leads answers s (.inr y) there) :
    rounds y.tracker x.report.head < rounds x.tracker x.report.head := by
  obtain ⟨-, -, -, tip, tip', isTip, isTip', higher, low⟩ := fit.round inPlace round
  simp only [rounds, isTip, isTip']
  omega

/-- There are no more rounds than blocks between the tip and the head. -/
theorem Stage.Fit.rounds_le (inPlace : GivesInPlace answers) {n : Nat} (fit : x.Fit)
    (taken : Rounds i answers n x s y last) :
    n + rounds y.tracker x.report.head ≤ rounds x.tracker x.report.head := by
  induction taken with
  | none x s => simp
  | next round more ih =>
      obtain ⟨stillFit, sameHead, -⟩ := fit.round inPlace round
      have fewer := fit.rounds_lt inPlace round
      have rest := ih stillFit
      rw [sameHead] at rest
      omega

/-- The bounded loop is the loop without a bound, if it is after every round. -/
theorem toHead_iff_of_rounds {fuel : Nat} {c : CatchUp}
    (goesOn : ∀ y there, (pass i x).Leads answers s (.inr y) there →
      ((after i fuel (.inr y)).Leads answers there c last ↔
        ∃ n, Loops i answers n y there c last)) :
    (toHead i fuel x.tracker x.keeper x.report).Leads answers s c last ↔
      ∃ n, Loops i answers n x s c last := by
  rw [toHead_eq, Flow.leads_bind]
  constructor
  · rintro ⟨result, there, passes, rest⟩
    cases result with
    | inl c' =>
        obtain ⟨rfl, rfl⟩ := rest
        exact ⟨0, x, s, .none x s, passes⟩
    | inr y =>
        obtain ⟨n, z, later, taken, ends⟩ := (goesOn y there passes).1 rest
        exact ⟨n + 1, z, later, .next passes taken, ends⟩
  · rintro ⟨n, y, there, taken, ends⟩
    cases taken with
    | none => exact ⟨.inl c, last, ends, rfl, rfl⟩
    | next round more =>
        exact ⟨_, _, round, (goesOn _ _ round).2 ⟨_, y, there, more, ends⟩⟩

/-- The fuel that is there never runs out:  the bounded loop is the loop
without a bound. -/
theorem Stage.Fit.toHead_iff (inPlace : GivesInPlace answers) {fuel : Nat} (fit : x.Fit)
    (enough : rounds x.tracker x.report.head ≤ fuel) {c : CatchUp} :
    (toHead i fuel x.tracker x.keeper x.report).Leads answers s c last ↔
      ∃ n, Loops i answers n x s c last := by
  induction fuel generalizing x s with
  | zero =>
      refine toHead_iff_of_rounds fun y there round => ?_
      exact absurd (fit.rounds_lt inPlace round) (by omega)
  | succ fuel ih =>
      refine toHead_iff_of_rounds fun y there round => ?_
      obtain ⟨stillFit, sameHead, -⟩ := fit.round inPlace round
      have fewer := fit.rounds_lt inPlace round
      exact ih stillFit (by rw [sameHead]; omega)

/-- The last pass does not overflow if the bound of an advance towards the
head is a word. -/
theorem Stage.Fit.ne_overflow_of_pass (inPlace : GivesInPlace answers) (fit : x.Fit)
    (room : x.report.head.toNat + x.tracker.settings.maxBlocksPerPoll.toNat < 2 ^ 64)
    {c : CatchUp} (ends : (CatchUp.pass i x).Leads answers s (.inl c) last) :
    c.outcome ≠ .error (.tracker .overflow) := by
  have atLeastOne := fit.atLeastOne
  unfold CatchUp.pass at ends
  split at ends
  · rename_i below
    obtain ⟨tip, isTip, lower⟩ := (Option.any_eq_true _ _).1 below
    have ahead : tip.height < x.report.head := by simpa using lower
    have higher := UInt64.lt_iff_toNat_lt.1 ahead
    obtain ⟨stopped, s₁, -, ends⟩ := Flow.leads_bind.1 ends
    split at ends
    · cases ends.1
      rintro ⟨⟩
    · obtain ⟨renewed, s₂, -, ends⟩ := Flow.leads_bind.1 ends
      cases renewed with
      | error e =>
          cases ends.1
          rintro ⟨⟩
      | ok k =>
          obtain ⟨a, s₃, advances, ends⟩ := Flow.leads_bind.1 ends
          have fits : x.tracker.Fits tip x.report.head := by
            refine ⟨by omega, ?_⟩
            unfold Tracker.reach
            omega
          have fine :=
            (Tracker.reaches_advance inPlace fit.consecutive isTip ahead advances).2 fits
          split at ends
          · rename_i panics
            unfold Tracker.Advance.panics at panics
            split at panics
            · exact absurd ‹_› fine
            · cases panics
          · obtain ⟨applied, s₄, applies, ends⟩ := Flow.leads_bind.1 ends
            cases applied with
            | error e =>
                cases ends.1
                exact fun same =>
                  Ingest.ne_overflow_of_applyAll applies (Except.error.inj same)
            | ok u =>
                cases outcome : a.outcome with
                | error e =>
                    rw [outcome] at fine
                    simp only [outcome] at ends
                    cases ends.1
                    rintro ⟨⟩
                    exact fine rfl
                | ok u =>
                    simp only [outcome] at ends
                    cases ends.1
  · cases ends.1
    rintro ⟨⟩

/-- A loop that was not stopped has come to the head. -/
theorem arrived_of_pass {c : CatchUp} (ends : (pass i x).Leads answers s (.inl c) last)
    {report : CatchUpReport} (reported : c.outcome = .ok (some report)) :
    c.tracker = x.tracker ∧ report = x.report ∧
      ∀ tip, x.tracker.tip? = some tip → x.report.head ≤ tip.height := by
  unfold pass at ends
  split at ends
  · obtain ⟨stopped, s₁, -, ends⟩ := Flow.leads_bind.1 ends
    split at ends
    · obtain rfl := Sum.inl.inj ends.1
      cases reported
    · obtain ⟨renewed, s₂, -, ends⟩ := Flow.leads_bind.1 ends
      cases renewed with
      | error e =>
          obtain rfl := Sum.inl.inj ends.1
          cases reported
      | ok k =>
          obtain ⟨a, s₃, -, ends⟩ := Flow.leads_bind.1 ends
          split at ends
          · obtain rfl := Sum.inl.inj ends.1
            cases reported
          · obtain ⟨applied, s₄, -, ends⟩ := Flow.leads_bind.1 ends
            cases applied with
            | error e =>
                obtain rfl := Sum.inl.inj ends.1
                cases reported
            | ok u =>
                cases outcome : a.outcome with
                | error e =>
                    simp only [outcome] at ends
                    obtain rfl := Sum.inl.inj ends.1
                    cases reported
                | ok u =>
                    simp only [outcome] at ends
                    cases ends.1
  · rename_i arrived
    obtain rfl := Sum.inl.inj ends.1
    cases reported
    refine ⟨rfl, rfl, fun tip isTip => ?_⟩
    simpa [isTip, UInt64.not_lt] using arrived

/-- Rounds keep the head and the settings, and a tracker that has a tip keeps one. -/
theorem Stage.Fit.kept_of_rounds (inPlace : GivesInPlace answers) {n : Nat} (fit : x.Fit)
    (taken : Rounds i answers n x s y last) :
    y.Fit ∧ y.report.head = x.report.head ∧ y.tracker.settings = x.tracker.settings ∧
      (x.tracker.tip?.isSome → y.tracker.tip?.isSome) := by
  induction taken with
  | none x s => exact ⟨fit, rfl, rfl, id⟩
  | next round more ih =>
      obtain ⟨stillFit, sameHead, sameSettings, -, tip', -, isTip', -⟩ :=
        fit.round inPlace round
      obtain ⟨finalFit, finalHead, finalSettings, keepsTip⟩ := ih stillFit
      exact ⟨finalFit, finalHead.trans sameHead, finalSettings.trans sameSettings,
        fun _ => keepsTip (isTip' ▸ rfl)⟩

/-- Where a loop without a bound ends, if nobody stops it. -/
theorem Stage.Fit.arrived (inPlace : GivesInPlace answers) {n : Nat} (fit : x.Fit)
    (hasTip : x.tracker.tip?.isSome) {c : CatchUp} (loops : Loops i answers n x s c last)
    {report : CatchUpReport} (reported : c.outcome = .ok (some report)) :
    report.head = x.report.head ∧
      ∃ tip, c.tracker.tip? = some tip ∧ x.report.head ≤ tip.height := by
  obtain ⟨y, there, taken, ends⟩ := loops
  obtain ⟨sameTracker, rfl, arrived⟩ := arrived_of_pass ends reported
  obtain ⟨-, sameHead, -, keepsTip⟩ := fit.kept_of_rounds inPlace taken
  obtain ⟨tip, isTip⟩ := Option.isSome_iff_exists.1 (keepsTip hasTip)
  exact ⟨sameHead, tip, sameTracker ▸ isTip, sameHead ▸ arrived tip isTip⟩

/-! ## The way to the loop -/

/-- The tracker starts its loop with the settings that it had, at a block, and on the
way to the head that a node told. -/
structure Stage.Starts (x : Stage) (t : Tracker) (answers : Answering σ) : Prop where
  settings : x.tracker.settings = t.settings
  consecutive : x.tracker.window.Consecutive
  hasTip : x.tracker.tip?.isSome
  head : ∃ s there, answers s (.node t.chain .head) (.ok x.report.head) there

/-- Catching up fails, but not by an overflow, or comes to its loop. -/
theorem leads_run {depth : UInt64} {t : Tracker} {k : Keeper} {c : CatchUp}
    (leads : (run i depth t k).Leads answers s c last) :
    (∃ e, c.outcome = .error e ∧ e ≠ .tracker .overflow) ∨
      ∃ (x : Stage) (there : σ), x.Starts t answers ∧
        (toHead i (rounds x.tracker x.report.head) x.tracker x.keeper x.report).Leads
          answers there c last := by
  unfold run at leads
  obtain ⟨asked, s₁, asks, leads⟩ := Flow.leads_bind.1 leads
  obtain ⟨reply, s', answer, ok, -⟩ := Flow.leads_bind.1 asks
  cases reply with
  | error e =>
      cases ok
      obtain ⟨rfl, -⟩ := leads
      exact Or.inl ⟨_, rfl, nofun⟩
  | ok head =>
      cases ok
      have told : ∃ s there, answers s (.node t.chain .head) (.ok head) there :=
        ⟨s, s', Flow.leads_ask.1 answer⟩
      obtain ⟨watermark, s₂, -, leads⟩ := Flow.leads_bind.1 leads
      let report : CatchUpReport :=
        { resumeFrom := resumeHeight (watermark.map (·.height)) head depth, head }
      simp only at leads
      split at leads
      · unfold rebase at leads
        obtain ⟨renewed, s₃, -, leads⟩ := Flow.leads_bind.1 leads
        cases renewed with
        | error e =>
            obtain ⟨rfl, -⟩ := leads
            exact Or.inl ⟨_, rfl, nofun⟩
        | ok k' =>
            obtain ⟨fetched, s₄, fetches, leads⟩ := Flow.leads_bind.1 leads
            cases fetched with
            | error e =>
                obtain ⟨rfl, -⟩ := leads
                refine Or.inl ⟨_, rfl, ?_⟩
                rintro ⟨⟩
                exact Tracker.ne_overflow_of_fetchBlock fetches rfl
            | ok b =>
                obtain ⟨ingested, s₅, ingests, leads⟩ := Flow.leads_bind.1 leads
                cases ingested with
                | error e =>
                    obtain ⟨rfl, -⟩ := leads
                    exact Or.inl ⟨_, rfl, Ingest.ne_overflow_of_block ingests⟩
                | ok summary =>
                    have single := (BlockWindow.consecutive_ofCapacity
                      (t.settings.maxReorgDepth.toNat + 1)).push (r :=
                        b.ref) (by rintro tip ⟨⟩)
                    refine Or.inr ⟨⟨t.resetBase b, k', { report with blocks := 1 }⟩, s₅,
                      ⟨rfl, single, ?_, told⟩, leads⟩
                    rw [Tracker.tip?, Tracker.resetBase, BlockWindow.tip?_push]
                    rfl
      · rename_i mark _
        obtain ⟨seeded, s₃, resumes, leads⟩ := Flow.leads_bind.1 leads
        refine Or.inr ⟨⟨seeded, k, report⟩, s₃, ?_, leads⟩
        unfold resume at resumes
        obtain ⟨recent, s₄, -, rfl, -⟩ := Flow.leads_bind.1 resumes
        split
        · rename_i atMark
          exact ⟨rfl, BlockWindow.consecutive_seed _ _, atMark ▸ rfl, told⟩
        · refine ⟨rfl, BlockWindow.consecutive_seed _ _, ?_, told⟩
          rw [Tracker.tip?, Tracker.seed, BlockWindow.tip?_seed_singleton]
          rfl

/-- Whatever the nodes say how far their chain is, the bound of an advance on
the way there is a word. -/
def Roomy (answers : Answering σ) (chain : ChainId) (most : UInt64) : Prop :=
  ∀ s head there, answers s (.node chain .head) (.ok head) there →
    head.toNat + most.toNat < 2 ^ 64

/-- With settings that are accepted, an advance that succeeds takes the tip up, to the
target or by as many blocks as are allowed, there are no more rounds than blocks up to
the head, and catching up ends at the head unless it fails or is stopped.  Nothing
overflows where the tip and the allowed number of blocks add up to a word, and the
advance does not come to the last height there is.  Where they do not add up to a word,
every advance overflows at once. -/
theorem catching_up_ends (inPlace : GivesInPlace answers) {settings : Settings}
    (accepted : settings.check = .ok ()) {c : ChainSettings}
    (listed : c ∈ settings.chains) {t : Tracker}
    (own : t.settings = (Worker.ofSettings settings.engine c).tracker) :
    (t.window.Consecutive → ∀ tip target live, t.tip? = some tip → tip.height < target →
      (∀ s a last, (t.advance target live).Leads answers s a last →
        (a.outcome = .ok () →
          ∃ tip', a.tracker.tip? = some tip' ∧ tip.height.toNat + 1 ≤ tip'.height.toNat ∧
            tip'.height.toNat =
              min target.toNat (tip.height.toNat + c.maxBlocksPerPoll.toNat)) ∧
        (t.Fits tip target → a.outcome ≠ .error .overflow)) ∧
      (2 ^ 64 ≤ tip.height.toNat + c.maxBlocksPerPoll.toNat →
        t.advance target live = pure ⟨t, [], .error .overflow⟩)) ∧
    (t.window.Consecutive → ∀ i k report n s y last,
      Rounds i answers n ⟨t, k, report⟩ s y last → n ≤ rounds t report.head) ∧
    ∀ i depth k s result last, (run i depth t k).Leads answers s result last →
      (Roomy answers t.chain c.maxBlocksPerPoll →
        result.outcome ≠ .error (.tracker .overflow)) ∧
      ((∃ e, result.outcome = .error e) ∨
        ∃ x n there, x.Starts t answers ∧ n ≤ rounds x.tracker x.report.head ∧
          Loops i answers n x there result last ∧
          ∀ report, result.outcome = .ok (some report) → report.head = x.report.head ∧
            ∃ tip, result.tracker.tip? = some tip ∧ x.report.head ≤ tip.height) := by
  have most : t.settings.maxBlocksPerPoll = c.maxBlocksPerPoll := by rw [own]; rfl
  have positive := Settings.maxBlocks_pos accepted listed
  rw [← most] at positive ⊢
  refine ⟨?_, ?_, ?_⟩
  · intro consecutive tip target live isTip ahead
    refine ⟨fun s a last leads => ?_, Tracker.advance_of_overflow isTip ahead⟩
    obtain ⟨reaches, safe⟩ :=
      Tracker.reaches_advance inPlace consecutive isTip ahead leads
    refine ⟨fun ok => ?_, safe⟩
    obtain ⟨-, tip', isTip', reached⟩ := reaches ok
    have lower := UInt64.lt_iff_toNat_lt.1 ahead
    exact ⟨tip', isTip', by rw [reached, Tracker.reach]; omega, reached⟩
  · intro consecutive i k report n s y last taken
    have fit : Stage.Fit ⟨t, k, report⟩ := ⟨consecutive, positive⟩
    have bounded := fit.rounds_le inPlace taken
    exact Nat.le_of_add_right_le bounded
  · intro i depth k s result last leads
    rcases leads_run leads with ⟨e, failed, other⟩ | ⟨x, there, starts, leads⟩
    · refine ⟨fun _ same => other ?_, Or.inl ⟨e, failed⟩⟩
      rw [failed] at same
      exact Except.error.inj same
    · have fit : x.Fit := ⟨starts.consecutive, by rw [starts.settings]; exact positive⟩
      obtain ⟨n, loops⟩ := (fit.toHead_iff inPlace (Nat.le_refl _)).1 leads
      obtain ⟨y, later, taken, ends⟩ := loops
      obtain ⟨lastFit, sameHead, sameSettings, -⟩ := fit.kept_of_rounds inPlace taken
      refine ⟨fun roomy => ?_, Or.inr ⟨x, n, there, starts,
        Nat.le_of_add_right_le (fit.rounds_le inPlace taken), ⟨y, later, taken, ends⟩,
        ?_⟩⟩
      · obtain ⟨s', s'', told⟩ := starts.head
        refine lastFit.ne_overflow_of_pass inPlace ?_ ends
        rw [sameHead, sameSettings, starts.settings]
        exact roomy _ _ _ told
      · intro report reported
        exact fit.arrived inPlace starts.hasTip ⟨y, later, taken, ends⟩ reported

end Loop

/-! ## A chain that may take so many blocks at once -/

def sampleChain (most : UInt64) : ChainSettings :=
  { chain := ⟨1⟩
    name := "main"
    maxReorgDepth := 2
    maxBlocksPerPoll := most
    providers := [⟨"http://node", none⟩] }

def sampleSettings (most : UInt64) : Settings :=
  { logLevel := "info"
    logDirectory := "logs"
    logFile := "paywatch"
    useJson := false
    rotation := "daily"
    chains := [sampleChain most]
    targetsPath := "targets.yaml" }

/-- The tracker has the first block of the chain. -/
def sampleTracker (most : UInt64) : Tracker :=
  (Tracker.new ⟨1⟩ (Worker.ofSettings {} (sampleChain most)).tracker).push
    ⟨⟨1⟩, 1, "0x01", "0x00", 0⟩

/-- Nodes that know four blocks of the chain. -/
abbrev sampleAnswers : Answering Surroundings :=
  Surroundings.AnswersFrom Session.sampleCatalog Session.homeBranch

/-- With at most two blocks at once, an advance to the fourth block comes
to the third one. -/
theorem catching_up_ends_homeward :
    (sampleSettings 2).check = .ok () ∧ GivesInPlace sampleAnswers ∧
    ∃ a last, ((sampleTracker 2).advance 4 false).Leads sampleAnswers
      ⟨.empty, []⟩ a last ∧
      a.outcome = .ok () ∧ ∃ tip, a.tracker.tip? = some tip ∧ tip.height.toNat = 3 := by
  have accepted : (sampleSettings 2).check = .ok () := by decide
  have inPlace : GivesInPlace sampleAnswers := Surroundings.alone_answersFrom.givesInPlace
  have played :
      (Surroundings.play? Session.sampleCatalog Session.homeBranch Session.homeBranch
        ((sampleTracker 2).advance 4 false) ⟨.empty, []⟩).any
          (fun r => r.1.outcome.isOk) = true := by
    decide +kernel
  obtain ⟨⟨a, last⟩, plays, okay⟩ := (Option.any_eq_true _ _).1 played
  have leads := Surroundings.leads_of_play? plays
  have ok : a.outcome = .ok () := by
    cases outcome : a.outcome with
    | error e => simp [outcome, Except.isOk, Except.toBool] at okay
    | ok u => rfl
  have own : (sampleTracker 2).settings =
      (Worker.ofSettings (sampleSettings 2).engine (sampleChain 2)).tracker := rfl
  have ends := catching_up_ends inPlace accepted (List.mem_singleton.2 rfl) own
  obtain ⟨advances, -⟩ :=
    ends.1 (List.IsChain.singleton _) ⟨1, "0x01"⟩ 4 false rfl (by decide)
  obtain ⟨tip, isTip, -, reached⟩ := (advances _ a last leads).1 ok
  exact ⟨accepted, inPlace, a, last, leads, ok, tip, isTip, reached⟩

/-- The greatest number of blocks is accepted as well.  Then an advance from the first
block to the fourth one overflows before it asks for a block. -/
theorem catching_up_may_overflow : (sampleSettings 18446744073709551615).check = .ok () ∧
    (sampleTracker 18446744073709551615).settings =
      (Worker.ofSettings (sampleSettings 18446744073709551615).engine
        (sampleChain 18446744073709551615)).tracker ∧
    (sampleTracker 18446744073709551615).tip? = some ⟨1, "0x01"⟩ ∧
    (sampleTracker 18446744073709551615).advance 4 false =
      pure ⟨sampleTracker 18446744073709551615, [], .error .overflow⟩ := by
  have isTip : (sampleTracker 18446744073709551615).tip? = some ⟨1, "0x01"⟩ := rfl
  exact ⟨by decide, rfl, isTip, Tracker.advance_of_overflow isTip (by decide) (by decide)⟩

end CatchUp

end Paywatch
