import Paywatch.Proofs.Ingest.Canonical
import Paywatch.Proofs.Ingest.Remembered
import Paywatch.Proofs.Ingest.SingleCredit

/-!
# Confirmed exactly at depth

A transfer waits exactly as many blocks as it has to.  While it is pending, the
watermark lies less than that above its block; the next block confirms it as soon as it
lies that deep, and a range that is taken back either takes it along or leaves it at or
below the fork.  Blocks that are ingested once more bring nothing new, because what is
remembered is recorded, and confirm nothing, because they lie no higher than the
watermark.  Base blocks above an older watermark skip heights, so they are left out
unless nothing is pending then.
-/

namespace Paywatch

/-- What becomes confirmed is so under the head. -/
theorem Transfer.confirmedAtHeight_of_due {u t : Transfer} {depth : UInt64}
    {head : Height} {now : Instant} (confirmed : u.confirmDue? depth head now = some t) :
    t.confirmedAtHeight = some head := by
  unfold confirmDue? at confirmed
  split at confirmed
  · split at confirmed
    · unfold confirm at confirmed
      split at confirmed
      · rename_i result
        split at result
        · cases result
        · split at result <;> cases result
          cases confirmed
          rfl
      · cases confirmed
    · cases confirmed
  · cases confirmed

namespace Pursuit

/-- The events that are read from a block depend on nothing but its hash. -/
def ReadByHash (i : Ingest) (answers : Answering Surroundings)
    (eventsOf : String → List ChainEvent) : Prop :=
  ∀ b s x there, Gives answers i.chain b →
    (Ingest.extract b).Leads answers s (.ok x) there → x.events = eventsOf b.hash

/-- The heights of given blocks leave room for the depth. -/
def RoomAbove (i : Ingest) (answers : Answering Surroundings) : Prop :=
  ∀ b, Gives answers i.chain b → b.height.toNat + i.depth.toNat < 2 ^ 64

/-- Pending transfers lie less than the depth below the watermark, confirmed ones were
confirmed exactly there, and what is remembered of the chain is recorded. -/
structure Exact (i : Ingest) (eventsOf : String → List ChainEvent) (s : Pursuit) :
    Prop where
  pending : ∀ id t, s.ledger.transfers.get? id = some t → t.status = .pending →
    t.confirmation = none ∧ ∃ origin mark, t.origin = .blockchain origin ∧
      (s.ledger.place i.chain).mark = some mark ∧
      origin.blockHeight.toNat ≤ mark.height.toNat ∧
      mark.height.toNat < origin.blockHeight.toNat + i.depth.toNat
  confirmed : ∀ id t, s.ledger.transfers.get? id = some t → t.status = .confirmed →
    ∃ origin head, t.origin = .blockchain origin ∧ t.confirmedAtHeight = some head ∧
      head.toNat = origin.blockHeight.toNat + i.depth.toNat
  events : ∀ k e, s.ledger.events.get? k = some e → e.chain = i.chain ∧
    ∃ mark, (s.ledger.place i.chain).mark = some mark ∧
    e.blockHeight.toNat ≤ mark.height.toNat
  known : ∀ r, s.Remembers i r → r.height.toNat + i.depth.toNat < 2 ^ 64 ∧
    ∀ e ∈ eventsOf r.hash, ∃ e', s.ledger.events.get? e.key = some e' ∧
      e'.blockHeight.toNat ≤ r.height.toNat

variable {catalog : Catalog} {i : Ingest} {answers : Answering Surroundings}
  {eventsOf : String → List ChainEvent} {s after : Pursuit} {taken : List String}
  {settings : TrackerSettings} {b : Block} {base : Bool} {lease : Lease} {h : Harvest}

theorem ReadByHash.readAs (byHash : ReadByHash i answers eventsOf)
    (isGiven : Gives answers i.chain b) : ReadAs answers b (eventsOf b.hash) :=
  fun s x there extracts => byHash b s x there isGiven extracts

theorem Exact.toKnown (exact : Exact i eventsOf s) :
    Known i (fun r => eventsOf r.hash) s where
  events := exact.events
  known r remembered := (exact.known r remembered).2

theorem exact_start : Exact i eventsOf (start i settings) where
  pending := by rintro _ _ ⟨⟩
  confirmed := by rintro _ _ ⟨⟩
  events := by rintro _ _ ⟨⟩
  known := by rintro _ (⟨⟨⟩⟩ | ⟨⟨⟩⟩)

/-! ## Blocks that move the watermark -/

/-- A block above the watermark that nothing which is pending would have
been due below. -/
theorem exact_of_topped (positive : 1 ≤ i.depth) (byHash : ReadByHash i answers eventsOf)
    (room : RoomAbove i answers) (exact : Exact i eventsOf s)
    (recorded : s.ledger.Recorded i.chain s.surroundings.issued taken)
    (topped : Topped i answers b base lease h s after)
    (early : ∀ id t origin, s.ledger.transfers.get? id = some t → t.status = .pending →
      t.origin = .blockchain origin →
        b.height.toNat ≤ origin.blockHeight.toNat + i.depth.toNat) :
    Exact i eventsOf after := by
  have known :=
    exact.toKnown.topped recorded topped (byHash.readAs topped.entered.isGiven)
  have notAtOnce : ∀ u ∈ h.new, u.confirmDue? i.depth b.height h.now = none := by
    intro u new
    have target := congrArg BlockRef.height (Ingest.startOf_target lease b base)
    have waits := not_confirmed_at_once topped.entered.ingested target positive new
    rwa [target] at waits
  constructor
  case pending => exact Waiting.topped exact.pending recorded topped
  case confirmed =>
    intro id t found confirmed
    rcases (topped.entered.absorbed recorded).cases id t found with
      ⟨old, -⟩ | ⟨u, old, change⟩ | ⟨u, new, rfl, -⟩
    · exact exact.confirmed id t old confirmed
    · have changed := Transfer.confirmedAs_of_due change
      obtain ⟨-, origin, -, isOrigin, -⟩ := exact.pending id u old changed.wasPending
      exact ⟨origin, b.height, changed.origin.trans isOrigin,
        Transfer.confirmedAtHeight_of_due change,
        Nat.le_antisymm (early id u origin old changed.wasPending isOrigin)
          (due_of_confirmed isOrigin change)⟩
    · rw [notAtOnce u new, Option.getD_none] at confirmed
      obtain ⟨e, -, represents, -⟩ := topped.entered.origin_of_new new
      rw [represents.pending] at confirmed
      cases confirmed
  case events => exact known.events
  case known =>
    intro r remembered
    refine ⟨?_, known.known r remembered⟩
    rcases topped.remembers r remembered with rfl | old
    · exact room b topped.entered.isGiven
    · exact (exact.known r old).1

/-! ## Blocks that are ingested once more -/

/-- A remembered block brings no events, and confirms nothing. -/
theorem exact_of_repeated (byHash : ReadByHash i answers eventsOf)
    (exact : Exact i eventsOf s)
    (recorded : s.ledger.Recorded i.chain s.surroundings.issued taken)
    (entered : Entered i answers b base lease h s.surroundings after.surroundings)
    (remembered : s.Remembers i b.ref)
    (low : ∀ mark, (s.ledger.place i.chain).mark = some mark →
      b.height.toNat ≤ mark.height.toNat)
    (place : after.ledger.place i.chain = s.ledger.place i.chain)
    (remembers : ∀ r, after.Remembers i r → s.Remembers i r) :
    Exact i eventsOf after := by
  have noEvents : h.events = [] := by
    obtain ⟨x, there, extracts, events⟩ := entered.read
    rw [events]
    exact exact.toKnown.unknownOf_eq_nil remembered
      (byHash.readAs entered.isGiven _ _ _ extracts)
  have sameEvents : ∀ k, after.ledger.events.get? k = s.ledger.events.get? k := by
    intro k
    rcases entered.ingested.events (Ingest.startOf_reverted lease b base) k with
      ⟨e, new, -⟩ | ⟨-, same⟩
    · rw [noEvents] at new
      cases new
    · exact same
  have unchanged : ∀ id t, after.ledger.transfers.get? id = some t →
      s.ledger.transfers.get? id = some t := by
    intro id t found
    rcases (entered.absorbed recorded).cases id t found with
      ⟨old, -⟩ | ⟨u, old, change⟩ | ⟨u, new, -⟩
    · exact old
    · obtain ⟨-, -, mark, -, isMark, -⟩ :=
        exact.pending id u old (Transfer.confirmedAs_of_due change).wasPending
      rw [Waiting.not_due exact.pending isMark (low mark isMark) old] at change
      cases change
    · obtain ⟨e, new, -⟩ := entered.origin_of_new new
      rw [noEvents] at new
      cases new
  have known := exact.toKnown.congr sameEvents place remembers
  constructor
  case pending => exact Waiting.congr exact.pending unchanged place
  case confirmed => exact fun id t found => exact.confirmed id t (unchanged id t found)
  case events => exact known.events
  case known =>
    exact fun r remembered =>
      ⟨(exact.known r (remembers r remembered)).1, known.known r remembered⟩

/-! ## Ranges that are taken back -/

theorem exact_of_retreat {range : RevertedRange} {mark : BlockRef}
    (exact : Exact i eventsOf s)
    (recorded : s.ledger.Recorded i.chain s.surroundings.issued taken)
    (reverted : Reverted i.chain range s.ledger after.ledger)
    (rangeChain : range.chain = i.chain)
    (isMark : (s.ledger.place i.chain).mark = some mark)
    (fromFork : range.fromHeight.toNat = range.forkPoint.height.toNat + 1)
    (low : range.forkPoint.height.toNat ≤ mark.height.toNat)
    (reaches : mark.height.toNat ≤ range.toHeight.toNat)
    (place : after.ledger.place i.chain =
      (s.ledger.place i.chain).follow (.reverted range))
    (remembers : ∀ r, after.Remembers i r → s.Remembers i r ∧
      (r = range.forkPoint ∨ r.height.toNat < range.forkPoint.height.toNat)) :
    Exact i eventsOf after := by
  have known := exact.toKnown.retreat reverted isMark fromFork low reaches place remembers
  constructor
  case pending =>
    exact Waiting.retreat exact.pending recorded reverted rangeChain isMark
      fromFork low reaches place
  case confirmed =>
    intro id t found confirmed
    rcases reverted.cases id t found with ⟨old, -⟩ | ⟨u, -, changed⟩
    · exact exact.confirmed id t old confirmed
    · obtain ⟨-, rfl⟩ := Transfer.revertIn?_eq_some.1 changed
      cases confirmed
  case events => exact known.events
  case known =>
    exact fun r remembered =>
      ⟨(exact.known r (remembers r remembered).1).1, known.known r remembered⟩

/-! ## Steps -/

theorem exact_effect (positive : 1 ≤ i.depth) (byHash : ReadByHash i answers eventsOf)
    (room : RoomAbove i answers) (locked : Locked i answers s)
    (exact : Exact i eventsOf s)
    (recorded : s.ledger.Recorded i.chain s.surroundings.issued taken)
    (effect : Effect i answers s after) (nothingLeft : after.carried = s.carried) :
    Exact i eventsOf after := by
  cases effect with
  | still calm place carried remembers =>
      have transfers : after.ledger.transfers = s.ledger.transfers :=
        calm.records.transfers
      have events : after.ledger.events = s.ledger.events := calm.records.events
      constructor
      case pending =>
        rw [place, transfers]
        exact exact.pending
      case confirmed =>
        rw [transfers]
        exact exact.confirmed
      case events =>
        rw [place, events]
        exact exact.events
      case known =>
        rw [events]
        exact fun r remembered => exact.known r (remembers r remembered)
  | next entered stands place carried remembers =>
      refine exact_of_topped positive byHash room exact recorded
        (.of_next entered stands place remembers) ?_
      intro id t origin found pending isOrigin
      obtain ⟨-, origin', mark, isOrigin', isMark, -, near⟩ :=
        exact.pending id t found pending
      have next := (stands mark isMark).1
      rw [isOrigin] at isOrigin'
      cases isOrigin'
      omega
  | base entered above place carried remembers =>
      refine exact_of_topped positive byHash room exact recorded
        (.of_base entered above place remembers) ?_
      -- What is pending would be left behind.
      intro id t origin found pending isOrigin
      obtain ⟨-, -, mark, -, isMark, -⟩ := exact.pending id t found pending
      have left := mem_leftBehind recorded isMark found pending
      rw [List.self_eq_append_right.1 (nothingLeft.symm.trans carried)] at left
      cases left
  | repeated entered isMark place carried remembers =>
      refine exact_of_repeated byHash exact recorded entered
        (Or.inl (locked.rooted.marked _ isMark)) ?_ place remembers
      intro mark isMark'
      obtain rfl := Option.some.inj (isMark'.symm.trans isMark)
      exact Nat.le_refl _
  | retreat reverted grows rangeChain isMark fromFork low reaches fork place carried
      remembers =>
      exact exact_of_retreat exact recorded (reverted taken recorded) rangeChain isMark
        fromFork low reaches place remembers

/-- Transfers are carried over, and never let go. -/
theorem Step.carried (step : Step i answers s after) :
    ∃ left, after.carried = s.carried ++ left := by
  cases step with
  | ground => exact ⟨_, rfl⟩
  | _ => exact ⟨[], (List.append_nil _).symm⟩

/-- A given block at or below the watermark is ingested once more, or that fails. -/
inductive Replay (i : Ingest) (answers : Answering Surroundings) :
    Pursuit → Pursuit → Prop where
  | replay (s : Pursuit) (b : Block) (mark : BlockRef) (lease : Lease)
      (r : Except WorkerError BlockReport) (after : Surroundings)
      (isGiven : Gives answers i.chain b)
      (isMark : s.ledger.watermark i.chain = some mark)
      (low : b.height ≤ mark.height) (leaseChain : lease.chain = i.chain)
      (leads : (i.block lease b false).Leads answers s.surroundings r after) :
      Replay i answers s { s with surroundings := after }

theorem Replay.carried (replay : Replay i answers s after) :
    after.carried = s.carried := by
  cases replay
  rfl

/-- Runs of a worker with blocks ingested once more in between. -/
abbrev RunWithReplays (i : Ingest) (answers : Answering Surroundings) :
    Pursuit → Pursuit → Prop :=
  Relation.ReflTransGen fun s after => Step i answers s after ∨ Replay i answers s after

/-- A replay leaves all quiet, or the block is a remembered one. -/
theorem replay_cases (consistent : catalog.Consistent) (alone : Alone catalog answers)
    (rooted : (s.ledger.place i.chain).Rooted) {mark : BlockRef} {there : Surroundings}
    {r : Except WorkerError BlockReport} (isGiven : Gives answers i.chain b)
    (isMark : (s.ledger.place i.chain).mark = some mark) (low : b.height ≤ mark.height)
    (notLast : mark.height.toNat + 1 < 2 ^ 64) (leaseChain : lease.chain = i.chain)
    (leads : (i.block lease b false).Leads answers s.surroundings r there) :
    there.ledger.place i.chain = s.ledger.place i.chain ∧
      (Uneventful s.surroundings there ∨
        ∃ h, Entered i answers b false lease h s.surroundings there ∧
        s.Remembers i b.ref) := by
  have resulted := Ingest.leads_block (alone.placing i.chain) leaseChain leads
  rcases Ingest.leads_block_alone consistent alone isGiven leads with
    ⟨⟨e, rfl⟩, quiet⟩ | ⟨⟨x, rfl⟩, h, entered⟩
  · exact ⟨resulted.1, Or.inl quiet.uneventful⟩
  · have low := UInt64.le_iff_toNat_le.1 low
    obtain ⟨remembered, same⟩ :=
      (Place.commit_ofBlock_old isMark low notLast).1 resulted
    exact ⟨same, Or.inr ⟨h, entered, Or.inl (rooted.recent_of_hash remembered)⟩⟩

/-- A worker is in step, its records fit together, and transfers wait exactly as
long as they have to. -/
structure Timely (i : Ingest) (answers : Answering Surroundings)
    (eventsOf : String → List ChainEvent) (s : Pursuit) : Prop where
  locked : Locked i answers s
  recorded : ∃ taken, s.ledger.Recorded i.chain s.surroundings.issued taken
  exact : Exact i eventsOf s

theorem timely_step (consistent : catalog.Consistent) (alone : Alone catalog answers)
    (positive : 1 ≤ i.depth) (byHash : ReadByHash i answers eventsOf)
    (room : RoomAbove i answers) (timely : Timely i answers eventsOf s)
    (step : Step i answers s after) (nothingLeft : after.carried = s.carried) :
    Timely i answers eventsOf after := by
  have effect := effect_of_step consistent alone timely.locked step
  obtain ⟨taken, recorded⟩ := timely.recorded
  exact ⟨locked_step (alone.placing i.chain) timely.locked step, effect.recorded recorded,
    exact_effect positive byHash room timely.locked timely.exact recorded effect
      nothingLeft⟩

theorem timely_replay (consistent : catalog.Consistent) (alone : Alone catalog answers)
    (positive : 1 ≤ i.depth) (byHash : ReadByHash i answers eventsOf)
    (room : RoomAbove i answers) (timely : Timely i answers eventsOf s)
    (replay : Replay i answers s after) : Timely i answers eventsOf after := by
  obtain ⟨b, mark, lease, r, there, isGiven, isMark, low, leaseChain, leads⟩ := replay
  obtain ⟨locked, ⟨taken, recorded⟩, exact⟩ := timely
  have notLast : mark.height.toNat + 1 < 2 ^ 64 := by
    have within := (exact.known mark (Or.inl (locked.rooted.marked mark isMark))).1
    have isPositive := UInt64.le_iff_toNat_le.1 positive
    rw [UInt64.toNat_one] at isPositive
    omega
  obtain ⟨same, calm | ⟨h, entered, remembered⟩⟩ :=
    replay_cases consistent alone locked.rooted isGiven isMark low notLast
      leaseChain leads
  · have still : Effect i answers s { s with surroundings := there } :=
      .still calm same rfl (remembers_of_kept same fun r => Or.inr)
    exact ⟨locked.kept same, still.recorded recorded,
      exact_effect positive byHash room locked exact recorded still rfl⟩
  · refine ⟨locked.kept same, ⟨taken, entered.recorded recorded⟩,
      exact_of_repeated byHash exact recorded entered remembered ?_ same
        (remembers_of_kept same fun r => Or.inr)⟩
    intro mark' isMark'
    obtain rfl := Option.some.inj (isMark'.symm.trans isMark)
    exact UInt64.le_iff_toNat_le.1 low

theorem timely_run (consistent : catalog.Consistent) (alone : Alone catalog answers)
    (positive : 1 ≤ i.depth) (byHash : ReadByHash i answers eventsOf)
    (room : RoomAbove i answers) (run : RunWithReplays i answers (start i settings) s)
    (none : s.carried = []) : Timely i answers eventsOf s := by
  induction run with
  | refl => exact ⟨locked_start, ⟨_, Ledger.recorded_empty _ _⟩, exact_start⟩
  | tail _ last ih =>
      rcases last with step | replay
      · obtain ⟨left, carried⟩ := step.carried
        have before := (List.append_eq_nil_iff.1 (carried.symm.trans none)).1
        exact timely_step consistent alone positive byHash room (ih before) step
          (none.trans before.symm)
      · have same := replay.carried
        exact timely_replay consistent alone positive byHash room
          (ih (same.symm.trans none)) replay

/-- A transfer is confirmed exactly at the depth above its block, and while it is
pending, the watermark lies at or above its block but less than the depth above it.
Nothing may have been carried over by a base block above an older watermark. -/
theorem confirmed_at_depth {entries : List TargetEntry}
    (listed : Catalog.ofEntries entries = .ok catalog) (alone : Alone catalog answers)
    (positive : 1 ≤ i.depth) (byHash : ReadByHash i answers eventsOf)
    (room : RoomAbove i answers) (run : RunWithReplays i answers (start i settings) s)
    (nothingCarried : s.carried = []) {id : TransferId} {t : Transfer}
    {origin : ChainOrigin} (found : s.ledger.transfers.get? id = some t)
    (isOrigin : t.origin = .blockchain origin) :
    (t.status = .confirmed → ∃ head, t.confirmedAtHeight = some head ∧
      head.toNat = origin.blockHeight.toNat + i.depth.toNat) ∧
    (t.status = .pending → ∃ mark, s.ledger.watermark i.chain = some mark ∧
      origin.blockHeight.toNat ≤ mark.height.toNat ∧
      mark.height.toNat < origin.blockHeight.toNat + i.depth.toNat) := by
  have timely :=
    timely_run (Catalog.consistent_of_ofEntries listed) alone positive byHash room run
    nothingCarried
  constructor
  · intro confirmed
    obtain ⟨origin', head, isOrigin', atHead, exact⟩ :=
      timely.exact.confirmed id t found confirmed
    rw [isOrigin] at isOrigin'
    cases isOrigin'
    exact ⟨head, atHead, exact⟩
  · intro pending
    obtain ⟨-, origin', mark, isOrigin', isMark, below, near⟩ :=
      timely.exact.pending id t found pending
    rw [isOrigin] at isOrigin'
    cases isOrigin'
    exact ⟨mark, isMark, below, near⟩

/-! ## Home by another branch -/

def sampleEventsOf (hash : String) : List ChainEvent :=
  ((sampleBlock? hash).map fun b =>
    (Extraction.ofBlock b []
      (if (Session.sampleCatalog.watchlist b.chain).hasAccounts then
        bothBranches.transactions b.hash
        else [])
      (Session.sampleCatalog.watchlist b.chain)).events).getD []

theorem sample_readByHash :
    ReadByHash Session.sampleIngest sampleAnswers sampleEventsOf := by
  have all : ∀ b ∈ bothBranches.blocks.map Prod.fst, sampleBlock? b.hash = some b := by
    decide +kernel
  intro b s x there isGiven leads
  rw [Surroundings.leads_extract leads, sampleEventsOf,
    all b (Surroundings.mem_archive_of_gives isGiven)]
  rfl

theorem sample_roomAbove : RoomAbove Session.sampleIngest sampleAnswers := by
  have all : ∀ b ∈ bothBranches.blocks.map Prod.fst, b.height.toNat + 1 < 2 ^ 64 := by
    decide +kernel
  exact fun b isGiven => all b (Surroundings.mem_archive_of_gives isGiven)

/-- The worker starts on the other branch, and comes to the payment when
the nodes go over. -/
def detour : List Act :=
  [.acquire "worker" 10, .restart, .rebase Session.otherBranch 1,
    .ground Session.otherBranch Session.sampleLease, .advance Session.otherBranch 3,
    .apply Session.otherBranch Session.sampleLease,
    .apply Session.otherBranch Session.sampleLease, .advance Session.homeBranch 4,
    .apply Session.homeBranch Session.sampleLease,
    .apply Session.homeBranch Session.sampleLease,
    .apply Session.homeBranch Session.sampleLease,
    .apply Session.homeBranch Session.sampleLease]

/-- The block of the payment. -/
def paymentBlock : Block := ⟨⟨1⟩, 2, "0xa2", "0x01", 0⟩

theorem gives_paymentBlock : Gives sampleAnswers ⟨1⟩ paymentBlock := by
  refine ⟨⟨.empty, []⟩, 2, ⟨.empty, []⟩, ⟨?_, rfl⟩, ?_⟩
  · rintro _ ⟨⟩
    exact ⟨rfl, rfl⟩
  · rintro _ ⟨⟩
    decide +kernel

/-- The block of the payment ingested once more. -/
def replayed? (s : Pursuit) : Option Surroundings :=
  (Surroundings.play? Session.sampleCatalog bothBranches Session.homeBranch
    (Session.sampleIngest.block Session.sampleLease paymentBlock false)
      s.surroundings).map Prod.snd

/-- The payment is confirmed, also after its block was ingested once more. -/
def confirmsAfterReplay (s : Pursuit) : Bool :=
  s.carried.isEmpty && (s.ledger.watermark ⟨1⟩).any (fun mark => 2 ≤ mark.height) &&
    s.replayed?.any fun there => (there.ledger.transfers.values.map (·.id)).any
      (hasTransfer .confirmed ⟨2, "0xa2"⟩ there.ledger)

/-- The payment in the second block is confirmed at height three, although its block
took the place of another one and was ingested once more. -/
theorem confirmed_at_depth_detour : ∃ s, RunWithReplays Session.sampleIngest sampleAnswers
    (start Session.sampleIngest Session.sampleSettings) s ∧ s.carried = [] ∧
    ∃ id t origin head, s.ledger.transfers.get? id = some t ∧
      t.origin = .blockchain origin ∧
      (⟨origin.blockHeight, origin.blockHash⟩ : BlockRef) = ⟨2, "0xa2"⟩ ∧
      t.status = .confirmed ∧ t.confirmedAtHeight = some head ∧ head.toNat = 3 := by
  have played : (play detour).any confirmsAfterReplay = true := by decide +kernel
  obtain ⟨s, run, found⟩ := exists_run_of_play played
  simp only [confirmsAfterReplay, Bool.and_eq_true, List.isEmpty_iff] at found
  obtain ⟨⟨none, high⟩, found⟩ := found
  obtain ⟨mark, isMark, high⟩ := (Option.any_eq_true _ _).1 high
  obtain ⟨there, replayed, found⟩ := (Option.any_eq_true _ _).1 found
  obtain ⟨⟨r, after⟩, replays, rfl⟩ := Option.map_eq_some_iff.1 replayed
  obtain ⟨id, -, has⟩ := List.any_eq_true.1 found
  obtain ⟨t, stored, confirmed, origin, isOrigin, same⟩ := exists_of_hasTransfer has
  have withReplay : RunWithReplays Session.sampleIngest sampleAnswers
      (start Session.sampleIngest Session.sampleSettings)
        { s with surroundings := after } :=
    .tail (Relation.ReflTransGen.mono (fun _ _ => Or.inl) _ _ run)
      (Or.inr (.replay s paymentBlock mark Session.sampleLease r after
        gives_paymentBlock isMark
        (of_decide_eq_true high) rfl (Surroundings.leads_of_play? replays)))
  obtain ⟨head, atHead, exact⟩ := (confirmed_at_depth Session.listed_sampleCatalog
    Surroundings.alone_answersFrom (by decide) sample_readByHash sample_roomAbove
      withReplay none
    stored isOrigin).1 confirmed
  have height := congrArg (fun r : BlockRef => r.height.toNat) same
  refine ⟨_, withReplay, none, id, t, origin, head, stored, isOrigin, same,
    confirmed, atHead, ?_⟩
  exact exact.trans (congrArg (· + 1) height)

end Pursuit

end Paywatch
