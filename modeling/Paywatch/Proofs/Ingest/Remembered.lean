import Paywatch.Proofs.Ingest.Changes

/-!
# What a worker remembers

A remembered block was ingested, and no range that was taken back since reached down to
it.  So its events are recorded, and recorded from no higher block, where the next
range could take them back.  Transfers that are still pending were not due when the
watermark came to where it is, and wait for a block above it.  Both hold after every
step, also after base blocks.
-/

namespace Paywatch

namespace Pursuit

/-- Whenever the events of a block can be read, they are these. -/
def ReadAs (answers : Answering Surroundings) (b : Block) (events : List ChainEvent) :
    Prop :=
  ∀ s x there, (Ingest.extract b).Leads answers s (.ok x) there → x.events = events

/-- The recorded events belong to the chain as far as the watermark, and those of
remembered blocks are among them. -/
structure Known (i : Ingest) (eventsOf : BlockRef → List ChainEvent) (s : Pursuit) :
    Prop where
  events : ∀ k e, s.ledger.events.get? k = some e → e.chain = i.chain ∧
    ∃ mark, (s.ledger.place i.chain).mark = some mark ∧
    e.blockHeight.toNat ≤ mark.height.toNat
  known : ∀ r, s.Remembers i r → ∀ e ∈ eventsOf r, ∃ e',
    s.ledger.events.get? e.key = some e' ∧ e'.blockHeight.toNat ≤ r.height.toNat

/-- Pending transfers lie at or below the watermark, and less than the depth below it. -/
def Waiting (i : Ingest) (s : Pursuit) : Prop :=
  ∀ id t, s.ledger.transfers.get? id = some t → t.status = .pending →
    t.confirmation = none ∧ ∃ origin mark, t.origin = .blockchain origin ∧
      (s.ledger.place i.chain).mark = some mark ∧
      origin.blockHeight.toNat ≤ mark.height.toNat ∧
      mark.height.toNat < origin.blockHeight.toNat + i.depth.toNat

/-- A given block was ingested that does not lie below the watermark, and
is the watermark now. -/
structure Topped (i : Ingest) (answers : Answering Surroundings) (b : Block) (base : Bool)
    (lease : Lease) (h : Harvest) (s after : Pursuit) : Prop where
  entered : Entered i answers b base lease h s.surroundings after.surroundings
  low : ∀ mark, (s.ledger.place i.chain).mark = some mark →
    mark.height.toNat ≤ b.height.toNat
  isMark : (after.ledger.place i.chain).mark = some b.ref
  remembers : ∀ r, after.Remembers i r → r = b.ref ∨ s.Remembers i r

variable {catalog : Catalog} {i : Ingest} {answers : Answering Surroundings}
  {eventsOf : BlockRef → List ChainEvent} {s after : Pursuit} {taken : List String}
  {settings : TrackerSettings} {b : Block} {base : Bool} {lease : Lease} {h : Harvest}
  {range : RevertedRange} {mark : BlockRef}

theorem Topped.of_next
    (entered : Entered i answers b base lease h s.surroundings after.surroundings)
    (stands : ∀ mark, (s.ledger.place i.chain).mark = some mark → b.StandsOn mark)
    (place : after.ledger.place i.chain = (s.ledger.place i.chain).moveTo b.ref)
    (remembers : ∀ r, after.Remembers i r → r = b.ref ∨ s.Remembers i r) :
    Topped i answers b base lease h s after where
  entered := entered
  low mark isMark := by
    have next := (stands mark isMark).1
    omega
  isMark := by rw [place]; rfl
  remembers := remembers

theorem Topped.of_base
    (entered : Entered i answers b base lease h s.surroundings after.surroundings)
    (above : ∀ mark, (s.ledger.place i.chain).mark = some mark → mark.height < b.height)
    (place : after.ledger.place i.chain = (s.ledger.place i.chain).moveTo b.ref)
    (remembers : ∀ r, after.Remembers i r → r = b.ref ∨ s.Remembers i r) :
    Topped i answers b base lease h s after where
  entered := entered
  low mark isMark := UInt64.le_iff_toNat_le.1 (UInt64.le_of_lt (above mark isMark))
  isMark := by rw [place]; rfl
  remembers := remembers

theorem Topped.of_repeated
    (entered : Entered i answers b base lease h s.surroundings after.surroundings)
    (isMark : (s.ledger.place i.chain).mark = some b.ref)
    (place : after.ledger.place i.chain = s.ledger.place i.chain)
    (remembers : ∀ r, after.Remembers i r → s.Remembers i r) :
    Topped i answers b base lease h s after where
  entered := entered
  low mark isMark' := by
    obtain rfl := Option.some.inj (isMark'.symm.trans isMark)
    exact Nat.le_refl _
  isMark := by rw [place]; exact isMark
  remembers r remembered := Or.inr (remembers r remembered)

theorem known_start : Known i eventsOf (start i settings) where
  events := by rintro _ _ ⟨⟩
  known := by rintro _ (⟨⟨⟩⟩ | ⟨⟨⟩⟩)

theorem waiting_start : Waiting i (start i settings) := by rintro _ _ ⟨⟩

/-! ## Events -/

namespace Known

/-- The same events at the same place are known. -/
theorem congr (known : Known i eventsOf s)
    (events : ∀ k, after.ledger.events.get? k = s.ledger.events.get? k)
    (place : after.ledger.place i.chain = s.ledger.place i.chain)
    (remembers : ∀ r, after.Remembers i r → s.Remembers i r) :
    Known i eventsOf after where
  events := by
    rw [place]
    exact fun k e found => known.events k e ((events k).symm.trans found)
  known := by
    intro r remembered e member
    rw [events]
    exact known.known r (remembers r remembered) e member

/-- The events of the block are recorded from then on, from no higher block. -/
theorem of_read (known : Known i eventsOf s)
    (recorded : s.ledger.Recorded i.chain s.surroundings.issued taken)
    (topped : Topped i answers b base lease h s after)
    (reads : ReadAs answers b (eventsOf b.ref)) {e : ChainEvent}
    (member : e ∈ eventsOf b.ref) :
    ∃ e', after.ledger.events.get? e.key = some e' ∧
      e'.blockHeight.toNat ≤ b.height.toNat := by
  have noRange := Ingest.startOf_reverted lease b base
  have ingested := topped.entered.ingested
  obtain ⟨x, there, extracts, events⟩ := topped.entered.read
  rw [← reads _ x there extracts] at member
  cases old : s.ledger.events.get? e.key with
  | some e' =>
      have sameKey := recorded.eventsKeyed _ e' old
      obtain ⟨-, mark, isMark, below⟩ := known.events _ e' old
      rw [← sameKey] at old ⊢
      exact ⟨e', ingested.events_kept noRange old, below.trans (topped.low mark isMark)⟩
  | none =>
      have new : e ∈ h.events := by
        rw [events]
        exact Ingest.mem_unknownOf.2 ⟨member, old⟩
      exact ⟨e, ingested.events_new noRange new,
        Nat.le_of_eq (congrArg UInt64.toNat (ingested.ofBlock e new).height)⟩

theorem topped (known : Known i eventsOf s)
    (recorded : s.ledger.Recorded i.chain s.surroundings.issued taken)
    (topped : Topped i answers b base lease h s after)
    (reads : ReadAs answers b (eventsOf b.ref)) : Known i eventsOf after where
  events := by
    intro k e found
    rcases topped.entered.ingested.events (Ingest.startOf_reverted lease b base) k with
      ⟨d, new, -, there⟩ | ⟨-, same⟩
    · obtain rfl := Option.some.inj (there.symm.trans found)
      have isOf := topped.entered.ingested.ofBlock d new
      exact ⟨isOf.chain.trans topped.entered.ofChain, b.ref, topped.isMark,
        Nat.le_of_eq (congrArg UInt64.toNat isOf.height)⟩
    · obtain ⟨ofChain, mark, isMark, below⟩ := known.events k e (same.symm.trans found)
      exact ⟨ofChain, b.ref, topped.isMark, below.trans (topped.low mark isMark)⟩
  known := by
    intro r remembered e member
    rcases topped.remembers r remembered with rfl | old
    · exact known.of_read recorded topped reads member
    · obtain ⟨e', found, below⟩ := known.known r old e member
      have sameKey := recorded.eventsKeyed _ e' found
      rw [← sameKey] at found ⊢
      exact ⟨e', topped.entered.ingested.events_kept
        (Ingest.startOf_reverted lease b base) found, below⟩

/-- A range that reaches the watermark leaves what lies at or below its fork, and
nothing above that is remembered any more. -/
theorem retreat (known : Known i eventsOf s)
    (reverted : Reverted i.chain range s.ledger after.ledger)
    (isMark : (s.ledger.place i.chain).mark = some mark)
    (fromFork : range.fromHeight.toNat = range.forkPoint.height.toNat + 1)
    (low : range.forkPoint.height.toNat ≤ mark.height.toNat)
    (reaches : mark.height.toNat ≤ range.toHeight.toNat)
    (place : after.ledger.place i.chain =
      (s.ledger.place i.chain).follow (.reverted range))
    (remembers : ∀ r, after.Remembers i r → s.Remembers i r ∧
      (r = range.forkPoint ∨ r.height.toNat < range.forkPoint.height.toNat)) :
    Known i eventsOf after where
  events := by
    rw [place]
    intro k e found
    rw [reverted.events, Option.filter_eq_some_iff] at found
    obtain ⟨old, stays⟩ := found
    obtain ⟨ofChain, mark', isMark', below⟩ := known.events k e old
    obtain rfl := Option.some.inj (isMark'.symm.trans isMark)
    refine ⟨ofChain, range.forkPoint, rfl,
      (RevertedRange.contains_eq_false_iff fromFork (below.trans reaches)).1 ?_⟩
    simpa [ofChain] using stays
  known := by
    intro r remembered e member
    obtain ⟨old, atMost⟩ := remembers r remembered
    have lower : r.height.toNat ≤ range.forkPoint.height.toNat := by
      rcases atMost with rfl | lower
      · exact Nat.le_refl _
      · exact Nat.le_of_lt lower
    obtain ⟨e', found, below⟩ := known.known r old e member
    have stays : range.contains e'.blockHeight = false :=
      (RevertedRange.contains_eq_false_iff fromFork
        (below.trans (lower.trans (low.trans reaches)))).2 (below.trans lower)
    refine ⟨e', ?_, below⟩
    rw [reverted.events, found]
    simp [stays]

/-- What is known stays known where the events of given blocks are always read alike. -/
theorem effect (known : Known i eventsOf s)
    (recorded : s.ledger.Recorded i.chain s.surroundings.issued taken)
    (reads : ∀ b, Gives answers i.chain b → ReadAs answers b (eventsOf b.ref))
    (effect : Effect i answers s after) : Known i eventsOf after := by
  cases effect with
  | still calm place carried remembers =>
      refine known.congr (fun k => ?_) place remembers
      rw [show after.ledger.events = s.ledger.events from calm.records.events]
  | next entered stands place carried remembers =>
      exact known.topped recorded (.of_next entered stands place remembers)
        (reads _ entered.isGiven)
  | base entered above place carried remembers =>
      exact known.topped recorded (.of_base entered above place remembers)
        (reads _ entered.isGiven)
  | repeated entered isMark place carried remembers =>
      exact known.topped recorded (.of_repeated entered isMark place remembers)
        (reads _ entered.isGiven)
  | retreat reverted grows rangeChain isMark fromFork low reaches fork place carried
      remembers =>
      exact known.retreat (reverted taken recorded) isMark fromFork low reaches
        place remembers

/-- A remembered block brings nothing new. -/
theorem unknownOf_eq_nil (known : Known i eventsOf s) (remembered : s.Remembers i b.ref)
    {x : Extraction} (events : x.events = eventsOf b.ref) :
    Ingest.unknownOf s.ledger x = [] := by
  refine List.eq_nil_iff_forall_not_mem.2 fun e member => ?_
  obtain ⟨among, unknown⟩ := Ingest.mem_unknownOf.1 member
  rw [events] at among
  obtain ⟨e', found, -⟩ := known.known _ remembered e among
  rw [found] at unknown
  cases unknown

end Known

/-! ## Pending transfers -/

namespace Waiting

theorem congr (waiting : Waiting i s)
    (transfers : ∀ id t, after.ledger.transfers.get? id = some t →
      s.ledger.transfers.get? id = some t)
    (place : after.ledger.place i.chain = s.ledger.place i.chain) : Waiting i after := by
  intro id t found pending
  rw [place]
  exact waiting id t (transfers id t found) pending

/-- A block confirms what is due, so what is still pending waits for a higher one. -/
theorem topped (waiting : Waiting i s)
    (recorded : s.ledger.Recorded i.chain s.surroundings.issued taken)
    (topped : Topped i answers b base lease h s after) : Waiting i after := by
  intro id t found pending
  rcases (topped.entered.absorbed recorded).cases id t found with
    ⟨old, waits⟩ | ⟨u, -, change⟩ | ⟨u, new, rfl, -⟩
  · obtain ⟨unconfirmed, origin, mark, isOrigin, isMark, below, -⟩ :=
      waiting id t old pending
    exact ⟨unconfirmed, origin, b.ref, isOrigin, topped.isMark,
      below.trans (topped.low mark isMark),
      Transfer.waits_of_confirmDue? pending unconfirmed isOrigin
        (waits (recorded.mem_pendingTransfers old pending))⟩
  · rw [(Transfer.confirmedAs_of_due change).status] at pending
    cases pending
  · cases waits : u.confirmDue? i.depth b.height h.now with
    | some t =>
        rw [waits, Option.getD_some,
          (Transfer.confirmedAs_of_due waits).status] at pending
        cases pending
    | none =>
        obtain ⟨e, -, represents, height, -⟩ := topped.entered.origin_of_new new
        rw [Option.getD_none]
        exact ⟨represents.unconfirmed, e.origin, b.ref, represents.origin, topped.isMark,
          Nat.le_of_eq (congrArg UInt64.toNat height),
          Transfer.waits_of_confirmDue? represents.pending represents.unconfirmed
            represents.origin waits⟩

theorem retreat (waiting : Waiting i s)
    (recorded : s.ledger.Recorded i.chain s.surroundings.issued taken)
    (reverted : Reverted i.chain range s.ledger after.ledger)
    (rangeChain : range.chain = i.chain)
    (isMark : (s.ledger.place i.chain).mark = some mark)
    (fromFork : range.fromHeight.toNat = range.forkPoint.height.toNat + 1)
    (low : range.forkPoint.height.toNat ≤ mark.height.toNat)
    (reaches : mark.height.toNat ≤ range.toHeight.toNat)
    (place : after.ledger.place i.chain =
      (s.ledger.place i.chain).follow (.reverted range)) :
    Waiting i after := by
  intro id t found pending
  obtain ⟨old, stays⟩ := reverted.pending recorded rangeChain found pending
  obtain ⟨unconfirmed, origin, mark', isOrigin, isMark', below, near⟩ :=
    waiting id t old pending
  obtain rfl := Option.some.inj (isMark'.symm.trans isMark)
  have lower := (RevertedRange.contains_eq_false_iff fromFork (below.trans reaches)).1
    (stays origin isOrigin)
  rw [place]
  exact ⟨unconfirmed, origin, range.forkPoint, isOrigin, rfl, lower, by omega⟩

theorem effect (waiting : Waiting i s)
    (recorded : s.ledger.Recorded i.chain s.surroundings.issued taken)
    (effect : Effect i answers s after) : Waiting i after := by
  cases effect with
  | still calm place carried remembers =>
      refine waiting.congr (fun id t found => ?_) place
      rwa [show after.ledger.transfers = s.ledger.transfers
        from calm.records.transfers] at found
  | next entered stands place carried remembers =>
      exact waiting.topped recorded (.of_next entered stands place remembers)
  | base entered above place carried remembers =>
      exact waiting.topped recorded (.of_base entered above place remembers)
  | repeated entered isMark place carried remembers =>
      exact waiting.topped recorded (.of_repeated entered isMark place remembers)
  | retreat reverted grows rangeChain isMark fromFork low reaches fork place carried
      remembers =>
      exact waiting.retreat recorded (reverted taken recorded) rangeChain isMark
        fromFork low reaches place

/-- Nothing is due at or below the watermark. -/
theorem not_due (waiting : Waiting i s)
    (isMark : (s.ledger.place i.chain).mark = some mark) {height : Height}
    (low : height.toNat ≤ mark.height.toNat) {id : TransferId} {t : Transfer}
    (found : s.ledger.transfers.get? id = some t) (now : Instant) :
    t.confirmDue? i.depth height now = none := by
  cases confirmed : t.confirmDue? i.depth height now with
  | none => rfl
  | some t' =>
      obtain ⟨-, origin, mark', isOrigin, isMark', -, near⟩ :=
        waiting id t found (Transfer.confirmedAs_of_due confirmed).wasPending
      obtain rfl := Option.some.inj (isMark'.symm.trans isMark)
      have deep := due_of_confirmed isOrigin confirmed
      omega

end Waiting

/-! ## Runs -/

/-- A worker is in step, its records fit together, what it remembers is known, and what
is pending waits for a block above the watermark. -/
structure Remembering (i : Ingest) (answers : Answering Surroundings)
    (eventsOf : BlockRef → List ChainEvent) (s : Pursuit) : Prop where
  locked : Locked i answers s
  recorded : ∃ taken, s.ledger.Recorded i.chain s.surroundings.issued taken
  known : Known i eventsOf s
  waiting : Waiting i s
  retained : (s.ledger.place i.chain).Retained

theorem retained_effect (retained : (s.ledger.place i.chain).Retained)
    (effect : Effect i answers s after) : (after.ledger.place i.chain).Retained := by
  cases effect with
  | still calm place => rwa [place]
  | next entered stands place => exact place ▸ Place.retained_moveTo _ _
  | base entered above place => exact place ▸ Place.retained_moveTo _ _
  | repeated entered isMark place => rwa [place]
  | retreat reverted grows rangeChain isMark fromFork low reaches fork place =>
      exact place ▸ Place.retained_moveTo _ _

theorem remembering_start : Remembering i answers eventsOf (start i settings) where
  locked := locked_start
  recorded := ⟨_, Ledger.recorded_empty _ _⟩
  known := known_start
  waiting := waiting_start
  retained := by rintro _ _ _ ⟨⟩

theorem remembering_step (consistent : catalog.Consistent) (alone : Alone catalog answers)
    (reads : ∀ b, Gives answers i.chain b → ReadAs answers b (eventsOf b.ref))
    (remembering : Remembering i answers eventsOf s) (step : Step i answers s after) :
    Remembering i answers eventsOf after := by
  have effect := effect_of_step consistent alone remembering.locked step
  obtain ⟨taken, recorded⟩ := remembering.recorded
  exact
    { locked := locked_step (alone.placing i.chain) remembering.locked step
      recorded := effect.recorded recorded
      known := remembering.known.effect recorded reads effect
      waiting := remembering.waiting.effect recorded effect
      retained := retained_effect remembering.retained effect }

theorem remembering_run (consistent : catalog.Consistent) (alone : Alone catalog answers)
    (reads : ∀ b, Gives answers i.chain b → ReadAs answers b (eventsOf b.ref))
    (run : Run i answers (start i settings) s) : Remembering i answers eventsOf s := by
  induction run with
  | refl => exact remembering_start
  | tail _ step ih => exact remembering_step consistent alone reads ih step

end Pursuit

end Paywatch
