import Paywatch.Proofs.Head.Branch
import Paywatch.Proofs.Ingest.Session
import Paywatch.Proofs.Ledger.Apart
import Paywatch.Proofs.Ledger.Consumers
import Paywatch.Proofs.Ledger.Newest

/-!
# Nothing lies above a watermark

The live events of a chain and the transfers that wait on it are of blocks up to its
watermark.  A block brings both at its own height, and moves the watermark there.  So a
reorganisation that begins at the watermark takes back all that lies above its fork
point, and leaves everything else as it is.

Three parts of the program share this work:  transfers are replaced one by one, events
go by their heights, and the place of the chain is moved back.  Each has a test of its
own for what lies in the range.
-/

namespace Paywatch

/-! ## Moving the place -/

/-- The range goes from the watermark down to its fork point, or was taken back before
and leads to the watermark. -/
structure RevertedRange.Follows (range : RevertedRange) (p : Place) : Prop where
  fromFork : range.fromHeight.toNat = range.forkPoint.height.toNat + 1
  fromMark : ∀ mark, p.mark = some mark → mark.height = range.toHeight ∨
    mark = range.forkPoint

namespace Place

variable {p q : Place} {b : Batch}

/-- A block does not move the watermark down, and is not above it afterwards. -/
theorem mark_of_commit (notRewind : b.link ≠ .rewind) (accepted : p.commit b = .ok q) :
    ∃ m, q.mark = some m ∧ b.target.height.toNat ≤ m.height.toNat ∧
      ∀ mark, p.mark = some mark → mark.height.toNat ≤ m.height.toNat := by
  have stays : (p.takenBack b).mark = p.mark := by
    unfold takenBack
    split <;> rfl
  unfold commit at accepted
  cases moves : b.advances p.mark ((p.recent b.target.height).map (·.hash)) with
  | error e =>
      rw [moves] at accepted
      cases accepted
  | ok moved =>
      rw [moves] at accepted
      obtain rfl := Except.ok.inj accepted
      cases isMark : p.mark with
      | none =>
          unfold Batch.advances at moves
          cases link : b.link <;> simp only [link, isMark] at moves <;> cases moves
          all_goals exact ⟨b.target, rfl, Nat.le_refl _, by simp⟩
      | some mark =>
          rw [isMark] at moves
          cases Batch.advances_of_ok moves with
          | child link next =>
              refine ⟨b.target, rfl, Nat.le_refl _, ?_⟩
              rintro _ ⟨⟩
              omega
          | known link notLast low isHash =>
              refine ⟨mark, stays.trans isMark, UInt64.le_iff_toNat_le.1 low, ?_⟩
              rintro _ ⟨⟩
              exact Nat.le_refl _
          | base link above =>
              refine ⟨b.target, rfl, Nat.le_refl _, ?_⟩
              rintro _ ⟨⟩
              exact Nat.le_of_lt (UInt64.lt_iff_toNat_lt.1 above)
          | rewind link low agrees => exact absurd link notRewind

/-- A batch that goes down moves the place to its target, which is not
above the watermark. -/
theorem commit_rewind {range : RevertedRange} (link : b.link = .rewind)
    (isRange : b.reverted = some range) (accepted : p.commit b = .ok q) :
    (∃ mark, p.mark = some mark ∧ b.target.height ≤ mark.height) ∧
      q = (p.forget range.fromHeight).moveTo b.target := by
  unfold commit takenBack at accepted
  rw [isRange] at accepted
  cases isMark : p.mark with
  | none =>
      unfold Batch.advances at accepted
      simp only [link, isMark] at accepted
      cases accepted
  | some mark =>
      rw [isMark] at accepted
      cases moves : b.advances (some mark) ((p.recent b.target.height).map (·.hash)) with
      | error e =>
          rw [moves] at accepted
          cases accepted
      | ok moved =>
          rw [moves] at accepted
          cases Batch.advances_of_ok moves with
          | rewind _ low agrees => exact ⟨⟨mark, rfl, low⟩, (Except.ok.inj accepted).symm⟩
          | child other => cases link.symm.trans other
          | known other => cases link.symm.trans other
          | base other => cases link.symm.trans other

end Place

theorem Ledger.retentionFloor_mono {low high : Height} (le : low ≤ high) :
    Ledger.retentionFloor low ≤ Ledger.retentionFloor high := by
  have size : Ledger.retention.toNat = 1024 := rfl
  rw [UInt64.le_iff_toNat_le] at le ⊢
  unfold Ledger.retentionFloor
  split
  · exact Nat.zero_le _
  · rename_i enough
    have enough := UInt64.not_lt.1 enough
    rw [UInt64.le_iff_toNat_le] at enough
    rw [if_neg (by rw [UInt64.not_lt, UInt64.le_iff_toNat_le]; omega),
      UInt64.toNat_sub_of_le _ _ (UInt64.le_iff_toNat_le.2 enough),
      UInt64.toNat_sub_of_le _ _ (UInt64.le_iff_toNat_le.2 (enough.trans le))]
    omega

/-- Exactly the blocks up to the fork point are remembered after a range
was taken back. -/
theorem Place.recent_takenBack {p : Place} {range : RevertedRange} {mark : BlockRef}
    (retained : p.Retained) (follows : range.Follows p) (isMark : p.mark = some mark)
    (low : range.forkPoint.height ≤ mark.height) (h : Height) :
    ((p.forget range.fromHeight).moveTo range.forkPoint).recent h =
      if h = range.forkPoint.height then some range.forkPoint
      else if h < range.forkPoint.height then p.recent h else none := by
  have fromFork := follows.fromFork
  simp only [Place.moveTo, Place.forget]
  by_cases here : h = range.forkPoint.height
  · rw [if_pos here, if_pos (here ▸ Place.retentionFloor_le _), if_pos here.symm]
  · rw [if_neg here, if_neg (Ne.symm here)]
    by_cases below : h < range.forkPoint.height
    · have lower := UInt64.lt_iff_toNat_lt.1 below
      rw [if_pos below,
        if_pos (UInt64.lt_iff_toNat_lt.2 (by omega) : h < range.fromHeight)]
      split
      · rfl
      · -- so low that it was forgotten before
        rename_i forgotten
        refine (Option.eq_none_iff_forall_ne_some.2 fun r found => forgotten ?_).symm
        exact UInt64.le_trans (Ledger.retentionFloor_mono low)
          (retained mark h r isMark found)
    · have higher : range.forkPoint.height.toNat < h.toNat := by
        rw [UInt64.lt_iff_toNat_lt] at below
        have different := mt UInt64.toNat_inj.1 here
        omega
      rw [if_neg below,
        if_neg (by rw [UInt64.lt_iff_toNat_lt]; omega : ¬h < range.fromHeight), ite_self]

/-- What is not above the watermark and lies outside of the range is not
above the fork point. -/
theorem RevertedRange.Follows.low {range : RevertedRange} {p : Place} {mark : BlockRef}
    {h : Height} (follows : range.Follows p) (isMark : p.mark = some mark)
    (below : h.toNat ≤ mark.height.toNat) (outside : range.contains h = false) :
    h.toNat ≤ range.forkPoint.height.toNat := by
  have fromFork := follows.fromFork
  rw [← Bool.not_eq_true, RevertedRange.contains, Bool.and_eq_true, decide_eq_true_eq,
    decide_eq_true_eq, UInt64.le_iff_toNat_le, UInt64.le_iff_toNat_le] at outside
  rcases follows.fromMark mark isMark with toMark | rfl
  · rw [toMark] at below
    omega
  · exact below

/-! ## What a pipeline is told -/

/-- The transfer is of a block of the chain, and pending. -/
def Transfer.waitsOn (chain : ChainId) (t : Transfer) : Bool :=
  t.status == .pending && t.chain == chain && t.originHeight.isSome

theorem Transfer.waitsOn_iff {chain : ChainId} {t : Transfer} :
    t.waitsOn chain = true ↔ t.status = .pending ∧ t.chain = chain ∧
      ∃ h, t.originHeight = some h := by
  simp [waitsOn, Option.isSome_iff_exists, and_assoc]

/-- What a chain's pipeline works on:  where the chain stands, and the
transfers that wait on it. -/
structure View where
  place : Place
  waiting : TransferId → Option Transfer

/-- The transfers that wait and lie in a range are among these, and no
others that wait. -/
def View.Tells (v : View) (chain : ChainId) (low high : Height) (ts : List Transfer) :
    Prop :=
  ∀ t, t.waitsOn chain = true →
    (t ∈ ts ↔ v.waiting t.id = some t ∧ ∃ h, t.originHeight = some h ∧ low ≤ h ∧ h ≤ high)

/-- The write is of a block of the chain at this height:  it decides a transfer that
waits, or brings a new one. -/
def TransferWrite.Concerns (chain : ChainId) (height : Height) (v : View) :
    TransferWrite → Prop
  | .insert t => t.chain = chain ∧ t.originHeight = some height
  | .update t _ => t.status ≠ .pending ∧ ∃ u, v.waiting t.id = some u

/-- What is committed for a block of the chain, where things are as in the view. -/
structure Batch.Absorbs (batch : Batch) (b : Block) (chain : ChainId) (v : View) :
    Prop where
  ofChain : batch.chain = chain
  target : batch.target = b.ref
  noRange : batch.reverted = none
  link : batch.link = .base ∨ batch.link = .child b.parentHash
  events : ∀ e ∈ batch.events, e.chain = chain ∧ e.blockHeight = b.height
  writes : ∀ w ∈ batch.writes, w.Concerns chain b.height v

/-- What is committed to take back a range of the chain, where things are
as in the view. -/
structure Batch.Reverts (batch : Batch) (range : RevertedRange) (chain : ChainId)
    (v : View) : Prop where
  ofChain : batch.chain = chain
  rangeChain : range.chain = chain
  follows : range.Follows v.place
  target : batch.target = range.forkPoint
  link : batch.link = .rewind
  isRange : batch.reverted = some range
  writes : ∃ stored, v.Tells chain range.fromHeight range.toHeight stored ∧
    batch.writes = (stored.filterMap (·.revertIn? range)).map (.update · .pending)
  noEvents : batch.events = []
  noClaims : batch.claims = []
  noDeposits : batch.deposits = []

namespace Ledger

variable {l after : Ledger} {chain : ChainId} {batch : Batch} {b : Block}
    {range : RevertedRange} {c : Call}

def view (l : Ledger) (chain : ChainId) : View :=
  ⟨l.place chain, fun id => (l.transfers.get? id).filter (·.waitsOn chain)⟩

theorem waiting_eq_some {id : TransferId} {t : Transfer} :
    (l.view chain).waiting id = some t ↔
    l.transfers.get? id = some t ∧ t.waitsOn chain = true :=
  Option.filter_eq_some_iff

/-- Every transfer is stored under its identifier. -/
def TransfersNamed (l : Ledger) : Prop := ∀ id t, l.transfers.get? id = some t → t.id = id

theorem TransfersNamed.perform (named : l.TransfersNamed) (c : Call) :
    (l.perform c).2.TransfersNamed := by
  intro id t found
  rcases stored_or_written found with old | ⟨w, -, -, sameId⟩
  · exact named id t old
  · exact sameId

theorem TransfersNamed.tells (named : l.TransfersNamed) (chain : ChainId)
    (low high : Height) :
    (l.view chain).Tells chain low high (l.transfersInRange chain low high) := by
  intro t waits
  obtain ⟨-, ofChain, -⟩ := Transfer.waitsOn_iff.1 waits
  rw [transfersInRange, List.mem_filter, Table.mem_values_iff, waiting_eq_some,
    and_iff_left waits]
  simp only [Bool.and_eq_true, beq_iff_eq, ofChain, true_and, Option.any_eq_true,
    decide_eq_true_eq]
  refine and_congr_left fun _ => ⟨?_, fun found => ⟨_, found⟩⟩
  rintro ⟨id, found⟩
  rwa [named id t found]

theorem TransfersNamed.waiting_of_pending (named : l.TransfersNamed) {t : Transfer}
    (member : t ∈ l.pendingTransfers chain) : (l.view chain).waiting t.id = some t := by
  obtain ⟨stored, waits⟩ := List.mem_filter.1 member
  obtain ⟨id, found⟩ := Table.mem_values_iff.1 stored
  exact waiting_eq_some.2 ⟨named id t found ▸ found, waits⟩

/-- The live events of the chain and the transfers that wait on it lie no
higher than its watermark. -/
structure Level (l : Ledger) (chain : ChainId) : Prop where
  events : ∀ k e, l.events.get? k = some e → e.chain = chain →
    ∃ mark, l.watermark chain = some mark ∧ e.blockHeight.toNat ≤ mark.height.toNat
  waiting : ∀ id t h, (l.view chain).waiting id = some t → t.originHeight = some h →
    ∃ mark, l.watermark chain = some mark ∧ h.toNat ≤ mark.height.toNat

/-! ## Writes for other chains, and for none -/

/-- Where nothing is written that waits on a chain, or in the place of what does, the
same transfers wait on it. -/
theorem waiting_of_writes {writes : List TransferWrite}
    (written : after.transfers = (writes.foldl writeTransfer l).transfers)
    (spares : ∀ w ∈ writes, w.transfer.waitsOn chain = false ∧
      (l.view chain).waiting w.transfer.id = none) :
    (after.view chain).waiting = (l.view chain).waiting := by
  funext id
  simp only [view, written]
  rcases written_or_leftOut l writes id with ⟨w, member, rfl, there⟩ | ⟨same, -⟩
  · obtain ⟨waitsNot, free⟩ := spares w member
    rw [there, Option.filter_some, if_neg (by simp [waitsNot])]
    exact free.symm
  · rw [same]

/-- An event after a commit is one of the batch or was live before. -/
theorem event_of_commit (accepted : l.commit batch = .ok after) {k : EventKey}
    {e : ChainEvent} (found : after.events.get? k = some e) :
    e ∈ batch.events ∨ l.events.get? k = some e := by
  have old : (l.takenBack batch).events.get? k = some e → l.events.get? k = some e := by
    intro there
    unfold takenBack at there
    split at there
    · rw [revertRange, Table.get?_filter, Option.filter_eq_some_iff] at there
      exact there.1
    · exact there
  rw [(committed_of_commit accepted).events] at found
  have all : ∀ (es : List ChainEvent) (m : Ledger),
    (es.foldl writeEvent m).events.get? k = some e →
      e ∈ es ∨ m.events.get? k = some e := by
    intro es
    induction es with
    | nil => exact fun m found => Or.inr found
    | cons d rest ih =>
        intro m found
        rcases ih _ found with later | there
        · exact Or.inl (List.mem_cons_of_mem _ later)
        · rw [writeEvent, Table.get?_insertNew] at there
          split at there
          · cases there
            exact Or.inl List.mem_cons_self
          · exact Or.inr there
  exact (all _ _ found).imp_right old

/-- What a chain's pipeline works on is as it was, and no event of the chain has come. -/
structure Spares (chain : ChainId) (l after : Ledger) : Prop where
  view : after.view chain = l.view chain
  events : ∀ k e, after.events.get? k = some e → e.chain = chain →
    l.events.get? k = some e

theorem Spares.refl (chain : ChainId) (l : Ledger) : Spares chain l l :=
  ⟨rfl, fun _ _ found _ => found⟩

theorem Spares.of_place (place : after.place chain = l.place chain)
    (transfers : after.transfers = l.transfers) (events : after.events = l.events) :
    Spares chain l after where
  view := by rw [Ledger.view, Ledger.view, place, transfers]
  events k e found _ := events ▸ found

theorem spares_perform (l : Ledger) (chain : ChainId) (plain : c.commits = false) :
    Spares chain l (l.perform c).2 := by
  have records := sameRecords_perform l plain
  refine .of_place (l.place_perform chain ?_) records.transfers records.events
  cases c with
  | commit b => cases plain
  | commitPlan writes p => cases plain
  | _ => trivial

/-- A batch that concerns another chain. -/
theorem spares_commit {height : Height} (accepted : l.commit batch = .ok after)
    (other : batch.chain ≠ chain) (events : ∀ e ∈ batch.events, e.chain = batch.chain)
    (concerns : ∀ w ∈ batch.writes, w.Concerns batch.chain height (l.view batch.chain))
    (fresh : ∀ t, .insert t ∈ batch.writes → l.transfers.get? t.id = none) :
    Spares chain l after where
  view := by
    refine congrArg₂ View.mk (place_commit_of_ne accepted other)
      (waiting_of_writes (committed_of_commit accepted).transfers fun w member => ?_)
    cases w with
    | insert t =>
        obtain ⟨ofChain, -⟩ := concerns _ member
        exact ⟨by simp [TransferWrite.transfer, Transfer.waitsOn, ofChain, other],
          by simp [view, TransferWrite.transfer, fresh t member]⟩
    | update t expected =>
        -- What it replaces waits on the chain of the batch, and so on no other.
        obtain ⟨decided, u, waits⟩ := concerns _ member
        obtain ⟨there, waitsElsewhere⟩ := waiting_eq_some.1 waits
        obtain ⟨-, ofChain, -⟩ := Transfer.waitsOn_iff.1 waitsElsewhere
        exact ⟨by simp [TransferWrite.transfer, Transfer.waitsOn, decided],
          by simp [view, TransferWrite.transfer, there, Transfer.waitsOn, ofChain, other]⟩
  events := by
    intro k e found ofChain
    rcases event_of_commit accepted found with new | old
    · exact absurd ((events e new).symm.trans ofChain) other
    · exact old

/-- New transfers of no block. -/
theorem spares_commitPlan {writes : List TransferWrite} {plan : Plan} (chain : ChainId)
    (accepted : l.commitPlan writes plan = .ok after)
    (offChain : ∀ w ∈ writes, ∃ t, w = .insert t ∧ t.originHeight = none)
    (fresh : ∀ t, .insert t ∈ writes → l.transfers.get? t.id = none) :
    Spares chain l after where
  view := by
    refine congrArg₂ View.mk (place_commitPlan accepted chain)
      (waiting_of_writes (booked_of_commitPlan accepted).transfers fun w member => ?_)
    obtain ⟨t, rfl, noBlock⟩ := offChain w member
    exact ⟨by simp [TransferWrite.transfer, Transfer.waitsOn, noBlock],
      by simp [view, TransferWrite.transfer, fresh t member]⟩
  events := by
    intro k e found _
    rwa [events_commitPlan accepted] at found

theorem Level.spared (level : l.Level chain) (spares : Spares chain l after) :
    after.Level chain := by
  have sameMark : after.watermark chain = l.watermark chain :=
    congrArg (·.place.mark) spares.view
  constructor
  · intro k e found ofChain
    rw [sameMark]
    exact level.events k e (spares.events k e found ofChain) ofChain
  · rw [spares.view, sameMark]
    exact level.waiting

end Ledger

/-! ## Blocks -/

section Absorbs

variable {batch : Batch} {b : Block} {chain : ChainId} {v : View} {l after : Ledger}

theorem Batch.Absorbs.regular (absorbs : batch.Absorbs b chain v) : batch.Regular := by
  unfold Batch.Regular
  rcases absorbs.link with link | link <;>
  · rw [link]
    exact absorbs.noRange

/-- What a block brings lies at its height, and the watermark is not below
that afterwards. -/
theorem Ledger.Level.absorb (level : l.Level chain)
    (absorbs : batch.Absorbs b chain (l.view chain))
    (accepted : l.commit batch = .ok after) : after.Level chain := by
  have committed := committed_of_commit accepted
  obtain ⟨m, isMark, reaches, higher⟩ : ∃ m, after.watermark chain = some m ∧
      batch.target.height.toNat ≤ m.height.toNat ∧
      ∀ mark, l.watermark chain = some mark → mark.height.toNat ≤ m.height.toNat := by
    have moved := place_commit accepted
    rw [absorbs.ofChain] at moved
    refine Place.mark_of_commit ?_ moved
    rcases absorbs.link with link | link <;> simp [link]
  rw [absorbs.target] at reaches
  have still : ∀ h : Height,
      (∃ mark, l.watermark chain = some mark ∧ h.toNat ≤ mark.height.toNat) →
      ∃ mark, after.watermark chain = some mark ∧ h.toNat ≤ mark.height.toNat := by
    rintro h ⟨mark, isOld, low⟩
    exact ⟨m, isMark, low.trans (higher mark isOld)⟩
  constructor
  · intro k e found ofChain
    rcases event_of_commit accepted found with new | old
    · rw [(absorbs.events e new).2]
      exact ⟨m, isMark, reaches⟩
    · exact still _ (level.events k e old ofChain)
  · intro id t h waits atHeight
    obtain ⟨found, isWaiting⟩ := waiting_eq_some.1 waits
    rw [committed.transfers] at found
    rcases written_or_leftOut l batch.writes id with ⟨w, member, rfl, there⟩ | ⟨same, -⟩
    · rw [there] at found
      cases found
      cases w with
      | update u expected =>
          exact absurd (Transfer.waitsOn_iff.1 isWaiting).1 (absorbs.writes _ member).1
      | insert u =>
          have here := (absorbs.writes _ member).2
          rw [TransferWrite.transfer, here] at atHeight
          cases atHeight
          exact ⟨m, isMark, reaches⟩
    · exact still h
        (level.waiting id t h (waiting_eq_some.2 ⟨same.symm.trans found, isWaiting⟩)
          atHeight)

end Absorbs

/-! ## Reorganisations -/

/-- Of the transfers, those that wait in the range are reverted.  The live events of the
range have become orphans.  The watermark is the fork point, and of the blocks of the
chain those up to there are remembered.  All else is as it was. -/
structure Ledger.TakenBack (l : Ledger) (range : RevertedRange) (after : Ledger) :
    Prop where
  transfers : ∀ id, after.transfers.get? id = (l.transfers.get? id).map fun t =>
    if t.status = .pending ∧
      t.inRange range = true then { t with status := .reverted } else t
  events : ∀ k, after.events.get? k =
    (l.events.get? k).filter fun e =>
      !(e.chain == range.chain && range.contains e.blockHeight)
  orphans : after.orphans =
    l.orphans ++ l.events.values.filter fun e => e.chain == range.chain &&
      range.contains e.blockHeight
  mark : after.watermark range.chain = some range.forkPoint
  recent : ∀ h, after.recent.get? (range.chain, h) =
    if h = range.forkPoint.height then some range.forkPoint
    else if h < range.forkPoint.height then l.recent.get? (range.chain, h) else none
  elsewhere : ∀ other, other ≠ range.chain → after.place other = l.place other
  frame : after =
    { l with
      transfers := after.transfers
      events := after.events
      orphans := after.orphans
      watermarks := after.watermarks
      recent := after.recent }

section Reverts

variable {batch : Batch} {range : RevertedRange} {chain : ChainId} {v : View}
    {l after : Ledger}

theorem Batch.Reverts.regular (reverts : batch.Reverts range chain v) :
    batch.Regular := by
  unfold Batch.Regular
  rw [reverts.link, reverts.target]
  exact ⟨range, reverts.isRange, height_eq_add_one reverts.follows.fromFork⟩

/-- Whatever is reverted waited. -/
theorem View.Tells.waiting {low high : Height} {stored : List Transfer}
    (tells : v.Tells chain low high stored) (ofChain : range.chain = chain)
    {u t : Transfer} (member : u ∈ stored) (reverted : u.revertIn? range = some t) :
    v.waiting u.id = some u := by
  obtain ⟨⟨inRange, pending⟩, -⟩ := Transfer.revertIn?_eq_some.1 reverted
  refine ((tells u ?_).1 member).1
  unfold Transfer.inRange at inRange
  split at inRange
  · rename_i height atHeight
    rw [Bool.and_eq_true, beq_iff_eq] at inRange
    exact Transfer.waitsOn_iff.2 ⟨pending, inRange.1.trans ofChain, height, atHeight⟩
  · cases inRange

theorem Batch.Reverts.concerns (reverts : batch.Reverts range chain v) (height : Height) :
    ∀ w ∈ batch.writes, w.Concerns chain height v := by
  obtain ⟨stored, tells, same⟩ := reverts.writes
  intro w member
  rw [same] at member
  obtain ⟨t, changed, rfl⟩ := List.mem_map.1 member
  obtain ⟨u, among, reverted⟩ := List.mem_filterMap.1 changed
  have waits := tells.waiting reverts.rangeChain among reverted
  obtain ⟨-, rfl⟩ := Transfer.revertIn?_eq_some.1 reverted
  exact ⟨by simp, u, waits⟩

/-- The transfers after the replacements:  all that wait in the range were told, so all
of them are reverted. -/
theorem Ledger.reverted_of_updates (named : l.TransfersNamed) {stored : List Transfer}
    (tells : (l.view range.chain).Tells range.chain range.fromHeight
      range.toHeight stored)
    (id : TransferId) :
    (((stored.filterMap (·.revertIn? range)).map (.update · .pending)).foldl
      writeTransfer l).transfers.get? id = (l.transfers.get? id).map fun t =>
        if t.status = .pending ∧
          t.inRange range = true then { t with status := .reverted }
        else t := by
  rcases updates_get? l (stored.filterMap (·.revertIn? range)) .pending id with
    ⟨t, changed, rfl, found⟩ | ⟨others, same⟩
  · obtain ⟨u, among, reverted⟩ := List.mem_filterMap.1 changed
    have there := (waiting_eq_some.1 (tells.waiting rfl among reverted)).1
    obtain ⟨⟨inRange, pending⟩, rfl⟩ := Transfer.revertIn?_eq_some.1 reverted
    rw [found, show ({ u with status := .reverted } : Transfer).id = u.id from rfl, there,
      Option.map_some, if_pos ⟨pending, inRange⟩]
  · rw [same]
    cases there : l.transfers.get? id with
    | none => rfl
    | some u =>
        rw [Option.map_some, if_neg]
        rintro ⟨pending, inRange⟩
        -- It waits in the range, so it was told, and another one took its place.
        have reverted : u.revertIn? range = some { u with status := .reverted } :=
          Transfer.revertIn?_eq_some.2 ⟨⟨inRange, pending⟩, rfl⟩
        unfold Transfer.inRange at inRange
        split at inRange
        · rename_i height atHeight
          rw [Bool.and_eq_true, beq_iff_eq, RevertedRange.contains, Bool.and_eq_true,
            decide_eq_true_eq, decide_eq_true_eq] at inRange
          have waits : u.waitsOn range.chain = true :=
            Transfer.waitsOn_iff.2 ⟨pending, inRange.1, height, atHeight⟩
          have sameId := named id u there
          have told := (tells u waits).2
            ⟨waiting_eq_some.2 ⟨by rw [sameId, there], waits⟩, height,
              atHeight, inRange.2⟩
          exact others _ (List.mem_filterMap.2 ⟨u, told, reverted⟩) sameId
        · cases inRange

/-- A batch without claims and deposits leaves everything but what it writes and
where its chain stands. -/
theorem Ledger.commit_frame (noClaims : batch.claims = [])
    (noDeposits : batch.deposits = []) (accepted : l.commit batch = .ok after) :
    after =
      { l with
        recorded := after.recorded
        transfers := after.transfers
        events := after.events
        orphans := after.orphans
        watermarks := after.watermarks
        recent := after.recent } := by
  have filled : l.filled batch =
      { l with
        recorded := (l.filled batch).recorded
        transfers := (l.filled batch).transfers
        events := (l.filled batch).events
        orphans := (l.filled batch).orphans
        recent := (l.filled batch).recent } := by
    simp only [Ledger.filled, writePlan, noClaims, noDeposits, List.foldl_nil]
    rw [foldl_writeTransfer_frame, foldl_writeEvent_frame, takenBack_frame]
  rw [commit_eq] at accepted
  cases admitted : l.admits batch with
  | error e =>
      rw [admitted] at accepted
      cases accepted
  | ok moves =>
      rw [admitted] at accepted
      obtain rfl := Except.ok.inj accepted
      rw [applied, filled]
      cases moves <;> rfl

/-- A reorganisation that is committed takes back exactly its range. -/
theorem Ledger.takenBack_of_commit (named : l.TransfersNamed)
    (retained : (l.place chain).Retained)
    (reverts : batch.Reverts range chain (l.view chain))
    (accepted : l.commit batch = .ok after) : l.TakenBack range after := by
  have committed := committed_of_commit accepted
  have ofChain := reverts.ofChain.trans reverts.rangeChain.symm
  have back : l.takenBack batch = l.revertRange range.chain range := by
    rw [takenBack, reverts.isRange, ofChain]
  have moved := place_commit accepted
  obtain ⟨⟨mark, isMark, low⟩, place⟩ :=
    Place.commit_rewind reverts.link reverts.isRange moved
  obtain ⟨stored, tells, writes⟩ := reverts.writes
  have follows := reverts.follows
  obtain rfl := reverts.rangeChain
  rw [ofChain, reverts.target] at place
  rw [ofChain] at isMark
  rw [reverts.target] at low
  constructor
  case transfers =>
    intro id
    rw [committed.transfers, writes]
    exact reverted_of_updates named tells id
  case events =>
    intro k
    rw [committed.events, reverts.noEvents, back]
    exact Table.get?_filter _ _ _
  case orphans =>
    rw [committed.orphans, back]
    rfl
  case mark => exact congrArg Place.mark place
  case recent =>
    intro h
    have there := congrFun (congrArg Place.recent place) h
    rw [Place.recent_takenBack retained follows isMark low h] at there
    exact there
  case elsewhere => exact fun other different =>
    place_commit_of_ne accepted (by rw [ofChain]; exact different.symm)
  case frame =>
    have keys : after.recorded = l.recorded := by
      rw [committed.recorded, writes, updates_recorded]
    have frame := commit_frame reverts.noClaims reverts.noDeposits accepted
    rwa [keys] at frame

/-- Nothing of the chain lies above the fork point afterwards. -/
theorem Ledger.TakenBack.level (takenBack : l.TakenBack range after)
    (level : l.Level range.chain) (follows : range.Follows (l.place range.chain)) :
    after.Level range.chain := by
  constructor
  · intro k e found ofChain
    rw [takenBack.events, Option.filter_eq_some_iff] at found
    obtain ⟨old, stays⟩ := found
    obtain ⟨mark, isMark, low⟩ := level.events k e old ofChain
    exact ⟨_, takenBack.mark, follows.low isMark low (by simpa [ofChain] using stays)⟩
  · intro id t h waits atHeight
    obtain ⟨found, isWaiting⟩ := waiting_eq_some.1 waits
    obtain ⟨pending, ofChain, -⟩ := Transfer.waitsOn_iff.1 isWaiting
    rw [takenBack.transfers, Option.map_eq_some_iff] at found
    obtain ⟨u, old, rfl⟩ := found
    split at pending
    · cases pending
    · rename_i outside
      rw [if_neg outside] at isWaiting atHeight ofChain
      obtain ⟨mark, isMark, low⟩ :=
        level.waiting id u h (waiting_eq_some.2 ⟨old, isWaiting⟩) atHeight
      refine ⟨_, takenBack.mark, follows.low isMark low ?_⟩
      rw [← Bool.not_eq_true]
      intro inside
      exact outside ⟨pending, by simp [Transfer.inRange, atHeight, ofChain, inside]⟩

end Reverts

end Paywatch
