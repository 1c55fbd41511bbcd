import Paywatch.Proofs.Chain.Heights
import Paywatch.Proofs.Ledger.Commit

/-!
# Where a chain stands

The watermark of a chain and its remembered blocks decide whether a batch links onto
what was committed before, and nothing else in the ledger does.  They make up the place
of the chain, with a commit of its own.  The commit of a ledger accepts no batch that
the place refuses, and its mismatches are those of the place.
-/

namespace Paywatch

/-- The batch does not link onto the watermark. -/
def LedgerError.isMismatch : LedgerError → Bool
  | watermarkMismatch .. => true
  | _ => false

/-- How far a chain is processed, and which of its blocks are remembered
at which heights. -/
structure Place where
  mark : Option BlockRef
  recent : Height → Option BlockRef

namespace Place

variable {p : Place} {lease : Lease} {b : Block} {range : RevertedRange}
    {mark r : BlockRef}

/-- Forgets the blocks from a height on. -/
def forget (p : Place) (height : Height) : Place :=
  { p with recent := fun h => if h < height then p.recent h else none }

/-- Moves the watermark, and forgets blocks too far below. -/
def moveTo (p : Place) (target : BlockRef) : Place where
  mark := some target
  recent h :=
    if Ledger.retentionFloor target.height ≤ h then
      if target.height = h then some target else p.recent h
    else none

/-- The place from which the range of a batch is taken back, if the batch reverts one. -/
def takenBack (p : Place) (b : Batch) : Place :=
  match b.reverted with
  | some range => p.forget range.fromHeight
  | none => p

/-- Applies what a batch says about the place. -/
def commit (p : Place) (b : Batch) : Except LedgerError Place :=
  (b.advances p.mark ((p.recent b.target.height).map (·.hash))).map fun moves =>
    if moves then (p.takenBack b).moveTo b.target else p.takenBack b

/-! ## Places of real chains -/

/-- The watermark is remembered, and is the highest of the remembered blocks. -/
structure Rooted (p : Place) : Prop where
  marked : ∀ mark, p.mark = some mark → p.recent mark.height = some mark
  height : ∀ h r, p.recent h = some r → r.height = h
  below : ∀ h r, p.recent h = some r → ∃ mark, p.mark = some mark ∧
    h.toNat ≤ mark.height.toNat

theorem recent_forget {h height : Height} (found : (p.forget height).recent h = some r) :
    p.recent h = some r ∧ h.toNat < height.toNat := by
  simp only [forget] at found
  split at found
  · rename_i lower
    exact ⟨found, UInt64.lt_iff_toNat_lt.1 lower⟩
  · cases found

theorem recent_moveTo {h : Height} {target : BlockRef}
    (found : (p.moveTo target).recent h = some r) :
    h = target.height ∧ r = target ∨ h ≠ target.height ∧ p.recent h = some r := by
  simp only [moveTo] at found
  split at found
  · split at found
    · rename_i here
      exact Or.inl ⟨here.symm, (Option.some.inj found).symm⟩
    · rename_i elsewhere
      exact Or.inr ⟨Ne.symm elsewhere, found⟩
  · cases found

theorem retentionFloor_le (height : Height) : Ledger.retentionFloor height ≤ height := by
  unfold Ledger.retentionFloor
  split
  · exact UInt64.le_iff_toNat_le.2 (by simp)
  · rename_i above
    rw [UInt64.not_lt] at above
    rw [UInt64.le_iff_toNat_le, UInt64.toNat_sub_of_le _ _ above]
    omega

/-- The watermark may move to where nothing that is remembered lies higher. -/
theorem rooted_moveTo {target : BlockRef}
    (height : ∀ h r, p.recent h = some r → r.height = h)
    (low : ∀ h r, p.recent h = some r → h.toNat ≤ target.height.toNat) :
    (p.moveTo target).Rooted where
  marked := by
    rintro _ ⟨⟩
    simp [moveTo, retentionFloor_le]
  height := by
    intro h r found
    rcases recent_moveTo found with ⟨rfl, rfl⟩ | ⟨-, old⟩
    · rfl
    · exact height h r old
  below := by
    intro h r found
    refine ⟨target, rfl, ?_⟩
    rcases recent_moveTo found with ⟨rfl, -⟩ | ⟨-, old⟩
    · exact Nat.le_refl _
    · exact low h r old

/-- A block is remembered as it is if its hash is the one that is remembered. -/
theorem Rooted.recent_of_hash (rooted : p.Rooted)
    (isHash : (p.recent b.height).map (·.hash) = some b.hash) :
    p.recent b.height = some b.ref := by
  obtain ⟨ref, found, hash⟩ := Option.map_eq_some_iff.1 isHash
  have height := rooted.height _ _ found
  refine found.trans (congrArg some ?_)
  cases ref
  cases height
  cases hash
  rfl

/-- Blocks too far below the watermark are forgotten. -/
def Retained (p : Place) : Prop :=
  ∀ mark h r, p.mark = some mark → p.recent h = some r →
    Ledger.retentionFloor mark.height ≤ h

theorem retained_moveTo (p : Place) (target : BlockRef) : (p.moveTo target).Retained := by
  rintro _ h r ⟨⟩ found
  simp only [moveTo] at found
  split at found
  · assumption
  · cases found

/-! ## Which batches link -/

/-- A block on the watermark, or the first one of all. -/
theorem commit_ofBlock (stands : ∀ mark, p.mark = some mark →
    b.height.toNat = mark.height.toNat + 1 ∧ b.parentHash = mark.hash) :
    p.commit (.ofBlock lease b) = .ok (p.moveTo b.ref) := by
  unfold commit Batch.advances Batch.ofBlock
  cases isMark : p.mark with
  | none => rfl
  | some mark =>
      obtain ⟨next, parent⟩ := stands mark isMark
      have above : mark.height.plus? 1 = some b.height := Height.plus?_eq_some_iff.2 next
      simp [Block.ref, Except.map, takenBack, above, parent]

/-- Behind the last height there is no next one to compare a block with. -/
theorem commit_ofBlock_last (isMark : p.mark = some mark)
    (last : 2 ^ 64 ≤ mark.height.toNat + 1) :
    p.commit (.ofBlock lease b) = .error .overflow := by
  have above : mark.height.plus? 1 = none := Height.plus?_eq_none_iff.2 last
  unfold commit Batch.advances Batch.ofBlock
  simp only [isMark, above]
  rfl

/-- A block at or below the watermark is accepted only as the remembered
one, and moves nothing. -/
theorem commit_ofBlock_old {q : Place} (isMark : p.mark = some mark)
    (old : b.height.toNat ≤ mark.height.toNat)
    (notLast : mark.height.toNat + 1 < 2 ^ 64) :
    p.commit (.ofBlock lease b) = .ok q ↔
      (p.recent b.height).map (·.hash) = some b.hash ∧ q = p := by
  obtain ⟨next, above, higher⟩ := Height.next_of_lt notLast
  have low : b.height ≤ mark.height := UInt64.le_iff_toNat_le.2 old
  have notNext : b.height ≠ next := by
    rintro rfl
    omega
  unfold commit Batch.advances Batch.ofBlock
  simp only [isMark, above, Block.ref, notNext, false_and, if_false, low, true_and]
  split
  · rename_i remembered
    simp only [Except.map, Bool.false_eq_true, if_false, Except.ok.injEq,
      remembered, true_and]
    exact eq_comm
  · rename_i unknown
    simp [Except.map, unknown]

/-- A block above the watermark, if there is one. -/
theorem commit_ofBase (above : ∀ mark, p.mark = some mark → mark.height < b.height) :
    p.commit (.ofBase lease b) = .ok (p.moveTo b.ref) := by
  unfold commit Batch.advances Batch.ofBase
  cases isMark : p.mark with
  | none => rfl
  | some mark => simp [Block.ref, Except.map, takenBack, above mark isMark]

/-- A range down to a block that is not known to be another one. -/
theorem commit_ofRevert (isMark : p.mark = some mark)
    (low : range.forkPoint.height ≤ mark.height)
    (agrees : ∀ r, p.recent range.forkPoint.height = some r → r = range.forkPoint) :
    p.commit (.ofRevert lease range) =
      .ok ((p.forget range.fromHeight).moveTo range.forkPoint) := by
  have recorded : ((p.recent range.forkPoint.height).map (·.hash)).all
      (· == range.forkPoint.hash) = true := by
    cases found : p.recent range.forkPoint.height with
    | none => rfl
    | some r => simp [agrees r found]
  unfold commit Batch.advances Batch.ofRevert
  simp only [isMark]
  rw [if_pos ⟨low, recorded⟩]
  rfl

end Place

namespace Ledger

variable {l after : Ledger} {b : Batch}

def place (l : Ledger) (chain : ChainId) : Place :=
  ⟨l.watermark chain, fun h => l.recent.get? (chain, h)⟩

theorem place_congr {m : Ledger} {chain : ChainId} (marks : m.watermarks = l.watermarks)
    (recent : m.recent = l.recent) : m.place chain = l.place chain := by
  rw [place, place, watermark, watermark, marks, recent]

theorem place_revertRange (l : Ledger) (chain : ChainId) (range : RevertedRange) :
    (l.revertRange chain range).place chain =
      (l.place chain).forget range.fromHeight := by
  simp only [place, Place.forget, Place.mk.injEq]
  refine ⟨rfl, ?_⟩
  funext h
  simp only [revertRange, Table.get?_filter]
  by_cases lower : h < range.fromHeight <;>
    cases l.recent.get? (chain, h) <;> simp [lower]

theorem place_advance (l : Ledger) (chain : ChainId) (target : BlockRef) :
    (l.advance chain target).place chain = (l.place chain).moveTo target := by
  simp only [place, Place.moveTo, Place.mk.injEq]
  constructor
  · simp [watermark, advance, Table.get?_insert]
  · funext h
    simp only [advance, Table.get?_filter, Table.get?_insert, Prod.mk.injEq, true_and]
    generalize (if target.height = h then some target else l.recent.get? (chain, h)) =
      there
    by_cases high : retentionFloor target.height ≤ h <;> cases there <;> simp [high]

theorem place_takenBack (l : Ledger) (b : Batch) :
    (l.takenBack b).place b.chain = (l.place b.chain).takenBack b := by
  unfold takenBack Place.takenBack
  cases b.reverted with
  | none => rfl
  | some range => exact place_revertRange l b.chain range

/-- What a ledger accepts, its place accepts, and moves along. -/
theorem place_commit (accepted : l.commit b = .ok after) :
    (l.place b.chain).commit b = .ok (after.place b.chain) := by
  obtain ⟨moves, link, marks, recent⟩ := (committed_of_commit accepted).moved
  have advances : b.advances (l.place b.chain).mark
      (((l.place b.chain).recent b.target.height).map (·.hash)) = .ok moves := link
  have takenMarks : (l.takenBack b).watermarks = l.watermarks := by rw [takenBack_frame]
  rw [Place.commit, advances, Except.map, ← place_takenBack, ← place_advance]
  refine congrArg Except.ok ?_
  cases moves with
  | false => exact (place_congr (marks.trans takenMarks.symm) recent).symm
  | true =>
      refine (place_congr (marks.trans ?_) recent).symm
      rw [advance, takenMarks]
      rfl

/-- A remembered block that brings nothing is accepted, and changes nothing. -/
theorem commit_ofBlock_old {lease : Lease} {b : Block} {mark : BlockRef}
    (held : l.holds lease = true) (isMark : l.watermark lease.chain = some mark)
    (low : b.height ≤ mark.height) (notLast : mark.height.toNat + 1 < 2 ^ 64)
    (remembered : l.recordedHash? lease.chain b.height = some b.hash) :
    l.commit (.ofBlock lease b) = .ok l := by
  have stays :
      (Batch.ofBlock lease b).advances (some mark) (some b.hash) = .ok false := by
    obtain ⟨next, above, higher⟩ := Height.next_of_lt notLast
    have notNext : b.height ≠ next := by
      rintro rfl
      rw [UInt64.le_iff_toNat_le, higher] at low
      omega
    simp [Batch.advances, Batch.ofBlock, Block.ref, above, notNext, low]
  have leased : l.checkLease lease = .ok () := by simp [checkLease, held]
  unfold commit
  simp only [Batch.ofBlock, Batch.chain, Block.ref] at stays ⊢
  rw [leased, isMark, remembered, stays]
  rfl

/-- Behind the last height nothing is accepted. -/
theorem commit_ofBlock_last {lease : Lease} {b : Block} {mark : BlockRef}
    (held : l.holds lease = true) (isMark : l.watermark lease.chain = some mark)
    (last : 2 ^ 64 ≤ mark.height.toNat + 1) :
    l.commit (.ofBlock lease b) = .error .overflow := by
  have above : mark.height.plus? 1 = none := Height.plus?_eq_none_iff.2 last
  have leased : l.checkLease lease = .ok () := by simp [checkLease, held]
  unfold commit
  simp only [Batch.ofBlock, Batch.chain, Batch.advances]
  rw [leased, isMark]
  simp only [above]
  rfl

/-- A mismatch is one of the place. -/
theorem place_mismatch {e : LedgerError} (refused : l.commit b = .error e)
    (mismatch : e.isMismatch = true) : (l.place b.chain).commit b = .error e := by
  have leased : ∀ e', l.checkLease b.lease = .error e' → e' ≠ e := by
    rintro e' failed rfl
    unfold checkLease at failed
    split at failed <;> cases failed
    cases mismatch
  have written : ∀ e', b.writes.forM l.checkWrite = .error e' → e' ≠ e := by
    rintro e' failed rfl
    obtain ⟨w, -, failed⟩ := error_of_forM failed
    unfold checkWrite at failed
    split at failed
    · cases failed
    · split at failed
      · cases failed
        cases mismatch
      · split at failed <;> cases failed
        cases mismatch
  have claimed : ∀ e', b.claims.forM l.checkClaim = .error e' → e' ≠ e := by
    rintro e' failed rfl
    obtain ⟨c, -, failed⟩ := error_of_forM failed
    unfold checkClaim at failed
    simp only at failed
    split at failed <;> cases failed
    cases mismatch
  unfold commit at refused
  rcases bind_eq_error.1 refused with failed | ⟨_, -, refused⟩
  · exact absurd rfl (leased e failed)
  rcases bind_eq_error.1 refused with failed | ⟨_, -, refused⟩
  · exact absurd rfl (written e failed)
  rcases bind_eq_error.1 refused with failed | ⟨_, -, refused⟩
  · exact absurd rfl (claimed e failed)
  rcases bind_eq_error.1 refused with failed | ⟨_, -, refused⟩
  · have advances : b.advances (l.place b.chain).mark
        (((l.place b.chain).recent b.target.height).map (·.hash)) = .error e := failed
    rw [Place.commit, advances]
    rfl
  · cases refused

end Ledger

end Paywatch
