import Paywatch.Ledger.Commit
import Paywatch.Proofs.Basic

/-!
# What a commit does

A commit is refused or applied as a whole.  `Booked` says what every commit checks and
what it does to transfers, orders and routes.  `Committed` adds what the commit of a
batch does to events and to the watermark.  Later proofs take a commit apart with these
two and never open it again.
-/

namespace Paywatch

namespace Ledger

/-! ## What single writes leave alone -/

theorem writeTransfer_frame (l : Ledger) (w : TransferWrite) :
    l.writeTransfer w =
      { l with
        recorded := (l.writeTransfer w).recorded
        transfers := (l.writeTransfer w).transfers } := by
  cases w with
  | insert t =>
      simp only [writeTransfer]
      split <;> rfl
  | update t expected => rfl

theorem writeDeposit_frame (l : Ledger) (d : Deposit) :
    l.writeDeposit d = { l with deposits := (l.writeDeposit d).deposits } := by
  unfold writeDeposit
  split <;> rfl

theorem foldl_writeEvent_frame (l : Ledger) (es : List ChainEvent) :
    es.foldl writeEvent l = { l with events := (es.foldl writeEvent l).events } := by
  induction es generalizing l with
  | nil => rfl
  | cons e rest ih =>
      rw [List.foldl_cons, ih]
      rfl

theorem foldl_writeTransfer_frame (l : Ledger) (ws : List TransferWrite) :
    ws.foldl writeTransfer l =
      { l with
        recorded := (ws.foldl writeTransfer l).recorded
        transfers := (ws.foldl writeTransfer l).transfers } := by
  induction ws generalizing l with
  | nil => rfl
  | cons w rest ih =>
      rw [List.foldl_cons, ih, writeTransfer_frame]

theorem foldl_writeClaim_frame (l : Ledger) (cs : List Claim) :
    cs.foldl writeClaim l =
      { l with
        routes := (cs.foldl writeClaim l).routes
        orders := (cs.foldl writeClaim l).orders } := by
  induction cs generalizing l with
  | nil => rfl
  | cons c rest ih =>
      rw [List.foldl_cons, ih]
      rfl

theorem foldl_writeDeposit_frame (l : Ledger) (ds : List Deposit) :
    ds.foldl writeDeposit l =
      { l with deposits := (ds.foldl writeDeposit l).deposits } := by
  induction ds generalizing l with
  | nil => rfl
  | cons d rest ih =>
      rw [List.foldl_cons, ih, writeDeposit_frame]

/-! ## What a write depends on -/

/-- Writing transfers reads nothing but transfers and their dedupe keys. -/
theorem foldl_writeTransfer_congr {l m : Ledger} (recorded : l.recorded = m.recorded)
    (transfers : l.transfers = m.transfers) (ws : List TransferWrite) :
    (ws.foldl writeTransfer l).recorded = (ws.foldl writeTransfer m).recorded ∧
      (ws.foldl writeTransfer l).transfers = (ws.foldl writeTransfer m).transfers := by
  induction ws generalizing l m with
  | nil => exact ⟨recorded, transfers⟩
  | cons w rest ih =>
      refine ih ?_ ?_
      all_goals
        cases w with
        | insert t =>
            simp only [writeTransfer, recorded]
            split <;> simp [recorded, transfers]
        | update t expected => simp [writeTransfer, recorded, transfers]

/-- Settling claims reads nothing but routes and orders. -/
theorem foldl_writeClaim_congr {l m : Ledger} (routes : l.routes = m.routes)
    (orders : l.orders = m.orders) (cs : List Claim) :
    (cs.foldl writeClaim l).routes = (cs.foldl writeClaim m).routes ∧
      (cs.foldl writeClaim l).orders = (cs.foldl writeClaim m).orders := by
  induction cs generalizing l m with
  | nil => exact ⟨routes, orders⟩
  | cons c rest ih =>
      exact ih (by simp [writeClaim, routes]) (by simp [writeClaim, orders])

/-! ## Commits -/

/-- A commit of transfers and claims was accepted and led to the ledger `after`. -/
structure Booked (l : Ledger) (writes : List TransferWrite) (claims : List Claim)
    (after : Ledger) : Prop where
  writable : ∀ w ∈ writes, l.checkWrite w = .ok ()
  claimable : ∀ c ∈ claims, l.checkClaim c = .ok ()
  transfers : after.transfers = (writes.foldl writeTransfer l).transfers
  recorded : after.recorded = (writes.foldl writeTransfer l).recorded
  routes : after.routes = (claims.foldl writeClaim l).routes
  orders : after.orders = (claims.foldl writeClaim l).orders

/-- The ledger from which the range of a batch is taken back, if the batch reverts one. -/
def takenBack (l : Ledger) (b : Batch) : Ledger :=
  match b.reverted with
  | some range => l.revertRange b.chain range
  | none => l

/-- A batch was accepted and led to the ledger `after`. -/
structure Committed (l : Ledger) (b : Batch) (after : Ledger) : Prop
    extends Booked l b.writes b.claims after where
  held : l.holds b.lease = true
  events : after.events = (b.events.foldl writeEvent (l.takenBack b)).events
  orphans : after.orphans = (l.takenBack b).orphans
  moved : ∃ moves,
    b.advances (l.watermark b.chain) (l.recordedHash? b.chain b.target.height) =
      .ok moves ∧
      after.watermarks =
        (if moves then l.watermarks.insert b.chain b.target else l.watermarks) ∧
      after.recent =
        if moves then ((l.takenBack b).advance b.chain b.target).recent
        else (l.takenBack b).recent

theorem takenBack_of_none {l : Ledger} {b : Batch} (noRange : b.reverted = none) :
    l.takenBack b = l := by
  simp [takenBack, noRange]

theorem takenBack_frame (l : Ledger) (b : Batch) :
    l.takenBack b =
      { l with
        orphans := (l.takenBack b).orphans
        events := (l.takenBack b).events
        recent := (l.takenBack b).recent } := by
  unfold takenBack
  split <;> rfl

/-- The ledger with the contents of a batch, before the watermark moves. -/
theorem booked_of_frames {l start : Ledger} {writes : List TransferWrite}
    {claims : List Claim} {deposits : List Deposit}
    (writable : ∀ w ∈ writes, l.checkWrite w = .ok ())
    (claimable : ∀ c ∈ claims, l.checkClaim c = .ok ())
    (recorded : start.recorded = l.recorded) (transfers : start.transfers = l.transfers)
    (routes : start.routes = l.routes) (orders : start.orders = l.orders) :
    Booked l writes claims
      ((writes.foldl writeTransfer start).writePlan claims deposits) := by
  have written := foldl_writeTransfer_congr recorded transfers writes
  have settled := foldl_writeClaim_congr
    (l := writes.foldl writeTransfer start) (m := l)
    (by rw [foldl_writeTransfer_frame, routes])
      (by rw [foldl_writeTransfer_frame, orders]) claims
  unfold writePlan
  rw [foldl_writeDeposit_frame]
  refine ⟨writable, claimable, ?_, ?_, settled.1, settled.2⟩
  · rw [foldl_writeClaim_frame]
    exact written.2
  · rw [foldl_writeClaim_frame]
    exact written.1

theorem booked_of_commitPlan {l after : Ledger} {writes : List TransferWrite} {p : Plan}
    (accepted : l.commitPlan writes p = .ok after) : Booked l writes p.claims after := by
  simp only [commitPlan, bind_eq_ok] at accepted
  obtain ⟨_, writable, _, claimable, result⟩ := accepted
  cases result
  exact booked_of_frames ((forM_eq_ok _ _).1 writable) ((forM_eq_ok _ _).1 claimable)
    rfl rfl rfl rfl

theorem committed_of_commit {l after : Ledger} {b : Batch}
    (accepted : l.commit b = .ok after) : Committed l b after := by
  simp only [commit, bind_eq_ok] at accepted
  obtain ⟨_, held, _, writable, _, claimable, moves, link, result⟩ := accepted
  have heldTrue : l.holds b.lease = true := by
    unfold checkLease at held
    split at held
    · assumption
    · cases held
  let start := b.events.foldl writeEvent (l.takenBack b)
  let full := (b.writes.foldl writeTransfer start).writePlan b.claims b.deposits
  have booked : Booked l b.writes b.claims full := by
    apply booked_of_frames ((forM_eq_ok _ _).1 writable) ((forM_eq_ok _ _).1 claimable)
    all_goals simp only [start]; rw [foldl_writeEvent_frame, takenBack_frame]
  -- Transfers, claims and deposits leave everything else as the events left it.
  have frame : full =
      { start with
        transfers := full.transfers
        recorded := full.recorded
        routes := full.routes
        orders := full.orders
        deposits := full.deposits } := by
    simp only [full, writePlan]
    rw [foldl_writeDeposit_frame, foldl_writeClaim_frame, foldl_writeTransfer_frame]
  have others : full.events = start.events ∧ full.orphans = (l.takenBack b).orphans ∧
      full.watermarks = l.watermarks ∧ full.recent = (l.takenBack b).recent := by
    have startOrphans : start.orphans = (l.takenBack b).orphans := by
      simp only [start]
      rw [foldl_writeEvent_frame]
    have startRecent : start.recent = (l.takenBack b).recent := by
      simp only [start]
      rw [foldl_writeEvent_frame]
    have startMarks : start.watermarks = l.watermarks := by
      simp only [start]
      rw [foldl_writeEvent_frame, takenBack_frame]
    rw [frame]
    exact ⟨rfl, startOrphans, startMarks, startRecent⟩
  obtain ⟨events, orphans, watermarks, recent⟩ := others
  have result : after = if moves then full.advance b.chain b.target else full :=
    (Except.ok.inj result).symm
  cases moves with
  | false =>
      simp only [Bool.false_eq_true, if_false] at result
      subst result
      exact ⟨booked, heldTrue, events, orphans, false, link, watermarks, recent⟩
  | true =>
      simp only [if_true] at result
      subst result
      refine ⟨⟨booked.writable, booked.claimable, booked.transfers, booked.recorded,
        booked.routes, booked.orders⟩, heldTrue, events, orphans, true, link, ?_, ?_⟩
      · simp [advance, watermarks]
      · simp [advance, recent]

end Ledger

end Paywatch
