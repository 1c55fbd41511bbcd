import Paywatch.Proofs.Ledger.Closing

/-!
# The transfers behind settled routes

A batch writes its transfers and settles its claims in two passes.  A new transfer is
left out if its dedupe key is recorded, and the claim on it is settled all the same: its
route then names a transfer that is not stored.  Nothing else comes between a settled
route and its transfer.  As long as no claimed transfer is left out, every settled route
names one that is stored and confirmed.
-/

namespace Paywatch

/-- The transfer that is written. -/
def TransferWrite.transfer : TransferWrite → Transfer
  | .insert t => t
  | .update t _ => t

namespace Ledger

/-- Every settled route names a stored transfer. -/
def ConsumersStored (l : Ledger) : Prop :=
  ∀ id r, l.routes.get? id = some r → r.status = .consumed →
    ∃ t u, r.consumedBy = some t ∧ l.transfers.get? t = some u

/-- Every settled route names a stored transfer, which is confirmed. -/
def ConsumersConfirmed (l : Ledger) : Prop :=
  ∀ id r, l.routes.get? id = some r → r.status = .consumed →
    ∃ t u, r.consumedBy = some t ∧ l.transfers.get? t = some u ∧ u.status = .confirmed

/-- The write changes nothing:  it is of a new transfer whose dedupe key is recorded. -/
def passesOver (l : Ledger) : TransferWrite → Bool
  | .insert t => l.recorded.contains t.dedupeKey
  | .update .. => false

/-- The new transfers that are left out when their turn comes. -/
def leftOut (l : Ledger) : List TransferWrite → List Transfer
  | [] => []
  | w :: rest =>
    if l.passesOver w then w.transfer :: l.leftOut rest
      else (l.writeTransfer w).leftOut rest

theorem writeTransfer_of_passesOver {l : Ledger} {w : TransferWrite}
    (passed : l.passesOver w = true) : l.writeTransfer w = l := by
  cases w with
  | insert t => exact if_pos passed
  | update t expected => cases passed

theorem get?_writeTransfer {l : Ledger} {w : TransferWrite}
    (effective : ¬ l.passesOver w = true) (id : TransferId) :
    (l.writeTransfer w).transfers.get? id =
      if w.transfer.id = id then some w.transfer else l.transfers.get? id := by
  cases w with
  | insert t =>
      simp only [passesOver] at effective
      rw [writeTransfer, if_neg effective]
      exact Table.get?_insert _ _ _ _
  | update t expected => exact Table.get?_insert _ _ _ _

theorem insert_of_mem_leftOut {l : Ledger} {writes : List TransferWrite} {t : Transfer}
    (left : t ∈ l.leftOut writes) : .insert t ∈ writes := by
  induction writes generalizing l with
  | nil => cases left
  | cons w rest ih =>
      rw [leftOut] at left
      split at left
      · rename_i passed
        rcases List.mem_cons.1 left with rfl | later
        · cases w with
          | insert t => exact List.mem_cons_self
          | update t expected => cases passed
        · exact List.mem_cons_of_mem _ (ih later)
      · exact List.mem_cons_of_mem _ (ih left)

/-- Under each identifier stands a transfer that was written there, or what stood there
before and all that was to be written there was left out. -/
theorem written_or_leftOut (l : Ledger) (writes : List TransferWrite) (id : TransferId) :
    (∃ w ∈ writes, w.transfer.id = id ∧
      (writes.foldl writeTransfer l).transfers.get? id = some w.transfer) ∨
    (writes.foldl writeTransfer l).transfers.get? id = l.transfers.get? id ∧
      ∀ w ∈ writes, w.transfer.id = id → w.transfer ∈ l.leftOut writes := by
  induction writes generalizing l with
  | nil => exact Or.inr ⟨rfl, by simp⟩
  | cons w rest ih =>
      rw [List.foldl_cons]
      rcases ih (l.writeTransfer w) with ⟨v, member, sameId, found⟩ | ⟨same, left⟩
      · exact Or.inl ⟨v, List.mem_cons_of_mem _ member, sameId, found⟩
      · -- The later writes pass the identifier over, so the first one decides.
        rw [leftOut, same]
        by_cases passed : l.passesOver w = true
        · rw [writeTransfer_of_passesOver passed] at left ⊢
          refine Or.inr ⟨rfl, ?_⟩
          rw [if_pos passed, List.forall_mem_cons]
          exact ⟨fun _ => List.mem_cons_self,
            fun v member sameId => List.mem_cons_of_mem _ (left v member sameId)⟩
        · rw [get?_writeTransfer passed]
          by_cases here : w.transfer.id = id
          · exact Or.inl ⟨w, List.mem_cons_self, here, if_pos here⟩
          · refine Or.inr ⟨if_neg here, ?_⟩
            rw [if_neg passed, List.forall_mem_cons]
            exact ⟨fun sameId => absurd sameId here, left⟩

/-! ## What tasks guarantee -/

/-- A batch inserts a transfer as confirmed, replaces it by one that is confirmed, or
finds it stored as confirmed. -/
def Backed (l : Ledger) (writes : List TransferWrite) (id : TransferId) : Prop :=
  (∃ w ∈ writes, w.transfer.id = id ∧ w.transfer.status = .confirmed) ∨
    ∃ t, l.transfers.get? id = some t ∧ t.status = .confirmed

/-- What the ledger relies on and does not check, here. -/
structure Call.Regular (l : Ledger) (c : Call) : Prop where
  newRoute : ∀ r, c = .insertRoute r → r.IsNew
  backed : ∀ k ∈ c.settled l, Backed l (c.written l) k.transferId
  /-- No transfer that settles a route is written as anything but confirmed. -/
  final : ∀ w ∈ c.written l, (l.isClaimed w.transfer.id = true ∨
    ∃ k ∈ c.settled l, k.transferId = w.transfer.id) → w.transfer.status = .confirmed
  /-- An identifier stands for one transfer. -/
  named : ∀ t u, .insert t ∈ c.written l → l.transfers.get? t.id = some u → u = t

/-- Regular calls in any order, while time goes on. -/
inductive Regularly : Ledger → Ledger → Prop where
  | call (l : Ledger) (c : Call) (regular : c.Regular l) : Regularly l (l.perform c).2
  | wait (l : Ledger) (ticks : Nat) : Regularly l (l.wait ticks)

/-- Whatever transfer is stored behind a route is confirmed. -/
def Steady (l : Ledger) : Prop :=
  ∀ id r t u, l.routes.get? id = some r → r.consumedBy = some t →
    l.transfers.get? t = some u → u.status = .confirmed

theorem steady_empty : Steady .empty := by simp [Steady, empty]

theorem Steady.congr {l after : Ledger} (steady : Steady l)
    (routes : after.routes = l.routes) (transfers : after.transfers = l.transfers) :
    Steady after := by
  unfold Steady
  rw [routes, transfers]
  exact steady

theorem ConsumersStored.congr {l after : Ledger} (stored : ConsumersStored l)
    (routes : after.routes = l.routes) (transfers : after.transfers = l.transfers) :
    ConsumersStored after := by
  unfold ConsumersStored
  rw [routes, transfers]
  exact stored

theorem Steady.confirmed_of_stored {l : Ledger} (steady : Steady l)
    (stored : ConsumersStored l) : ConsumersConfirmed l := by
  intro id r found consumed
  obtain ⟨t, u, consumer, there⟩ := stored id r found consumed
  exact ⟨t, u, consumer, there, steady id r t u found consumer there⟩

/-! ## Commits -/

section Commit

variable {l after : Ledger} {c : Call} (regular : c.Regular l)
include regular

/-- A transfer that was to be written as confirmed is what is stored,
wherever it is left out. -/
theorem Call.Regular.confirmed_of_leftOut {t u : Transfer}
    (left : t ∈ l.leftOut (c.written l)) (confirmed : t.status = .confirmed)
    (found : l.transfers.get? t.id = some u) : u.status = .confirmed := by
  rw [regular.named t u (insert_of_mem_leftOut left) found]
  exact confirmed

/-- A claimed transfer that is stored after the commit is confirmed. -/
theorem Call.Regular.claimed_confirmed
    (booked : Booked l (c.written l) (c.settled l) after) {k : Claim}
    (settled : k ∈ c.settled l) {u : Transfer}
    (found : after.transfers.get? k.transferId = some u) : u.status = .confirmed := by
  rw [booked.transfers] at found
  rcases written_or_leftOut l (c.written l) k.transferId with
    ⟨w, member, sameId, there⟩ | ⟨same, left⟩
  · rw [there] at found
    cases found
    exact regular.final w member (Or.inr ⟨k, settled, sameId.symm⟩)
  · rw [same] at found
    rcases regular.backed k settled with
      ⟨w, member, sameId, confirmed⟩ | ⟨t, there, confirmed⟩
    · rw [← sameId] at found
      exact regular.confirmed_of_leftOut (left w member sameId) confirmed found
    · rw [there] at found
      cases found
      exact confirmed

/-- A claimed transfer is stored after the commit, unless it was left out
and not stored before. -/
theorem Call.Regular.claimed_stored (booked : Booked l (c.written l) (c.settled l) after)
    {k : Claim} (settled : k ∈ c.settled l)
    (entered : ∀ t ∈ l.leftOut (c.written l), t.id = k.transferId →
      ∃ u, l.transfers.get? t.id = some u) :
    ∃ u, after.transfers.get? k.transferId = some u := by
  rw [booked.transfers]
  rcases written_or_leftOut l (c.written l) k.transferId with
    ⟨w, -, -, there⟩ | ⟨same, left⟩
  · exact ⟨w.transfer, there⟩
  · rw [same]
    rcases regular.backed k settled with ⟨w, member, sameId, -⟩ | ⟨t, there, -⟩
    · obtain ⟨u, found⟩ := entered _ (left w member sameId) sameId
      exact ⟨u, by rw [← sameId, found]⟩
    · exact ⟨t, there⟩

theorem Steady.booked (steady : Steady l)
    (booked : Booked l (c.written l) (c.settled l) after) : Steady after := by
  intro id r t u found consumer there
  rw [booked.routes] at found
  obtain ⟨s, before, rfl | ⟨k, settled, -, rfl⟩⟩ := routes_foldl_writeClaim found
  · rw [booked.transfers] at there
    rcases written_or_leftOut l (c.written l) t with ⟨w, member, rfl, stored⟩ | ⟨same, -⟩
    · rw [stored] at there
      cases there
      exact regular.final w member (Or.inl (isClaimed_iff.2 ⟨id, r, before, consumer⟩))
    · rw [same] at there
      exact steady id r t u before consumer there
  · obtain rfl : k.transferId = t := by simpa [Route.consume] using consumer
    exact regular.claimed_confirmed booked settled there

theorem ConsumersStored.booked (stored : ConsumersStored l)
    (booked : Booked l (c.written l) (c.settled l) after)
    (entered : ∀ k ∈ c.settled l, ∀ t ∈ l.leftOut (c.written l), t.id = k.transferId →
      ∃ u, l.transfers.get? t.id = some u) :
    ConsumersStored after := by
  intro id r found consumed
  rw [booked.routes] at found
  obtain ⟨s, before, rfl | ⟨k, settled, -, rfl⟩⟩ := routes_foldl_writeClaim found
  · obtain ⟨t, u, consumer, there⟩ := stored id r before consumed
    rw [booked.transfers]
    rcases written_or_leftOut l (c.written l) t with ⟨w, -, -, written⟩ | ⟨same, -⟩
    · exact ⟨t, w.transfer, consumer, written⟩
    · exact ⟨t, u, consumer, same.trans there⟩
  · obtain ⟨u, there⟩ := regular.claimed_stored booked settled (entered k settled)
    exact ⟨k.transferId, u, rfl, there⟩

end Commit

/-! ## Calls -/

/-- The call commits nothing and inserts no route. -/
def Call.sparesRoutes : Call → Bool
  | .insertRoute _ => false
  | .commit _ => false
  | .commitPlan .. => false
  | _ => true

theorem routes_transfers_perform (l : Ledger) {c : Call}
    (spares : c.sparesRoutes = true) :
    (l.perform c).2.routes = l.routes ∧ (l.perform c).2.transfers = l.transfers := by
  cases c with
  | commit b => cases spares
  | commitPlan ws p => cases spares
  | insertRoute r => cases spares
  | insertOrder o => exact ⟨rfl, rfl⟩
  | expireOrder id =>
      simp only [perform]
      cases expired : l.expireOrder id with
      | error e => exact ⟨rfl, rfl⟩
      | ok result =>
          simp only
          rw [expireOrder_frame expired]
          exact ⟨rfl, rfl⟩
  | _ =>
      rw [perform_frame l rfl]
      exact ⟨rfl, rfl⟩

/-- A call leaves the transfers that it writes, and no others. -/
theorem transfers_perform (l : Ledger) (c : Call) :
    (l.perform c).2.transfers = ((c.written l).foldl writeTransfer l).transfers := by
  cases c with
  | commit b => exact (booked_commit l b).transfers
  | commitPlan writes p => exact (booked_commitPlan l writes p).transfers
  | insertRoute r => rfl
  | _ => exact (routes_transfers_perform l rfl).2

theorem writable_of_written {l : Ledger} {c : Call} :
    ∀ w ∈ c.written l, l.checkWrite w = .ok () := by
  cases c with
  | commit b => exact (booked_commit l b).writable
  | commitPlan writes p => exact (booked_commitPlan l writes p).writable
  | _ => exact fun _ => nofun

/-- A call replaces only what is stored and has the expected status. -/
theorem stored_of_updated {l : Ledger} {c : Call} {t : Transfer}
    {expected : TransferStatus} (member : .update t expected ∈ c.written l) :
    ∃ u, l.transfers.get? t.id = some u ∧ u.status = expected := by
  have writable := writable_of_written _ member
  rw [checkWrite] at writable
  split at writable
  · cases writable
  · rename_i u found
    split at writable
    · rename_i same
      exact ⟨u, found, same⟩
    · cases writable

/-- What is stored after a call was stored before, or is written by the call. -/
theorem stored_or_written {l : Ledger} {c : Call} {id : TransferId} {t : Transfer}
    (found : (l.perform c).2.transfers.get? id = some t) :
    l.transfers.get? id = some t ∨ ∃ w ∈ c.written l, w.transfer = t ∧ t.id = id := by
  rw [transfers_perform] at found
  rcases written_or_leftOut l (c.written l) id with ⟨w, member, sameId, there⟩ | ⟨same, -⟩
  · rw [there] at found
    obtain rfl := Option.some.inj found
    exact Or.inr ⟨w, member, rfl, sameId⟩
  · exact Or.inl (same ▸ found)

theorem Steady.spared {l : Ledger} (steady : Steady l) {c : Call}
    (spares : c.sparesRoutes = true) : Steady (l.perform c).2 := by
  obtain ⟨routes, transfers⟩ := routes_transfers_perform l spares
  exact steady.congr routes transfers

theorem ConsumersStored.spared {l : Ledger} (stored : ConsumersStored l) {c : Call}
    (spares : c.sparesRoutes = true) : ConsumersStored (l.perform c).2 := by
  obtain ⟨routes, transfers⟩ := routes_transfers_perform l spares
  exact stored.congr routes transfers

/-- A route after another was inserted is the new one or was there before. -/
theorem routes_insertRoute {l : Ledger} {r s : Route} {id : RouteId}
    (found : (l.insertRoute r).routes.get? id = some s) :
    s = r ∨ l.routes.get? id = some s := by
  rw [insertRoute, Table.get?_insert] at found
  split at found
  · exact Or.inl (Option.some.inj found).symm
  · exact Or.inr found

theorem Steady.insertRoute {l : Ledger} (steady : Steady l) {r : Route} (new : r.IsNew) :
    Steady (l.insertRoute r) := by
  intro id s t u found consumer there
  rcases routes_insertRoute found with rfl | old
  · rw [new.unconsumed] at consumer
    cases consumer
  · exact steady id s t u old consumer there

theorem ConsumersStored.insertRoute {l : Ledger} (stored : ConsumersStored l) {r : Route}
    (new : r.IsNew) : ConsumersStored (l.insertRoute r) := by
  intro id s found consumed
  rcases routes_insertRoute found with rfl | old
  · rw [new.isOpen] at consumed
    cases consumed
  · exact stored id s old consumed

theorem Steady.perform {l : Ledger} (steady : Steady l) {c : Call}
    (regular : c.Regular l) :
    Steady (l.perform c).2 := by
  cases c with
  | commit b => exact steady.booked regular (booked_commit l b)
  | commitPlan ws p => exact steady.booked regular (booked_commitPlan l ws p)
  | insertRoute r => exact steady.insertRoute (regular.newRoute r rfl)
  | _ => exact steady.spared rfl

theorem steady_run {l after : Ledger} (steady : Steady l)
    (run : Relation.ReflTransGen Regularly l after) : Steady after := by
  induction run with
  | refl => exact steady
  | tail _ step ih =>
      cases step with
      | call c regular => exact ih.perform regular
      | wait ticks => exact ih.congr rfl rfl

/-- The call settles no claim on a new transfer that is left out and was
not stored before. -/
def Call.Enters (l : Ledger) (c : Call) : Prop :=
  ∀ k ∈ c.settled l, ∀ t ∈ l.leftOut (c.written l), t.id = k.transferId →
    ∃ u, l.transfers.get? t.id = some u

theorem ConsumersStored.perform {l : Ledger} (stored : ConsumersStored l) {c : Call}
    (regular : c.Regular l) (enters : c.Enters l) : ConsumersStored (l.perform c).2 := by
  cases c with
  | commit b => exact stored.booked regular (booked_commit l b) enters
  | commitPlan ws p => exact stored.booked regular (booked_commitPlan l ws p) enters
  | insertRoute r => exact stored.insertRoute (regular.newRoute r rfl)
  | _ => exact stored.spared rfl

/-- Whatever regular calls were made before:  if every settled route names a stored
transfer, then after any regular call it names one that is stored and confirmed, as long
as the call settles no claim on a new transfer that is left out. -/
theorem consumers_confirmed {l : Ledger}
    (reached : Relation.ReflTransGen Regularly empty l) (stored : l.ConsumersStored)
    {c : Call} (regular : c.Regular l) (enters : c.Enters l) :
    (l.perform c).2.ConsumersConfirmed := by
  have steady := (steady_run steady_empty reached).perform regular
  exact steady.confirmed_of_stored (stored.perform regular enters)

/-! ## A payment that is recorded twice -/

/-- A call that writes and settles nothing is regular, if a route that it
inserts is new. -/
theorem Call.regular_of_nothing {l : Ledger} {c : Call} (written : c.written l = [])
    (settled : c.settled l = []) (newRoute : ∀ r, c = .insertRoute r → r.IsNew) :
    c.Regular l where
  newRoute := newRoute
  backed := by simp [settled]
  final := by simp [written]
  named := by simp [written]

/-- A route over a Raiden node to the order of the books. -/
def raidenRoute : Route :=
  { Books.sampleRoute with destination := .raiden ⟨1⟩ .zero 7 }

/-- The transfer of one payment over the route, as it is made with this identifier. -/
def payment (id : Nat) : Transfer :=
  .ofChannel ⟨.make id 0, default⟩ ⟨⟨1⟩, .zero, 7, .zero, .received, default⟩
    (.native ⟨1⟩) .zero .zero Books.sampleClaim.amount

def planOf (id : Nat) : Plan :=
  ⟨[⟨raidenRoute.id, raidenRoute.orderId, (payment id).id, ⟨1⟩,
    (payment id).amount, none⟩], []⟩

/-- The payment is recorded and settles the route. -/
def paid (id : Nat) : Call := .commitPlan [.insert (payment id)] (planOf id)

/-- The order of the route is placed. -/
def ordered : Ledger := (empty.perform (.insertOrder Books.sampleOrder)).2

/-- The route is open. -/
def opened : Ledger := (ordered.perform (.insertRoute raidenRoute)).2

theorem reached_ordered : Relation.ReflTransGen Regularly empty ordered := by
  refine .single (.call empty (.insertOrder Books.sampleOrder)
    (Call.regular_of_nothing rfl rfl ?_))
  intro r same
  cases same

theorem regularly_opens {l : Ledger} : Regularly l (l.insertRoute raidenRoute) := by
  refine .call l (.insertRoute raidenRoute) (Call.regular_of_nothing rfl rfl ?_)
  intro r same
  cases same
  exact ⟨rfl, rfl⟩

theorem consumersStored_ordered : ordered.ConsumersStored := by
  intro id r found
  have none : ordered.routes.get? id = none := rfl
  rw [none] at found
  cases found

theorem regular_recording {l : Ledger} {c : Call} {id : Nat}
    (written : c.written l = [.insert (payment id)])
    (settled : ∀ k ∈ c.settled l, k.transferId = (payment id).id)
    (fresh : l.transfers.get? (payment id).id = none)
    (noRoute : ∀ r, c ≠ .insertRoute r) :
    c.Regular l where
  newRoute r opens := absurd opens (noRoute r)
  backed := by
    intro k member
    rw [written, settled k member]
    exact Or.inl ⟨_, List.mem_singleton.2 rfl, rfl, rfl⟩
  final := by
    intro w member _
    rw [written, List.mem_singleton] at member
    rw [member]
    rfl
  named := by
    intro t u member found
    rw [written, List.mem_singleton] at member
    cases member
    rw [fresh] at found
    cases found

/-- The payment is recorded once, and its transfer is stored behind the
route that it settles. -/
theorem consumers_confirmed_opened :
    (opened.perform (paid 3)).2.routes.get? raidenRoute.id =
        some (raidenRoute.consume (payment 3).id) ∧
      (opened.perform (paid 3)).2.ConsumersConfirmed := by
  have regular : (paid 3).Regular opened :=
    regular_recording rfl (by decide) rfl (fun _ => nofun)
  refine ⟨rfl, consumers_confirmed (reached_ordered.tail regularly_opens) ?_ regular ?_⟩
  · exact consumersStored_ordered.insertRoute ⟨rfl, rfl⟩
  · intro k _ t left
    have nothing : opened.leftOut ((paid 3).written opened) = [] := rfl
    exact absurd (nothing ▸ left) List.not_mem_nil

/-- The payment was recorded before the route was opened, by somebody who was faster. -/
def overtaken : Ledger :=
  let recorded := (ordered.perform (.commitPlan [.insert (payment 3)] .empty)).2
  (recorded.perform (.insertRoute raidenRoute)).2

/-- A payment that is recorded by two tasks at a time may settle a route by the
transfer that is left out. -/
theorem consumer_may_dangle :
    Relation.ReflTransGen Regularly empty overtaken ∧ overtaken.ConsumersStored ∧
      (paid 4).Regular overtaken ∧ (overtaken.perform (paid 4)).1 = .ok () ∧
      ¬ (overtaken.perform (paid 4)).2.ConsumersConfirmed := by
  have records : Call.Regular ordered (.commitPlan [.insert (payment 3)] .empty) :=
    regular_recording rfl (by decide) rfl (fun _ => nofun)
  refine ⟨?_, ?_, ?_, rfl, ?_⟩
  · exact (reached_ordered.tail (.call _ _ records)).tail regularly_opens
  · refine (consumersStored_ordered.perform records ?_).insertRoute ⟨rfl, rfl⟩
    intro k member
    cases member
  · exact regular_recording rfl (by decide) rfl (fun _ => nofun)
  · intro confirmed
    have booked := booked_commitPlan overtaken [.insert (payment 4)] (planOf 4)
    have found : (overtaken.perform (paid 4)).2.routes.get? raidenRoute.id =
        some (raidenRoute.consume (payment 4).id) := by
      rw [paid, booked.routes]
      rfl
    obtain ⟨t, u, consumer, stored, -⟩ := confirmed _ _ found rfl
    cases consumer
    have known : overtaken.passesOver (.insert (payment 4)) = true := by
      have recorded :
          overtaken.recorded.get? (payment 4).dedupeKey = some (payment 3).id :=
        (Table.get?_insert _ _ _ _).trans (if_pos rfl)
      simp [passesOver, Table.contains, recorded]
    have missing :
        (overtaken.perform (paid 4)).2.transfers.get? (payment 4).id = none := by
      rw [paid, booked.transfers]
      show (overtaken.writeTransfer (.insert (payment 4))).transfers.get? _ = none
      rw [writeTransfer_of_passesOver known]
      rfl
    rw [missing] at stored
    cases stored

end Ledger

end Paywatch
