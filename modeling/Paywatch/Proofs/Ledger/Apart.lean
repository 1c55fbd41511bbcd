import Paywatch.Proofs.Ledger.Parts

/-!
# Batches that keep apart

A batch leaves everything outside of its part as it is.  So two batches of parts that
have nothing in common are answered alike in either order, and leave the same behind.
Only the order in which the tables were filled tells which one came first.
-/

namespace Paywatch

/-- No deposit is stored yet under the identifiers of the batch. -/
def Batch.DepositsNew (b : Batch) (l : Ledger) : Prop :=
  ∀ d ∈ b.deposits, l.deposits.get? d.id = none

namespace Ledger

/-! ## What single changes leave alone -/

section Outside

variable {p : Part} {l m : Ledger} {b : Batch}

theorem agree_foldl {α : Type} {step : Ledger → α → Ledger} {xs : List α}
    (each : ∀ x ∈ xs, ∀ m, Agree p l m → Agree p m (step m x)) (start : Agree p l m) :
    Agree p l (xs.foldl step m) := by
  induction xs generalizing m with
  | nil => exact start
  | cons x rest ih =>
      rw [List.forall_mem_cons] at each
      exact ih each.2 (start.trans (each.1 m start))

theorem agree_writeEvent {e : ChainEvent} (chain : e.chain ∉ p.chains) :
    Agree p l (l.writeEvent e) :=
  { Agree.refl p l with
    events := by
      intro c member
      rw [eventsUnder_writeEvent, if_neg]
      intro same
      exact chain (beq_iff_eq.1 same ▸ member) }

theorem agree_writeTransfer {w : TransferWrite} (transfer : w.transfer.id ∉ p.transfers)
    (key : ∀ t, w = .insert t → t.dedupeKey ∉ p.keys) :
    Agree p l (l.writeTransfer w) := by
  have aside : ∀ (t : Transfer) (id : TransferId), t.id ∉ p.transfers → id ∈ p.transfers →
      l.transfers.get? id = (l.transfers.insert t.id t).get? id := by
    intro t id outside member
    rw [Table.get?_insert, if_neg]
    rintro rfl
    exact outside member
  cases w with
  | update t expected =>
      exact { Agree.refl p l with
        transfers := fun id member => aside t id transfer member }
  | insert t =>
      simp only [Ledger.writeTransfer]
      split
      · exact Agree.refl p l
      · exact
          { Agree.refl p l with
            transfers := fun id member => aside t id transfer member
            recorded := by
              intro k member
              rw [Table.get?_insert, if_neg]
              rintro rfl
              exact key t rfl member }

/-- Claims that settle routes which no transfer of the part had settled. -/
theorem agree_writeClaim {k : Claim} (route : k.routeId ∉ p.routes)
    (order : k.orderId ∉ p.orders) (transfer : k.transferId ∉ p.transfers)
    (spare : ∀ r t, l.routes.get? k.routeId = some r → r.consumedBy = some t →
      t ∉ p.transfers) :
    Agree p l (l.writeClaim k) :=
  { Agree.refl p l with
    orders := by
      intro id member
      rw [orders_writeClaim, if_neg]
      rintro rfl
      exact order member
    routes := by
      intro id member
      rw [routes_writeClaim, if_neg]
      rintro rfl
      exact route member
    consumed := by
      intro id r t consumed member
      rw [routes_writeClaim]
      split
      · rename_i here
        subst here
        constructor
        · intro found
          exact absurd member (spare r t found consumed)
        · intro found
          obtain ⟨s, -, rfl⟩ := Option.map_eq_some_iff.1 found
          cases consumed
          exact absurd member transfer
      · exact Iff.rfl }

theorem agree_writeDeposit {d : Deposit} (transfer : d.transferId ∉ p.transfers)
    (spare : ∀ e, l.deposits.get? d.id = some e → e.transferId ∉ p.transfers) :
    Agree p l (l.writeDeposit d) := by
  unfold writeDeposit
  split
  · exact Agree.refl p l
  · exact
      { Agree.refl p l with
        deposits := by
          intro id e member
          rw [Table.get?_insert]
          split
          · rename_i here
            subst here
            constructor
            · intro found
              exact absurd member (spare e found)
            · rintro ⟨⟩
              exact absurd member transfer
          · exact Iff.rfl }

theorem agree_takenBack (keyed : EventsKeyed l) (chain : b.chain ∉ p.chains) :
    Agree p l (l.takenBack b) := by
  have other : ∀ c ∈ p.chains, c ≠ b.chain := by
    rintro c member rfl
    exact chain member
  unfold takenBack
  split
  · rename_i range _
    exact
      { Agree.refl p l with
        recent := by
          intro c member h
          exact (Table.get?_filter_of_passes _ fun _ => by simp [other c member]).symm
        events := by
          intro c member
          rw [eventsUnder, eventsUnder, revertRange, Table.filter_comm]
          refine Table.ext_entries ?_
          rw [Table.entries_filter (l.events.filter _), List.filter_eq_self.2]
          intro entry seen
          rw [Table.entries_filter, List.mem_filter, Table.mem_entries_iff] at seen
          have key := keyed _ _ seen.1
          have here : entry.2.chain = c :=
            (congrArg EventKey.chain key).trans (beq_iff_eq.1 seen.2)
          simp [here, other c member]
        orphans := by
          intro c member
          rw [orphansOf_revertRange keyed, List.filter_eq_nil_iff.2, List.append_nil]
          intro e seen
          obtain ⟨k, found⟩ := Table.mem_values_iff.1 seen
          rw [eventsUnder, Table.get?_filter, Option.filter_eq_some_iff] at found
          have key := keyed _ _ found.1
          have here : e.chain = c :=
            (congrArg EventKey.chain key).trans (beq_iff_eq.1 found.2)
          simp [here, other c member] }
  · exact Agree.refl p l

theorem agree_advance {chain : ChainId} {target : BlockRef} (outside : chain ∉ p.chains) :
    Agree p l (l.advance chain target) := by
  have other : ∀ c ∈ p.chains, chain ≠ c := by
    rintro c member rfl
    exact outside member
  exact
    { Agree.refl p l with
      watermarks := by
        intro c member
        simp only [advance, Table.get?_insert, if_neg (other c member)]
      recent := by
        intro c member h
        have elsewhere : (chain, target.height) ≠ (c, h) := fun same =>
          other c member (congrArg Prod.fst same)
        rw [advance,
          Table.get?_filter_of_passes _ fun _ => by simp [(other c member).symm],
          Table.get?_insert, if_neg elsewhere] }

end Outside

/-! ## What a batch leaves alone -/

section Commit

variable {p : Part} {l m after : Ledger} {b c : Batch} {id : DepositId} {d : Deposit}

/-- A batch of the rest leaves the part as it is. -/
theorem agree_filled (keeps : b.KeepsTo p.rest) (keyed : EventsKeyed l)
    (claimable : ∀ k ∈ b.claims, l.checkClaim k = .ok ()) (new : b.DepositsNew l) :
    Agree p l (l.filled b) := by
  have spareRoute : ∀ k ∈ b.claims, ∀ m, Agree p l m →
    ∀ r t, m.routes.get? k.routeId = some r →
      r.consumedBy = some t → t ∉ p.transfers := by
    intro k member m agree r t found consumed inside
    obtain ⟨⟨s, before, -, unconsumed⟩, -⟩ := checkClaim_eq_ok (claimable k member)
    rw [← agree.consumed _ _ _ consumed inside, before] at found
    cases found
    rw [unconsumed] at consumed
    cases consumed
  have spareDeposit : ∀ d ∈ b.deposits, ∀ m, Agree p l m →
    ∀ e, m.deposits.get? d.id = some e →
      e.transferId ∉ p.transfers := by
    intro d member m agree e found inside
    rw [← agree.deposits _ _ inside, new d member] at found
    cases found
  refine agree_foldl (fun d member m agree => ?_) ?_
  · exact agree_writeDeposit (keeps.deposits d member) (spareDeposit d member m agree)
  refine agree_foldl (fun k member m agree => ?_) ?_
  · obtain ⟨route, order, transfer⟩ := keeps.claims k member
    exact agree_writeClaim route order transfer (spareRoute k member m agree)
  refine agree_foldl (fun w member m _ => ?_) ?_
  · exact agree_writeTransfer (keeps.writes w member) fun t same =>
      keeps.keys t (same ▸ member)
  refine agree_foldl (fun e member m _ => ?_) ?_
  · exact agree_writeEvent (keeps.events e member)
  · exact agree_takenBack keyed keeps.chain

theorem agree_following (keeps : b.KeepsTo p.rest) (keyed : EventsKeyed l)
    (new : b.DepositsNew l) : Agree p l (l.following b) := by
  cases admitted : l.admits b with
  | error e =>
      rw [following_of_error admitted]
      exact Agree.refl p l
  | ok moves =>
      have full := agree_filled keeps keyed (claimable_of_admits admitted) new
      rw [following_of_ok admitted]
      cases moves with
      | false => exact full
      | true => exact full.trans (agree_advance keeps.chain)

theorem EventsKeyed.foldl_writeEvent (keyed : EventsKeyed l) (es : List ChainEvent) :
    EventsKeyed (es.foldl Ledger.writeEvent l) := by
  induction es generalizing l with
  | nil => exact keyed
  | cons e rest ih =>
      refine ih fun k d found => ?_
      rw [Ledger.writeEvent, Table.get?_insertNew] at found
      split at found
      · rename_i here
        cases found
        exact here.1
      · exact keyed k d found

theorem EventsKeyed.commit (keyed : EventsKeyed l) (accepted : l.commit b = .ok after) :
    EventsKeyed after := by
  have start : EventsKeyed (l.takenBack b) := by
    unfold takenBack
    split
    · intro k e found
      rw [revertRange, Table.get?_filter, Option.filter_eq_some_iff] at found
      exact keyed k e found.1
    · exact keyed
  unfold EventsKeyed
  rw [(committed_of_commit accepted).events]
  exact start.foldl_writeEvent b.events

theorem events_commitPlan {writes : List TransferWrite} {plan : Plan}
    (accepted : l.commitPlan writes plan = .ok after) : after.events = l.events := by
  simp only [commitPlan, bind_eq_ok] at accepted
  obtain ⟨_, -, _, -, result⟩ := accepted
  cases result
  rw [writePlan, foldl_writeDeposit_frame, foldl_writeClaim_frame,
    foldl_writeTransfer_frame]

theorem deposits_foldl_writeDeposit {ds : List Deposit}
    (found : (ds.foldl writeDeposit l).deposits.get? id = some d) :
    l.deposits.get? id = some d ∨ d ∈ ds ∧ d.id = id := by
  induction ds generalizing l with
  | nil => exact Or.inl found
  | cons e rest ih =>
      rcases ih found with there | ⟨member, sameId⟩
      · unfold writeDeposit at there
        split at there
        · exact Or.inl there
        · rw [Table.get?_insert] at there
          split at there
          · rename_i here
            cases there
            exact Or.inr ⟨List.mem_cons_self, here⟩
          · exact Or.inl there
      · exact Or.inr ⟨List.mem_cons_of_mem _ member, sameId⟩

/-- A deposit after a plan was written is one of the plan or was there before. -/
theorem deposits_writePlan {claims : List Claim} {ds : List Deposit}
    (found : (l.writePlan claims ds).deposits.get? id = some d) :
    l.deposits.get? id = some d ∨ d ∈ ds ∧ d.id = id := by
  have old := deposits_foldl_writeDeposit found
  rwa [foldl_writeClaim_frame] at old

theorem deposits_commitPlan {writes : List TransferWrite} {plan : Plan}
    (accepted : l.commitPlan writes plan = .ok after)
    (found : after.deposits.get? id = some d) :
    l.deposits.get? id = some d ∨ d ∈ plan.deposits ∧ d.id = id := by
  simp only [commitPlan, bind_eq_ok] at accepted
  obtain ⟨_, -, _, -, result⟩ := accepted
  cases result
  have old := deposits_writePlan found
  rwa [foldl_writeTransfer_frame] at old

theorem deposits_commit (accepted : l.commit b = .ok after)
    (found : after.deposits.get? id = some d) :
    l.deposits.get? id = some d ∨ d ∈ b.deposits ∧ d.id = id := by
  rw [commit_eq] at accepted
  cases admitted : l.admits b with
  | error e =>
      rw [admitted] at accepted
      cases accepted
  | ok moves =>
      rw [admitted] at accepted
      cases accepted
      have filled : (l.filled b).deposits.get? id = some d := by
        cases moves <;> exact found
      have old := deposits_writePlan filled
      rwa [foldl_writeTransfer_frame, foldl_writeEvent_frame, takenBack_frame] at old

/-- A ledger after a batch was to be committed is the one before, or the
commit was accepted. -/
theorem following_cases (l : Ledger) (b : Batch) :
    l.following b = l ∨ l.commit b = .ok (l.following b) := by
  cases admitted : l.admits b with
  | error e => exact Or.inl (following_of_error admitted)
  | ok moves =>
      rw [following_of_ok admitted, commit_eq, admitted]
      exact Or.inr rfl

theorem EventsKeyed.following (keyed : EventsKeyed l) (b : Batch) :
    EventsKeyed (l.following b) := by
  rcases following_cases l b with same | accepted
  · rwa [same]
  · exact keyed.commit accepted

/-- Of two batches with different deposits, the first leaves those of the
second to be stored. -/
theorem depositsNew_following (new : c.DepositsNew l)
    (apart : ∀ d ∈ b.deposits, ∀ e ∈ c.deposits, d.id ≠ e.id) :
    c.DepositsNew (l.following b) := by
  intro e member
  cases found : (l.following b).deposits.get? e.id with
  | none => rfl
  | some d =>
      rcases following_cases l b with same | accepted
      · rw [same, new e member] at found
        cases found
      · rcases deposits_commit accepted found with old | ⟨among, sameId⟩
        · rw [new e member] at old
          cases old
        · exact absurd sameId (apart d among e member)

end Commit

/-! ## Batches of parts that have nothing in common -/

/-- Ledgers that hold the same, in whatever order it came. -/
structure Alike (l m : Ledger) : Prop where
  watermarks : ∀ c, l.watermarks.get? c = m.watermarks.get? c
  recent : ∀ k, l.recent.get? k = m.recent.get? k
  events : ∀ k, l.events.get? k = m.events.get? k
  orphans : ∀ c, l.orphansOf c = m.orphansOf c
  transfers : ∀ id, l.transfers.get? id = m.transfers.get? id
  recorded : ∀ k, l.recorded.get? k = m.recorded.get? k
  orders : ∀ id, l.orders.get? id = m.orders.get? id
  routes : ∀ id, l.routes.get? id = m.routes.get? id
  deposits : ∀ id, l.deposits.get? id = m.deposits.get? id

section Apart

variable {p : Part} {l m : Ledger} {b c : Batch}

theorem get?_eventsUnder (l : Ledger) (k : EventKey) :
    (l.eventsUnder k.chain).get? k = l.events.get? k :=
  Table.get?_filter_of_passes _ fun _ => beq_self_eq_true _

/-- Ledgers that agree on a part and on the rest hold the same. -/
theorem alike_of_agree (here : Agree p l m) (elsewhere : Agree p.rest l m) :
    Alike l m where
  watermarks c := by
    by_cases inside : c ∈ p.chains
    · exact here.watermarks c inside
    · exact elsewhere.watermarks c inside
  recent k := by
    by_cases inside : k.1 ∈ p.chains
    · exact here.recent k.1 inside k.2
    · exact elsewhere.recent k.1 inside k.2
  events k := by
    rw [← get?_eventsUnder, ← get?_eventsUnder]
    by_cases inside : k.chain ∈ p.chains
    · rw [here.events _ inside]
    · rw [elsewhere.events _ inside]
  orphans c := by
    by_cases inside : c ∈ p.chains
    · exact here.orphans c inside
    · exact elsewhere.orphans c inside
  transfers id := by
    by_cases inside : id ∈ p.transfers
    · exact here.transfers id inside
    · exact elsewhere.transfers id inside
  recorded k := by
    by_cases inside : k ∈ p.keys
    · exact here.recorded k inside
    · exact elsewhere.recorded k inside
  orders id := by
    by_cases inside : id ∈ p.orders
    · exact here.orders id inside
    · exact elsewhere.orders id inside
  routes id := by
    by_cases inside : id ∈ p.routes
    · exact here.routes id inside
    · exact elsewhere.routes id inside
  deposits id := by
    ext d
    by_cases inside : d.transferId ∈ p.transfers
    · exact here.deposits id d inside
    · exact elsewhere.deposits id d inside

/-- A batch is answered as if one of the rest had not been committed before, and its
part is the same whichever of the two comes first. -/
theorem agree_either_way (keyed : EventsKeyed l) (first : b.KeepsTo p)
    (second : c.KeepsTo p.rest) (new : c.DepositsNew l)
    (apart : ∀ d ∈ b.deposits, ∀ e ∈ c.deposits, d.id ≠ e.id) :
    (l.following c).verdict b = l.verdict b ∧
      Agree p ((l.following b).following c) ((l.following c).following b) := by
  have before := agree_following second keyed new
  obtain ⟨answer, later⟩ := before.commit first keyed (keyed.following c)
  have last :=
    agree_following second (keyed.following b) (depositsNew_following new apart)
  exact ⟨answer.symm, last.symm.trans later⟩

/-- Of two batches of parts that have nothing in common, each is answered as if the
other one had not been committed before, and the ledger holds the same afterwards
whichever of them comes first. -/
theorem alike_either_way (keyed : EventsKeyed l) (first : b.KeepsTo p)
    (second : c.KeepsTo p.rest) (bNew : b.DepositsNew l) (cNew : c.DepositsNew l)
    (apart : ∀ d ∈ b.deposits, ∀ e ∈ c.deposits, d.id ≠ e.id) :
    (l.following c).verdict b = l.verdict b ∧ (l.following b).verdict c = l.verdict c ∧
      Alike ((l.following b).following c) ((l.following c).following b) := by
  obtain ⟨bAnswer, here⟩ := agree_either_way keyed first second cNew apart
  rw [← p.rest_rest] at first
  obtain ⟨cAnswer, elsewhere⟩ := agree_either_way keyed second first bNew
    fun e member d among same => apart d among e member same.symm
  exact ⟨bAnswer, cAnswer, alike_of_agree here elsewhere.symm⟩

end Apart

end Ledger

end Paywatch
