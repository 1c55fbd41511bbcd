import Mathlib.Data.Set.Insert
import Paywatch.Engine.Basic
import Paywatch.Proofs.Flow.Contract
import Paywatch.Proofs.Matching.Distinct
import Paywatch.Proofs.Matching.Tasks
import Paywatch.Proofs.Transfer.Custody

/-!
# Prudent tasks

A task holds the identifiers that it may give to new transfers, and knows of some stored
transfers that they are confirmed for good.  It is prudent if it inserts only what it
holds, replaces only what is pending, writes no transfer twice in one batch, and claims
only what the same batch confirms or what it knows to be confirmed.  The tasks that
settle payments are prudent as long as they are dealt with honestly:  no identifier is
given out twice, and no transfer or route is told twice in one answer.  Their plans then
never use anything twice.
-/

namespace Paywatch

/-! ## Plans that fail -/

/-- The result is an error of this kind. -/
def endsIn {ε α : Type} (kind : ε → Bool) : Except ε α → Bool
  | .error e => kind e
  | .ok _ => false

/-- A plan failed its own check. -/
def SettleError.ofPlan : SettleError → Bool
  | reconcile _ => true
  | _ => false

@[inherit_doc SettleError.ofPlan]
def WorkerError.ofPlan : WorkerError → Bool
  | reconcile _ => true
  | _ => false

@[inherit_doc SettleError.ofPlan]
def RaidenError.ofPlan : RaidenError → Bool
  | settle e => e.ofPlan
  | _ => false

@[inherit_doc SettleError.ofPlan]
def EngineError.ofPlan : EngineError → Bool
  | settle e => e.ofPlan
  | _ => false

/-! ## What a task may do -/

/-- No two of the transfers have the same identifier. -/
def Different (ts : List Transfer) : Prop := (ts.map (·.id)).Nodup

theorem different_append {ts us : List Transfer} : Different (ts ++ us) ↔
    Different ts ∧ Different us ∧ ∀ t ∈ ts, ∀ u ∈ us, t.id ≠ u.id := by
  simp only [Different, List.map_append, List.nodup_append, List.forall_mem_map]

/-- What a task holds and knows. -/
structure Grasp where
  /-- The identifiers that it may give to new transfers. -/
  held : Set Ulid
  /-- Transfers that are stored and confirmed. -/
  final : Set TransferId

namespace Grasp

/-- What a task holds and knows after a call. -/
def next (g : Grasp) : (c : Call) → c.Reply → Grasp
  | .stamp, stamp => { g with held := insert stamp.ulid g.held }
  | .ledger (.unmatchedConfirmed ..), found =>
    { g with final := g.final ∪ {id | ∃ t ∈ found, t.id = id} }
  | .ledger (.commit b), reply => { g with held := stillHeld g.held b.writes reply }
  | .ledger (.commitPlan writes _), reply =>
      { g with held := stillHeld g.held writes reply }
  | _, _ => g

/-- What a task relies on in a reply. -/
def Honest (g : Grasp) : (c : Call) → c.Reply → Prop
  | .stamp, stamp => stamp.ulid ∉ g.held
  | .ledger (.pendingTransfers _), ts => Different ts ∧ ∀ t ∈ ts, t.id.ulid ∉ g.held
  | .ledger (.transfersInRange ..), ts => Different ts
  | .ledger (.unmatchedConfirmed ..), ts => Different ts
  | .ledger (.matchContext ..), ctx => (ctx.routes.map (·.id)).Nodup
  | _, _ => True

/-- More is held and known. -/
def Grows (g after : Grasp) : Prop := g.held ⊆ after.held ∧ g.final ⊆ after.final

theorem Grows.refl (g : Grasp) : g.Grows g := ⟨subset_rfl, subset_rfl⟩

theorem Grows.trans {g mid after : Grasp} (first : g.Grows mid)
    (second : mid.Grows after) :
    g.Grows after :=
  ⟨Set.Subset.trans first.1 second.1, Set.Subset.trans first.2 second.2⟩

end Grasp

/-- Calls are answered honestly. -/
def Dealing : Answering Grasp :=
  fun g c reply after => g.Honest c reply ∧ after = g.next c reply

/-- What may be written and claimed in one batch. -/
structure Prudent (g : Grasp) (writes : List TransferWrite) (claims : List Claim) :
    Prop where
  held : ∀ t, .insert t ∈ writes → t.id.ulid ∈ g.held
  pending : ∀ t expected, .update t expected ∈ writes → expected = .pending
  distinct : (writes.map (·.transfer.id)).Nodup
  backed : ∀ k ∈ claims, (∃ w ∈ writes, w.transfer.id = k.transferId ∧
    w.transfer.status = .confirmed) ∨
    k.transferId ∈ g.final

theorem prudent_nil (g : Grasp) : Prudent g [] [] := ⟨by simp, by simp, by simp, by simp⟩

/-- A call that writes and claims only what may be. -/
def Call.Prudent (g : Grasp) : Call → Prop
  | .ledger (.commit b) => Paywatch.Prudent g b.writes b.claims
  | .ledger (.commitPlan writes p) => Paywatch.Prudent g writes p.claims
  | .ledger (.insertRoute r) => r.IsNew
  | _ => True

theorem Call.Mute.prudent {c : Call} (mute : c.Mute) (g : Grasp) : c.Prudent g := by
  cases c with
  | ledger c =>
      cases c with
      | commit b => cases mute
      | commitPlan writes p => cases mute
      | insertRoute r => cases mute
      | _ => trivial
  | _ => trivial

theorem grows_of_mute {g after : Grasp} {c : Call} {reply : c.Reply} (mute : c.Mute)
    (answer : Dealing g c reply after) : g.Grows after := by
  obtain ⟨-, rfl⟩ := answer
  cases c with
  | stamp => exact ⟨Set.subset_insert _ _, subset_rfl⟩
  | ledger c =>
      cases c with
      | commit b => cases mute
      | commitPlan writes p => cases mute
      | unmatchedConfirmed key token => exact ⟨subset_rfl, Set.subset_union_left⟩
      | _ => exact .refl g
  | _ => exact .refl g

namespace Flow

variable {α : Type}

/-- The flow is prudent and reaches the goal if it ends, as long as it is
dealt with honestly. -/
abbrev Prudently (x : Flow α) (goal : α → Grasp → Prop) (g : Grasp) : Prop :=
  x.Guarantees Dealing (fun g c => c.Prudent g) goal g

/-- A flow that only asks is prudent. -/
theorem Only.prudently {x : Flow α} (only : x.Only Call.Mute) (g : Grasp) :
    x.Prudently (fun _ after => g.Grows after) g :=
  only.guarantees (fun g _ mute => mute.prudent g) .refl (fun _ _ _ => .trans)
    fun _ _ _ _ mute answer => grows_of_mute mute answer

theorem prudently_publishAll (ns : List Notice) {goal : Unit → Grasp → Prop} {g : Grasp}
    (reached : ∀ u after, goal u after) : (publishAll ns).Prudently goal g :=
  guarantees_publishAll ns (fun _ _ => trivial) reached

end Flow

namespace Attempt

variable {σ ε α : Type} {rely : Answering σ} {allowed : σ → Call → Prop} {s : σ}

/-- An attempt that ends with a commit is what comes of the commit, and
published what was accepted. -/
theorem guarantees_conclude {wrap : LedgerError → ε} {x : α} {ns : List Notice}
    {commit : Flow (Except LedgerError Unit)} {goal : Attempt ε α → σ → Prop}
    (commits : commit.Guarantees rely allowed
      (fun reply mid => match reply with
        | .ok () => (Flow.publishAll ns).Guarantees rely allowed
            (fun _ after => goal (.done x) after) mid
        | .error e => goal (ofCommit wrap x (.error e)) mid) s) :
    (conclude wrap x ns commit).Guarantees rely allowed goal s := by
  unfold conclude
  rw [Flow.guarantees_bind]
  refine commits.imp fun reply mid reached => ?_
  cases reply with
  | ok u =>
      simp only [ofCommit, Flow.guarantees_bind]
      exact reached
  | error e =>
      change goal (ofCommit wrap x (.error e)) mid at reached
      rcases ofCommit_error wrap x e with same | same <;>
      · rw [same] at reached ⊢
        exact reached

/-- An attempt whose commit is refused concludes, if another may be made and
failing is all right. -/
theorem concludes_of_refused {wrap : LedgerError → ε} {x : α}
    {goal : Except ε α → σ → Prop} {again : σ → Prop} (e : LedgerError) (retry : again s)
    (fails : goal (.error (wrap e)) s) :
    Concludes goal again (ofCommit wrap x (.error e)) s := by
  rcases ofCommit_error wrap x e with same | same
  · rw [same]
    exact retry
  · rw [same]
    exact fails

end Attempt

/-! ## Batches that are made with prudence -/

/-- Each claim is that of one of the transfers, which is confirmed. -/
def Settles (ts : List Transfer) (claims : List Claim) : Prop :=
  ∀ k ∈ claims, ∃ t ∈ ts, t.status = .confirmed ∧ k.transferId = t.id

theorem settles_of_plan {rules : MatchingRules} {ctx : MatchContext} {ts : List Transfer}
    {draft : Draft} (ok : rules.plan ctx ts = .ok draft) : Settles ts draft.claims := by
  intro k member
  obtain ⟨r, -, t, among, pays⟩ := (MatchingRules.planned_of_plan ok).2.pays k member
  obtain ⟨turn, confirmed⟩ := List.mem_filter.1 among
  exact ⟨t, turn, beq_iff_eq.1 confirmed, pays.transfer⟩

theorem prudent_inserts {g : Grasp} {new stored : List Transfer} {claims : List Claim}
    (different : Different new) (held : ∀ t ∈ new, t.id.ulid ∈ g.held)
    (final : ∀ t ∈ stored, t.id ∈ g.final) (settles : Settles (new ++ stored) claims) :
    Prudent g (new.map .insert) claims where
  held := by
    intro t member
    obtain ⟨u, isNew, same⟩ := List.mem_map.1 member
    cases same
    exact held _ isNew
  pending := by
    intro t expected member
    obtain ⟨u, -, same⟩ := List.mem_map.1 member
    cases same
  distinct := by
    rw [List.map_map]
    exact different
  backed := by
    intro k member
    obtain ⟨t, among, confirmed, same⟩ := settles k member
    rcases List.mem_append.1 among with isNew | isStored
    · exact Or.inl ⟨_, List.mem_map_of_mem isNew, same.symm, confirmed⟩
    · exact Or.inr (same ▸ final t isStored)

section Confirmation

variable {depth : UInt64} {height : Height} {now : Instant} {stored new : List Transfer}

/-- The transfers that are due keep their identifiers. -/
theorem ids_of_due (depth : UInt64) (height : Height) (now : Instant)
    (ts : List Transfer) :
    ((ts.filterMap (·.confirmDue? depth height now)).map (·.id)).Sublist
      (ts.map (·.id)) := by
  induction ts with
  | nil => exact .slnil
  | cons t rest ih =>
      cases due : t.confirmDue? depth height now with
      | none =>
          rw [List.filterMap_cons_none due]
          exact ih.cons _
      | some u =>
          rw [List.filterMap_cons_some due, List.map_cons, List.map_cons,
            (Transfer.confirmedAs_of_due due).id]
          exact ih.cons_cons _

theorem id_of_fresh (t : Transfer) :
    ((t.confirmDue? depth height now).getD t).id = t.id := by
  cases due : t.confirmDue? depth height now with
  | none => rfl
  | some u => exact (Transfer.confirmedAs_of_due due).id

/-- The identifiers that a block writes:  those of what is due, and those
of what is new. -/
theorem ids_of_confirmation :
    (Ingest.confirmation depth height now stored new).1.map (·.transfer.id) =
    (stored.filterMap (·.confirmDue? depth height now)).map (·.id) ++ new.map (·.id) := by
  simp only [Ingest.confirmation, List.map_append, List.map_map]
  congr 1
  exact List.map_congr_left fun t _ => id_of_fresh t

theorem different_confirmed (different : Different (stored ++ new)) :
    Different (Ingest.confirmation depth height now stored new).2 := by
  unfold Different Ingest.confirmation at *
  rw [List.map_append] at *
  exact different.sublist ((ids_of_due _ _ _ _).append (ids_of_due _ _ _ _))

theorem prudent_confirmation {g : Grasp} {claims : List Claim}
    (different : Different (stored ++ new)) (held : ∀ t ∈ new, t.id.ulid ∈ g.held)
    (settles : Settles (Ingest.confirmation depth height now stored new).2 claims) :
    Prudent g (Ingest.confirmation depth height now stored new).1 claims where
  held := by
    intro t member
    rcases Ingest.mem_confirmation_writes member with
      ⟨u, -, t, -, same⟩ | ⟨u, isNew, same⟩
    · cases same
    · cases same
      rw [id_of_fresh]
      exact held u isNew
  pending := by
    intro t expected member
    rcases Ingest.mem_confirmation_writes member with ⟨u, -, t, -, same⟩ | ⟨u, -, same⟩
    · cases same
      rfl
    · cases same
  distinct := by
    unfold Different at different
    rw [List.map_append] at different
    rw [ids_of_confirmation]
    exact different.sublist ((ids_of_due _ _ _ _).append_right _)
  backed := by
    intro k member
    obtain ⟨t, among, confirmed, same⟩ := settles k member
    refine Or.inl ?_
    rcases List.mem_append.1 among with due | due
    · exact ⟨.update t .pending, List.mem_append_left _ (List.mem_map_of_mem due),
        same.symm, confirmed⟩
    · obtain ⟨u, isNew, changed⟩ := List.mem_filterMap.1 due
      refine ⟨.insert t, List.mem_append_right _ (List.mem_map_of_mem ?_),
        same.symm, confirmed⟩
      refine List.mem_map.2 ⟨u, isNew, ?_⟩
      rw [changed, Option.getD_some]

end Confirmation

/-- What is reverted keeps its identifier. -/
theorem prudent_reverted {g : Grasp} {range : RevertedRange} {stored : List Transfer}
    (different : Different stored) :
    Prudent g ((stored.filterMap (·.revertIn? range)).map (.update · .pending)) [] where
  held := by
    intro t member
    obtain ⟨u, -, same⟩ := List.mem_map.1 member
    cases same
  pending := by
    intro t expected member
    obtain ⟨u, -, same⟩ := List.mem_map.1 member
    cases same
    rfl
  distinct := by
    rw [List.map_map]
    refine List.Nodup.sublist ?_ different
    clear different
    induction stored with
    | nil => exact .slnil
    | cons t rest ih =>
        cases changed : t.revertIn? range with
        | none =>
            rw [List.filterMap_cons_none changed]
            exact ih.cons _
        | some u =>
            obtain ⟨-, rfl⟩ := Transfer.revertIn?_eq_some.1 changed
            rw [List.filterMap_cons_some changed]
            exact ih.cons_cons _
  backed _ member := nomatch member

/-! ## Settlements -/

theorem Draft.prudently_stamp (d : Draft) (g : Grasp) :
    d.stamp.Prudently (fun plan after => plan.claims = d.claims ∧ g.Grows after) g := by
  unfold Draft.stamp
  exact Flow.guarantees_bind.2 <|
    ((DepositDraft.only_record d.deposits).mute.prudently g).imp fun _ _ grows =>
      ⟨rfl, grows⟩

/-- A refused commit takes nothing away. -/
theorem Grasp.Grows.refused {g mid : Grasp} (grows : g.Grows mid)
    (writes : List TransferWrite) (e : LedgerError) :
    g.Grows { mid with held := stillHeld mid.held writes (.error e) } := by
  rw [stillHeld_error]
  exact grows

namespace MatchingRules

variable {rules : MatchingRules} {chain : ChainId} {new stored : List Transfer}
    {g : Grasp}

/-- An attempt to settle different transfers is prudent, and its plan uses
nothing twice. -/
theorem prudently_settleOnce (rules : MatchingRules) (chain : ChainId)
    (different : Different (new ++ stored)) (held : ∀ t ∈ new, t.id.ulid ∈ g.held)
    (final : ∀ t ∈ stored, t.id ∈ g.final) : (rules.settleOnce chain new stored).Prudently
      (Attempt.Concludes (fun result _ => endsIn SettleError.ofPlan result = false)
        g.Grows) g := by
  rw [settleOnce_eq]
  refine Flow.guarantees_ledger_bind.2 ⟨trivial, ?_⟩
  rintro ctx g ⟨once, rfl⟩
  obtain ⟨draft, planned, -⟩ := rules.plan_of_distinct different once
  simp only [planned]
  refine Flow.guarantees_bind.2 ((Draft.prudently_stamp _ g).imp ?_)
  rintro plan mid ⟨claims, grows⟩
  have ofNew := (different_append.1 different).1
  have settles : Settles (new ++ stored) plan.claims := by
    rw [claims]
    exact (settles_of_plan planned : Settles (new ++ stored) draft.claims)
  refine Attempt.guarantees_conclude (Flow.guarantees_ask.2 ⟨?_, ?_⟩)
  · exact prudent_inserts ofNew (fun t member => grows.1 (held t member))
      (fun t member => grows.2 (final t member)) settles
  · rintro reply _ ⟨-, rfl⟩
    cases reply with
    | ok u => exact Flow.prudently_publishAll _ fun _ _ => rfl
    | error e => exact Attempt.concludes_of_refused e (grows.refused _ e) rfl

/-- A settlement of different transfers is prudent, and its plans use nothing twice. -/
theorem prudently_settle (rules : MatchingRules) (chain : ChainId)
    (different : Different (new ++ stored)) (held : ∀ t ∈ new, t.id.ulid ∈ g.held)
    (final : ∀ t ∈ stored, t.id ∈ g.final) : (rules.settle chain new stored).Prudently
      (fun result _ => endsIn SettleError.ofPlan result = false) g := by
  refine Attempt.guarantees_upTo g.Grows (fun there grows => ?_)
    (fun _ _ => ?_) _ (.refl g)
  · refine (rules.prudently_settleOnce chain different
      (fun t member => grows.1 (held t member))
      fun t member => grows.2 (final t member)).imp fun result after concluded => ?_
    cases result with
    | done plan => exact concluded
    | conflict => exact grows.trans concluded
    | failed e => exact concluded
  · exact rfl

end MatchingRules

/-! ## Blocks and reorganisations -/

namespace Ingest

variable {i : Ingest} {g : Grasp}

/-- Transfers that are read of a block are different, and the task holds
their identifiers. -/
theorem prudently_transfersOf (time : Instant) (events : List ChainEvent) (g : Grasp) :
    (transfersOf time events).Prudently (fun new after => Different new ∧
      (∀ t ∈ new, t.id.ulid ∈ after.held ∧ t.id.ulid ∉ g.held) ∧ g.Grows after) g := by
  induction events generalizing g with
  | nil => exact ⟨List.nodup_nil, by simp, .refl g⟩
  | cons e rest ih =>
      rw [transfersOf]
      split
      · exact ih g
      · refine Flow.guarantees_ask_bind.2 ⟨trivial, ?_⟩
        rintro stamp _ ⟨fresh, rfl⟩
        have grows : g.Grows (g.next .stamp stamp) := ⟨Set.subset_insert _ _, subset_rfl⟩
        split
        · rename_i t made
          have identifier := (represents_of_transfer made).2
          refine Flow.guarantees_bind.2 ((ih _).imp ?_)
          rintro new after ⟨different, held, later⟩
          refine ⟨List.nodup_cons.2 ⟨fun repeated => ?_, different⟩, ?_,
            grows.trans later⟩
          · obtain ⟨u, member, same⟩ := List.mem_map.1 repeated
            refine (held u member).2 ?_
            rw [show u.id = t.id from same, identifier]
            exact Set.mem_insert _ _
          · refine List.forall_mem_cons.2 ⟨?_, fun u member => ?_⟩
            · rw [identifier]
              exact ⟨later.1 (Set.mem_insert _ _), fresh⟩
            · exact ⟨(held u member).1, fun old => (held u member).2 (grows.1 old)⟩
        · refine (ih _).imp ?_
          rintro new after ⟨different, held, later⟩
          exact ⟨different,
            fun u member =>
              ⟨(held u member).1, fun old => (held u member).2 (grows.1 old)⟩,
            grows.trans later⟩

/-- The plan for different transfers settles some of them. -/
theorem prudently_plan (i : Ingest) {confirmed : List Transfer}
    (different : Different confirmed) (g : Grasp) :
    (i.plan confirmed).Prudently (fun result after => g.Grows after ∧
      ∃ plan, result = .ok plan ∧ Settles confirmed plan.claims) g := by
  unfold plan
  split
  · exact ⟨.refl g, .empty, rfl, fun _ => nofun⟩
  · refine Flow.guarantees_ledger_bind.2 ⟨trivial, ?_⟩
    rintro ctx g ⟨once, rfl⟩
    obtain ⟨draft, planned, -⟩ := i.rules.plan_of_distinct different once
    simp only [planned]
    refine Flow.guarantees_bind.2 ((Draft.prudently_stamp _ g).imp ?_)
    rintro plan mid ⟨claims, grows⟩
    refine ⟨grows, plan, rfl, ?_⟩
    rw [claims]
    exact settles_of_plan planned

/-- An attempt to commit a block is prudent, and its plan uses nothing twice. -/
theorem prudently_blockOnce (i : Ingest) (start : Batch) (failures : Nat)
    (events : List ChainEvent) {new : List Transfer} (different : Different new)
    (held : ∀ t ∈ new, t.id.ulid ∈ g.held) :
    (i.blockOnce start failures events new).Prudently
      (Attempt.Concludes (fun result _ => endsIn WorkerError.ofPlan result = false)
        g.Grows) g := by
  rw [blockOnce_eq]
  refine Flow.guarantees_ledger_bind.2 ⟨trivial, ?_⟩
  rintro stored g ⟨⟨storedDiffer, unheld⟩, rfl⟩
  refine Flow.guarantees_ask_bind.2 ⟨trivial, ?_⟩
  rintro now g ⟨-, rfl⟩
  have apart : Different (stored ++ new) := by
    refine different_append.2 ⟨storedDiffer, different, fun t told u brought same => ?_⟩
    exact unheld t told (same ▸ held u brought)
  refine Flow.guarantees_bind.2 ((i.prudently_plan (different_confirmed apart) g).imp ?_)
  rintro _ mid ⟨grows, plan, rfl, settles⟩
  refine Attempt.guarantees_conclude (Flow.guarantees_ask.2 ⟨?_, ?_⟩)
  · exact prudent_confirmation apart (fun t member => grows.1 (held t member)) settles
  · rintro reply _ ⟨-, rfl⟩
    cases reply with
    | ok u => exact Flow.prudently_publishAll _ fun _ _ => rfl
    | error e => exact Attempt.concludes_of_refused e (grows.refused _ e) rfl

/-- The ingestion of a block is prudent, and its plans use nothing twice. -/
theorem prudently_block (i : Ingest) (lease : Lease) (b : Block) (base : Bool)
    (g : Grasp) :
    (i.block lease b base).Prudently
      (fun result _ => endsIn WorkerError.ofPlan result = false) g := by
  unfold block
  refine Flow.guarantees_bind.2
    (((only_extract b).mute.prudently g).imp fun extraction g₁ _ => ?_)
  split
  · exact rfl
  refine Flow.guarantees_ledger_bind.2 ⟨trivial, fun known g₂ _ => ?_⟩
  refine Flow.guarantees_bind.2
    (((only_blockTime b).mute.prudently g₂).imp fun time g₃ _ => ?_)
  refine Flow.guarantees_bind.2 ((prudently_transfersOf time _ g₃).imp ?_)
  rintro new g₄ ⟨different, held, -⟩
  refine Attempt.guarantees_upTo g₄.Grows (fun there grows => ?_)
    (fun _ _ => ?_) _ (.refl g₄)
  · refine (i.prudently_blockOnce _ _ _ different fun t member =>
      grows.1 (held t member).1).imp
      fun result after concluded => ?_
    cases result with
    | done report => exact concluded
    | conflict => exact grows.trans concluded
    | failed e => exact concluded
  · exact rfl

/-- A reorganisation is prudent. -/
theorem prudently_revert (i : Ingest) (lease : Lease) (range : RevertedRange)
    (g : Grasp) :
    (i.revert lease range).Prudently
      (fun result _ => endsIn WorkerError.ofPlan result = false) g := by
  refine Attempt.guarantees_upTo (fun _ => True) (fun there _ => ?_)
    (fun _ _ => ?_) _ trivial
  · rw [revertOnce_eq]
    refine Flow.guarantees_ledger_bind.2 ⟨trivial, ?_⟩
    rintro stored g ⟨different, rfl⟩
    refine Attempt.guarantees_conclude
      (Flow.guarantees_ask.2 ⟨prudent_reverted different, ?_⟩)
    rintro reply _ ⟨-, rfl⟩
    cases reply with
    | ok u => exact Flow.prudently_publishAll _ fun _ _ => rfl
    | error e => exact Attempt.concludes_of_refused e trivial rfl
  · exact rfl

end Ingest

/-! ## What a prudent attempt holds -/

/-- Nothing is open and nobody tracks. -/
def MatchContext.empty : MatchContext := ⟨.empty, [], [], []⟩

/-- Where nothing is open and nobody tracks, nothing is settled. -/
theorem MatchingRules.plan_empty (rules : MatchingRules) (ts : List Transfer) :
    rules.plan .empty ts = .ok ⟨[], []⟩ := by
  have passed : ∀ ts : List Transfer,
      ts.foldl rules.planOne (⟨[], []⟩, .empty) = (⟨[], []⟩, .empty) := by
    intro ts
    induction ts with
    | nil => rfl
    | cons t rest ih =>
        have nothing : rules.planOne (⟨[], []⟩, .empty) t = (⟨[], []⟩, .empty) := by
          cases paysInto : MatchKey.ofTransfer? t <;>
            simp [planOne, select?, candidates, firstBy, deposit?,
              MatchContext.empty, paysInto]
        rw [List.foldl_cons, nothing, ih]
  rw [plan, planAll, passed]
  rfl

/-- A prudent attempt to settle holds what it is to insert. -/
theorem MatchingRules.held_of_prudently {rules : MatchingRules} {chain : ChainId}
    {new stored : List Transfer} {goal : Attempt SettleError Plan → Grasp → Prop}
    {g : Grasp} (prudent : (rules.settleOnce chain new stored).Prudently goal g) :
    Different new ∧ ∀ t ∈ new, t.id.ulid ∈ g.held := by
  rw [settleOnce_eq] at prudent
  have planned := (Flow.guarantees_ledger_bind.1 prudent).2 .empty g ⟨List.nodup_nil, rfl⟩
  simp only [rules.plan_empty] at planned
  -- A draft without deposits is stamped at once, and then the commit is made.
  obtain ⟨held, -, distinct, -⟩ := (Flow.guarantees_ask_bind.1 planned).1
  rw [List.map_map] at distinct
  exact ⟨distinct, fun t member => held t (List.mem_map_of_mem member)⟩

namespace Ingest

/-- A prudent attempt to commit a block holds what it is to insert. -/
theorem held_of_prudently {i : Ingest} {start : Batch} {failures : Nat}
    {events : List ChainEvent} {new : List Transfer}
    {goal : Attempt WorkerError BlockReport → Grasp → Prop} {g : Grasp}
    (prudent : (i.blockOnce start failures events new).Prudently goal g) :
    Different new ∧ ∀ t ∈ new, t.id.ulid ∈ g.held := by
  rw [blockOnce_eq] at prudent
  have asked :=
    (Flow.guarantees_ledger_bind.1 prudent).2 [] g ⟨⟨List.nodup_nil, by simp⟩, rfl⟩
  have planning := (Flow.guarantees_ask_bind.1 asked).2 default g ⟨trivial, rfl⟩
  have planned : ∀ confirmed, (i.plan confirmed).Leads Dealing g (.ok .empty) g := by
    intro confirmed
    unfold plan
    split
    · exact ⟨rfl, rfl⟩
    · refine Flow.leads_bind.2 ⟨.empty, g, Flow.leads_ask.2 ⟨List.nodup_nil, rfl⟩, ?_⟩
      simp only [i.rules.plan_empty]
      exact ⟨rfl, rfl⟩
  have committing := (Flow.guarantees_bind.1 planning).reaches (planned _)
  obtain ⟨held, -, distinct, -⟩ := (Flow.guarantees_ask_bind.1 committing).1
  rw [ids_of_confirmation] at distinct
  refine ⟨distinct, fun t member => ?_⟩
  rw [← id_of_fresh t]
  exact held _
    (List.mem_append_right _ (List.mem_map_of_mem (List.mem_map_of_mem member)))

end Ingest

/-! ## Requests -/

section Requests

variable {g : Grasp}

/-- A transfer that was just stamped is settled. -/
theorem MatchingRules.prudently_settle_one (rules : MatchingRules) (chain : ChainId)
    {t : Transfer} (held : t.id.ulid ∈ g.held) : (rules.settle chain [t] []).Prudently
      (fun result _ => endsIn SettleError.ofPlan result = false) g :=
  rules.prudently_settle chain (List.nodup_singleton _) (by simpa using held) (by simp)

theorem Payment.prudently_ingest (rules : MatchingRules) (p : Payment) (g : Grasp) :
    (p.ingest rules).Prudently (fun result _ => endsIn RaidenError.ofPlan result = false)
      g := by
  unfold ingest
  refine Flow.guarantees_ask_bind.2 ⟨trivial, ?_⟩
  rintro stamp _ ⟨-, rfl⟩
  split
  · exact rfl
  rename_i t made
  refine Flow.guarantees_ledger_bind.2 ⟨trivial, ?_⟩
  rintro known _ ⟨-, rfl⟩
  split
  · exact rfl
  have held : t.id.ulid ∈ (g.next .stamp stamp).held := by
    rw [(sound_of_transfer made).2]
    exact Set.mem_insert _ _
  refine Flow.guarantees_bind.2
    ((rules.prudently_settle_one p.chain held).imp fun result after kept => ?_)
  cases result <;> exact kept

theorem Settings.prudently_recordInternal (s : Settings) (sender receiver : String)
    (token : Token) (amount : Amount) (memo : Option String) (g : Grasp) :
    (s.recordInternal sender receiver token amount memo).Prudently
      (fun result _ => endsIn EngineError.ofPlan result = false) g := by
  unfold recordInternal
  refine Flow.guarantees_ask_bind.2 ⟨trivial, ?_⟩
  rintro stamp _ ⟨-, rfl⟩
  split
  · exact rfl
  rename_i t made
  have held : t.id.ulid ∈ (g.next .stamp stamp).held := by
    rw [(Transfer.sound_of_accounts made).2]
    exact Set.mem_insert _ _
  refine Flow.guarantees_bind.2
    ((s.engine.rules.prudently_settle_one t.chain held).imp fun result after kept => ?_)
  cases result <;> exact kept

/-- The matching of a new route settles only what it found. -/
theorem Settings.prudently_rescan (s : Settings) (r : Route) (g : Grasp) :
    (s.rescan r).Prudently
    (fun result _ => endsIn EngineError.ofPlan result = false) g := by
  unfold rescan
  refine Flow.guarantees_ledger_bind.2 ⟨trivial, ?_⟩
  rintro earlier _ ⟨different, rfl⟩
  split
  · exact rfl
  have apart : Different ([] ++ earlier) := different
  refine Flow.guarantees_bind.2
    ((s.engine.rules.prudently_settle _ apart (by simp) ?_).imp
    fun result after kept => ?_)
  · exact fun t member => Set.mem_union_right _ ⟨t, member, rfl⟩
  cases result <;> exact kept

/-- A request that is answered with a route is answered with a new one. -/
theorem RouteRequest.prudently_open? (rules : MatchingRules) (request : RouteRequest)
    (o : Order) (g : Grasp) :
    (request.open? rules o).Prudently (fun result _ => ∀ r, result = .ok r →
      r.IsNew) g := by
  unfold open?
  extract_lets finish
  have finished : ∀ identifier g,
      (finish identifier).Prudently (fun result _ => ∀ r, result = .ok r →
        r.IsNew) g := by
    intro identifier g
    exact Flow.guarantees_ask_bind.2
      ⟨trivial, fun stamp _ _ r made => (new_of_build made).2⟩
  split
  · exact finished 0 g
  · exact Flow.guarantees_ask_bind.2
      ⟨trivial, fun identifier g _ => finished identifier g⟩

theorem Settings.prudently_openRoute (s : Settings) (request : RouteRequest) (g : Grasp) :
    (s.openRoute request).Prudently
      (fun result _ => endsIn EngineError.ofPlan result = false) g := by
  unfold openRoute
  refine Flow.guarantees_ledger_bind.2 ⟨trivial, fun order g₁ _ => ?_⟩
  split
  · exact rfl
  refine Flow.guarantees_bind.2
    ((RouteRequest.prudently_open? _ _ _ _).imp fun result g₂ isNew => ?_)
  split
  · exact rfl
  rename_i r
  split
  · exact rfl
  refine Flow.guarantees_ledger_bind.2 ⟨isNew r rfl, fun _ g₃ _ => ?_⟩
  refine Flow.guarantees_bind.2
    ((s.prudently_rescan r g₃).imp fun rescanned g₄ kept => ?_)
  cases rescanned with
  | error e => exact kept
  | ok u => exact Flow.guarantees_ledger_bind.2 ⟨trivial, fun _ _ _ => rfl⟩

theorem Settings.prudently_createOrder (s : Settings) (amount : Amount) (token : Token)
    (reference : String) (g : Grasp) : (s.createOrder amount token reference).Prudently
      (fun result _ => endsIn EngineError.ofPlan result = false) g := by
  unfold createOrder
  split
  · exact rfl
  split
  · exact rfl
  refine Flow.guarantees_bind.2
    (Flow.guarantees_ask_bind.2 ⟨trivial, fun stamp g₁ _ => ?_⟩)
  exact Flow.guarantees_ledger_bind.2 ⟨trivial, fun _ _ _ => rfl⟩

theorem Settings.prudently_registerTracker (s : Settings) (externalRef : String)
    (chain : ChainId) (address : Address) (token : Option Token) (g : Grasp) :
    (s.registerTracker externalRef chain address token).Prudently
      (fun result _ => endsIn EngineError.ofPlan result = false) g := by
  unfold registerTracker
  split
  · exact rfl
  refine Flow.guarantees_bind.2
    (Flow.guarantees_ask_bind.2 ⟨trivial, fun stamp g₁ _ => ?_⟩)
  exact Flow.guarantees_ledger_bind.2 ⟨trivial, fun _ _ _ => rfl⟩

end Requests

end Paywatch
