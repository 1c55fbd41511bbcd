import Paywatch.Proofs.Matching.Interleaving
import Paywatch.Proofs.Matching.Orderly

/-!
# Attempts that nobody disturbs

While a task plans and commits, nobody else writes to the ledger; time may go on, and
whatever has nothing to do with the ledger may be answered in any way.  What a plan
claims of an orderly ledger is then still open when it is committed, so only the lease
and the transfers that were claimed before can be in the way.
-/

namespace Paywatch

namespace Ledger

variable {l after : Ledger}

/-! ## Time goes on -/

theorem wait_wait (l : Ledger) (ticks later : Nat) :
    (l.wait ticks).wait later = l.wait (ticks + later) := by
  rw [wait, wait, wait, Nat.add_assoc]

/-- The ledger is as it was, only later. -/
def Later (l after : Ledger) : Prop := ∃ ticks, after = l.wait ticks

theorem Later.refl (l : Ledger) : l.Later l := ⟨0, rfl⟩

theorem Later.trans {mid : Ledger} (first : l.Later mid) (second : mid.Later after) :
    l.Later after := by
  obtain ⟨ticks, same⟩ := first
  obtain ⟨later, same'⟩ := second
  exact ⟨ticks + later, by rw [same', same, wait_wait]⟩

/-! ## What is accepted -/

/-- A plan for different transfers passes its own check, and claims what is open. -/
theorem Ordered.plan (ordered : l.Ordered) (rules : MatchingRules) (chain : ChainId)
    (keys : List MatchKey) {ts : List Transfer} (different : Different ts) :
    ∃ draft, rules.plan (l.matchContext chain keys) ts = .ok draft ∧
      ∀ k ∈ draft.claims, k.OnOpen (l.matchContext chain keys) := by
  have once : ((l.matchContext chain keys).routes.map (·.id)).Nodup :=
    (Table.nodup_values ordered.route).sublist (List.filter_sublist.map _)
  exact rules.plan_of_distinct different once

/-- A claim on what is open is accepted if its transfer settled nothing yet. -/
theorem Ordered.checkClaim_of_onOpen (ordered : l.Ordered) {chain : ChainId}
    {keys : List MatchKey} {k : Claim} (onOpen : k.OnOpen (l.matchContext chain keys))
    (unclaimed : l.isClaimed k.transferId = false) : l.checkClaim k = .ok () := by
  obtain ⟨⟨r, inContext, isOpen, named, ofRoute⟩, o, placed, orderOpen⟩ := onOpen
  obtain ⟨id, found⟩ := Table.mem_values_iff.1 (mem_routes_matchContext.1 inContext).1
  obtain rfl := ordered.route id r found
  have there := get?_orders_matchContext ordered.order placed
  simp [checkClaim, named, found, isOpen, ordered.unconsumed _ r found isOpen, there,
    orderOpen, unclaimed]

/-- A claim whose transfer settled a route before is refused. -/
theorem checkClaim_of_isClaimed {k : Claim} (claimed : l.isClaimed k.transferId = true) :
    l.checkClaim k = .error (.claimConflict k.routeId) := by
  simp [checkClaim, claimed]

/-- A pending transfer may be replaced. -/
theorem Ordered.checkWrite_of_pending (ordered : l.Ordered) {u t : Transfer}
    (stored : u ∈ l.transfers.values) (pending : u.status = .pending)
    (same : t.id = u.id) :
    l.checkWrite (.update t .pending) = .ok () := by
  rw [checkWrite, same, ordered.get?_of_mem stored]
  exact if_pos pending

/-- A batch that fits the ledger is accepted if the lease is held, and
otherwise refused for that. -/
theorem commit_of_checks {b : Batch} {moves : Bool}
    (writable : ∀ w ∈ b.writes, l.checkWrite w = .ok ())
    (claimable : ∀ k ∈ b.claims, l.checkClaim k = .ok ())
    (links : b.advances (l.watermark b.chain)
      (l.recordedHash? b.chain b.target.height) = .ok moves) :
    (l.perform (.commit b)).1 = if l.holds b.lease then .ok ()
      else .error (.leaseLost b.chain) := by
  have written := (forM_eq_ok l.checkWrite b.writes).2 writable
  have claimed := (forM_eq_ok l.checkClaim b.claims).2 claimable
  cases held : l.holds b.lease with
  | true =>
      simp [perform, attempt, commit, checkLease, held, written, claimed, links, bind,
        Except.bind, pure, Except.pure]
  | false =>
      simp [perform, attempt, commit, checkLease, held, bind, Except.bind, Batch.chain]

section CommitPlan

variable {p : Plan}

theorem writable_inserts (l : Ledger) (new : List Transfer) :
    (new.map TransferWrite.insert).forM l.checkWrite = .ok () := by
  refine (forM_eq_ok _ _).2 fun w member => ?_
  obtain ⟨t, -, rfl⟩ := List.mem_map.1 member
  rfl

/-- New transfers and a plan are accepted if each claim is. -/
theorem commitPlan_of_checks (new : List Transfer)
    (claimable : ∀ k ∈ p.claims, l.checkClaim k = .ok ()) :
    (l.perform (.commitPlan (new.map .insert) p)).1 = .ok () := by
  have claimed := (forM_eq_ok l.checkClaim p.claims).2 claimable
  simp [perform, attempt, commitPlan, writable_inserts, claimed, bind, Except.bind, pure,
    Except.pure]

/-- A plan is refused with a conflict if it claims a transfer that settled
a route before. -/
theorem commitPlan_of_claimed (new : List Transfer) {k : Claim} (member : k ∈ p.claims)
    (claimed : l.isClaimed k.transferId = true) :
    ∃ route, (l.perform (.commitPlan (new.map .insert) p)).1 =
      .error (.claimConflict route) := by
  cases claims : p.claims.forM l.checkClaim with
  | ok u =>
      have accepted := (forM_eq_ok l.checkClaim p.claims).1 claims k member
      rw [checkClaim_of_isClaimed claimed] at accepted
      cases accepted
  | error e =>
      obtain ⟨d, -, refused⟩ := error_of_forM claims
      obtain rfl : .claimConflict d.routeId = e := by
        unfold checkClaim at refused
        extract_lets routeOpen orderOpen at refused
        split at refused
        · cases refused
        · exact Except.error.inj refused
      refine ⟨d.routeId, ?_⟩
      simp [perform, attempt, commitPlan, writable_inserts, claims, bind, Except.bind]

end CommitPlan

end Ledger

/-! ## Flows that nobody disturbs -/

/-- Calls are answered by a ledger that nobody else writes to, and by anybody else in
any way.  Before each answer some time may pass. -/
def Undisturbed : Answering Ledger
  | l, .ledger c, reply, after =>
      ∃ now, l.Later now ∧ reply = (now.perform c).1 ∧ after = (now.perform c).2
  | l, _, _, after => l.Later after

namespace Undisturbed

/-- Answers a call at once, with no node and no chain to ask. -/
def perform (c : Call) (l : Ledger) : c.Reply × Ledger :=
  ((Surroundings.perform .empty ⟨[]⟩ c ⟨l, []⟩).1,
    (Surroundings.perform .empty ⟨[]⟩ c ⟨l, []⟩).2.ledger)

theorem answers_perform (l : Ledger) (c : Call) :
    Undisturbed l c (perform c l).1 (perform c l).2 := by
  cases c with
  | ledger c => exact ⟨l, .refl l, rfl, rfl⟩
  | ask provider q => cases q <;> exact Ledger.Later.refl l
  | _ => exact Ledger.Later.refl l

/-- What a flow comes to that is tried alone. -/
def trial? {α : Type} (x : Flow α) (l : Ledger) : Option (α × Ledger) :=
  x.run? perform (fun _ _ => true) l

theorem leads_of_trial? {α : Type} {x : Flow α} {l after : Ledger} {a : α}
    (tried : trial? x l = some (a, after)) : x.Leads Undisturbed l a after :=
  Flow.leads_of_run? (fun l c _ => answers_perform l c) tried

end Undisturbed

namespace Flow

variable {α : Type}

/-- The goal is reached if nobody disturbs the flow. -/
abbrev Quietly (x : Flow α) (goal : α → Ledger → Prop) (l : Ledger) : Prop :=
  x.Guarantees Undisturbed (fun _ _ => True) goal l

theorem Quietly.surely {x : Flow α} {goal : α → Ledger → Prop} {l : Ledger}
    (quietly : x.Quietly goal l) : Surely Undisturbed x l goal :=
  Guarantees.surely quietly fun l c => ⟨_, _, Undisturbed.answers_perform l c⟩

/-- A question leaves the ledger as it is, only later, and is answered as
it would be now. -/
theorem quietly_ledger_bind {β : Type} {c : Ledger.Call} {f : c.Reply → Flow β}
    {goal : β → Ledger → Prop} {l : Ledger} (asks : c.asks = true)
    (goesOn : ∀ now, l.Later now → (f (now.perform c).1).Quietly goal now) :
    (ledger c >>= f).Quietly goal l := by
  refine guarantees_ledger_bind.2 ⟨trivial, ?_⟩
  rintro _ _ ⟨now, later, rfl, rfl⟩
  rw [Ledger.perform_asks now asks]
  exact goesOn now later

/-- A mute flow leaves the ledger as it is, only later. -/
theorem Only.quietly {x : Flow α} (only : x.Only Call.Mute) (l : Ledger) :
    x.Quietly (fun _ after => l.Later after) l := by
  refine only.guarantees (fun _ _ _ => trivial) .refl (fun _ _ _ => .trans) ?_
  intro l c reply after mute answer
  cases c with
  | ledger c =>
      obtain ⟨now, later, -, rfl⟩ := answer
      rwa [Ledger.perform_asks now mute]
  | publish n => exact mute.elim
  | _ => exact answer

end Flow

/-- Nobody disturbs the stamping of a draft. -/
theorem Draft.quietly_stamp (d : Draft) (l : Ledger) :
    d.stamp.Quietly (fun plan after => plan.claims = d.claims ∧ l.Later after) l := by
  unfold Draft.stamp
  exact Flow.guarantees_bind.2 <|
    ((DepositDraft.only_record d.deposits).mute.quietly l).imp fun _ _ later =>
      ⟨rfl, later⟩

end Paywatch
