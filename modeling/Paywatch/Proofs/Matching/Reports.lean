import Paywatch.Proofs.Ingest.Placing
import Paywatch.Proofs.Ledger.Accounts
import Paywatch.Proofs.Matching.Tasks

/-!
# What tasks tell of what they settled

A plan is announced after its commit and only if that was accepted, whatever the ledger
was by then and however often the task tried before.  So a task has told of each of its
settlements once when it ends, and one that fails has told nothing and left the ledger
as it was, but for a route that it may have opened.
-/

namespace Paywatch

namespace Turn

/-- The turn was a commit, and it was accepted. -/
def accepted (t : Turn) : Bool :=
  match t.call with
  | .commit b => (t.before.commit b).isOk
  | .commitPlan writes p => (t.before.commitPlan writes p).isOk
  | _ => false

def Opens (t : Turn) : Prop := ∃ r, t.call = .insertRoute r

/-- The turn was a commit of the claims, with this result. -/
structure Commits (t : Turn) (claims : List Claim) (result : Except LedgerError Ledger) :
    Prop where
  after : t.after = (t.before.attempt result).2
  settled : t.settled = if result.isOk then claims else []
  accepted : t.accepted = result.isOk

theorem commits_commit {t : Turn} {b : Batch} (called : t.call = .commit b) :
    t.Commits b.claims (t.before.commit b) where
  after := by
    rw [Turn.after, called]
    rfl
  settled := by
    rw [Turn.settled, called]
    rfl
  accepted := by simp only [Turn.accepted, called]

theorem commits_commitPlan {t : Turn} {writes : List TransferWrite} {p : Plan}
    (called : t.call = .commitPlan writes p) :
    t.Commits p.claims (t.before.commitPlan writes p) where
  after := by
    rw [Turn.after, called]
    rfl
  settled := by
    rw [Turn.settled, called]
    rfl
  accepted := by simp only [Turn.accepted, called]

end Turn

theorem Attempt.eq_of_done {ε α : Type} {wrap : LedgerError → ε} {x y : α}
    {reply : Except LedgerError Unit} (done : ofCommit wrap x reply = .done y) :
    x = y := by
  cases reply with
  | ok u =>
      cases done
      rfl
  | error e =>
      simp only [ofCommit] at done
      split at done <;> cases done

/-- What a task did to the ledger and what it told, newest first. -/
structure Record where
  deeds : List Turn
  told : List Notice

namespace Record

def empty : Record := ⟨[], []⟩

/-- The settlements of its deeds. -/
def settled (r : Record) : List Settlement :=
  (r.deeds.flatMap Turn.settled).map Claim.settlement

/-- The settlements that it told of. -/
def announced (r : Record) : List Settlement := r.told.filterMap Notice.settlement?

/-- Calls are answered in any way, and those to the ledger by any ledger.  What is more
than a question is a deed. -/
def Answers : Answering Record
  | r, .ledger c, reply, after => ∃ number task l, reply = (Ledger.perform l c).1 ∧
      after = if c.asks then r else ⟨⟨number, task, c, l⟩ :: r.deeds, r.told⟩
  | r, .publish n, _, after => after = ⟨r.deeds, n :: r.told⟩
  | r, _, _, after => after = r

/-- From one record to the other everything that was settled was announced, and nothing
was told without success. -/
structure Reported (r after : Record) (ok : Bool) : Prop where
  announced : ∃ new, after.settled = new ++ r.settled ∧
    after.announced.Perm (new ++ r.announced)
  silent : ok = false → after.told = r.told
  deeds : ∀ t ∈ after.deeds, t ∈ r.deeds ∨ t.after = t.before ∨ t.Opens ∨
    ok = true ∧ t.accepted = true

theorem Reported.refl (r : Record) (ok : Bool) : r.Reported r ok :=
  ⟨⟨[], rfl, .rfl⟩, fun _ => rfl, fun _ member => Or.inl member⟩

theorem Reported.trans {r there after : Record} {ok : Bool}
    (first : r.Reported there false) (second : there.Reported after ok) :
    r.Reported after ok where
  announced := by
    obtain ⟨old, settled, announced⟩ := first.announced
    obtain ⟨new, settled', announced'⟩ := second.announced
    refine ⟨new ++ old, by rw [settled', settled, List.append_assoc], ?_⟩
    rw [List.append_assoc]
    exact announced'.trans (announced.append_left new)
  silent failed := (second.silent failed).trans (first.silent rfl)
  deeds := by
    intro t member
    rcases second.deeds t member with old | new
    · rcases first.deeds t old with older | unmoved | opens | ⟨ok, -⟩
      · exact Or.inl older
      · exact Or.inr (Or.inl unmoved)
      · exact Or.inr (Or.inr (Or.inl opens))
      · cases ok
    · exact Or.inr new

/-- A deed that settled nothing, and left the ledger as it was or opened a route. -/
theorem reported_of_nothing {r : Record} {t : Turn} (settled : t.settled = [])
    (unmoved : t.after = t.before ∨ t.Opens) :
    r.Reported ⟨t :: r.deeds, r.told⟩ false where
  announced := ⟨[], by simp [Record.settled, settled], .rfl⟩
  silent _ := rfl
  deeds := by
    rw [List.forall_mem_cons]
    refine ⟨Or.inr ?_, fun _ member => Or.inl member⟩
    exact unmoved.imp id Or.inl

/-- A commit that was accepted, and announced. -/
theorem reported_of_accepted {r : Record} {t : Turn} {ns : List Notice}
    (accepted : t.accepted = true)
    (announces : ns.filterMap Notice.settlement? = t.settled.map Claim.settlement) :
    r.Reported ⟨t :: r.deeds, ns.reverse ++ r.told⟩ true where
  announced := by
    refine ⟨t.settled.map Claim.settlement, by simp [Record.settled], ?_⟩
    rw [Record.announced, List.filterMap_append, List.filterMap_reverse, announces]
    exact (List.reverse_perm _).append_right _
  silent := nofun
  deeds := by
    rw [List.forall_mem_cons]
    exact ⟨Or.inr (Or.inr (Or.inr ⟨rfl, accepted⟩)), fun _ member => Or.inl member⟩

variable {α : Type} {r after : Record}

/-- A flow that is mute and only asks is not recorded. -/
theorem eq_of_mute {x : Flow α} {a : α} (only : x.Only Call.Mute)
    (leads : x.Leads Answers r a after) : r = after := by
  refine (only.kept id ?_ leads).symm
  intro s c reply there mute answer
  cases c with
  | ledger c =>
      obtain ⟨_, _, _, -, rfl⟩ := answer
      exact if_pos mute
  | publish n => exact mute.elim
  | _ => exact answer

theorem leads_of_mute {β : Type} {x : Flow α} {f : α → Flow β} {b : β}
    (only : x.Only Call.Mute) (leads : (x >>= f).Leads Answers r b after) :
    ∃ a, (f a).Leads Answers r b after := by
  obtain ⟨a, there, first, rest⟩ := Flow.leads_bind.1 leads
  obtain rfl := eq_of_mute only first
  exact ⟨a, rest⟩

theorem leads_deed {c : Ledger.Call} (deed : c.asks = false) {reply : c.Reply}
    (leads : (Flow.ledger c).Leads Answers r reply after) :
    ∃ t : Turn, t.call = c ∧ reply = (t.before.perform c).1 ∧
      after = ⟨t :: r.deeds, r.told⟩ := by
  obtain ⟨number, task, l, same, rfl⟩ := Flow.leads_ask.1 leads
  exact ⟨⟨number, task, c, l⟩, rfl, same, by simp [deed]⟩

theorem leads_publishAll {ns : List Notice} {u : Unit}
    (leads : (Flow.publishAll ns).Leads Answers r u after) :
    after = ⟨r.deeds, ns.reverse ++ r.told⟩ := by
  unfold Flow.publishAll at leads
  induction ns generalizing r with
  | nil =>
      obtain ⟨-, rfl⟩ := leads
      rfl
  | cons n rest ih =>
      rw [List.forM, Flow.leads_bind] at leads
      obtain ⟨_, there, tells, leads⟩ := leads
      obtain rfl : there = ⟨r.deeds, n :: r.told⟩ := Flow.leads_ask.1 tells
      rw [ih leads, List.reverse_cons, List.append_assoc]
      rfl

/-! ## Attempts -/

section Attempts

variable {ε : Type}

/-- What an attempt may have done when it ends. -/
def Tried (r after : Record) : Attempt ε α → Prop
  | .done _ => r.Reported after true
  | .conflict => r.Reported after false
  | .failed _ => r.Reported after false

/-- Attempts are reported when they are repeated. -/
theorem reported_upTo {exhausted : ε} {attempt : Flow (Attempt ε α)}
    (once : ∀ r a after, attempt.Leads Answers r a after → r.Tried after a) {n : Nat}
    {result : Except ε α}
    (leads : (Attempt.upTo exhausted attempt n).Leads Answers r result after) :
    r.Reported after result.isOk := by
  induction n generalizing r with
  | zero =>
      obtain ⟨rfl, rfl⟩ := leads
      exact .refl _ _
  | succ n ih =>
      rw [Attempt.upTo, Flow.leads_bind] at leads
      obtain ⟨a, there, first, rest⟩ := leads
      have tried := once _ _ _ first
      cases a with
      | done x =>
          obtain ⟨rfl, rfl⟩ := rest
          exact tried
      | failed e =>
          obtain ⟨rfl, rfl⟩ := rest
          exact tried
      | conflict => exact Reported.trans tried (ih rest)

variable {wrap : LedgerError → ε} {x y : α} {t : Turn} {claims : List Claim}
  {result : Except LedgerError Ledger} (commits : t.Commits claims result)
include commits

/-- A commit that was refused is no success and changed nothing. -/
theorem tried_of_refused
    (refused : ∀ z, Attempt.ofCommit wrap x (t.before.attempt result).1 ≠ .done z) :
    r.Tried ⟨t :: r.deeds, r.told⟩
      (Attempt.ofCommit wrap x (t.before.attempt result).1) := by
  have notOk : result.isOk = false := by
    cases result with
    | ok l => exact absurd rfl (refused x)
    | error e => rfl
  rcases Attempt.ofCommit_cases wrap x t.before result with ⟨-, done⟩ | ⟨unmoved, failed⟩
  · exact absurd done (refused x)
  · have reported := reported_of_nothing (r := r) (by simp [commits.settled, notOk])
      (Or.inl (commits.after.trans unmoved))
    rcases failed with conflict | ⟨e, failed⟩
    · rw [conflict]
      exact reported
    · rw [failed]
      exact reported

/-- A commit that was accepted is announced. -/
theorem reported_of_done {ns : List Notice}
    (done : Attempt.ofCommit wrap x (t.before.attempt result).1 = .done y)
    (announces : ns.filterMap Notice.settlement? = claims.map Claim.settlement) :
    r.Reported ⟨t :: r.deeds, ns.reverse ++ r.told⟩ true := by
  have ok := isOk_of_done done
  apply reported_of_accepted (commits.accepted.trans ok)
  rw [announces, commits.settled, if_pos ok]

end Attempts

end Record

/-! ## Operations -/

open Record (Answers)

variable {r after : Record}

theorem MatchingRules.tried_settleOnce {rules : MatchingRules} {chain : ChainId}
    {new stored : List Transfer} {a : Attempt SettleError Plan}
    (leads : (rules.settleOnce chain new stored).Leads Answers r a after) :
    r.Tried after a := by
  unfold settleOnce at leads
  extract_lets ts at leads
  obtain ⟨ctx, leads⟩ := Record.leads_of_mute (Flow.only_ask.2 (by rfl)) leads
  split at leads
  · obtain ⟨rfl, rfl⟩ := leads
    exact Record.Reported.refl _ _
  · obtain ⟨p, leads⟩ := Record.leads_of_mute (Draft.only_stamp _).mute leads
    rw [Flow.leads_bind] at leads
    obtain ⟨reply, _, commits, leads⟩ := leads
    obtain ⟨t, called, rfl, rfl⟩ := Record.leads_deed rfl commits
    have commits := Turn.commits_commitPlan called
    split at leads
    · rename_i done
      obtain rfl := Attempt.eq_of_done done
      rw [Flow.leads_bind] at leads
      obtain ⟨_, _, announces, rfl, rfl⟩ := leads
      rw [Record.leads_publishAll announces]
      exact Record.reported_of_done commits done p.settlements_notices
    · rename_i refused
      obtain ⟨rfl, rfl⟩ := leads
      exact Record.tried_of_refused commits refused

namespace Ingest

theorem tried_blockOnce {i : Ingest} {start : Batch} {failures : Nat}
    {events : List ChainEvent} {new : List Transfer} {a : Attempt WorkerError BlockReport}
    (leads : (i.blockOnce start failures events new).Leads Answers r a after) :
    r.Tried after a := by
  unfold blockOnce at leads
  obtain ⟨stored, leads⟩ := Record.leads_of_mute (Flow.only_ask.2 (by rfl)) leads
  obtain ⟨now, leads⟩ := Record.leads_of_mute (Flow.only_ask.2 (by trivial)) leads
  obtain ⟨planned, leads⟩ := Record.leads_of_mute (only_plan i _) leads
  split at leads
  · obtain ⟨rfl, rfl⟩ := leads
    exact Record.Reported.refl _ _
  · rename_i p
    rw [Flow.leads_bind] at leads
    obtain ⟨reply, _, commits, leads⟩ := leads
    obtain ⟨t, called, rfl, rfl⟩ := Record.leads_deed rfl commits
    have commits := Turn.commits_commit called
    split at leads
    · rename_i done
      rw [Flow.leads_bind] at leads
      obtain ⟨_, _, announces, rfl, rfl⟩ := leads
      rw [Record.leads_publishAll announces]
      exact Record.reported_of_done commits done p.settlements_notices
    · rename_i refused
      obtain ⟨rfl, rfl⟩ := leads
      exact Record.tried_of_refused commits refused

theorem reported_block {i : Ingest} {lease : Lease} {b : Block} {base : Bool}
    {result : Except WorkerError BlockReport}
    (leads : (i.block lease b base).Leads Answers r result after) :
    r.Reported after result.isOk := by
  unfold block at leads
  obtain ⟨extraction, leads⟩ := Record.leads_of_mute (only_extract b).mute leads
  split at leads
  · obtain ⟨rfl, rfl⟩ := leads
    exact .refl _ _
  · obtain ⟨known, leads⟩ := Record.leads_of_mute (Flow.only_ask.2 (by rfl)) leads
    extract_lets events at leads
    obtain ⟨time, leads⟩ := Record.leads_of_mute (only_blockTime b).mute leads
    obtain ⟨new, leads⟩ := Record.leads_of_mute (only_transfersOf _ _).mute leads
    exact Record.reported_upTo (fun _ _ _ => tried_blockOnce) leads

theorem tried_revertOnce {i : Ingest} {lease : Lease} {range : RevertedRange}
    {a : Attempt WorkerError Nat}
    (leads : (i.revertOnce lease range).Leads Answers r a after) : r.Tried after a := by
  unfold revertOnce at leads
  obtain ⟨stored, leads⟩ := Record.leads_of_mute (Flow.only_ask.2 (by rfl)) leads
  extract_lets reverted at leads
  rw [Flow.leads_bind] at leads
  obtain ⟨reply, _, commits, leads⟩ := leads
  obtain ⟨t, called, rfl, rfl⟩ := Record.leads_deed rfl commits
  have commits := Turn.commits_commit called
  split at leads
  · rename_i done
    rw [Flow.leads_bind] at leads
    obtain ⟨_, _, announces, rfl, rfl⟩ := leads
    rw [Record.leads_publishAll announces]
    exact Record.reported_of_done commits done rfl
  · rename_i refused
    obtain ⟨rfl, rfl⟩ := leads
    exact Record.tried_of_refused commits refused

end Ingest

theorem RouteRequest.only_open? (rules : MatchingRules) (request : RouteRequest)
    (o : Order) : (request.open? rules o).Only Call.Outside := by
  unfold open?
  extract_lets finish
  have finished : ∀ identifier, (finish identifier).Only Call.Outside :=
    fun _ => Flow.only_bind (Flow.only_ask.2 trivial) fun _ => Flow.only_pure _
  split
  · exact finished 0
  · exact Flow.only_bind (Flow.only_ask.2 trivial) finished

/-- Settling stored transfers for a new route is reported as any settlement. -/
theorem Settings.reported_rescan {s : Settings} {route : Route}
    {result : Except EngineError Unit}
    (leads : (s.rescan route).Leads Answers r result after) :
    r.Reported after result.isOk := by
  unfold rescan at leads
  obtain ⟨earlier, leads⟩ := Record.leads_of_mute (Flow.only_ask.2 (by rfl)) leads
  split at leads
  · obtain ⟨rfl, rfl⟩ := leads
    exact .refl _ _
  · rw [Flow.leads_bind] at leads
    obtain ⟨settled, _, settles, leads⟩ := leads
    have reported :=
      Record.reported_upTo (fun _ _ _ => MatchingRules.tried_settleOnce) settles
    cases settled with
    | error e =>
        obtain ⟨rfl, rfl⟩ := leads
        exact reported
    | ok p =>
        obtain ⟨rfl, rfl⟩ := leads
        exact reported

theorem Settings.reported_openRoute {s : Settings} {request : RouteRequest}
    {result : Except EngineError Route}
    (leads : (s.openRoute request).Leads Answers r result after) :
    r.Reported after result.isOk := by
  unfold openRoute at leads
  obtain ⟨order, leads⟩ := Record.leads_of_mute (Flow.only_ask.2 (by rfl)) leads
  split at leads
  · obtain ⟨rfl, rfl⟩ := leads
    exact .refl _ _
  obtain ⟨made, leads⟩ := Record.leads_of_mute (RouteRequest.only_open? _ _ _).mute leads
  split at leads
  · obtain ⟨rfl, rfl⟩ := leads
    exact .refl _ _
  rename_i route
  split at leads
  · obtain ⟨rfl, rfl⟩ := leads
    exact .refl _ _
  rw [Flow.leads_bind] at leads
  obtain ⟨u, _, inserts, leads⟩ := leads
  obtain ⟨t, called, -, rfl⟩ := Record.leads_deed rfl inserts
  have opened : r.Reported ⟨t :: r.deeds, r.told⟩ false :=
    Record.reported_of_nothing (by simp [Turn.settled, called, Ledger.Call.settled])
      (Or.inr ⟨route, called⟩)
  rw [Flow.leads_bind] at leads
  obtain ⟨rescanned, _, rescans, leads⟩ := leads
  have reported := opened.trans (reported_rescan rescans)
  cases rescanned with
  | error e =>
      obtain ⟨rfl, rfl⟩ := leads
      exact reported
  | ok u =>
      obtain ⟨found, leads⟩ := Record.leads_of_mute (Flow.only_ask.2 (by rfl)) leads
      obtain ⟨rfl, rfl⟩ := leads
      exact reported

/-- Whatever a task was answered, it has told of what it settled when it ends. -/
theorem Operation.reported {s : Settings} {o : Operation} {ok : Bool}
    (leads : (o.flow s).Leads Answers r ok after) : r.Reported after ok := by
  cases o with
  | block chain depth lease b base =>
      obtain ⟨result, _, ingests, rfl, rfl⟩ := Flow.leads_bind.1 leads
      exact Ingest.reported_block ingests
  | revert chain depth lease range =>
      obtain ⟨result, _, reverts, rfl, rfl⟩ := Flow.leads_bind.1 leads
      exact Record.reported_upTo (fun _ _ _ => Ingest.tried_revertOnce) reverts
  | openRoute request =>
      obtain ⟨result, _, opens, rfl, rfl⟩ := Flow.leads_bind.1 leads
      exact Settings.reported_openRoute opens
  | settle chain new stored =>
      obtain ⟨result, _, settles, rfl, rfl⟩ := Flow.leads_bind.1 leads
      exact Record.reported_upTo (fun _ _ _ => MatchingRules.tried_settleOnce) settles

end Paywatch
