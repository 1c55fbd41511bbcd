import Paywatch.Engine.Basic
import Paywatch.Proofs.Flow.Turns
import Paywatch.Proofs.Ingest.Recorded
import Paywatch.Proofs.Ledger.Closing

/-!
# How tasks settle

Whatever task commits claims has planned them from a context that an earlier turn of
it was given, and every confirmed transfer that it writes went through that plan.  A
task that opens a route looks up the transfers that paid into its destination
before, and settles them.
-/

namespace Paywatch

namespace Turn

/-- The claims that the turn settled. -/
def settled (t : Turn) : List Claim := t.call.settled t.before

/-- The turn wrote the transfer. -/
def Writes (t : Turn) (u : Transfer) : Prop :=
  .insert u ∈ t.call.written t.before ∨ ∃ s, .update u s ∈ t.call.written t.before

/-- The claims are planned for some transfers from the context that the turn was given. -/
def Plans (rules : MatchingRules) (m : Turn) (ts : List Transfer) (claims : List Claim) :
    Prop :=
  ∃ chain draft, m.call = .matchContext chain (MatchKey.ofTransfers ts) ∧
    rules.plan (m.before.matchContext chain (MatchKey.ofTransfers ts)) ts = .ok draft ∧
      draft.claims = claims

end Turn

/-- What a task may do in a turn after its turns so far. -/
structure Lawful (rules : MatchingRules) (past : List Turn) (t : Turn) : Prop where
  /-- What is settled, and what is written as confirmed, went through one plan. -/
  planned : ∃ ts, (∀ u, t.Writes u → u.status = .confirmed → u ∈ ts) ∧
    (ts = [] ∧ t.settled = [] ∨ ∃ m ∈ past, m.Plans rules ts t.settled)
  /-- A route is opened for an order that the task has seen. -/
  placed : ∀ r, t.call = .insertRoute r →
  ∃ q ∈ past, ∃ id o, q.before.orders.get? id = some o ∧
    r.orderId = o.id
  new : ∀ r, t.call = .insertRoute r → r.IsNew
  noOrder : ∀ o, t.call ≠ .insertOrder o

/-- What a task may do that opens no route. -/
def Calm (rules : MatchingRules) (past : List Turn) (t : Turn) : Prop :=
  Lawful rules past t ∧ ∀ r, t.call ≠ .insertRoute r

variable {rules : MatchingRules} {past : List Turn} {t : Turn}

theorem Lawful.of_nothing (settled : t.settled = []) (unconfirmed : ∀ u, t.Writes u →
    u.status ≠ .confirmed) (noOrder : ∀ o, t.call ≠ .insertOrder o)
    (noRoute : ∀ r, t.call ≠ .insertRoute r) : Lawful rules past t where
  planned := ⟨[], fun u writes confirmed => absurd confirmed (unconfirmed u writes),
    Or.inl ⟨rfl, settled⟩⟩
  placed r called := absurd called (noRoute r)
  new r called := absurd called (noRoute r)
  noOrder := noOrder

theorem calm_of_asks {c : Ledger.Call} (called : t.call = c) (asks : c.asks = true) :
    Calm rules past t := by
  have noRoute : ∀ r, t.call ≠ .insertRoute r := by
    intro r opens
    rw [← called, opens] at asks
    cases asks
  refine ⟨.of_nothing ?_ ?_ ?_ noRoute, noRoute⟩
  · rw [Turn.settled, called]
    cases c with
    | commit b => cases asks
    | commitPlan writes p => cases asks
    | _ => rfl
  · intro u writes
    rw [Turn.Writes, called] at writes
    cases c with
    | commit b => cases asks
    | commitPlan ws p => cases asks
    | _ => simp [Ledger.Call.written] at writes
  · intro o places
    rw [← called, places] at asks
    cases asks

theorem obeys_asks {c : Ledger.Call} {goal : List Turn → c.Reply → Prop}
    (asks : c.asks = true)
    (goals : ∀ t : Turn, t.call = c → (∀ p ∈ past, p.number < t.number) →
      goal (t :: past) (t.before.perform c).1) :
    (Flow.ledger c).Obeys (Calm rules) goal past := by
  rw [Flow.obeys_ledger]
  intro t called later
  exact ⟨calm_of_asks called asks, goals t called later⟩

/-- A commit of what was planned is lawful, whether it is accepted or refused. -/
theorem calm_commitPlan {writes : List TransferWrite} {p : Plan} {ts : List Transfer}
    (called : t.call = .commitPlan writes p)
    (among : ∀ u, (.insert u ∈ writes ∨ ∃ s, .update u s ∈ writes) →
      u.status = .confirmed → u ∈ ts)
    (planned : ts = [] ∧ p.claims = [] ∨ ∃ m ∈ past, m.Plans rules ts p.claims) :
    Calm rules past t := by
  refine ⟨⟨?_, by simp [called], by simp [called], by simp [called]⟩, by simp [called]⟩
  simp only [Turn.Writes, Turn.settled, called, Ledger.Call.written, Ledger.Call.settled]
  cases accepted : (t.before.commitPlan writes p).isOk with
  | false => exact ⟨[], by simp, Or.inl ⟨rfl, by simp⟩⟩
  | true => exact ⟨ts, by simpa using among, by simpa using planned⟩

theorem calm_commit {b : Batch} {ts : List Transfer} (called : t.call = .commit b)
    (among : ∀ u, (.insert u ∈ b.writes ∨ ∃ s, .update u s ∈ b.writes) →
      u.status = .confirmed → u ∈ ts)
    (planned : ts = [] ∧ b.claims = [] ∨ ∃ m ∈ past, m.Plans rules ts b.claims) :
    Calm rules past t := by
  refine ⟨⟨?_, by simp [called], by simp [called], by simp [called]⟩, by simp [called]⟩
  simp only [Turn.Writes, Turn.settled, called, Ledger.Call.written, Ledger.Call.settled]
  cases accepted : (t.before.commit b).isOk with
  | false => exact ⟨[], by simp, Or.inl ⟨rfl, by simp⟩⟩
  | true => exact ⟨ts, by simpa using among, by simpa using planned⟩

/-- An attempt that is done had its commit accepted. -/
theorem isOk_of_done {ε α : Type} {wrap : LedgerError → ε} {x y : α} {l : Ledger}
    {result : Except LedgerError Ledger}
    (done : Attempt.ofCommit wrap x (l.attempt result).1 = .done y) :
    result.isOk = true := by
  cases result with
  | ok after => rfl
  | error e =>
      simp only [Ledger.attempt, Attempt.ofCommit] at done
      split at done <;> cases done

theorem Draft.obeys_stamp {rule : List Turn → Turn → Prop}
    {goal : List Turn → Plan → Prop} {d : Draft}
    (goals : ∀ p : Plan, p.claims = d.claims → goal past p) :
    d.stamp.Obeys rule goal past := by
  unfold Draft.stamp
  rw [Flow.obeys_bind]
  exact (DepositDraft.only_record d.deposits).silent.obeys fun deposits => goals _ rfl

/-- One settlement plans and commits for all its transfers. -/
theorem MatchingRules.obeys_settleOnce (rules : MatchingRules) (chain : ChainId)
    (new stored : List Transfer) (past : List Turn) :
    (rules.settleOnce chain new stored).Obeys (Calm rules)
      (fun now a => ∀ plan, a = .done plan →
      ∃ m ∈ now, ∃ c ∈ now, (∀ p ∈ past, p.number < m.number) ∧
        m.Plans rules (new ++ stored) c.settled) past := by
  unfold settleOnce
  simp only [Flow.obeys_bind]
  apply obeys_asks rfl
  intro m asked later
  cases planned : rules.plan (m.before.perform (.matchContext chain
      (MatchKey.ofTransfers (new ++ stored)))).1 (new ++ stored) with
  | error e =>
      intro plan done
      cases done
  | ok draft =>
      simp only [Flow.obeys_bind]
      apply Draft.obeys_stamp
      intro p claims
      have plans : m.Plans rules (new ++ stored) p.claims :=
        ⟨chain, draft, asked, planned, claims.symm⟩
      rw [Flow.obeys_ledger]
      intro c called afterwards
      constructor
      · apply calm_commitPlan called ?_ (Or.inr ⟨m, List.mem_cons_self, plans⟩)
        rintro u (inserted | ⟨s, updated⟩) -
        · obtain ⟨v, among, same⟩ := List.mem_map.1 inserted
          cases same
          exact List.mem_append_left _ among
        · obtain ⟨v, -, same⟩ := List.mem_map.1 updated
          cases same
      · split
        · rename_i result done
          have accepted := isOk_of_done done
          have settled : c.settled = p.claims := by
            simp [Turn.settled, called, Ledger.Call.settled, accepted]
          rw [Flow.obeys_bind]
          apply (Flow.silent_publishAll _).obeys
          rintro - plan -
          rw [← settled] at plans
          exact ⟨m, List.mem_cons_of_mem _ List.mem_cons_self, c, List.mem_cons_self,
            later, plans⟩
        · rename_i refused
          intro plan done
          exact absurd done (refused plan)

/-- A settlement that succeeds has planned and committed for all its transfers. -/
theorem MatchingRules.obeys_settle (rules : MatchingRules) (chain : ChainId)
    (new stored : List Transfer) (past : List Turn) :
    (rules.settle chain new stored).Obeys (Calm rules) (fun now r => r.isOk = true →
      ∃ m ∈ now, ∃ c ∈ now, (∀ p ∈ past, p.number < m.number) ∧
        m.Plans rules (new ++ stored) c.settled) past := by
  apply Attempt.obeys_upTo
  · intro now e ok
    cases ok
  · intro there more
    apply (rules.obeys_settleOnce chain new stored there).imp (fun _ _ => id)
    intro now a reached x done _
    obtain ⟨m, mNow, c, cNow, later, plans⟩ := reached x done
    exact ⟨m, mNow, c, cNow, fun p member => later p (more member), plans⟩

namespace Ingest

/-- New transfers are pending. -/
theorem obeys_transfersOf {rule : List Turn → Turn → Prop}
    {goal : List Turn → List Transfer → Prop} {time : Instant} {events : List ChainEvent}
    (goals : ∀ new : List Transfer, (∀ t ∈ new, t.status = .pending) → goal past new) :
    (transfersOf time events).Obeys rule goal past := by
  induction events generalizing goal with
  | nil => exact goals [] (by simp)
  | cons e rest ih =>
      rw [transfersOf]
      split
      · exact ih goals
      · rw [Flow.obeys_bind]
        intro stamp
        simp only [Flow.Obeys]
        split
        · rename_i t made
          rw [Flow.obeys_bind]
          apply ih
          intro new pending
          apply goals
          rw [List.forall_mem_cons]
          exact ⟨(represents_of_transfer made).1.pending, pending⟩
        · exact ih goals

variable {i : Ingest}

/-- What pending transfers become confirmed goes into the plan. -/
theorem mem_confirmation {depth : UInt64} {height : Height} {now : Instant}
    {stored new : List Transfer} (pending : ∀ t ∈ new, t.status = .pending) {u : Transfer}
    (written : .insert u ∈ (confirmation depth height now stored new).1 ∨
      ∃ s, .update u s ∈ (confirmation depth height now stored new).1)
    (confirmed : u.status = .confirmed) :
    u ∈ (confirmation depth height now stored new).2 := by
  simp only [confirmation, List.mem_append, List.mem_map] at written
  rcases written with (⟨v, -, same⟩ | ⟨v, ⟨w, isNew, rfl⟩, same⟩) |
    ⟨s, ⟨v, due, same⟩ | ⟨v, -, same⟩⟩
  · cases same
  · cases same
    apply List.mem_append_right
    apply List.mem_filterMap.2
    refine ⟨w, isNew, ?_⟩
    cases changed : w.confirmDue? depth height now with
    | some t => rfl
    | none =>
        rw [changed, Option.getD_none, pending w isNew] at confirmed
        cases confirmed
  · obtain ⟨rfl, -⟩ := TransferWrite.update.inj same
    exact List.mem_append_left _ due
  · cases same

theorem obeys_plan (i : Ingest) (confirmed : List Transfer) (past : List Turn) :
    (i.plan confirmed).Obeys (Calm i.rules) (fun now r => ∀ p, r = .ok p →
      confirmed = [] ∧ p.claims = [] ∨
        ∃ m ∈ now, m.Plans i.rules confirmed p.claims) past := by
  unfold plan
  cases confirmed with
  | nil =>
      rintro p made
      cases made
      exact Or.inl ⟨rfl, rfl⟩
  | cons t rest =>
      simp only [List.isEmpty_cons, Bool.false_eq_true, if_false, Flow.obeys_bind]
      apply obeys_asks rfl
      intro m asked later
      cases planned : i.rules.plan (m.before.perform (.matchContext i.chain
          (MatchKey.ofTransfers (t :: rest)))).1 (t :: rest) with
      | error e =>
          intro p made
          cases made
      | ok draft =>
          rw [Flow.obeys_bind]
          apply Draft.obeys_stamp
          intro p claims p' made
          cases made
          exact Or.inr ⟨m, List.mem_cons_self, i.chain, draft, asked, planned,
            claims.symm⟩

theorem obeys_blockOnce (i : Ingest) (start : Batch) (failures : Nat)
    (events : List ChainEvent) {new : List Transfer}
    (pending : ∀ t ∈ new, t.status = .pending) (past : List Turn) :
    (i.blockOnce start failures events new).Obeys (Calm i.rules)
      (fun _ _ => True) past := by
  unfold blockOnce
  rw [Flow.obeys_bind]
  apply obeys_asks rfl
  intro q asked _
  rw [Flow.obeys_bind]
  intro now
  simp only [Flow.obeys_bind]
  apply (i.obeys_plan _ _).imp (fun _ _ => id)
  intro there r planned
  cases r with
  | error e => trivial
  | ok p =>
      simp only [Flow.obeys_bind]
      rw [Flow.obeys_ledger]
      intro c called _
      constructor
      · exact calm_commit called
          (fun u written confirmed => mem_confirmation pending written confirmed)
          (planned p rfl)
      · split
        · rw [Flow.obeys_bind]
          exact (Flow.silent_publishAll _).obeys fun _ => trivial
        · trivial

theorem obeys_block (i : Ingest) (lease : Lease) (b : Block) (base : Bool)
    (past : List Turn) :
    (i.block lease b base).Obeys (Calm i.rules) (fun _ _ => True) past := by
  unfold block
  rw [Flow.obeys_bind]
  apply (only_extract b).silent.obeys
  intro r
  cases r with
  | error e => trivial
  | ok extraction =>
      simp only [Flow.obeys_bind]
      apply obeys_asks rfl
      intro q asked _
      apply (only_blockTime b).silent.obeys
      intro time
      apply obeys_transfersOf
      intro new pending
      apply Attempt.obeys_upTo
      · exact fun _ _ => trivial
      · intro there _
        exact (i.obeys_blockOnce _ _ _ pending there).imp (fun _ _ => id) fun _ _ _ _ _ =>
          trivial

theorem obeys_revert (i : Ingest) (lease : Lease) (range : RevertedRange)
    (past : List Turn) :
    (i.revert lease range).Obeys (Calm i.rules) (fun _ _ => True) past := by
  apply Attempt.obeys_upTo
  · exact fun _ _ => trivial
  · intro there _
    unfold revertOnce
    rw [Flow.obeys_bind]
    apply obeys_asks rfl
    intro q asked _
    simp only [Flow.obeys_bind]
    rw [Flow.obeys_ledger]
    intro c called _
    constructor
    · apply calm_commit called ?_ (Or.inl ⟨rfl, rfl⟩)
      rintro u (inserted | ⟨s, updated⟩) confirmed
      · obtain ⟨v, -, same⟩ := List.mem_map.1 inserted
        cases same
      · obtain ⟨v, among, same⟩ := List.mem_map.1 updated
        obtain ⟨rfl, -⟩ := TransferWrite.update.inj same
        obtain ⟨w, -, reverted⟩ := List.mem_filterMap.1 among
        obtain ⟨-, rfl⟩ := Transfer.revertIn?_eq_some.1 reverted
        cases confirmed
    · split
      · rw [Flow.obeys_bind]
        exact (Flow.silent_publishAll _).obeys fun _ _ _ => trivial
      · exact fun _ _ => trivial

end Ingest

/-! ## Opening a route -/

/-- After a turn that inserted the route, the confirmed transfers that had paid
into its destination were looked up, and what was planned for them was settled,
unless there were none. -/
def Rescanned (rules : MatchingRules) (now : List Turn) (i : Turn) (r : Route) : Prop :=
  ∃ u ∈ now, i.number < u.number ∧
    u.call = .unmatchedConfirmed r.destination.matchKey r.token ∧
      (u.before.unmatchedConfirmed r.destination.matchKey r.token = [] ∨
        ∃ m ∈ now, ∃ c ∈ now, i.number < m.number ∧
          m.Plans rules (u.before.unmatchedConfirmed r.destination.matchKey r.token)
            c.settled)

theorem Rescanned.mono {now later : List Turn} {i : Turn} {r : Route}
    (rescanned : Rescanned rules now i r) (more : now ⊆ later) :
    Rescanned rules later i r := by
  obtain ⟨u, uNow, after, called, settled⟩ := rescanned
  refine ⟨u, more uNow, after, called, ?_⟩
  rcases settled with none | ⟨m, mNow, c, cNow, later, plans⟩
  · exact Or.inl none
  · exact Or.inr ⟨m, more mNow, c, more cNow, later, plans⟩

/-- Every route that a task inserted is rescanned. -/
def AllRescanned (rules : MatchingRules) (now : List Turn) : Prop :=
  ∀ i ∈ now, ∀ r, i.call = .insertRoute r → Rescanned rules now i r

/-- A route is built in the token of its order and on the chain of the token. -/
theorem RouteRequest.eq_of_build {request : RouteRequest} {o : Order} {stamp : Stamp}
    {identifier : UInt64} {r : Route}
    (made : request.build rules o stamp identifier = .ok r) :
    request.token = o.token ∧
      (request.target.destination identifier).chain = request.token.chain ∧
      r = { id := ⟨stamp.ulid⟩
            orderId := o.id
            destination := request.target.destination identifier
            token := request.token
            policy := request.policy.getD rules.defaultPolicy
            window := request.window
            status := .open
            consumedBy := none
            createdAt := stamp.time } := by
  simp only [build, bind, Except.bind, throw, throwThe, MonadExceptOf.throw, pure,
    Except.pure] at made
  split at made
  · cases made
  split at made
  · cases made
  rename_i token
  split at made
  · cases made
  rename_i chain
  have given := And.intro (not_not.1 token) (not_not.1 chain)
  split at made
  · cases made
    exact ⟨given.1, given.2, rfl⟩
  split at made
  · cases made
  split at made
  · cases made
  cases made
  exact ⟨given.1, given.2, rfl⟩

theorem RouteRequest.new_of_build {request : RouteRequest} {o : Order} {stamp : Stamp}
    {identifier : UInt64} {r : Route}
    (made : request.build rules o stamp identifier = .ok r) :
    r.orderId = o.id ∧ r.IsNew := by
  obtain ⟨-, -, rfl⟩ := eq_of_build made
  exact ⟨rfl, rfl, rfl⟩

theorem RouteRequest.obeys_open? {rule : List Turn → Turn → Prop}
    {goal : List Turn → Except ReconcileError Route → Prop} {request : RouteRequest}
    {o : Order}
    (goals : ∀ result, (∀ r, result = .ok r → r.orderId = o.id ∧ r.IsNew) →
      goal past result) :
    (request.open? rules o).Obeys rule goal past := by
  unfold open?
  extract_lets finish
  have finished : ∀ identifier, (finish identifier).Obeys rule goal past :=
    fun identifier stamp => goals _ fun r made => new_of_build made
  split
  · exact finished 0
  · exact finished

/-- A rescan that succeeds has settled what it found. -/
theorem Settings.obeys_rescan (s : Settings) (r : Route) (past : List Turn) :
    (s.rescan r).Obeys (Calm s.engine.rules) (fun now result => result.isOk = true →
      ∀ i ∈ past, Rescanned s.engine.rules now i r) past := by
  unfold rescan
  rw [Flow.obeys_bind]
  apply obeys_asks rfl
  intro u asked later
  split
  · rename_i none
    intro _ i member
    exact ⟨u, List.mem_cons_self, later i member, asked, Or.inl (List.isEmpty_iff.1 none)⟩
  · rw [Flow.obeys_bind]
    apply (s.engine.rules.obeys_settle _ _ _ _).collect.imp (fun _ _ => id)
    rintro now result ⟨settled, more, -⟩
    cases result with
    | error e =>
        intro ok
        cases ok
    | ok p =>
        intro _ i member
        obtain ⟨m, mNow, c, cNow, afterwards, plans⟩ := settled rfl
        exact ⟨u, more List.mem_cons_self, later i member, asked,
          Or.inr ⟨m, mNow, c, cNow, afterwards i (List.mem_cons_of_mem _ member), plans⟩⟩

/-- A task that has opened a route rescans it. -/
theorem Settings.obeys_openRoute (s : Settings) (request : RouteRequest) :
    (s.openRoute request).Obeys (Lawful s.engine.rules)
      (fun now result => result.isOk = true →
      AllRescanned s.engine.rules now) [] := by
  have nothing : ∀ (now : List Turn) (e : EngineError),
      (Except.error e : Except EngineError Route).isOk = true →
        AllRescanned s.engine.rules now := by
    intro now e ok
    cases ok
  unfold openRoute
  simp only [Flow.obeys_bind]
  apply (obeys_asks rfl ?_).imp (fun _ _ calm => calm.1) (fun _ _ => id)
  intro q asked _
  split
  · exact nothing _ _
  rename_i order found
  simp only [Flow.obeys_bind]
  apply RouteRequest.obeys_open?
  intro result made
  cases result with
  | error e => exact nothing _ _
  | ok r =>
      simp only
      split
      · exact nothing _ _
      simp only [Flow.obeys_bind]
      intro i opened _
      constructor
      · constructor
        · exact ⟨[], by simp [Turn.Writes, opened, Ledger.Call.written],
            Or.inl ⟨rfl, by simp [Turn.settled, opened, Ledger.Call.settled]⟩⟩
        · intro r' opened'
          obtain rfl := Ledger.Call.insertRoute.inj (opened.symm.trans opened')
          exact ⟨q, List.mem_cons_self, request.orderId, order, found, (made r rfl).1⟩
        · intro r' opened'
          obtain rfl := Ledger.Call.insertRoute.inj (opened.symm.trans opened')
          exact (made r rfl).2
        · simp [opened]
      · apply (s.obeys_rescan r [i, q]).collect.imp (fun _ _ calm => calm.1)
        rintro now rescanned ⟨reached, -, all⟩
        cases rescanned with
        | error e => exact nothing _ _
        | ok u =>
            -- Only the second turn opened a route.
            have only : ∀ j ∈ now, ∀ r', j.call = .insertRoute r' → j = i := by
              intro j member r' opens
              rcases all j member with before | ⟨_, -, noRoute⟩
              · rcases List.mem_cons.1 before with rfl | first
                · rfl
                · rw [List.mem_singleton.1 first, asked] at opens
                  cases opens
              · exact absurd opens (noRoute r')
            intro t called _
            refine ⟨(calm_of_asks called rfl).1, ?_⟩
            intro _ j member r' opens
            rcases List.mem_cons.1 member with rfl | earlier
            · rw [called] at opens
              cases opens
            · obtain rfl := only j earlier r' opens
              obtain rfl := Ledger.Call.insertRoute.inj (opened.symm.trans opens)
              exact (reached rfl j List.mem_cons_self).mono fun _ =>
                List.mem_cons_of_mem _

/-- A task that opens no route has nothing to rescan. -/
theorem allRescanned_of_calm {α : Type} {x : Flow α} {goal : List Turn → α → Prop}
    (calm : x.Obeys (Calm rules) goal []) :
    x.Obeys (Lawful rules) (fun now a => goal now a ∧ AllRescanned rules now) [] := by
  apply calm.collect.imp (fun _ _ lawful => lawful.1)
  rintro now a ⟨reached, -, all⟩
  refine ⟨reached, ?_⟩
  intro i member r opens
  rcases all i member with before | ⟨past, -, noRoute⟩
  · cases before
  · exact absurd opens (noRoute r)

/-! ## Operations -/

/-- What is carried out by a task of its own. -/
inductive Operation where
  | block (chain : ChainId) (depth : UInt64) (lease : Lease) (b : Block) (base : Bool)
  | revert (chain : ChainId) (depth : UInt64) (lease : Lease) (range : RevertedRange)
  | openRoute (request : RouteRequest)
  | settle (chain : ChainId) (new stored : List Transfer)

/-- The task; it tells in the end whether it succeeded. -/
def Operation.flow (s : Settings) : Operation → Flow Bool
  | .block chain depth lease b base => do
    return (← (Ingest.mk chain depth s.engine.rules).block lease b base).isOk
  | .revert chain depth lease range => do
    return (← (Ingest.mk chain depth s.engine.rules).revert lease range).isOk
  | .openRoute request => do return (← s.openRoute request).isOk
  | .settle chain new stored => do return (← s.engine.rules.settle chain new stored).isOk

/-- Every operation is lawful, and has rescanned the routes that it opened
if it succeeds. -/
theorem Operation.obeys (s : Settings) (o : Operation) :
    (o.flow s).Obeys (Lawful s.engine.rules) (fun now ok => ok = true →
      AllRescanned s.engine.rules now) [] := by
  cases o with
  | block chain depth lease b base =>
      rw [flow, Flow.obeys_bind]
      exact (allRescanned_of_calm (Ingest.obeys_block _ lease b base [])).imp
        (fun _ _ => id)
        fun _ _ all _ => all.2
  | revert chain depth lease range =>
      rw [flow, Flow.obeys_bind]
      exact (allRescanned_of_calm (Ingest.obeys_revert _ lease range [])).imp
        (fun _ _ => id)
        fun _ _ all _ => all.2
  | openRoute request =>
      rw [flow, Flow.obeys_bind]
      exact s.obeys_openRoute request
  | settle chain new stored =>
      rw [flow, Flow.obeys_bind]
      exact (allRescanned_of_calm (s.engine.rules.obeys_settle chain new stored [])).imp
        (fun _ _ => id) fun _ _ all _ => all.2

end Paywatch
