import Mathlib.Logic.Relation
import Paywatch.Proofs.Ingest.Session
import Paywatch.Proofs.Matching.Tasks

/-!
# Which matches may be missed

Blocks are ingested, routes are opened and payments are settled by tasks that take turns
at one ledger in any order.  A match may be missed in one way only:  a task reads the
context of its plan, then a route is opened and looks for earlier payments, and only
then the first task commits the transfer as confirmed.  Neither sees the other's.
Everything else is matched once all tasks are done, whatever came between their turns.
-/

namespace Paywatch

/-- A confirmed transfer that has settled no route could settle one that is open. -/
structure Missed (rules : MatchingRules) (l : Ledger) (t : Transfer) (r : Route) :
    Prop where
  stored : t ∈ l.transfers.values
  confirmed : t.status = .confirmed
  unclaimed : l.isClaimed t.id = false
  placed : r ∈ l.routes.values
  isOpen : r.isOpen = true
  paysInto : MatchKey.ofTransfer? t = some r.destination.matchKey
  token : r.token = t.token
  height : r.acceptsHeight t.originHeight = true
  order : ∃ o, l.orders.get? r.orderId = some o ∧ o.isOpen = true ∧
    rules.acceptsAmount r.policy t.amount o.due = true

namespace Ledger

variable {l : Ledger} {chain : ChainId} {keys : List MatchKey}

theorem mem_routes_matchContext {r : Route} : r ∈ (l.matchContext chain keys).routes ↔
    r ∈ l.routes.values ∧ r.isOpen = true ∧ r.destination.matchKey ∈ keys := by
  simp [matchContext, List.mem_filter]

theorem get?_orders_matchContext (named : ∀ id o, l.orders.get? id = some o → o.id = id)
    {id : OrderId} {o : Order}
    (found : (l.matchContext chain keys).orders.get? id = some o) :
    l.orders.get? id = some o := by
  obtain ⟨member, rfl⟩ := Table.mem_of_get?_ofValues found
  obtain ⟨r, -, placed⟩ := List.mem_filterMap.1 member
  rw [named _ o placed]
  exact placed

theorem order_of_matchContext (filed : Filed l) {r : Route} {o : Order}
    (member : r ∈ (l.matchContext chain keys).routes)
    (placed : l.orders.get? r.orderId = some o) :
    (l.matchContext chain keys).orders.get? r.orderId = some o := by
  rw [← filed.order _ o placed]
  apply Table.get?_ofValues
  · exact List.mem_filterMap.2 ⟨r, member, placed⟩
  · intro p among sameId
    obtain ⟨s, -, placed'⟩ := List.mem_filterMap.1 among
    have pId := filed.order _ p placed'
    rw [← pId, sameId, filed.order _ o placed, placed] at placed'
    exact (Option.some.inj placed').symm

end Ledger

section Plan

variable {rules : MatchingRules} {seen now : Ledger} {chain : ChainId}
    {ts : List Transfer}
  {draft : Draft} (filed : seen.Filed) (closes : seen.Closes now)
  (ok : rules.plan (seen.matchContext chain (MatchKey.ofTransfers ts)) ts = .ok draft)
include filed closes ok

/-- What is planned without partial fills covers whatever is still open. -/
theorem covers_of_plan (whole : rules.partialFills = false) :
    now.Covers draft.claims := by
  obtain ⟨checked, planned⟩ := MatchingRules.planned_of_plan ok
  refine ⟨(Claim.nodup_of_check checked).1, ?_⟩
  intro c member o found isOpen
  obtain ⟨o', inContext, covered⟩ := planned.covers whole c member
  have before := Ledger.get?_orders_matchContext filed.order inContext
  obtain rfl := closes.open_order before found isOpen
  exact covered

/-- Once its claims are concluded, a plan has missed no route that it saw. -/
theorem not_missed_of_plan (nowFiled : now.Filed)
    (concluded : ∀ c ∈ draft.claims, now.Concludes c) {t : Transfer} (among : t ∈ ts)
    {r : Route} (known : ∃ s, seen.routes.get? r.id = some s) :
    ¬ Missed rules now t r := by
  intro missed
  obtain ⟨id, found⟩ := Table.mem_values_iff.1 missed.placed
  obtain rfl := (nowFiled.route id r found).1
  obtain ⟨s, before⟩ := known
  obtain rfl := closes.open_route before found missed.isOpen
  obtain ⟨o, placed, orderOpen, accepts⟩ := missed.order
  obtain ⟨-, o', placedBefore⟩ := filed.route _ s before
  obtain rfl := closes.open_order placedBefore placed orderOpen
  have asked : s.destination.matchKey ∈ MatchKey.ofTransfers ts :=
    List.mem_eraseDups.2 (List.mem_filterMap.2 ⟨t, among, missed.paysInto⟩)
  have inContext : s ∈ (seen.matchContext chain (MatchKey.ofTransfers ts)).routes :=
    Ledger.mem_routes_matchContext.2
      ⟨Table.mem_values_iff.2 ⟨_, before⟩, missed.isOpen, asked⟩
  have eligible : rules.eligible? (seen.matchContext chain (MatchKey.ofTransfers ts)) t
      s.destination.matchKey s = some o'.due := by
    simp [MatchingRules.eligible?, missed.isOpen, missed.token, missed.height,
      orderOpen, accepts, Ledger.order_of_matchContext filed inContext placedBefore]
  -- What the plan settles is closed or used by now, so it left this pair alone.
  have alone : ∀ c ∈ draft.claims, c.routeId ≠ s.id ∧ c.orderId ≠ s.orderId := by
    intro c member
    constructor
    · intro same
      obtain ⟨s', there, closed⟩ := (concluded c member).route
      rw [same, found] at there
      rw [← Option.some.inj there, missed.isOpen] at closed
      cases closed
    · intro same
      obtain ⟨p, there, closed⟩ := (concluded c member).order
      rw [same, placed] at there
      rw [← Option.some.inj there, orderOpen] at closed
      cases closed
  have unclaimed : ∀ c ∈ draft.claims, c.transferId ≠ t.id := by
    intro c member same
    have claimed := (concluded c member).claimed
    rw [same, missed.unclaimed] at claimed
    cases claimed
  have passedOver :=
    MatchingRules.not_eligible_of_plan ok inContext alone among missed.confirmed
    unclaimed missed.paysInto
  rw [passedOver] at eligible
  cases eligible

end Plan

/-! ## Tasks that take turns -/

/-- A ledger, the tasks that were started, and the turns that they took, newest first. -/
structure World where
  ledger : Ledger
  tasks : List (Flow Bool)
  trace : List Turn

/-- What others may call in between:  no commits and no routes, and orders only with a new
identifier. -/
def Ledger.Call.IsApart (l : Ledger) : Ledger.Call → Prop
  | .insertOrder o => l.orders.get? o.id = none
  | .insertRoute _ => False
  | .commit _ => False
  | .commitPlan .. => False
  | _ => True

namespace World

def start : World := ⟨.empty, [], []⟩

/-- The turns of one task. -/
def turnsOf (w : World) (k : Nat) : List Turn := w.trace.filter (·.task == k)

inductive Step (s : Settings) : World → World → Prop where
  | start (w : World) (o : Operation) : Step s w { w with tasks := w.tasks ++ [o.flow s] }
  /-- A task takes a turn.  The identifier of a route that it inserts is new. -/
  | turn (w : World) (k : Nat) (c : Ledger.Call) (next : c.Reply → Flow Bool)
      (running : w.tasks[k]? = some (.call (.ledger c) next))
      (fresh : ∀ r, c = .insertRoute r → w.ledger.routes.get? r.id = none) :
      Step s w
        { ledger := (w.ledger.perform c).2
          tasks := w.tasks.set k (next (w.ledger.perform c).1)
          trace := ⟨w.trace.length, k, c, w.ledger⟩ :: w.trace }
  /-- A task asks anything else, and may get any answer. -/
  | ask (w : World) (k : Nat) (c : Call) (next : c.Reply → Flow Bool) (reply : c.Reply)
      (running : w.tasks[k]? = some (.call c next)) (elsewhere : ∀ q, c ≠ .ledger q) :
      Step s w { w with tasks := w.tasks.set k (next reply) }
  /-- Somebody else makes a call. -/
  | other (w : World) (c : Ledger.Call) (apart : c.IsApart w.ledger) :
      Step s w { w with ledger := (w.ledger.perform c).2 }
  | wait (w : World) (ticks : Nat) : Step s w { w with ledger := w.ledger.wait ticks }

abbrev Run (s : Settings) : World → World → Prop := Relation.ReflTransGen (Step s)

/-- All tasks have ended and succeeded. -/
def Finished (w : World) : Prop := ∀ x ∈ w.tasks, x = .done true

/-- The transfer and the route could not see each other.  The task that stored the
transfer as confirmed had planned for it before the route was inserted, and committed
after the route was rescanned. -/
def Overlap (rules : MatchingRules) (w : World) (t : Transfer) (r : Route) : Prop :=
  ∃ m ∈ w.trace, ∃ i ∈ w.trace, ∃ u ∈ w.trace, ∃ c ∈ w.trace,
    (m.task = c.task ∧ c.Writes t ∧ ∃ ts, t ∈ ts ∧ m.Plans rules ts c.settled) ∧
      (i.task = u.task ∧ i.call = .insertRoute r ∧
        u.call = .unmatchedConfirmed r.destination.matchKey r.token) ∧
      m.number < i.number ∧ i.number < u.number ∧ u.number < c.number

/-- Every task obeys the rule with its turns so far, and the turns are
numbered in their order. -/
structure Ruled (s : Settings) (w : World) : Prop where
  obeys : ∀ (k : Nat) (x : Flow Bool), w.tasks[k]? = some x →
    x.Obeys (Lawful s.engine.rules)
    (fun now ok => ok = true → AllRescanned s.engine.rules now) (w.turnsOf k)
  numbered : ∀ e ∈ w.trace, e.number < w.trace.length ∧ e.task < w.tasks.length

/-- What is true of every world that can be reached, in terms of its trace. -/
structure Traced (s : Settings) (w : World) : Prop where
  obeys : ∀ (k : Nat) (x : Flow Bool), w.tasks[k]? = some x →
    x.Obeys (Lawful s.engine.rules)
    (fun now ok => ok = true → AllRescanned s.engine.rules now) (w.turnsOf k)
  numbered : ∀ e ∈ w.trace, e.number < w.trace.length ∧ e.task < w.tasks.length
  distinct : ∀ e ∈ w.trace, ∀ e' ∈ w.trace, e.number = e'.number → e = e'
  filed : w.ledger.Filed
  /-- Whatever a turn saw open has been left alone since, or is open no more. -/
  seen : ∀ e ∈ w.trace, e.before.Filed ∧ e.before.Closes w.ledger
  concluded : ∀ e ∈ w.trace, ∀ c ∈ e.settled, w.ledger.Concludes c
  /-- Since a route was inserted, it is there. -/
  opened : ∀ i ∈ w.trace, ∀ r, i.call = .insertRoute r →
    (∃ r', w.ledger.routes.get? r.id = some r') ∧
      ∀ e ∈ w.trace, i.number < e.number → ∃ r', e.before.routes.get? r.id = some r'
  known : ∀ id r, w.ledger.routes.get? id = some r → r.isOpen = true →
    ∃ i ∈ w.trace, i.call = .insertRoute r
  lawful : ∀ c ∈ w.trace, ∃ past, (∀ m ∈ past, m ∈ w.trace ∧ m.task = c.task ∧
    m.number < c.number) ∧
    Lawful s.engine.rules past c
  /-- A confirmed transfer is as the last turn that wrote it left it. -/
  stored : ∀ id t, w.ledger.transfers.get? id = some t → t.status = .confirmed →
    ∃ c ∈ w.trace, c.Writes t ∧
      ∀ e ∈ w.trace, c.number < e.number → e.before.transfers.get? id = some t

variable {s : Settings} {w after : World}

theorem traced_start (s : Settings) : Traced s start where
  obeys := by simp [start]
  numbered := by simp [start]
  distinct := by simp [start]
  filed := Ledger.filed_empty
  seen := by simp [start]
  concluded := by simp [start]
  opened := by simp [start]
  known := by simp [start, Ledger.empty]
  lawful := by simp [start]
  stored := by simp [start, Ledger.empty]

/-! ### Tasks obey their rule -/

theorem ruled_start (s : Settings) : Ruled s start where
  obeys := by simp [start]
  numbered := by simp [start]

/-- Another task is started. -/
theorem Ruled.started (ruled : Ruled s w) (o : Operation) :
    Ruled s { w with tasks := w.tasks ++ [o.flow s] } where
  obeys := by
    intro k x running
    rcases getElem?_snoc.1 running with old | ⟨rfl, rfl⟩
    · exact ruled.obeys k x old
    · -- No turn was taken by a task that is only started now.
      have none : w.turnsOf w.tasks.length = [] := by
        apply List.filter_eq_nil_iff.2
        intro e member same
        have bound := (ruled.numbered e member).2
        rw [beq_iff_eq.1 same] at bound
        omega
      simp only [turnsOf] at none ⊢
      rw [none]
      simpa using o.obeys s
  numbered := by
    intro e member
    obtain ⟨early, started⟩ := ruled.numbered e member
    exact ⟨early, by simp only [List.length_append]; omega⟩

/-- A task goes on without a turn. -/
theorem Ruled.asked (ruled : Ruled s w) {k : Nat} {c : Call} {next : c.Reply → Flow Bool}
    (reply : c.Reply) (running : w.tasks[k]? = some (.call c next))
    (elsewhere : ∀ q, c ≠ .ledger q) :
    Ruled s { w with tasks := w.tasks.set k (next reply) } where
  obeys := by
    intro j x found
    rw [List.getElem?_set] at found
    split at found
    · rename_i here
      obtain ⟨-, found⟩ := Option.ite_none_right_eq_some.1 found
      cases found
      have obeys := ruled.obeys k _ running
      rw [here] at obeys
      cases c with
      | ledger q => exact absurd rfl (elsewhere q)
      | _ => exact obeys reply
    · exact ruled.obeys j x found
  numbered := by
    intro e member
    rw [List.length_set]
    exact ruled.numbered e member

section Turn

variable (ruled : Ruled s w) {k : Nat} {c : Ledger.Call} {next : c.Reply → Flow Bool}
  (running : w.tasks[k]? = some (.call (.ledger c) next))
include ruled running

/-- The next turn of a task is lawful. -/
theorem Ruled.lawful :
    Lawful s.engine.rules (w.turnsOf k) ⟨w.trace.length, k, c, w.ledger⟩ :=
  (ruled.obeys k _ running ⟨w.trace.length, k, c, w.ledger⟩ rfl
    fun p member => (ruled.numbered p (List.mem_filter.1 member).1).1).1

/-- A task takes a turn. -/
theorem Ruled.turned : Ruled s
    { ledger := (w.ledger.perform c).2
      tasks := w.tasks.set k (next (w.ledger.perform c).1)
      trace := ⟨w.trace.length, k, c, w.ledger⟩ :: w.trace } where
  obeys := by
    intro j x found
    simp only [turnsOf, List.filter_cons]
    rw [List.getElem?_set] at found
    split at found
    · rename_i here
      obtain ⟨-, found⟩ := Option.ite_none_right_eq_some.1 found
      cases found
      rw [if_pos (beq_iff_eq.2 here), ← here]
      exact (ruled.obeys k _ running ⟨w.trace.length, k, c, w.ledger⟩ rfl
        fun p member => (ruled.numbered p (List.mem_filter.1 member).1).1).2
    · rename_i elsewhere
      rw [if_neg (by simpa using elsewhere)]
      exact ruled.obeys j x found
  numbered := by
    obtain ⟨started, -⟩ := List.getElem?_eq_some_iff.1 running
    simp only [List.forall_mem_cons, List.length_cons, List.length_set]
    refine ⟨⟨by omega, started⟩, ?_⟩
    intro e member
    have old := ruled.numbered e member
    omega

end Turn

theorem ruled_step (ruled : Ruled s w) (step : Step s w after) : Ruled s after := by
  cases step with
  | start o => exact ruled.started o
  | turn k c next running fresh => exact ruled.turned running
  | ask k c next reply running elsewhere => exact ruled.asked reply running elsewhere
  | other c apart => exact ⟨ruled.obeys, ruled.numbered⟩
  | wait ticks => exact ⟨ruled.obeys, ruled.numbered⟩

theorem ruled_run (run : Run s start w) : Ruled s w := by
  induction run with
  | refl => exact ruled_start s
  | tail _ step ih => exact ruled_step ih step

/-! ### The trace tells what was left alone -/

theorem Traced.ruled (traced : Traced s w) : Ruled s w := ⟨traced.obeys, traced.numbered⟩

theorem Traced.started (traced : Traced s w) (o : Operation) :
    Traced s { w with tasks := w.tasks ++ [o.flow s] } :=
  { traced with
    obeys := (traced.ruled.started o).obeys
    numbered := (traced.ruled.started o).numbered }

theorem Traced.asked (traced : Traced s w) {k : Nat} {c : Call}
    {next : c.Reply → Flow Bool} (reply : c.Reply)
    (running : w.tasks[k]? = some (.call c next)) (elsewhere : ∀ q, c ≠ .ledger q) :
    Traced s { w with tasks := w.tasks.set k (next reply) } :=
  { traced with
    obeys := (traced.ruled.asked reply running elsewhere).obeys
    numbered := (traced.ruled.asked reply running elsewhere).numbered }

section Closes

variable {l : Ledger} (traced : Traced s w) (closes : w.ledger.Closes l)
include traced closes

/-! What is true of the trace stays true when the ledger goes on. -/

theorem Traced.seen_of_closes : ∀ e ∈ w.trace, e.before.Filed ∧ e.before.Closes l := by
  intro e member
  obtain ⟨filedThen, closesThen⟩ := traced.seen e member
  exact ⟨filedThen, closesThen.trans closes⟩

theorem Traced.concluded_of_closes : ∀ e ∈ w.trace, ∀ c ∈ e.settled, l.Concludes c := by
  intro e member c settled
  exact (traced.concluded e member c settled).closes closes

theorem Traced.opened_of_closes : ∀ i ∈ w.trace, ∀ r, i.call = .insertRoute r →
    ∃ r', l.routes.get? r.id = some r' := by
  intro i member r opens
  obtain ⟨⟨r', found⟩, -⟩ := traced.opened i member r opens
  obtain ⟨r'', there, -⟩ := closes.route _ r' found
  exact ⟨r'', there⟩

/-- The ledger changes outside of the tasks. -/
theorem Traced.drifted (filed : l.Filed)
    (known : ∀ id r, l.routes.get? id = some r → r.isOpen = true →
      w.ledger.routes.get? id = some r)
    (transfers : ∀ id t, l.transfers.get? id = some t →
      w.ledger.transfers.get? id = some t) :
    Traced s { w with ledger := l } :=
  { traced with
    filed := filed
    seen := traced.seen_of_closes closes
    concluded := traced.concluded_of_closes closes
    opened := by
      intro i member r opens
      exact ⟨traced.opened_of_closes closes i member r opens,
        (traced.opened i member r opens).2⟩
    known := by
      intro id r found isOpen
      exact traced.known id r (known id r found isOpen) isOpen
    stored := by
      intro id t found
      exact traced.stored id t (transfers id t found) }

end Closes

section Turn

variable {k : Nat} {c : Ledger.Call} {next : c.Reply → Flow Bool}

/-- A lawful turn fits the ledger as it is by now. -/
theorem Traced.fits (traced : Traced s w) (whole : s.engine.rules.partialFills = false)
    (fresh : ∀ r, c = .insertRoute r → w.ledger.routes.get? r.id = none)
    (lawful : Lawful s.engine.rules (w.turnsOf k) ⟨w.trace.length, k, c, w.ledger⟩) :
    c.Fits w.ledger where
  newOrder o places := absurd places (lawful.noOrder o)
  newRoute := by
    intro r opens
    refine ⟨fresh r opens, ?_⟩
    obtain ⟨q, asked, id, o, placed, ofOrder⟩ := lawful.placed r opens
    obtain ⟨filed, closes⟩ := traced.seen q (List.mem_filter.1 asked).1
    obtain ⟨o', there, -⟩ := closes.order id o placed
    rw [ofOrder, filed.order id o placed]
    exact ⟨o', there⟩
  covers := by
    obtain ⟨ts, -, planned⟩ := lawful.planned
    rcases planned with ⟨-, nothing⟩ | ⟨m, mPast, chain, draft, -, ok, claims⟩
    · have none : c.settled w.ledger = [] := nothing
      rw [none]
      exact Ledger.covers_nil _
    · obtain ⟨filed, closes⟩ := traced.seen m (List.mem_filter.1 mPast).1
      have covers := covers_of_plan filed closes ok whole
      rw [claims] at covers
      exact covers

/-- No turn is later than the one that is taken now. -/
theorem Traced.not_later (traced : Traced s w) (t : Turn)
    (now : t.number = w.trace.length) : ∀ e ∈ t :: w.trace, ¬ t.number < e.number := by
  intro e member later
  rcases List.mem_cons.1 member with rfl | old
  · exact Nat.lt_irrefl _ later
  · have earlier := (traced.numbered e old).1
    omega

/-- A task takes a turn. -/
theorem Traced.turned (traced : Traced s w) (whole : s.engine.rules.partialFills = false)
    (running : w.tasks[k]? = some (.call (.ledger c) next))
    (fresh : ∀ r, c = .insertRoute r → w.ledger.routes.get? r.id = none) :
    Traced s
      { ledger := (w.ledger.perform c).2
        tasks := w.tasks.set k (next (w.ledger.perform c).1)
        trace := ⟨w.trace.length, k, c, w.ledger⟩ :: w.trace } := by
  have before : ∀ e ∈ w.trace, e.number < w.trace.length := fun e member =>
    (traced.numbered e member).1
  have lawful := traced.ruled.lawful running
  have performed := Ledger.performed_of_fits traced.filed (traced.fits whole fresh lawful)
  constructor
  case obeys => exact (traced.ruled.turned running).obeys
  case numbered => exact (traced.ruled.turned running).numbered
  case distinct =>
    intro e member e' member' same
    rcases List.mem_cons.1 member with rfl | old <;>
      rcases List.mem_cons.1 member' with rfl | old'
    · rfl
    · have earlier := before e' old'
      simp only at same
      omega
    · have earlier := before e old
      simp only at same
      omega
    · exact traced.distinct e old e' old' same
  case filed => exact performed.filed
  case seen =>
    rw [List.forall_mem_cons]
    exact ⟨⟨traced.filed, performed.closes⟩, traced.seen_of_closes performed.closes⟩
  case concluded =>
    rw [List.forall_mem_cons]
    exact ⟨performed.concludes, traced.concluded_of_closes performed.closes⟩
  case opened =>
    rw [List.forall_mem_cons]
    constructor
    · rintro r opens
      obtain rfl : c = .insertRoute r := opens
      refine ⟨⟨r, ?_⟩, ?_⟩
      · simp [Ledger.perform, Ledger.insertRoute, Table.get?_insert]
      · intro e member later
        exact absurd later (traced.not_later _ rfl e member)
    · intro i member r opens
      obtain ⟨found, since⟩ := traced.opened i member r opens
      refine ⟨traced.opened_of_closes performed.closes i member r opens, ?_⟩
      rw [List.forall_mem_cons]
      exact ⟨fun _ => found, since⟩
  case known =>
    intro id r found isOpen
    rcases performed.opened id r found isOpen with old | opens
    · obtain ⟨i, member, opens⟩ := traced.known id r old isOpen
      exact ⟨i, List.mem_cons_of_mem _ member, opens⟩
    · exact ⟨_, List.mem_cons_self, opens⟩
  case lawful =>
    rw [List.forall_mem_cons]
    constructor
    · refine ⟨w.turnsOf k, ?_, lawful⟩
      intro m member
      obtain ⟨old, ofTask⟩ := List.mem_filter.1 member
      exact ⟨List.mem_cons_of_mem _ old, beq_iff_eq.1 ofTask, before m old⟩
    · intro d member
      obtain ⟨past, own, obeyed⟩ := traced.lawful d member
      refine ⟨past, ?_, obeyed⟩
      intro m among
      obtain ⟨old, ofTask, earlier⟩ := own m among
      exact ⟨List.mem_cons_of_mem _ old, ofTask, earlier⟩
  case stored =>
    intro id t found confirmed
    rcases performed.written id t found with old | writes
    · obtain ⟨d, member, wrote, since⟩ := traced.stored id t old confirmed
      refine ⟨d, List.mem_cons_of_mem _ member, wrote, ?_⟩
      rw [List.forall_mem_cons]
      exact ⟨fun _ => old, since⟩
    · refine ⟨_, List.mem_cons_self, writes, ?_⟩
      intro e member later
      exact absurd later (traced.not_later _ rfl e member)

end Turn

theorem fits_of_isApart {l : Ledger} {c : Ledger.Call} (apart : c.IsApart l) :
    c.Fits l where
  newOrder o places := by
    rw [places] at apart
    exact apart
  newRoute r opens := by
    rw [opens] at apart
    exact apart.elim
  covers := by
    cases c with
    | commit b => exact apart.elim
    | commitPlan writes p => exact apart.elim
    | _ => exact Ledger.covers_nil l

theorem Traced.called (traced : Traced s w) {c : Ledger.Call}
    (apart : c.IsApart w.ledger) :
    Traced s { w with ledger := (w.ledger.perform c).2 } := by
  have performed := Ledger.performed_of_fits traced.filed (fits_of_isApart apart)
  apply traced.drifted performed.closes performed.filed
  · intro id r found isOpen
    rcases performed.opened id r found isOpen with old | opens
    · exact old
    · rw [opens] at apart
      exact apart.elim
  · intro id t found
    rcases performed.written id t found with old | inserted | ⟨status, updated⟩
    · exact old
    · cases c with
      | commit b => exact apart.elim
      | commitPlan writes p => exact apart.elim
      | _ => simp [Ledger.Call.written] at inserted
    · cases c with
      | commit b => exact apart.elim
      | commitPlan writes p => exact apart.elim
      | _ => simp [Ledger.Call.written] at updated

theorem traced_step (whole : s.engine.rules.partialFills = false) (traced : Traced s w)
    (step : Step s w after) : Traced s after := by
  cases step with
  | start o => exact traced.started o
  | turn k c next running fresh => exact traced.turned whole running fresh
  | ask k c next reply running elsewhere => exact traced.asked reply running elsewhere
  | other c apart => exact traced.called apart
  | wait ticks =>
      have closes : w.ledger.Closes (w.ledger.wait ticks) := Ledger.closes_of_eq rfl rfl
      apply traced.drifted closes (traced.filed.congr rfl rfl)
      · intro id r found _
        exact found
      · intro id t found
        exact found

theorem traced_run (whole : s.engine.rules.partialFills = false) (run : Run s start w) :
    Traced s w := by
  induction run with
  | refl => exact traced_start s
  | tail _ step ih => exact traced_step whole ih step

/-! ## Playing a schedule -/

/-- What happens next in a world that is played. -/
inductive Act where
  | acquire (chain : ChainId) (holder : String) (ttl : Nat)
  | place (o : Order)
  | start (o : Operation)
  /-- A task makes its next call. -/
  | go (k : Nat)

/-- The identifier that a call files something new under is free. -/
def isFresh (l : Ledger) : Ledger.Call → Bool
  | .insertOrder o => (l.orders.get? o.id).isNone
  | .insertRoute r => (l.routes.get? r.id).isNone
  | _ => true

/-- The world afterwards, with nodes and identifiers as they are for a
flow that runs alone. -/
def act (s : Settings) (catalog : Catalog) (n : Nodes) (w : World) : Act → Option World
  | .acquire chain holder ttl =>
    some { w with ledger := (w.ledger.perform (.acquire chain holder ttl)).2 }
  | .place o =>
    if isFresh w.ledger (.insertOrder o) then
      some { w with ledger := (w.ledger.perform (.insertOrder o)).2 }
    else none
  | .start o => some { w with tasks := w.tasks ++ [o.flow s] }
  | .go k =>
    match w.tasks[k]? with
    | some (.call (.ledger c) next) =>
      if isFresh w.ledger c then
        some
          { ledger := (w.ledger.perform c).2
            tasks := w.tasks.set k (next (w.ledger.perform c).1)
            trace := ⟨w.trace.length, k, c, w.ledger⟩ :: w.trace }
      else none
    | some (.call c next) =>
      let surroundings : Surroundings := ⟨w.ledger, w.trace.map fun t => .ofNat t.number⟩
      some { w with tasks := w.tasks.set k (next (surroundings.perform catalog n c).1) }
    | _ => none

theorem step_of_act {catalog : Catalog} {n : Nodes} {a : Act}
    (played : act s catalog n w a = some after) : Step s w after := by
  cases a with
  | acquire chain holder ttl =>
      cases played
      exact .other w _ trivial
  | place o =>
      simp only [act] at played
      split at played
      · rename_i fresh
        cases played
        exact .other w _ (Option.isNone_iff_eq_none.1 fresh)
      · cases played
  | start o =>
      cases played
      exact .start w o
  | go k =>
      simp only [act] at played
      split at played
      · rename_i c next running
        split at played
        · rename_i fresh
          cases played
          refine .turn w k c next running ?_
          intro r opens
          rw [opens] at fresh
          exact Option.isNone_iff_eq_none.1 fresh
        · cases played
      · rename_i c next elsewhere running
        cases played
        refine .ask w k c next _ running ?_
        rintro q rfl
        exact elsewhere q next rfl HEq.rfl
      · cases played

/-- A played schedule is a run. -/
theorem run_of_play {catalog : Catalog} {n : Nodes} {acts : List Act}
    (played : acts.foldlM (act s catalog n) w = some after) : Run s w after := by
  apply reflTransGen_of_foldlM ?_ played
  intro there a next acted
  exact step_of_act acted

/-- A chain whose payments count after one block. -/
def sampleChain : ChainSettings :=
  { chain := ⟨1⟩
    name := "main"
    confirmationDepth := 1
    providers := [⟨"http://node", none⟩] }

def sampleSettings : Settings :=
  { logLevel := "info"
    logDirectory := "logs"
    logFile := "paywatch"
    useJson := false
    rotation := "daily"
    chains := [sampleChain]
    targetsPath := "targets.yaml" }

def sampleRequest : RouteRequest :=
  ⟨Books.sampleOrder.id, .blockchain ⟨1⟩ .zero, .native ⟨1⟩, none, none⟩

/-- Ingests the block that has the payment. -/
def ingestPaid : Operation :=
  .block ⟨1⟩ 1 Session.sampleLease ⟨⟨1⟩, 2, "0xa2", "0x01", 0⟩ true

/-- Ingests the next block, which confirms the payment. -/
def ingestNext : Operation :=
  .block ⟨1⟩ 1 Session.sampleLease ⟨⟨1⟩, 3, "0xa3", "0xa2", 0⟩ false

/-- While the task that confirms the payment is between its plan and its commit, a route
that asks for the payment is opened and rescanned. -/
def overlapping : List Act :=
  [.acquire ⟨1⟩ "worker" 10, .place Books.sampleOrder, .start ingestPaid] ++
    .replicate 7 (.go 0) ++ [.start ingestNext] ++ .replicate 6 (.go 1) ++
    [.start (.openRoute sampleRequest)] ++ .replicate 5 (.go 2) ++ [.go 1]

/-- All tasks have ended and succeeded. -/
def isFinished (w : World) : Bool :=
  w.tasks.all fun x => match x with
    | .done ok => ok
    | _ => false

/-- Some match is missed. -/
def missesSome (rules : MatchingRules) (l : Ledger) : Bool :=
  l.transfers.values.any fun t => l.routes.values.any fun r =>
    t.status == .confirmed && !l.isClaimed t.id && r.isOpen &&
      MatchKey.ofTransfer? t == some r.destination.matchKey && r.token == t.token &&
      r.acceptsHeight t.originHeight &&
      (l.orders.get? r.orderId).any fun o =>
        o.isOpen && rules.acceptsAmount r.policy t.amount o.due

theorem missed_of_missesSome {rules : MatchingRules} {l : Ledger}
    (misses : missesSome rules l = true) : ∃ t r, Missed rules l t r := by
  obtain ⟨t, stored, misses⟩ := List.any_eq_true.1 misses
  obtain ⟨r, placed, misses⟩ := List.any_eq_true.1 misses
  simp only [Bool.and_eq_true, beq_iff_eq, Bool.not_eq_true',
    Option.any_eq_true] at misses
  obtain ⟨⟨⟨⟨⟨⟨confirmed, unclaimed⟩, isOpen⟩, paysInto⟩, token⟩, height⟩, order⟩ :=
    misses
  exact ⟨t, r, stored, confirmed, unclaimed, placed, isOpen, paysInto, token,
    height, order⟩

theorem finished_of_isFinished (finished : w.isFinished = true) : Finished w := by
  intro x member
  have done := List.all_eq_true.1 finished x member
  cases x with
  | done ok => exact congrArg Flow.done done
  | call c next => cases done

/-- The schedule ends with a match that is missed. -/
theorem exists_missed : ∃ w, Run sampleSettings start w ∧ Finished w ∧
    ∃ t r, Missed sampleSettings.engine.rules w.ledger t r := by
  have played :
      (overlapping.foldlM (act sampleSettings Session.sampleCatalog Session.homeBranch)
        start).any
          (fun w => w.isFinished && missesSome sampleSettings.engine.rules w.ledger) =
        true := by decide +kernel
  obtain ⟨w, reached, ends⟩ := (Option.any_eq_true _ _).1 played
  rw [Bool.and_eq_true] at ends
  exact ⟨w, run_of_play reached, finished_of_isFinished ends.1,
    missed_of_missesSome ends.2⟩

/-! ## What is left when all tasks are done -/

theorem Traced.rescanned (traced : Traced s w) (finished : Finished w) {i : Turn}
    (member : i ∈ w.trace) {r : Route} (opens : i.call = .insertRoute r) :
    Rescanned s.engine.rules (w.turnsOf i.task) i r := by
  have started := (traced.numbered i member).2
  have running : w.tasks[i.task]? = some w.tasks[i.task] :=
    List.getElem?_eq_getElem started
  have done := finished _ (List.getElem_mem started)
  rw [done] at running
  exact traced.obeys _ _ running rfl i
    (List.mem_filter.2 ⟨member, beq_self_eq_true _⟩) r opens

/-- A plan that was settled has missed no route that was open when its
context was read. -/
theorem Traced.not_missed (traced : Traced s w) {i m c : Turn} (iTrace : i ∈ w.trace)
    (mTrace : m ∈ w.trace) (cTrace : c ∈ w.trace) {r : Route}
    (opens : i.call = .insertRoute r) (earlier : i.number < m.number) {ts : List Transfer}
    (plans : m.Plans s.engine.rules ts c.settled) {t : Transfer} (among : t ∈ ts) :
    ¬ Missed s.engine.rules w.ledger t r := by
  obtain ⟨chain, draft, -, ok, claims⟩ := plans
  obtain ⟨filed, closes⟩ := traced.seen m mTrace
  apply not_missed_of_plan filed closes ok traced.filed ?_ among
  · exact (traced.opened i iTrace r opens).2 m mTrace earlier
  · rw [claims]
    exact traced.concluded c cTrace

/-- Without partial fills, once all tasks have ended and succeeded, the only matches
that are missed are those of a transfer and a route that overlapped. -/
theorem overlap_of_missed (whole : s.engine.rules.partialFills = false)
    (run : Run s start w) (finished : Finished w) {t : Transfer} {r : Route}
    (missed : Missed s.engine.rules w.ledger t r) : Overlap s.engine.rules w t r := by
  have traced := traced_run whole run
  obtain ⟨tid, storedNow⟩ := Table.mem_values_iff.1 missed.stored
  obtain ⟨rid, placedNow⟩ := Table.mem_values_iff.1 missed.placed
  obtain ⟨c, cTrace, writes, since⟩ := traced.stored tid t storedNow missed.confirmed
  obtain ⟨i, iTrace, opens⟩ := traced.known rid r placedNow missed.isOpen
  obtain ⟨past, own, lawful⟩ := traced.lawful c cTrace
  obtain ⟨ts, among, planned⟩ := lawful.planned
  have inPlan := among t writes missed.confirmed
  rcases planned with ⟨rfl, -⟩ | ⟨m, mPast, plans⟩
  · cases inPlan
  obtain ⟨mTrace, mTask, -⟩ := own m mPast
  obtain ⟨u, uTurn, iu, looked, found⟩ := traced.rescanned finished iTrace opens
  obtain ⟨uTrace, uTask⟩ := List.mem_filter.1 uTurn
  -- If the planner had read its context after the route came, it would
  -- have seen the route.
  have mi : m.number < i.number := by
    rcases Nat.lt_trichotomy m.number i.number with less | same | more
    · exact less
    · obtain rfl := traced.distinct m mTrace i iTrace same
      obtain ⟨_, _, asked, -⟩ := plans
      rw [opens] at asked
      cases asked
    · exact absurd missed (traced.not_missed iTrace mTrace cTrace opens more plans inPlan)
  -- If the transfer had been committed before the rescan, the rescan would have found it.
  have uc : u.number < c.number := by
    rcases Nat.lt_trichotomy u.number c.number with less | same | more
    · exact less
    · obtain rfl := traced.distinct u uTrace c cTrace same
      rw [Turn.Writes, looked] at writes
      simp [Ledger.Call.written] at writes
    · have stored := Table.mem_values_iff.2 ⟨tid, since u uTrace more⟩
      have unclaimed : u.before.isClaimed t.id = false := by
        cases claimed : u.before.isClaimed t.id with
        | false => rfl
        | true =>
            have stays := (traced.seen u uTrace).2.isClaimed claimed
            rw [missed.unclaimed] at stays
            cases stays
      have inRescan : t ∈ u.before.unmatchedConfirmed r.destination.matchKey r.token := by
        apply mem_sortBy.2
        apply List.mem_filter.2
        refine ⟨stored, ?_⟩
        simp [missed.confirmed, missed.token, missed.paysInto, unclaimed]
      rcases found with none | ⟨m', mNow, c', cNow, later, plans'⟩
      · rw [none] at inRescan
        cases inRescan
      · exact absurd missed (traced.not_missed iTrace (List.mem_filter.1 mNow).1
          (List.mem_filter.1 cNow).1 opens later plans' inRescan)
  exact ⟨m, mTrace, i, iTrace, u, uTrace, c, cTrace, ⟨mTask, writes, ts, inPlan, plans⟩,
    ⟨(beq_iff_eq.1 uTask).symm, opens, looked⟩, mi, iu, uc⟩

/-- The match that the schedule misses is one of an overlap. -/
theorem overlap_of_missed_sample : ∃ w, Run sampleSettings start w ∧ ∃ t r,
    Missed sampleSettings.engine.rules w.ledger t r ∧
      Overlap sampleSettings.engine.rules w t r := by
  obtain ⟨w, run, finished, t, r, missed⟩ := exists_missed
  exact ⟨w, run, t, r, missed, overlap_of_missed rfl run finished missed⟩

/-- It is not true that no match is missed once all tasks have ended and succeeded. -/
theorem match_may_be_missed : ¬ ∀ (s : Settings) (w : World),
    s.engine.rules.partialFills = false → Run s start w → Finished w →
    ∀ t r, ¬ Missed s.engine.rules w.ledger t r := by
  intro claim
  obtain ⟨w, run, finished, t, r, missed⟩ := exists_missed
  exact claim sampleSettings w rfl run finished t r missed

end World

end Paywatch
