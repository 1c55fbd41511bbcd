import Paywatch.Proofs.Matching.Interleaving

/-!
# What a route asks for

A plan weighs each payment against what the order of its route owes in the context that
was read.  When it is committed, the ledger checks that the route and its order are open
still, but does not weigh the payment again.  Without partial fills that is enough, for
an order that was paid in between is open no more.  With them an order may be paid in
part and stay open, and a claim that was planned before then settles its route with an
amount that the route does not ask for any more.
-/

namespace Paywatch

/-- The route of a claim asks for its amount, as its order stands in the ledger. -/
def Claim.Meets (rules : MatchingRules) (l : Ledger) (k : Claim) : Prop :=
  ∃ r o, l.routes.get? k.routeId = some r ∧ r.orderId = k.orderId ∧
    l.orders.get? k.orderId = some o ∧ (r.policy = .exact → k.amount = o.due) ∧
      (r.policy = .atLeast → rules.partialFills = false → o.due ≤ k.amount)

namespace Ledger

/-- What was there is still there:  a route as it was or open no more, and an order as
it was, open no more, or one that was paid on. -/
structure Drifts (l after : Ledger) (paid : OrderId → Prop) : Prop where
  route : ∀ id r, l.routes.get? id = some r →
    ∃ r', after.routes.get? id = some r' ∧ (r' = r ∨ r'.isOpen = false)
  order : ∀ id o, l.orders.get? id = some o →
    ∃ o', after.orders.get? id = some o' ∧ (o' = o ∨ o'.isOpen = false ∨ paid id)

theorem Closes.drifts {l after : Ledger} (closes : Closes l after)
    (paid : OrderId → Prop) :
    Drifts l after paid where
  route := by
    intro id r found
    obtain ⟨r', there, change⟩ := closes.route id r found
    refine ⟨r', there, ?_⟩
    rcases change with same | ⟨-, closed⟩
    · exact Or.inl same
    · exact Or.inr closed
  order := by
    intro id o found
    obtain ⟨o', there, change⟩ := closes.order id o found
    refine ⟨o', there, ?_⟩
    rcases change with same | closed
    · exact Or.inl same
    · exact Or.inr (Or.inl closed)

theorem Drifts.imp {l after : Ledger} {paid paid' : OrderId → Prop}
    (drifts : Drifts l after paid) (more : ∀ id, paid id → paid' id) :
    Drifts l after paid' where
  route := drifts.route
  order := by
    intro order o found
    obtain ⟨o', there, change⟩ := drifts.order order o found
    exact ⟨o', there, change.imp id (Or.imp id (more order))⟩

theorem Drifts.trans {l m n : Ledger} {paid : OrderId → Prop} (first : Drifts l m paid)
    (second : Drifts m n paid) : Drifts l n paid where
  route := by
    intro id r found
    obtain ⟨s, foundThen, change⟩ := first.route id r found
    obtain ⟨s', foundLast, change'⟩ := second.route id s foundThen
    refine ⟨s', foundLast, ?_⟩
    rcases change' with rfl | closed
    · exact change
    · exact Or.inr closed
  order := by
    intro id o found
    obtain ⟨p, foundThen, change⟩ := first.order id o found
    obtain ⟨p', foundLast, change'⟩ := second.order id p foundThen
    refine ⟨p', foundLast, ?_⟩
    rcases change' with rfl | closed | paid
    · rcases change with same | closed | paid
      · exact Or.inl same
      · exact Or.inr (Or.inl closed)
      · exact Or.inr (Or.inr paid)
    · exact Or.inr (Or.inl closed)
    · exact Or.inr (Or.inr paid)

/-- A route of a context that is open still is as the context has it. -/
theorem Drifts.route_of_context {l after : Ledger} {paid : OrderId → Prop}
    {chain : ChainId} {keys : List MatchKey} {r r' : Route} (drifts : Drifts l after paid)
    (filed : Filed l) (inContext : r ∈ (l.matchContext chain keys).routes)
    (found : after.routes.get? r.id = some r') (isOpen : r'.isOpen = true) : r' = r := by
  obtain ⟨id, foundThen⟩ := Table.mem_values_iff.1 (mem_routes_matchContext.1 inContext).1
  rw [← (filed.route id r foundThen).1] at foundThen
  obtain ⟨s, there, change⟩ := drifts.route _ r foundThen
  obtain rfl := Option.some.inj (there.symm.trans found)
  rcases change with same | closed
  · exact same
  · rw [isOpen] at closed
    cases closed

theorem Booked.drifts {l after : Ledger} {writes : List TransferWrite}
    {batch : List Claim} (booked : Booked l writes batch after) :
    Drifts l after fun id => ∃ k ∈ batch, k.orderId = id where
  route := by
    intro id r found
    rw [booked.routes]
    obtain ⟨r', there, change⟩ := route_foldl_writeClaim batch found
    refine ⟨r', there, ?_⟩
    rcases change with ⟨same, -⟩ | ⟨closed, -⟩
    · exact Or.inl same
    · exact Or.inr closed
  order := by
    intro id o found
    rw [booked.orders]
    obtain ⟨o', there, change⟩ := order_kept_or_paid batch found
    refine ⟨o', there, ?_⟩
    rcases change with same | paid
    · exact Or.inl same
    · exact Or.inr (Or.inr paid)

/-- What the ledger relies on for its identifiers. -/
structure Call.Files (l : Ledger) (c : Call) : Prop where
  newOrder : ∀ o, c = .insertOrder o → l.orders.get? o.id = none
  newRoute : ∀ r, c = .insertRoute r →
    l.routes.get? r.id = none ∧ ∃ o, l.orders.get? r.orderId = some o

/-- A call leaves open what it does not settle, and changes an order that stays open
only by settling a claim on it. -/
theorem drifts_perform {l : Ledger} (filed : Filed l) {c : Call} (files : c.Files l) :
    Drifts l (l.perform c).2 (fun id => ∃ k ∈ c.settled l, k.orderId = id) ∧
      Filed (l.perform c).2 := by
  have aside : c.settled l = [] → Drifts l (l.perform c).2 (fun id => ∃ k ∈ c.settled l,
      k.orderId = id) ∧ Filed (l.perform c).2 := by
    intro nothing
    have performed := performed_of_fits filed (c := c)
      ⟨files.newOrder, files.newRoute, nothing ▸ covers_nil l⟩
    exact ⟨performed.closes.drifts _, performed.filed⟩
  cases c with
  | commit b => exact ⟨(booked_commit l b).drifts, (booked_commit l b).filed filed⟩
  | commitPlan ws p =>
      exact ⟨(booked_commitPlan l ws p).drifts, (booked_commitPlan l ws p).filed filed⟩
  | _ => exact aside rfl

/-- Whatever is settled passed the check of the ledger. -/
theorem Call.claimable {l : Ledger} {c : Call} :
    ∀ k ∈ c.settled l, l.checkClaim k = .ok () := by
  cases c with
  | commit b => exact (booked_commit l b).claimable
  | commitPlan ws p => exact (booked_commitPlan l ws p).claimable
  | _ => exact fun _ => nofun

theorem orders_foldl_writeClaim (l : Ledger) (claims : List Claim) :
    (claims.foldl writeClaim l).orders = Claim.payAll l.orders claims := by
  induction claims generalizing l with
  | nil => rfl
  | cons c rest ih => exact ih (l.writeClaim c)

/-- Where claims use every route once, the earlier ones leave the route of
a later one alone. -/
theorem route_of_earlier {l : Ledger} {earlier later : List Claim} {k : Claim} {r : Route}
    (once : ((earlier ++ k :: later).map (·.routeId)).Nodup)
    (found : l.routes.get? k.routeId = some r) :
    (earlier.foldl writeClaim l).routes.get? k.routeId = some r := by
  obtain ⟨s, there, change⟩ := route_foldl_writeClaim earlier found
  rcases change with ⟨rfl, -⟩ | ⟨-, c, member, named, -⟩
  · exact there
  · rw [List.map_append, List.map_cons, List.nodup_append] at once
    exact absurd named (once.2.2 _ (List.mem_map_of_mem member) _ List.mem_cons_self)

end Ledger

/-- An amount that the rules accept is one that the route asks for. -/
theorem Claim.meets_of_accepted {rules : MatchingRules} {l : Ledger} {k : Claim}
    {r : Route} {o : Order} (route : l.routes.get? k.routeId = some r)
    (ofOrder : r.orderId = k.orderId) (order : l.orders.get? k.orderId = some o)
    (accepted : rules.acceptsAmount r.policy k.amount o.due = true) :
    k.Meets rules l := by
  refine ⟨r, o, route, ofOrder, order, ?_⟩
  simp only [MatchingRules.acceptsAmount, Bool.and_eq_true] at accepted
  constructor
  · intro exact
    rw [exact] at accepted
    exact beq_iff_eq.1 accepted.2
  · intro atLeast whole
    rw [atLeast, whole, Bool.or_false] at accepted
    exact of_decide_eq_true accepted.2

/-! ## A plan that is committed later -/

section Plan

variable {rules : MatchingRules} {seen now : Ledger} {chain : ChainId}
    {ts : List Transfer}
  {draft : Draft} {paid : OrderId → Prop} (filed : seen.Filed)
    (drifts : seen.Drifts now paid)
  (ok : rules.plan (seen.matchContext chain (MatchKey.ofTransfers ts)) ts = .ok draft)
  (claimable : ∀ c ∈ draft.claims, now.checkClaim c = .ok ())
include filed drifts ok claimable

/-- A claim that the ledger still takes meets what its route asks for, unless its order
has been paid on since the context of its plan was read. -/
theorem meets_or_paid {earlier later : List Claim} {k : Claim}
    (claims : draft.claims = earlier ++ k :: later) :
    k.Meets rules (earlier.foldl Ledger.writeClaim now) ∨ paid k.orderId ∧
      ∃ o o', seen.orders.get? k.orderId = some o ∧ now.orders.get? k.orderId = some o' ∧
        o'.isOpen = true ∧ o' ≠ o := by
  obtain ⟨r, inContext, sameRoute, ofOrder, o, found, accepted⟩ :=
    MatchingRules.accepts_of_plan ok earlier k later claims
  obtain ⟨⟨r', foundNow, isOpen, -⟩, ⟨o', placedNow, orderOpen⟩, -⟩ :=
    Ledger.checkClaim_eq_ok
    (claimable k (by rw [claims]; exact List.mem_append_right _ List.mem_cons_self))
  obtain rfl :=
    drifts.route_of_context filed inContext (sameRoute ▸ foundNow) (beq_iff_eq.2 isOpen)
  obtain ⟨p, inOrders⟩ := Claim.get?_of_payAll found
  have placedThen := Ledger.get?_orders_matchContext filed.order inOrders
  by_cases same : o' = p
  · subst same
    have once := (Claim.nodup_of_check (MatchingRules.plan_eq_ok ok).1).1
    rw [claims] at once
    refine Or.inl
      (Claim.meets_of_accepted (Ledger.route_of_earlier once foundNow) ofOrder.symm ?_
      accepted)
    rw [Ledger.orders_foldl_writeClaim, ← found]
    exact Claim.get?_payAll_congr (placedNow.trans inOrders.symm) earlier
  · obtain ⟨q, there, change⟩ := drifts.order _ p placedThen
    obtain rfl := Option.some.inj (there.symm.trans placedNow)
    have stillOpen : q.isOpen = true := beq_iff_eq.2 orderOpen
    rcases change with rfl | closed | paidOn
    · exact absurd rfl same
    · rw [stillOpen] at closed
      cases closed
    · exact Or.inr ⟨paidOn, p, q, placedThen, placedNow, stillOpen, same⟩

/-- Claims that the ledger still takes name the orders of their routes. -/
theorem wellMatched_of_plan : now.WellMatched draft.claims where
  checked := (MatchingRules.plan_eq_ok ok).1
  ofRoute := by
    intro k member r found
    obtain ⟨earlier, later, claims⟩ := List.append_of_mem member
    obtain ⟨r', inContext, sameRoute, ofOrder, -⟩ :=
      MatchingRules.accepts_of_plan ok earlier k later claims
    obtain ⟨⟨s, foundNow, isOpen, -⟩, -⟩ := Ledger.checkClaim_eq_ok (claimable k member)
    obtain rfl := Option.some.inj (foundNow.symm.trans found)
    obtain rfl :=
      drifts.route_of_context filed inContext (sameRoute ▸ found) (beq_iff_eq.2 isOpen)
    exact ofOrder

end Plan

/-! ## Plans that others overtake -/

/-- The turn settled a claim on the order. -/
def Turn.PaysOn (t : Turn) (id : OrderId) : Prop := ∃ k ∈ t.settled, k.orderId = id

namespace World

/-- Between the turn in which a task read the context of its plan and the turn in which
it committed the plan, another turn settled a claim on the same order. -/
def Overtaken (rules : MatchingRules) (w : World) (c : Turn) (k : Claim) : Prop :=
  ∃ m ∈ w.trace, ∃ d ∈ w.trace, (m.task = c.task ∧ ∃ ts, m.Plans rules ts c.settled) ∧
    m.number < d.number ∧ d.number < c.number ∧ d.PaysOn k.orderId

/-- What every turn has seen of routes and orders, in terms of the trace. -/
structure Watched (w : World) : Prop where
  filed : w.ledger.Filed
  seen : ∀ e ∈ w.trace, e.before.Filed ∧ e.before.Drifts w.ledger fun id =>
    ∃ d ∈ w.trace, (d = e ∨ e.number < d.number) ∧ d.PaysOn id

variable {s : Settings} {w after : World}

theorem watched_start : Watched start where
  filed := Ledger.filed_empty
  seen := by simp [start]

/-- Somebody else makes a call that settles nothing. -/
theorem Watched.drifted (watched : Watched w) {l : Ledger} {tasks : List (Flow Bool)}
    (closes : w.ledger.Closes l) (filed : l.Filed) : Watched ⟨l, tasks, w.trace⟩ where
  filed := filed
  seen := by
    intro e member
    obtain ⟨filedThen, drifts⟩ := watched.seen e member
    exact ⟨filedThen, drifts.trans (closes.drifts _)⟩

section Turn

variable (ruled : Ruled s w) (watched : Watched w) {k : Nat} {c : Ledger.Call}
  {next : c.Reply → Flow Bool} (running : w.tasks[k]? = some (.call (.ledger c) next))
  (fresh : ∀ r, c = .insertRoute r → w.ledger.routes.get? r.id = none)
include ruled watched running fresh

theorem Watched.files : c.Files w.ledger where
  newOrder o places := absurd places ((ruled.lawful running).noOrder o)
  newRoute := by
    intro r opens
    refine ⟨fresh r opens, ?_⟩
    obtain ⟨q, asked, id, o, placed, ofOrder⟩ := (ruled.lawful running).placed r opens
    obtain ⟨filed, drifts⟩ := watched.seen q (List.mem_filter.1 asked).1
    obtain ⟨o', there, -⟩ := drifts.order id o placed
    rw [ofOrder, filed.order id o placed]
    exact ⟨o', there⟩

theorem Watched.turned : Watched
    { ledger := (w.ledger.perform c).2
      tasks := w.tasks.set k (next (w.ledger.perform c).1)
      trace := ⟨w.trace.length, k, c, w.ledger⟩ :: w.trace } := by
  obtain ⟨drifts, filed⟩ :=
    Ledger.drifts_perform watched.filed (watched.files ruled running fresh)
  refine ⟨filed, ?_⟩
  rw [List.forall_mem_cons]
  constructor
  · exact ⟨watched.filed, drifts.imp fun id paid =>
      ⟨_, List.mem_cons_self, Or.inl rfl, paid⟩⟩
  · intro e member
    obtain ⟨filedThen, driftsThen⟩ := watched.seen e member
    refine ⟨filedThen, (driftsThen.imp ?_).trans (drifts.imp ?_)⟩
    · rintro id ⟨d, among, later, paid⟩
      exact ⟨d, List.mem_cons_of_mem _ among, later, paid⟩
    · intro id paid
      exact ⟨_, List.mem_cons_self, Or.inr (ruled.numbered e member).1, paid⟩

end Turn

theorem watched_step (ruled : Ruled s w) (watched : Watched w) (step : Step s w after) :
    Watched after := by
  cases step with
  | start o => exact ⟨watched.filed, watched.seen⟩
  | turn k c next running fresh => exact watched.turned ruled running fresh
  | ask k c next reply running elsewhere => exact ⟨watched.filed, watched.seen⟩
  | other c apart =>
      have performed := Ledger.performed_of_fits watched.filed (fits_of_isApart apart)
      exact watched.drifted performed.closes performed.filed
  | wait ticks =>
      exact watched.drifted (Ledger.closes_of_eq rfl rfl) (watched.filed.congr rfl rfl)

theorem watched_run (run : Run s start w) : Watched w := by
  induction run with
  | refl => exact watched_start
  | tail run step ih => exact watched_step (ruled_run run) ih step

/-! ## Claims as they are settled -/

/-- Each claim that was settled meets what its route asked for just before, unless its
order may be paid in parts and its plan was overtaken. -/
def Weighed (rules : MatchingRules) (w : World) : Prop :=
  ∀ c ∈ w.trace, ∀ earlier k later, c.settled = earlier ++ k :: later →
    k.Meets rules (earlier.foldl Ledger.writeClaim c.before) ∨
      rules.partialFills = true ∧ Overtaken rules w c k

theorem Overtaken.mono {rules : MatchingRules} {c : Turn} {k : Claim}
    (overtaken : Overtaken rules w c k) (more : w.trace ⊆ after.trace) :
    Overtaken rules after c k := by
  obtain ⟨m, mTrace, d, dTrace, others⟩ := overtaken
  exact ⟨m, more mTrace, d, more dTrace, others⟩

/-- What a turn settles is weighed. -/
theorem weighed_turn (run : Run s start w) {k : Nat} {c : Ledger.Call}
    {next : c.Reply → Flow Bool} (running : w.tasks[k]? = some (.call (.ledger c) next))
    {earlier later : List Claim} {claim : Claim}
    (settled : c.settled w.ledger = earlier ++ claim :: later) :
    claim.Meets s.engine.rules (earlier.foldl Ledger.writeClaim w.ledger) ∨
      s.engine.rules.partialFills = true ∧
        Overtaken s.engine.rules w ⟨w.trace.length, k, c, w.ledger⟩ claim := by
  have ruled := ruled_run run
  obtain ⟨ts, -, ⟨-, nothing⟩ | ⟨m, mPast, plans⟩⟩ := (ruled.lawful running).planned
  · rw [Turn.settled, settled] at nothing
    exact absurd nothing (by simp)
  obtain ⟨mTrace, mTask⟩ := List.mem_filter.1 mPast
  obtain ⟨chain, draft, asked, ok, claims⟩ := plans
  obtain ⟨filed, drifts⟩ := (watched_run run).seen m mTrace
  have claimable : ∀ d ∈ draft.claims, w.ledger.checkClaim d = .ok () := by
    rw [claims]
    exact Ledger.Call.claimable
  rcases meets_or_paid filed drifts ok claimable (claims.trans settled) with
    meets | ⟨⟨d, dTrace, late, paid⟩, o, o', before, now, isOpen, changed⟩
  · exact Or.inl meets
  right
  cases whole : s.engine.rules.partialFills with
  | false =>
      have closes := ((traced_run whole run).seen m mTrace).2
      exact absurd (closes.open_order before now isOpen).symm changed
  | true =>
      refine ⟨rfl, m, mTrace, d, dTrace,
        ⟨beq_iff_eq.1 mTask, ts, chain, draft, asked, ok, claims⟩,
        ?_, (ruled.numbered d dTrace).1, paid⟩
      rcases late with rfl | late
      · obtain ⟨_, member, -⟩ := paid
        rw [Turn.settled, asked] at member
        cases member
      · exact late

/-- A claim that a task settles meets what its route asks for when its turn comes:  on
an exact route it brings what the order owes, and on any other no less, unless partial
fills are taken.  With partial fills a claim on an exact route may fail to, if between
the plan and the commit another turn has settled a claim on the same order. -/
theorem meets_or_overtaken (run : Run s start w) : Weighed s.engine.rules w := by
  induction run with
  | refl => simp [Weighed, start]
  | tail run step ih =>
      cases step with
      | turn k c next running fresh =>
          intro d member earlier claim later settled
          rcases List.mem_cons.1 member with rfl | old
          · exact (weighed_turn run running settled).imp id (And.imp id fun overtaken =>
              overtaken.mono fun _ => List.mem_cons_of_mem _)
          · exact (ih d old earlier claim later settled).imp id
              (And.imp id fun overtaken =>
              overtaken.mono fun _ => List.mem_cons_of_mem _)
      | _ => exact ih

/-! ## An overtaken plan -/

/-- Partial fills are taken. -/
def partialSettings : Settings :=
  { sampleSettings with engine := { rules := { partialFills := true } } }

/-- A confirmed payment into the destination of the routes. -/
def filling (tx : String) (amount : Amount) : Transfer :=
  let origin : ChainOrigin := ⟨⟨1⟩, 1, "0xa1", tx, 0, .nativeTransfer, .zero⟩
  let t := Transfer.ofBlock ⟨.ofNat (100 + amount.units), default⟩ origin
    (.native ⟨1⟩) .zero .zero amount default
  { t with status := .confirmed }

/-- Two routes lead to one order, and one of them asks for the exact amount.
While the task that settles it is between its plan and its commit, a smaller
payment settles the other. -/
def overtaking : List Act :=
  [.place Books.sampleOrder,
    .start (.openRoute { sampleRequest with policy := some .exact })] ++
      .replicate 5 (.go 0) ++
    [.start (.openRoute { sampleRequest with policy := some .atLeast })] ++
      .replicate 5 (.go 1) ++
    [.start (.settle ⟨1⟩ [filling "0x01" Books.sampleOrder.amount] []), .go 2,
      .start (.settle ⟨1⟩ [filling "0x02" ⟨2, by decide⟩] [])] ++ .replicate 3 (.go 3) ++
    [.go 2]

/-- The claim on an exact route does not bring what its order owes. -/
def missesDue (l : Ledger) (k : Claim) : Bool :=
  (l.routes.get? k.routeId).any fun r => r.policy == .exact &&
    (l.orders.get? k.orderId).any fun o => k.amount != o.due

theorem not_meets_of_missesDue {rules : MatchingRules} {l : Ledger} {k : Claim}
    (misses : missesDue l k = true) : ¬ k.Meets rules l := by
  rintro ⟨r, o, found, -, placed, exactly, -⟩
  simp only [missesDue, found, placed, Option.any_some, Bool.and_eq_true, beq_iff_eq,
    bne_iff_ne] at misses
  exact misses.2 (exactly misses.1)

/-- The last turn begins with such a claim. -/
def endsAmiss (w : World) : Bool :=
  w.trace.head?.any fun c => c.settled.head?.any (missesDue c.before)

theorem exists_amiss : ∃ w, Run partialSettings start w ∧ ∃ c ∈ w.trace, ∃ k later,
    c.settled = k :: later ∧ ¬ k.Meets partialSettings.engine.rules c.before := by
  have played :
      (overtaking.foldlM (act partialSettings Session.sampleCatalog Session.homeBranch)
      start).any endsAmiss = true := by decide +kernel
  obtain ⟨w, reached, ends⟩ := (Option.any_eq_true _ _).1 played
  obtain ⟨c, last, ends⟩ := (Option.any_eq_true _ _).1 ends
  obtain ⟨k, first, misses⟩ := (Option.any_eq_true _ _).1 ends
  obtain ⟨later, settled⟩ := List.head?_eq_some_iff.1 first
  exact ⟨w, run_of_play reached, c, List.mem_of_head? last, k, later, settled,
    not_meets_of_missesDue misses⟩

/-- The plan of the example is overtaken. -/
theorem overtaken_of_amiss : ∃ w, Run partialSettings start w ∧ ∃ c k,
    Overtaken partialSettings.engine.rules w c k := by
  obtain ⟨w, run, c, cTrace, k, later, settled, misses⟩ := exists_amiss
  rcases meets_or_overtaken run c cTrace [] k later settled with meets | ⟨-, overtaken⟩
  · exact absurd meets misses
  · exact ⟨w, run, c, k, overtaken⟩

/-- It is not true that every claim meets what its route asks for just
before it is settled. -/
theorem amount_may_miss_due :
    ¬ ∀ (s : Settings) (w : World), Run s start w → ∀ c ∈ w.trace,
    ∀ earlier k later, c.settled = earlier ++ k :: later →
      k.Meets s.engine.rules (earlier.foldl Ledger.writeClaim c.before) := by
  intro meets
  obtain ⟨w, run, c, cTrace, k, later, settled, misses⟩ := exists_amiss
  exact misses (meets partialSettings w run c cTrace [] k later settled)

end World

end Paywatch
