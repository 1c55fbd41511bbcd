import Paywatch.Proofs.Matching.Interleaving
import Paywatch.Proofs.Matching.Orderly

/-!
# What is left of opening a route

A route is opened in several calls, and others go on in between.  The order is looked
up and the route is inserted; then earlier payments are settled, and the route is
read back.  Up to the insert a failure leaves nothing behind.  From then on the route
is stored for good, open or consumed since, and also if the settlement fails:  no
route is ever taken back.
-/

namespace Paywatch

/-- The route is as it was, or it was open and has been consumed. -/
def Route.Follows (now r : Route) : Prop :=
  now = r ∨ r.isOpen = true ∧ ∃ t, now = r.consume t

namespace Route.Follows

variable {last now r : Route}

theorem refl (r : Route) : Follows r r := Or.inl rfl

theorem trans (second : Follows last now) (first : Follows now r) : Follows last r := by
  rcases first with rfl | ⟨isOpen, t, rfl⟩
  · exact second
  · rcases second with rfl | ⟨again, -⟩
    · exact Or.inr ⟨isOpen, t, rfl⟩
    · cases again

end Route.Follows

/-- The route is for the order and the destination that are asked for. -/
structure RouteRequest.Asks (request : RouteRequest) (r : Route) : Prop where
  order : r.orderId = request.orderId
  token : r.token = request.token
  window : r.window = request.window
  destination : ∃ identifier, r.destination = request.target.destination identifier

theorem RouteRequest.Asks.follows {request : RouteRequest} {now r : Route}
    (asks : request.Asks r) (follows : now.Follows r) : request.Asks now := by
  rcases follows with rfl | ⟨-, t, rfl⟩
  · exact asks
  · exact ⟨asks.order, asks.token, asks.window, asks.destination⟩

namespace Ledger

variable {l mid after : Ledger}

/-- Every route is there still, and none has changed but by being consumed. -/
def Onward (l after : Ledger) : Prop :=
  ∀ id r, l.routes.get? id = some r →
    ∃ now, after.routes.get? id = some now ∧ now.Follows r

theorem Onward.of_eq (routes : after.routes = l.routes) : Onward l after := by
  intro id r found
  rw [routes]
  exact ⟨r, found, .refl r⟩

theorem Onward.refl (l : Ledger) : Onward l l := .of_eq rfl

theorem Onward.trans (first : Onward l mid) (second : Onward mid after) :
    Onward l after := by
  intro id r found
  obtain ⟨now, there, follows⟩ := first id r found
  obtain ⟨last, here, again⟩ := second id now there
  exact ⟨last, here, again.trans follows⟩

/-- Claims are booked on open routes only. -/
theorem Booked.onward {writes : List TransferWrite} {batch : List Claim}
    (booked : Booked l writes batch after) : Onward l after := by
  intro id r found
  obtain ⟨now, there, change⟩ := route_foldl_writeClaim batch found
  obtain ⟨s, before, shape⟩ := routes_foldl_writeClaim there
  obtain rfl := Option.some.inj (before.symm.trans found)
  refine ⟨now, by rw [booked.routes]; exact there, ?_⟩
  rcases change with ⟨same, -⟩ | ⟨closed, c, member, named, -⟩
  · exact Or.inl same
  · obtain ⟨⟨s', claimed, isOpen, -⟩, -⟩ := checkClaim_eq_ok (booked.claimable c member)
    rw [named] at claimed
    obtain rfl := Option.some.inj (claimed.symm.trans found)
    have isOpen : s'.isOpen = true := by rw [Route.isOpen, isOpen]; rfl
    rcases shape with rfl | ⟨k, -, -, rfl⟩
    · rw [isOpen] at closed
      cases closed
    · exact Or.inr ⟨isOpen, k.transferId, rfl⟩

/-- No call takes a route back, as long as identifiers of new ones are new. -/
theorem onward_perform (l : Ledger) {c : Call}
    (fresh : ∀ r, c = .insertRoute r → l.routes.get? r.id = none) :
    Onward l (l.perform c).2 := by
  cases c with
  | commit b => exact (booked_commit l b).onward
  | commitPlan writes p => exact (booked_commitPlan l writes p).onward
  | insertRoute s =>
      intro id r found
      exact ⟨r, Table.get?_insert_of_fresh (fresh s rfl) found, .refl r⟩
  | _ => exact .of_eq (routes_transfers_perform l rfl).1

end Ledger

namespace World

open Ledger (Onward)

variable {s : Settings} {w there after : World}

theorem onward_step (step : Step s w after) : Onward w.ledger after.ledger := by
  cases step with
  | start o => exact .refl _
  | turn k c next running fresh => exact Ledger.onward_perform _ fresh
  | ask k c next reply running elsewhere => exact .refl _
  | other c apart =>
      refine Ledger.onward_perform _ fun r opens => ?_
      rw [opens] at apart
      exact apart.elim
  | wait ticks => exact .of_eq rfl

theorem onward_run (run : Run s w after) : Onward w.ledger after.ledger := by
  induction run with
  | refl => exact .refl _
  | tail _ step ih => exact ih.trans (onward_step step)

/-- Orders are filed under their identifiers. -/
theorem order_filed (run : Run s start w) :
    ∀ id o, w.ledger.orders.get? id = some o → o.id = id := by
  induction run with
  | refl => simp [start, Ledger.empty]
  | tail _ step ih =>
      intro id o found
      cases step with
      | start o => exact ih id _ found
      | turn k c next running fresh => exact Ledger.order_perform ih found
      | ask k c next reply running elsewhere => exact ih id o found
      | other c apart => exact Ledger.order_perform ih found
      | wait ticks => exact ih id o found

/-- The rule for one who works beside the tasks:  they go on before each of its calls,
the ledger answers those that are made to it, and all else is answered in any way.  The
identifier of a route that it inserts is new. -/
def Among (s : Settings) : Answering World := fun w c reply after =>
  ∃ before, Run s w before ∧
    match c, reply with
    | .ledger c, reply =>
      (∀ r, c = .insertRoute r → before.ledger.routes.get? r.id = none) ∧
        reply = (before.ledger.perform c).1 ∧
        after = { before with ledger := (before.ledger.perform c).2 }
    | _, _ => after = before

theorem onward_among {c : Call} {reply : c.Reply} (answer : Among s w c reply after) :
    Onward w.ledger after.ledger := by
  obtain ⟨before, run, answer⟩ := answer
  refine (onward_run run).trans ?_
  cases c with
  | ledger c =>
      obtain ⟨fresh, -, rfl⟩ := answer
      exact Ledger.onward_perform _ fresh
  | _ =>
      obtain rfl := answer
      exact .refl _

theorem onward_leads {α : Type} {x : Flow α} {a : α}
    (leads : x.Leads (Among s) w a after) :
    Onward w.ledger after.ledger := by
  induction x generalizing w with
  | done b =>
      obtain ⟨-, rfl⟩ := leads
      exact .refl _
  | call c next ih =>
      obtain ⟨reply, there, answer, rest⟩ := leads
      exact (onward_among answer).trans (ih reply rest)

/-- A question leaves everything to the tasks. -/
theorem run_of_order {id : OrderId} {found : Option Order}
    (leads : (Flow.ledger (.order id)).Leads (Among s) w found after) :
    Run s w after ∧ found = after.ledger.orders.get? id := by
  obtain ⟨before, run, -, rfl, rfl⟩ := Flow.leads_ask.1 leads
  exact ⟨run, rfl⟩

/-- To build a route is to ask for an identifier and the time. -/
theorem leads_open? {rules : MatchingRules} {request : RouteRequest} {o : Order}
    {result : Except ReconcileError Route}
    (leads : (request.open? rules o).Leads (Among s) w result after) :
    Run s w after ∧
      ∃ stamp identifier, result = request.build rules o stamp identifier := by
  unfold RouteRequest.open? at leads
  extract_lets finish at leads
  have finished :
      ∀ {identifier there}, (finish identifier).Leads (Among s) there result after →
      Run s there after ∧
      ∃ stamp identifier, result = request.build rules o stamp identifier := by
    intro identifier there leads
    obtain ⟨stamp, last, stamps, leads⟩ := Flow.leads_bind.1 leads
    obtain ⟨before, run, rfl⟩ := Flow.leads_ask.1 stamps
    obtain ⟨rfl, rfl⟩ := leads
    exact ⟨run, stamp, identifier, rfl⟩
  split at leads
  · exact finished leads
  · obtain ⟨identifier, there, given, leads⟩ := Flow.leads_bind.1 leads
    obtain ⟨before, run, rfl⟩ := Flow.leads_ask.1 given
    obtain ⟨later, built⟩ := finished leads
    exact ⟨run.trans later, built⟩

/-- A rescan fails as its settlement does. -/
theorem settle_of_rescan {r : Route} {e : EngineError}
    (leads : (s.rescan r).Leads (Among s) w (.error e) after) : ∃ e', e = .settle e' := by
  unfold Settings.rescan at leads
  obtain ⟨earlier, there, -, leads⟩ := Flow.leads_bind.1 leads
  split at leads
  · cases leads.1
  · obtain ⟨settled, last, -, leads⟩ := Flow.leads_bind.1 leads
    cases settled with
    | error e' => exact ⟨e', Except.error.inj leads.1⟩
    | ok plan => cases leads.1

/-- The route is one that was asked for and was not there, and it is stored for good:
whatever comes later, it is there as it is here, or consumed. -/
structure Opened (s : Settings) (request : RouteRequest) (w after : World) (r : Route) :
    Prop where
  asks : request.Asks r
  new : w.ledger.routes.get? r.id = none
  stays : ∀ later, Run s after later → ∃ now, later.ledger.routes.get? r.id = some now ∧
    now.Follows r

/-- A route that was inserted under a new identifier stays. -/
theorem opened_of_onward {before : World} {request : RouteRequest} {r : Route}
    (others : Run s w before) (fresh : before.ledger.routes.get? r.id = none)
    (asks : request.Asks r) (onward : Onward (before.ledger.insertRoute r) after.ledger) :
    Opened s request w after r where
  asks := asks
  new := by
    cases old : w.ledger.routes.get? r.id with
    | none => rfl
    | some r' =>
        obtain ⟨now, there, -⟩ := onward_run others _ r' old
        rw [fresh] at there
        cases there
  stays later goesOn := by
    have stored : (before.ledger.insertRoute r).routes.get? r.id = some r := by
      simp [Ledger.insertRoute, Table.get?_insert]
    exact onward.trans (onward_run goesOn) r.id r stored

/-- What has become of a route that was opened is opened as well. -/
theorem Opened.now {request : RouteRequest} {r now : Route}
    (opened : Opened s request w after r)
    (there : after.ledger.routes.get? r.id = some now) :
    Opened s request w after now := by
  obtain ⟨now', found, follows⟩ := opened.stays after .refl
  obtain rfl := Option.some.inj (found.symm.trans there)
  have sameId : now'.id = r.id := by
    rcases follows with rfl | ⟨-, t, rfl⟩
    · rfl
    · rfl
  refine ⟨opened.asks.follows follows, by rw [sameId]; exact opened.new,
    fun later goesOn => ?_⟩
  rw [sameId]
  exact onward_run goesOn r.id now' there

/-- Either nothing is inserted, or the route is inserted as it was asked for, and
then the rescan decides. -/
theorem openRoute_cases {request : RouteRequest} {result : Except EngineError Route}
    (run : Run s start w) (leads : (s.openRoute request).Leads (Among s) w result after) :
    (Run s w after ∧ ∃ e, result = .error e ∧ ∀ e', e ≠ .settle e') ∨
    ∃ route before rescanned there, request.Asks route ∧ route.isOpen = true ∧
      Run s w before ∧ before.ledger.routes.get? route.id = none ∧
      (s.rescan route).Leads (Among s)
        { before with ledger := before.ledger.insertRoute route } rescanned there ∧
      ((∃ e, rescanned = .error e ∧ result = .error e ∧ after = there) ∨
        ∃ stored, (Flow.ledger (.route route.id)).Leads (Among s) there stored after ∧
          result = .ok (stored.getD route)) := by
  unfold Settings.openRoute at leads
  obtain ⟨found, w₁, asks, leads⟩ := Flow.leads_bind.1 leads
  obtain ⟨run₁, rfl⟩ := run_of_order asks
  cases found : w₁.ledger.orders.get? request.orderId with
  | none =>
      rw [found] at leads
      obtain ⟨rfl, rfl⟩ := leads
      exact Or.inl ⟨run₁, _, rfl, fun _ => nofun⟩
  | some order =>
      rw [found] at leads
      obtain ⟨built, w₂, opens, leads⟩ := Flow.leads_bind.1 leads
      obtain ⟨run₂, stamp, identifier, rfl⟩ := leads_open? opens
      cases made : request.build s.engine.rules order stamp identifier with
      | error e =>
          rw [made] at leads
          obtain ⟨rfl, rfl⟩ := leads
          exact Or.inl ⟨run₁.trans run₂, _, rfl, fun _ => nofun⟩
      | ok route =>
          rw [made] at leads
          simp only at leads
          split at leads
          · obtain ⟨rfl, rfl⟩ := leads
            exact Or.inl ⟨run₁.trans run₂, _, rfl, fun _ => nofun⟩
          · obtain ⟨⟨⟩, w₃, inserts, leads⟩ := Flow.leads_bind.1 leads
            obtain ⟨before, run₃, fresh, -, rfl⟩ := Flow.leads_ask.1 inserts
            obtain ⟨rescanned, w₄, rescans, leads⟩ := Flow.leads_bind.1 leads
            obtain ⟨-, -, shape⟩ := RouteRequest.eq_of_build made
            have asked : request.Asks route := by
              rw [shape]
              exact ⟨order_filed (run.trans run₁) _ _ found, rfl, rfl, identifier, rfl⟩
            refine Or.inr ⟨route, before, rescanned, w₄,
              asked, by rw [shape]; rfl, run₁.trans (run₂.trans run₃), fresh route rfl,
              rescans, ?_⟩
            cases rescanned with
            | error e => exact Or.inl ⟨e, rfl, leads⟩
            | ok u =>
                obtain ⟨stored, w₅, reads, leads⟩ := Flow.leads_bind.1 leads
                obtain ⟨rfl, rfl⟩ := leads
                exact Or.inr ⟨stored, reads, rfl⟩

/-- What comes of opening a route among others.  If it succeeds, the route is
stored, as it is given back or consumed since.  If the settlement of earlier
payments fails, the route is stored all the same.  If it fails in any other way,
nothing has happened but what others did. -/
theorem openRoute_outcome {request : RouteRequest} {result : Except EngineError Route}
    (run : Run s start w) (leads : (s.openRoute request).Leads (Among s) w result after) :
    (∀ r, result = .ok r → Opened s request w after r) ∧
    (∀ e, result = .error (.settle e) → ∃ r, r.isOpen = true ∧
      Opened s request w after r) ∧
    (∀ e, result = .error e → (∀ e', e ≠ .settle e') → Run s w after) := by
  rcases openRoute_cases run leads with ⟨others, e, rfl, early⟩ |
    ⟨route, before, rescanned, there, asks, isOpen, others, fresh, rescans, outcome⟩
  · refine ⟨fun _ => nofun, fun e' same => ?_, fun _ _ _ => others⟩
    exact absurd (Except.error.inj same) (early e')
  · have opened :
      ∀ {later : World}, Onward (before.ledger.insertRoute route) later.ledger →
        Opened s request w later route := opened_of_onward others fresh asks
    rcases outcome with ⟨e, rfl, rfl, rfl⟩ | ⟨stored, reads, rfl⟩
    · obtain ⟨e, rfl⟩ := settle_of_rescan rescans
      refine ⟨fun _ => nofun, fun _ _ => ⟨route, isOpen, opened (onward_leads rescans)⟩,
        fun e' same other => ?_⟩
      exact absurd (Except.error.inj same).symm (other e)
    · have stays := opened ((onward_leads rescans).trans (onward_leads reads))
      obtain ⟨now, found, -⟩ := stays.stays _ .refl
      obtain ⟨reading, -, -, rfl, rfl⟩ := Flow.leads_ask.1 reads
      -- what is read back is the route as it is stored by then
      have back : (reading.ledger.perform (.route route.id)).1 = some now := found
      refine ⟨fun r same => ?_, fun _ => nofun, fun _ => nofun⟩
      rw [back] at same
      obtain rfl : now = r := Except.ok.inj same
      exact stays.now found

/-! ## Playing beside the tasks -/

/-- The answer to a call beside the tasks, with nodes and identifiers as they are for a
flow that runs alone. -/
def answer? (catalog : Catalog) (n : Nodes) (w : World) :
    (c : Call) → Option (c.Reply × World)
  | .ledger c =>
    if isFresh w.ledger c then
      some ((w.ledger.perform c).1, { w with ledger := (w.ledger.perform c).2 }) else none
  | c =>
    let surroundings : Surroundings := ⟨w.ledger, w.trace.map fun t => .ofNat t.number⟩
    some ((surroundings.perform catalog n c).1, w)

/-- A flow beside the tasks, and what the tasks do before each of its calls. -/
def beside (s : Settings) (catalog : Catalog) (n : Nodes) {α : Type} :
    Flow α → List (List Act) → World → Option (α × World)
  | .done a, _, w => some (a, w)
  | .call c next, acts, w => do
    let before ← (acts.headD []).foldlM (act s catalog n) w
    let (reply, after) ← before.answer? catalog n c
    beside s catalog n (next reply) acts.tail after

theorem leads_of_beside {catalog : Catalog} {n : Nodes} {α : Type} {x : Flow α}
    {acts : List (List Act)} {a : α}
    (played : beside s catalog n x acts w = some (a, after)) :
    x.Leads (Among s) w a after := by
  induction x generalizing acts w with
  | done b =>
      cases played
      exact ⟨rfl, rfl⟩
  | call c next ih =>
      simp only [beside, Option.bind_eq_bind, Option.bind_eq_some_iff,
        Prod.exists] at played
      obtain ⟨before, others, reply, there, answer, played⟩ := played
      refine ⟨reply, there, ⟨before, run_of_play others, ?_⟩, ih reply played⟩
      cases c with
      | ledger c =>
          simp only [answer?] at answer
          split at answer
          · rename_i isFresh
            cases answer
            refine ⟨fun r opens => ?_, rfl, rfl⟩
            rw [opens] at isFresh
            exact Option.isNone_iff_eq_none.1 isFresh
          · cases answer
      | _ =>
          cases answer
          rfl

/-- An order that is placed later than the other. -/
def laterOrder : Order :=
  { Books.sampleOrder with id := ⟨.make 1 1⟩, reference := "later" }

def laterRequest : RouteRequest := { sampleRequest with orderId := laterOrder.id }

/-- Two orders are placed, and the payment of a block is confirmed by the next one. -/
def confirming : List Act :=
  [.acquire ⟨1⟩ "worker" 10, .place Books.sampleOrder, .place laterOrder,
    .start ingestPaid] ++
    .replicate 7 (.go 0) ++ [.start ingestNext] ++ .replicate 7 (.go 1)

/-- Both orders are given a route into the same destination.  The later one is
inserted when the earlier one has looked for payments; both have found the same, and
the earlier one settles it. -/
def meeting : List (List Act) :=
  [.start (.openRoute sampleRequest) :: .replicate 4 (.go 2), [], [], [],
    .replicate 2 (.go 2)]

/-- The route that a call inserts. -/
def inserted? : Ledger.Call → Option Route
  | .insertRoute r => some r
  | _ => none

/-- The settlement failed, and an open route of the later order is stored
that no task inserted. -/
def leavesOpen : Except EngineError Route × World → Bool
  | (.error (.settle _), w) => w.ledger.routes.entries.any fun (id, r) =>
      r.id == id && r.isOpen && r.orderId == laterRequest.orderId && r.token ==
        laterRequest.token &&
        r.window == laterRequest.window && r.destination ==
          laterRequest.target.destination 0 &&
        w.trace.all fun t => inserted? t.call != some r
  | _ => false

/-- A settlement fails beside another one, and leaves the route of its order open. -/
theorem exists_left_open : ∃ w after e r, Run sampleSettings start w ∧
    (sampleSettings.openRoute laterRequest).Leads (Among sampleSettings) w
      (.error (.settle e)) after ∧
      laterRequest.Asks r ∧ r.isOpen = true ∧ after.ledger.routes.get? r.id = some r ∧
        ∀ i ∈ after.trace, i.call ≠ .insertRoute r := by
  have played :
      (confirming.foldlM
        (act sampleSettings Session.sampleCatalog Session.homeBranch) start).any (fun w =>
        (beside sampleSettings Session.sampleCatalog Session.homeBranch
          (sampleSettings.openRoute laterRequest) meeting w).any leavesOpen) = true := by
    decide +kernel
  obtain ⟨w, reached, played⟩ := (Option.any_eq_true _ _).1 played
  obtain ⟨⟨result, after⟩, ended, leaves⟩ := (Option.any_eq_true _ _).1 played
  unfold leavesOpen at leaves
  split at leaves
  · rename_i e after' same
    cases same
    obtain ⟨⟨id, r⟩, entry, leaves⟩ := List.any_eq_true.1 leaves
    simp only [Bool.and_eq_true, beq_iff_eq, List.all_eq_true, bne_iff_ne] at leaves
    obtain ⟨⟨⟨⟨⟨⟨rfl, isOpen⟩, order⟩, token⟩, window⟩, destination⟩, others⟩ := leaves
    refine ⟨w, after, e, r, run_of_play reached, leads_of_beside ended,
      ⟨order, token, window, 0, destination⟩, isOpen, Table.mem_entries_iff.1 entry,
      fun i member opens => others i member ?_⟩
    rw [opens]
    rfl
  · cases leaves

/-- The failed settlement has left a route behind that stays. -/
theorem openRoute_outcome_meeting : ∃ w after e r, Run sampleSettings start w ∧
    (sampleSettings.openRoute laterRequest).Leads (Among sampleSettings) w
      (.error (.settle e)) after ∧
      r.isOpen = true ∧ Opened sampleSettings laterRequest w after r := by
  obtain ⟨w, after, e, -, run, leads, -⟩ := exists_left_open
  obtain ⟨r, isOpen, opened⟩ := (openRoute_outcome run leads).2.1 e rfl
  exact ⟨w, after, e, r, run, leads, isOpen, opened⟩

/-- It is not true that opening a route either succeeds or leaves no open route behind
but those of other tasks. -/
theorem failed_route_may_stay_open :
    ¬ ∀ (s : Settings) (w after : World) (request : RouteRequest) (e : EngineError),
    Run s start w → (s.openRoute request).Leads (Among s) w (.error e) after →
      ∀ r, request.Asks r → r.isOpen = true → after.ledger.routes.get? r.id = some r →
        ∃ i ∈ after.trace, i.call = .insertRoute r := by
  intro claim
  obtain ⟨w, after, e, r, run, leads, asks, isOpen, stored, others⟩ := exists_left_open
  obtain ⟨i, member, opens⟩ := claim _ w after _ _ run leads r asks isOpen stored
  exact others i member opens

end World

end Paywatch
