import Paywatch.Proofs.Ingest.Session
import Paywatch.Proofs.Ingest.Territory
import Paywatch.Proofs.Matching.Tasks

/-!
# Chains are isolated

All chains share one ledger, with one table each for orders, routes, transfers, dedupe
keys and deposits.  Whoever uses it gives every record an identifier of its own and
builds every route for an order that it has read.  Then what belongs to one chain
belongs to no other:  batches that the pipelines of two chains come to commit are
answered as if each were alone, and may be committed in either order.
-/

namespace Paywatch

namespace Ledger

variable {l after : Ledger} {c : Call}

/-! ## What calls leave of orders and routes -/

/-- Orders stay, and go on asking for the same token. -/
def Asking (l after : Ledger) : Prop :=
  ∀ id o, l.orders.get? id = some o → ∃ o', after.orders.get? id = some o' ∧
    o'.token = o.token

theorem asking_of_eq (orders : after.orders = l.orders) : Asking l after := by
  intro id o found
  exact ⟨o, by rw [orders, found], rfl⟩

theorem asking_foldl_writeClaim (l : Ledger) (claims : List Claim) :
    Asking l (claims.foldl writeClaim l) := by
  induction claims generalizing l with
  | nil => exact asking_of_eq rfl
  | cons k rest ih =>
      intro id o found
      have there : ∃ o', (l.writeClaim k).orders.get? id = some o' ∧
        o'.token = o.token := by
        rw [orders_writeClaim, found]
        split
        · exact ⟨_, rfl, rfl⟩
        · exact ⟨o, rfl, rfl⟩
      obtain ⟨o', there, same⟩ := there
      obtain ⟨last, found, same'⟩ := ih (l.writeClaim k) id o' there
      exact ⟨last, found, same'.trans same⟩

theorem asking_perform (newOrder : ∀ o, c = .insertOrder o → l.orders.get? o.id = none) :
    Asking l (l.perform c).2 := by
  cases c with
  | commit b =>
      unfold Asking
      rw [(booked_commit l b).orders]
      exact asking_foldl_writeClaim l _
  | commitPlan writes p =>
      unfold Asking
      rw [(booked_commitPlan l writes p).orders]
      exact asking_foldl_writeClaim l _
  | insertOrder o =>
      exact fun id p found => ⟨p, Table.get?_insert_of_fresh (newOrder o rfl) found, rfl⟩
  | insertRoute r => exact asking_of_eq rfl
  | expireOrder id =>
      cases expired : l.expireOrder id with
      | error e => exact asking_of_eq (by simp [perform, expired])
      | ok result =>
          simp only [perform, expired]
          rcases expireOrder_cases expired with ⟨o, found, -, change⟩ | same
          · intro id' p found'
            rw [change, Table.get?_insert]
            split
            · rename_i here
              rw [← here, found] at found'
              cases found'
              exact ⟨_, rfl, rfl⟩
            · exact ⟨p, found', rfl⟩
          · exact asking_of_eq (by rw [same])
  | _ => exact asking_of_eq (by rw [perform_frame l rfl])

theorem filed_perform (filed : Filed l)
    (newOrder : ∀ o, c = .insertOrder o → l.orders.get? o.id = none)
    (noRoute : ∀ r, c ≠ .insertRoute r) : Filed (l.perform c).2 := by
  cases c with
  | commit b => exact (booked_commit l b).filed filed
  | commitPlan writes p => exact (booked_commitPlan l writes p).filed filed
  | insertOrder o => exact (performed_insertOrder filed (newOrder o rfl)).filed
  | insertRoute r => exact absurd rfl (noRoute r)
  | expireOrder id => exact (performed_expireOrder filed id).filed
  | _ => exact filed.congr (by rw [perform_frame l rfl]) (by rw [perform_frame l rfl])

/-- A route that was not inserted now was there before, and nothing but
its settlement is new. -/
theorem route_before (noRoute : ∀ r, c ≠ .insertRoute r) {id : RouteId} {r : Route}
    (found : (l.perform c).2.routes.get? id = some r) : ∃ s, l.routes.get? id = some s ∧
      r.orderId = s.orderId ∧ r.token = s.token ∧ r.destination = s.destination := by
  have settled :
      ∀ {claims : List Claim}, (claims.foldl writeClaim l).routes.get? id = some r →
      ∃ s, l.routes.get? id = some s ∧
        r.orderId = s.orderId ∧ r.token = s.token ∧ r.destination = s.destination := by
    intro claims found
    obtain ⟨s, before, rfl | ⟨k, -, -, rfl⟩⟩ := routes_foldl_writeClaim found
    · exact ⟨r, before, rfl, rfl, rfl⟩
    · exact ⟨s, before, rfl, rfl, rfl⟩
  cases c with
  | commit b => exact settled ((booked_commit l b).routes ▸ found)
  | commitPlan writes p => exact settled ((booked_commitPlan l writes p).routes ▸ found)
  | insertRoute r' => exact absurd rfl (noRoute r')
  | _ =>
      rw [(routes_transfers_perform l rfl).1] at found
      exact ⟨r, found, rfl, rfl, rfl⟩

/-- The deposits of a commit that is accepted. -/
def Call.deposited (l : Ledger) : Call → List Deposit
  | .commit b => if (l.commit b).isOk then b.deposits else []
  | .commitPlan writes p => if (l.commitPlan writes p).isOk then p.deposits else []
  | _ => []

/-- A deposit after a call is one of the call or was there before. -/
theorem deposited_or_before {id : DepositId} {d : Deposit}
    (found : (l.perform c).2.deposits.get? id = some d) :
    l.deposits.get? id = some d ∨ d ∈ c.deposited l ∧ d.id = id := by
  cases c with
  | commit b =>
      simp only [Call.deposited, perform] at found ⊢
      cases committed : l.commit b with
      | error e =>
          rw [committed] at found
          exact Or.inl found
      | ok after =>
          rw [committed] at found
          exact deposits_commit committed found
  | commitPlan writes p =>
      simp only [Call.deposited, perform] at found ⊢
      cases committed : l.commitPlan writes p with
      | error e =>
          rw [committed] at found
          exact Or.inl found
      | ok after =>
          rw [committed] at found
          exact deposits_commitPlan committed found
  | insertOrder o => exact Or.inl found
  | insertRoute r => exact Or.inl found
  | expireOrder id' =>
      cases expired : l.expireOrder id' with
      | error e => exact Or.inl (by simpa [perform, expired] using found)
      | ok result =>
          simp only [perform, expired] at found
          rw [expireOrder_frame expired] at found
          exact Or.inl found
  | _ =>
      rw [perform_frame l rfl] at found
      exact Or.inl found

theorem EventsKeyed.perform (keyed : EventsKeyed l) (c : Call) :
    EventsKeyed (l.perform c).2 := by
  cases c with
  | commit b => exact keyed.following b
  | commitPlan writes p =>
      simp only [Ledger.perform]
      cases committed : l.commitPlan writes p with
      | error e => exact keyed
      | ok after =>
          show EventsKeyed after
          unfold EventsKeyed
          rw [events_commitPlan committed]
          exact keyed
  | _ =>
      unfold EventsKeyed
      rw [(sameRecords_perform l rfl).events]
      exact keyed

/-- New records have identifiers of their own:  those of transfers and
deposits were given out. -/
structure Call.Registered (issued : List Ulid) (l : Ledger) (c : Call) : Prop where
  newOrder : ∀ o, c = .insertOrder o → l.orders.get? o.id = none
  noRoute : ∀ r, c ≠ .insertRoute r
  transfers : ∀ t, .insert t ∈ c.written l → t.id.ulid ∈ issued
  deposits : ∀ d ∈ c.deposited l, d.id.ulid ∈ issued

end Ledger

/-! ## A ledger in use -/

/-- A ledger, the identifiers that were given out, and the orders that were
read, as they were then. -/
structure Market where
  surroundings : Surroundings
  read : List Order

namespace Market

def ledger (w : Market) : Ledger := w.surroundings.ledger

def start : Market := ⟨⟨.empty, []⟩, []⟩

/-- The ledger changes. -/
def become (w : Market) (l : Ledger) : Market :=
  { w with surroundings := { w.surroundings with ledger := l } }

inductive Step : Market → Market → Prop where
  /-- An identifier is given out. -/
  | stamp (w : Market) (u : Ulid) (fresh : u ∉ w.surroundings.issued) :
      Step w { w with
        surroundings := { w.surroundings with issued := u :: w.surroundings.issued } }
  | read (w : Market) (id : OrderId) (o : Order)
      (found : w.ledger.orders.get? id = some o) : Step w { w with read := o :: w.read }
  /-- A route is built for an order that was read, and inserted. -/
  | openRoute (w : Market) (rules : MatchingRules) (request : RouteRequest) (o : Order)
      (stamp : Stamp) (identifier : UInt64) (r : Route) (wasRead : o ∈ w.read)
      (built : request.build rules o stamp identifier = .ok r) :
      Step w (w.become (w.ledger.perform (.insertRoute r)).2)
  /-- Any other call. -/
  | call (w : Market) (c : Ledger.Call)
      (registered : c.Registered w.surroundings.issued w.ledger) :
      Step w (w.become (w.ledger.perform c).2)
  | wait (w : Market) (ticks : Nat) : Step w (w.become (w.ledger.wait ticks))
  /-- The lease of a chain runs out. -/
  | expire (w : Market) (chain : ChainId) : Step w (w.become (w.ledger.expireLease chain))

abbrev Run : Market → Market → Prop := Relation.ReflTransGen Step

/-- The ledger is in order, and the orders that were read are still there. -/
structure Tended (w : Market) : Prop where
  orderly : w.surroundings.Orderly
  read : ∀ o ∈ w.read, ∃ o', w.ledger.orders.get? o.id = some o' ∧ o'.token = o.token

variable {w after : Market}

theorem tended_start : Tended start where
  orderly :=
    { events := by simp [Ledger.EventsKeyed, start, Ledger.empty]
      transfers := by simp [start, Ledger.empty]
      deposits := by simp [start, Ledger.empty]
      filed := Ledger.filed_empty
      routes := by simp [start, Ledger.empty] }
  read := by simp [start]

theorem Tended.still_read (tended : Tended w) {l : Ledger} (asking : w.ledger.Asking l) :
    ∀ o ∈ w.read, ∃ o', l.orders.get? o.id = some o' ∧ o'.token = o.token := by
  intro o member
  obtain ⟨p, found, same⟩ := tended.read o member
  obtain ⟨q, there, same'⟩ := asking o.id p found
  exact ⟨q, there, same'.trans same⟩

theorem Tended.called (tended : Tended w) {c : Ledger.Call}
    (registered : c.Registered w.surroundings.issued w.ledger) :
    Tended (w.become (w.ledger.perform c).2) where
  orderly :=
    { events := tended.orderly.events.perform c
      transfers := by
        intro id t found
        rcases Ledger.stored_or_written found with old | ⟨x, member, rfl, sameId⟩
        · exact tended.orderly.transfers id t old
        · refine ⟨sameId, ?_⟩
          rw [← sameId]
          cases x with
          | insert t => exact registered.transfers t member
          | update t expected =>
              obtain ⟨u, stored, -⟩ := Ledger.stored_of_updated member
              exact (tended.orderly.transfers t.id u stored).2
      deposits := by
        intro id d found
        rcases Ledger.deposited_or_before found with old | ⟨member, rfl⟩
        · exact tended.orderly.deposits id d old
        · exact registered.deposits d member
      filed := Ledger.filed_perform tended.orderly.filed registered.newOrder
        registered.noRoute
      routes := by
        intro id r found
        obtain ⟨s, before, order, token, destination⟩ :=
          Ledger.route_before registered.noRoute found
        obtain ⟨chain, o, placed, asks⟩ := tended.orderly.routes id s before
        obtain ⟨o', there, same⟩ := Ledger.asking_perform registered.newOrder _ o placed
        rw [order, token, destination]
        exact ⟨chain, o', there, same.trans asks⟩ }
  read := tended.still_read (Ledger.asking_perform registered.newOrder)

theorem Tended.opened (tended : Tended w) {rules : MatchingRules} {request : RouteRequest}
    {o : Order} {stamp : Stamp} {identifier : UInt64} {r : Route} (wasRead : o ∈ w.read)
    (built : request.build rules o stamp identifier = .ok r) :
    Tended (w.become (w.ledger.perform (.insertRoute r)).2) := by
  obtain ⟨token, chain, rfl⟩ := RouteRequest.eq_of_build built
  obtain ⟨o', placed, asks⟩ := tended.read o wasRead
  have orderly := tended.orderly
  refine ⟨{ orderly with filed := ⟨?_, orderly.filed.order⟩, routes := ?_ }, tended.read⟩
  · intro id s found
    simp only [become, Ledger.perform, Ledger.insertRoute, Table.get?_insert] at found
    split at found
    · rename_i here
      cases found
      exact ⟨here, o', placed⟩
    · exact orderly.filed.route id s found
  · intro id s found
    rcases Ledger.routes_insertRoute found with rfl | old
    · exact ⟨chain, o', placed, asks.trans token.symm⟩
    · exact orderly.routes id s old

theorem tended_step (tended : Tended w) (step : Step w after) : Tended after := by
  cases step with
  | stamp u fresh =>
      have orderly := tended.orderly
      refine ⟨{ orderly with
        transfers := fun id t found => ?_
        deposits := fun id d found => ?_ }, tended.read⟩
      · obtain ⟨sameId, issued⟩ := orderly.transfers id t found
        exact ⟨sameId, List.mem_cons_of_mem _ issued⟩
      · exact List.mem_cons_of_mem _ (orderly.deposits id d found)
  | read id o found =>
      refine ⟨tended.orderly, List.forall_mem_cons.2 ⟨⟨o, ?_, rfl⟩, tended.read⟩⟩
      rw [tended.orderly.filed.order id o found]
      exact found
  | openRoute rules request o stamp identifier r wasRead built =>
      exact tended.opened wasRead built
  | call c registered => exact tended.called registered
  | wait ticks =>
      exact ⟨{ tended.orderly with filed := tended.orderly.filed.congr rfl rfl },
        tended.read⟩
  | expire chain =>
      exact ⟨{ tended.orderly with filed := tended.orderly.filed.congr rfl rfl },
        tended.read⟩

theorem tended_run (run : Run start w) : Tended w := by
  induction run with
  | refl => exact tended_start
  | tail _ step ih => exact tended_step ih step

/-- Whatever was done with the ledger before:  batches that the pipelines of two
chains come to commit, with different identifiers for what is new in them, are each
answered as if the other had not been committed, and the ledger holds the same
whichever of them is committed first. -/
theorem chains_isolated (run : Run start w) {a b : ChainId} (different : a ≠ b)
    {x y : Batch} {first second : Surroundings}
    (producesX : Produces w.surroundings a x first)
    (producesY : Produces w.surroundings b y second)
    (apart : ∀ u ∈ given w.surroundings first, u ∉ given w.surroundings second) :
    (w.ledger.following y).verdict x = w.ledger.verdict x ∧
      (w.ledger.following x).verdict y = w.ledger.verdict y ∧
      Ledger.Alike ((w.ledger.following x).following y)
        ((w.ledger.following y).following x) := by
  have orderly := (tended_run run).orderly
  obtain ⟨keepsX, newX⟩ := producesX.keepsTo orderly
  obtain ⟨keepsY, newY⟩ := producesY.keepsTo orderly
  have unstored : ∀ d : Deposit, d.id.ulid ∉ w.surroundings.issued →
      w.ledger.deposits.get? d.id = none := by
    intro d fresh
    cases found : w.ledger.deposits.get? d.id with
    | none => rfl
    | some e => exact absurd (orderly.deposits d.id e found) fresh
  have within := Part.ofChain_within_rest orderly different apart
  refine Ledger.alike_either_way orderly.events keepsX (keepsY.within within)
    (fun d member => ?_) (fun d member => ?_) fun d member e among same => ?_
  · exact unstored d (newX d member).2
  · exact unstored d (newY d member).2
  · exact apart _ (newX d member) (same ▸ newY e among)

/-! ## The same payment on two chains -/

/-- What happens next in a market that is played. -/
inductive Act where
  /-- A call that neither commits anything nor adds or expires routes and orders. -/
  | call (c : Ledger.Call)
  | place (o : Order)
  | openRoute (request : RouteRequest)

def act (w : Market) : Act → Option Market
  | .call c => if c.isAside then some (w.become (w.ledger.perform c).2) else none
  | .place o =>
    if (w.ledger.orders.get? o.id).isNone then
      some (w.become (w.ledger.perform (.insertOrder o)).2)
    else none
  | .openRoute request =>
    match w.ledger.orders.get? request.orderId with
    | none => none
    | some o =>
      match request.build {} o ⟨.ofNat w.read.length, default⟩ 0 with
      | .error _ => none
      | .ok r =>
          some ({ w with read := o :: w.read }.become
            (w.ledger.perform (.insertRoute r)).2)

theorem registered_of_isAside {issued : List Ulid} {l : Ledger} {c : Ledger.Call}
    (aside : c.isAside = true) : c.Registered issued l := by
  have nothing : c.written l = [] ∧ c.deposited l = [] := by
    cases c with
    | commit b => cases aside
    | commitPlan writes p => cases aside
    | _ => exact ⟨rfl, rfl⟩
  refine ⟨?_, ?_, by simp [nothing], by simp [nothing]⟩
  · rintro o rfl
    cases aside
  · rintro r rfl
    cases aside

theorem run_of_act {a : Act} (played : act w a = some after) : Run w after := by
  cases a with
  | call c =>
      obtain ⟨aside, same⟩ := Option.ite_none_right_eq_some.1 played
      cases same
      exact .single (.call w c (registered_of_isAside aside))
  | place o =>
      obtain ⟨fresh, same⟩ := Option.ite_none_right_eq_some.1 played
      cases same
      refine .single (.call w _ ⟨?_, by simp, by simp [Ledger.Call.written],
        by simp [Ledger.Call.deposited]⟩)
      rintro _ ⟨⟩
      exact Option.isNone_iff_eq_none.1 fresh
  | openRoute request =>
      simp only [act] at played
      split at played
      · cases played
      · rename_i o found
        split at played
        · cases played
        · rename_i r built
          cases played
          exact (Relation.ReflTransGen.single (.read w _ o found)).tail
            (.openRoute _ _ _ o _ _ r List.mem_cons_self built)

theorem run_of_play {acts : List Act} (played : acts.foldlM act w = some after) :
    Run w after := by
  induction acts generalizing w with
  | nil =>
      cases played
      exact .refl
  | cons a rest ih =>
      rw [List.foldlM_cons] at played
      obtain ⟨there, acted, later⟩ := Option.bind_eq_some_iff.1 played
      exact (run_of_act acted).trans (ih later)

/-- Answers a call as for a flow that runs alone, with identifiers from a number on. -/
def performFrom (base : Nat) (catalog : Catalog) (n : Nodes) :
    (c : Call) → Surroundings → c.Reply × Surroundings
  | .stamp, s =>
    let ulid := Ulid.ofNat (base + s.issued.length)
    (⟨ulid, default⟩, { s with issued := ulid :: s.issued })
  | c, s => s.perform catalog n c

def isNewFrom (base : Nat) (s : Surroundings) : Call → Bool
  | .stamp => !s.issued.contains (Ulid.ofNat (base + s.issued.length))
  | _ => true

theorem permits_performFrom {base : Nat} {catalog : Catalog} {n : Nodes}
    (s : Surroundings) (c : Call) (isNew : isNewFrom base s c = true) :
    s.Permits c (performFrom base catalog n c s).1
      (performFrom base catalog n c s).2 := by
  cases c with
  | stamp => exact ⟨by simpa [isNewFrom, performFrom] using isNew, rfl⟩
  | _ =>
      refine Surroundings.Answers.permits (?_ : s.Answers catalog _ _ _)
      exact Surroundings.answers_perform (n := n) rfl

/-- The native token of both chains is watched at one address. -/
def sampleCatalog : Catalog :=
  ⟨[⟨⟨1⟩, .zero, .native, [.nativeTransfer], .native ⟨1⟩, none⟩,
    ⟨⟨2⟩, .zero, .native, [.nativeTransfer], .native ⟨2⟩, none⟩]⟩

/-- A block that is the same on both chains but for the chain. -/
def sampleBlock (chain : ChainId) : Block := ⟨chain, 1, "0xa1", "0x00", 0⟩

def sampleNodes : Nodes := ⟨[(sampleBlock ⟨1⟩, [Session.samplePayment])]⟩

def sampleOrder (chain : ChainId) : Order :=
  ⟨⟨.ofNat chain.number.toNat⟩, Books.sampleOrder.amount, .native chain, "invoice", .open,
    .zero, default⟩

def sampleRequest (chain : ChainId) : RouteRequest :=
  ⟨(sampleOrder chain).id, .blockchain chain .zero, .native chain, none, none⟩

def sampleTracker (chain : ChainId) : DepositTracker :=
  ⟨⟨.ofNat chain.number.toNat⟩, "account", chain, .zero, none, default⟩

/-- The leases of both chains are taken, and both have an order with a
route, and a tracker. -/
def opening : List Act :=
  [⟨1⟩, ⟨2⟩].flatMap fun chain =>
    [.call (.acquire chain "worker" 10), .place (sampleOrder chain),
    .openRoute (sampleRequest chain), .call (.insertTracker (sampleTracker chain))]

/-- What the pipeline of a chain comes to commit for its block. -/
def proposal? (w : Market) (chain : ChainId) (token base : Nat) :
    Option (Batch × Surroundings) :=
  (Ingest.block ⟨chain, 0, {}⟩ ⟨chain, token, "worker"⟩ (sampleBlock chain)
    true).proposed?
    (performFrom base sampleCatalog sampleNodes) (isNewFrom base) w.surroundings

theorem produces_of_proposal? {chain : ChainId} {token base : Nat} {b : Batch}
    {there : Surroundings} (proposed : w.proposal? chain token base = some (b, there)) :
    Produces w.surroundings chain b there :=
  .block ⟨chain, 0, {}⟩ _ _ _ rfl rfl
    (Flow.makes_of_proposed? permits_performFrom proposed)

/-- The batch settles a route and records a deposit, and is accepted. -/
def settles (w : Market) (b : Batch) : Bool :=
  b.claims.length == 1 && b.deposits.length == 1 && w.ledger.verdict b == .ok ()

/-- No identifier was given out for both. -/
def isApart (w : Market) (first second : Surroundings) : Bool :=
  first.issued.all fun u => w.surroundings.issued.contains u || !second.issued.contains u

/-- Both pipelines come to commit a batch that settles. -/
def settlesBoth (w : Market) : Bool :=
  (w.proposal? ⟨1⟩ 1 0).any fun first => (w.proposal? ⟨2⟩ 2 100).any fun second =>
    w.settles first.1 && w.settles second.1 && w.isApart first.2 second.2

theorem apart_of_isApart {first second : Surroundings}
    (apart : w.isApart first second = true) :
    ∀ u ∈ given w.surroundings first, u ∉ given w.surroundings second := by
  rintro u ⟨issued, new⟩ ⟨issued', -⟩
  have known := List.all_eq_true.1 apart u issued
  simp [new, issued'] at known

/-- Both pipelines ingest a block with the same payment, each settles the route of its
own chain, and each batch is accepted before and after the other one. -/
theorem chains_isolated_same_payment : ∃ w x y first second, Run start w ∧
    Produces w.surroundings ⟨1⟩ x first ∧ Produces w.surroundings ⟨2⟩ y second ∧
    x.claims.length = 1 ∧ x.deposits.length = 1 ∧ y.claims.length = 1 ∧
      y.deposits.length = 1 ∧
    w.ledger.verdict x = .ok () ∧ (w.ledger.following y).verdict x = .ok () ∧
    w.ledger.verdict y = .ok () ∧ (w.ledger.following x).verdict y = .ok () ∧
    Ledger.Alike ((w.ledger.following x).following y)
      ((w.ledger.following y).following x) := by
  have played : (opening.foldlM act start).any settlesBoth = true := by decide +kernel
  obtain ⟨w, reached, settle⟩ := (Option.any_eq_true _ _).1 played
  obtain ⟨⟨x, first⟩, proposedX, settle⟩ := (Option.any_eq_true _ _).1 settle
  obtain ⟨⟨y, second⟩, proposedY, settle⟩ := (Option.any_eq_true _ _).1 settle
  simp only [settles, Bool.and_eq_true, beq_iff_eq] at settle
  obtain ⟨⟨⟨⟨claimsX, depositsX⟩, acceptedX⟩, ⟨claimsY, depositsY⟩, acceptedY⟩, apart⟩ :=
    settle
  have run := run_of_play reached
  have producesX := produces_of_proposal? proposedX
  have producesY := produces_of_proposal? proposedY
  obtain ⟨answerX, answerY, alike⟩ := chains_isolated run (by decide) producesX producesY
    (apart_of_isApart apart)
  exact ⟨w, x, y, first, second, run, producesX, producesY, claimsX, depositsX,
    claimsY, depositsY, acceptedX, answerX.trans acceptedX, acceptedY,
    answerY.trans acceptedY, alike⟩

end Market

end Paywatch
