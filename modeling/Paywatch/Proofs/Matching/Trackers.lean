import Mathlib.Data.List.Find
import Paywatch.Proofs.Matching.Greedy

/-!
# Which tracker a deposit is recorded with

A confirmed transfer makes a deposit with the first listed tracker that accepts it.  The
listing of the trackers is not seen in the claims, nor in which transfers make deposits.
It is seen in the trackers of the deposits exactly if two trackers accept one transfer:
routes are ranked, but trackers are not.
-/

namespace Paywatch

namespace MatchingRules

variable {rules : MatchingRules} {ctx now : MatchContext} {t : Transfer}
    {ts : List Transfer}

/-! ## The deposits of a plan -/

/-- Of the context, only the trackers matter and whether the transfer has
made a deposit. -/
theorem deposit?_congr (trackers : now.trackers = ctx.trackers)
    (deposited : t.id ∈ now.deposited ↔ t.id ∈ ctx.deposited) :
    deposit? now t = deposit? ctx t := by
  simp only [deposit?, trackers, List.contains_iff_mem, deposited]

/-- What one transfer adds to the deposits, and what it changes for other transfers. -/
theorem deposit_of_planOne (rules : MatchingRules) (state : Draft × MatchContext)
    (t : Transfer) :
    (rules.planOne state t).1.deposits = state.1.deposits ++ (deposit? state.2 t).toList ∧
      (rules.planOne state t).2.trackers = state.2.trackers ∧
      ∀ id, id ≠ t.id →
        (id ∈ (rules.planOne state t).2.deposited ↔ id ∈ state.2.deposited) := by
  rcases state with ⟨draft, now⟩
  have consumed : ∀ c, deposit? (consume now t c) t = deposit? now t := fun c => rfl
  cases selected : rules.select? now t <;> cases made : deposit? now t <;>
    simp only [planOne, selected, consumed, made] <;> simp +contextual [consume]

theorem deposits_foldl (rules : MatchingRules) {ts : List Transfer}
    (state : Draft × MatchContext) (distinct : (ts.map (·.id)).Nodup) :
    (ts.foldl rules.planOne state).1.deposits = state.1.deposits ++
      ts.filterMap (deposit? state.2) := by
  induction ts generalizing state with
  | nil => simp
  | cons t rest ih =>
      rw [List.map_cons, List.nodup_cons] at distinct
      rcases deposit_of_planOne rules state t with ⟨added, trackers, deposited⟩
      have later :
          ∀ u ∈ rest, deposit? (rules.planOne state t).2 u = deposit? state.2 u := by
        intro u member
        apply deposit?_congr trackers
        apply deposited
        intro same
        exact distinct.1 (same ▸ List.mem_map_of_mem member)
      rw [List.foldl_cons, ih _ distinct.2, added, List.filterMap_congr later,
        List.append_assoc]
      cases made : deposit? state.2 t <;> simp [made]

/-- Each transfer in its order makes the deposit that it would make alone. -/
theorem deposits_planAll (rules : MatchingRules) (ctx : MatchContext)
    (distinct : (ts.map (·.id)).Nodup) :
    (rules.planAll ctx ts).1.deposits = (inOrder ts).filterMap (deposit? ctx) :=
  deposits_foldl rules (⟨[], []⟩, ctx) (nodup_inOrder distinct)

/-! ## Claims do not see the trackers -/

theorem select?_congr (rules : MatchingRules) (t : Transfer)
    (routes : now.routes = ctx.routes) (orders : now.orders = ctx.orders) :
    rules.select? now t = rules.select? ctx t := by
  simp only [select?, candidates, eligible?, routes, orders]

theorem claims_congr {state state' : Draft × MatchContext}
    (claims : state.1.claims = state'.1.claims)
    (routes : state.2.routes = state'.2.routes)
    (orders : state.2.orders = state'.2.orders) :
    (ts.foldl rules.planOne state).1.claims =
      (ts.foldl rules.planOne state').1.claims := by
  induction ts generalizing state state' with
  | nil => exact claims
  | cons t rest ih =>
      have same := select?_congr rules t routes orders
      rcases planOne_cases rules state t with
        ⟨c, selected, added, consumed, paid⟩ | ⟨nothing, kept, left, owed⟩
      · rcases planOne_cases rules state' t with
          ⟨d, selected', added', consumed', paid'⟩ | ⟨nothing, -⟩
        · rw [selected, selected', Option.some.injEq] at same
          subst same
          exact ih (by rw [added, added', claims]) (by rw [consumed, consumed', routes])
            (by rw [paid, paid', orders])
        · rw [selected, nothing] at same
          cases same
      · rcases planOne_cases rules state' t with
          ⟨d, selected, -⟩ | ⟨-, kept', left', owed'⟩
        · rw [nothing, selected] at same
          cases same
        · exact ih (by rw [kept, kept', claims]) (by rw [left, left', routes])
            (by rw [owed, owed', orders])

/-- However the trackers are listed, the plan makes the same claims or
fails in the same way. -/
theorem claims_of_listing (rules : MatchingRules) (ctx : MatchContext)
    (ts : List Transfer) (listing : List DepositTracker) :
    (rules.plan { ctx with trackers := listing } ts).map (·.claims) =
      (rules.plan ctx ts).map (·.claims) := by
  have same :
      (rules.planAll { ctx with trackers := listing } ts).1.claims =
        (rules.planAll ctx ts).1.claims :=
    claims_congr rfl rfl rfl
  rw [plan, plan, same]
  cases Claim.check (rules.planAll ctx ts).1.claims with
  | error e => rfl
  | ok u => exact congrArg Except.ok same

/-- A plan is made in every listing or in none. -/
theorem made_of_listing {listing : List DepositTracker} :
    (∃ draft, rules.plan { ctx with trackers := listing } ts = .ok draft) ↔
      ∃ draft, rules.plan ctx ts = .ok draft := by
  have same := claims_of_listing rules ctx ts listing
  cases first : rules.plan { ctx with trackers := listing } ts <;> cases second :
      rules.plan ctx ts <;>
    simp [first, second, Except.map] at same ⊢

/-! ## Deposits may see them -/

/-- A plan is made, and it records the transfer with the tracker. -/
def Records (rules : MatchingRules) (ctx : MatchContext) (ts : List Transfer)
    (tracker : TrackerId) (transfer : TransferId) : Prop :=
  ∃ draft, rules.plan ctx ts = .ok draft ∧ ∃ d ∈ draft.deposits, d.trackerId = tracker ∧
    d.transferId = transfer

theorem deposit?_eq_some {d : DepositDraft} :
    deposit? ctx t = some d ↔ t.id ∉ ctx.deposited ∧
    ∃ a, ctx.trackers.find? (·.accepts t) = some a ∧
      d = ⟨a.id, a.externalRef, t.id, a.chain, t.originHeight⟩ := by
  rw [deposit?, Option.ite_none_left_eq_some, List.contains_iff_mem,
    Option.map_eq_some_iff]
  simp only [eq_comm]

/-- The first tracker that accepts a transfer records it, if the plan is made and the
transfer has no deposit. -/
theorem records_iff (distinct : (ts.map (·.id)).Nodup) {tracker : TrackerId}
    {transfer : TransferId} :
    rules.Records ctx ts tracker transfer ↔ (∃ draft, rules.plan ctx ts = .ok draft) ∧
      ∃ t ∈ ts, t.status = .confirmed ∧ t.id ∉ ctx.deposited ∧ t.id = transfer ∧
        ∃ a, ctx.trackers.find? (·.accepts t) = some a ∧ a.id = tracker := by
  constructor
  · rintro ⟨draft, ok, d, member, rfl, rfl⟩
    have made := member
    rw [← (plan_eq_ok ok).2, deposits_planAll rules ctx distinct,
      List.mem_filterMap] at made
    rcases made with ⟨t, turn, made⟩
    rcases deposit?_eq_some.1 made with ⟨fresh, a, first, rfl⟩
    have among := mem_inOrder.1 turn
    exact ⟨⟨draft, ok⟩, t, among.1, among.2, fresh, rfl, a, first, rfl⟩
  · rintro ⟨⟨draft, ok⟩, t, member, confirmed, fresh, rfl, a, first, rfl⟩
    have made : ∃ d, deposit? ctx t = some d ∧ d.trackerId = a.id ∧ d.transferId = t.id :=
      ⟨_, deposit?_eq_some.2 ⟨fresh, a, first, rfl⟩, rfl, rfl⟩
    rcases made with ⟨d, made, own⟩
    refine ⟨draft, ok, d, ?_, own⟩
    rw [← (plan_eq_ok ok).2, deposits_planAll rules ctx distinct]
    exact List.mem_filterMap.2 ⟨t, mem_inOrder.2 ⟨member, confirmed⟩, made⟩

/-- Every tracker that accepts a transfer records it in some listing. -/
theorem exists_listing {listed : List DepositTracker} {a : DepositTracker}
    (member : a ∈ listed) (accepts : a.accepts t = true) :
    ∃ listing : List DepositTracker, listing.Perm listed ∧
      listing.find? (·.accepts t) = some a :=
  ⟨a :: listed.erase a, (List.perm_cons_erase member).symm,
    List.find?_cons_of_pos accepts⟩

/-- The deposits of a plan that is made do not depend on the listing of the trackers
exactly if no confirmed transfer without a deposit is accepted by two of them. -/
theorem records_listing_free_iff (rules : MatchingRules)
    (distinct : (ts.map (·.id)).Nodup) (named : (ctx.trackers.map (·.id)).Nodup) :
    (∀ listing, listing.Perm ctx.trackers → ∀ tracker transfer,
      rules.Records { ctx with trackers := listing } ts tracker transfer ↔
        rules.Records ctx ts tracker transfer) ↔
    (∃ e, rules.plan ctx ts = .error e) ∨ ∀ t ∈ ts, t.status = .confirmed →
      t.id ∉ ctx.deposited →
      {a ∈ ctx.trackers | a.accepts t = true}.Subsingleton := by
  constructor
  · intro free
    cases made : rules.plan ctx ts with
    | error e => exact Or.inl ⟨e, rfl⟩
    | ok draft =>
        apply Or.inr
        intro t member confirmed fresh
        -- Whichever tracker accepts the transfer records it in some listing, so the
        -- first one here is that tracker.
        have first : ∀ a ∈ ctx.trackers, a.accepts t = true →
            ∃ d, ctx.trackers.find? (·.accepts t) = some d ∧ d.id = a.id := by
          intro a listed accepts
          rcases exists_listing listed accepts with ⟨listing, perm, found⟩
          have there : rules.Records { ctx with trackers := listing } ts a.id t.id :=
            (records_iff distinct).2
              ⟨made_of_listing.2 ⟨draft, made⟩, t, member, confirmed, fresh, rfl,
                a, found, rfl⟩
          have here := (free listing perm a.id t.id).1 there
          rcases (records_iff distinct).1 here with
            ⟨-, u, other, -, -, same, d, foundHere, sameTracker⟩
          cases List.inj_on_of_nodup_map distinct other member same
          exact ⟨d, foundHere, sameTracker⟩
        intro a one b two
        rcases first a one.1 one.2 with ⟨d, found, isA⟩
        rcases first b two.1 two.2 with ⟨d', found', isB⟩
        rw [found, Option.some.injEq] at found'
        subst found'
        exact List.inj_on_of_nodup_map named one.1 two.1 (isA.symm.trans isB)
  · intro holds listing perm tracker transfer
    rw [records_iff distinct, records_iff distinct, made_of_listing]
    rcases holds with ⟨e, failed⟩ | unique
    · simp [failed]
    · apply and_congr_right'
      apply exists_congr
      intro t
      apply and_congr_right
      intro member
      apply and_congr_right
      intro confirmed
      apply and_congr_right
      intro fresh
      have same := List.find?_eq_find?_of_perm perm.symm (unique t member confirmed fresh)
      rw [same]

end MatchingRules

namespace MatchContext

/-- Nothing but trackers. -/
def watched (trackers : List DepositTracker) : MatchContext := ⟨.empty, [], trackers, []⟩

/-- A tracker of the address of the example, for one token or for any. -/
def sampleTracker (n : Nat) (reference : String) (token : Option Token) :
    DepositTracker :=
  ⟨⟨.make n 0⟩, reference, ⟨1⟩, .zero, token, default⟩

/-- Watches for coins. -/
def coins : DepositTracker := sampleTracker 7 "coins" (some (.native ⟨1⟩))

/-- Watches for the tokens of a contract. -/
def tokens : DepositTracker := sampleTracker 8 "tokens" (some (.erc20 ⟨1⟩ .zero))

/-- Watches for everything. -/
def everything : DepositTracker := sampleTracker 9 "everything" none

/-- A payment in coins is recorded as such in either listing, where nothing
else watches for coins. -/
theorem records_listing_free_coins :
    MatchingRules.Records {} (watched [tokens, coins])
      [samplePayment 5] coins.id (samplePayment 5).id ∧
      MatchingRules.Records {} (watched [coins, tokens])
        [samplePayment 5] coins.id (samplePayment 5).id := by
  have distinct : ([samplePayment 5].map (·.id)).Nodup := by decide
  have named : ((watched [tokens, coins]).trackers.map (·.id)).Nodup := by decide
  have here :
      MatchingRules.Records {} (watched [tokens, coins]) [samplePayment 5] coins.id
      (samplePayment 5).id :=
    (MatchingRules.records_iff distinct).2
      ⟨⟨_, rfl⟩, _, List.mem_cons_self, rfl, List.not_mem_nil, rfl, coins, rfl, rfl⟩
  have only : ∀ c ∈ [tokens, coins], c.accepts (samplePayment 5) = true →
    c = coins := by decide
  have apart : ∀ t ∈ [samplePayment 5], t.status = .confirmed →
    t.id ∉ (watched [tokens, coins]).deposited →
      {a ∈ (watched [tokens, coins]).trackers | a.accepts t = true}.Subsingleton := by
    intro t member _ _ a one b two
    cases List.mem_singleton.1 member
    rw [only a one.1 one.2, only b two.1 two.2]
  have free := (MatchingRules.records_listing_free_iff {} distinct named).2 (Or.inr apart)
  exact ⟨here, (free [coins, tokens] (List.Perm.swap _ _ _) _ _).2 here⟩

/-- With two trackers that take the same payment, the listing decides which of
them has the deposit. -/
theorem records_may_follow_listing :
    ¬ ∀ (rules : MatchingRules) (ctx : MatchContext) (ts : List Transfer)
    (listing : List DepositTracker), (∀ t ∈ ts, t.status = .confirmed) →
      (ts.map (·.id)).Nodup →
      (ctx.trackers.map (·.id)).Nodup → listing.Perm ctx.trackers → ∀ tracker transfer,
        rules.Records { ctx with trackers := listing } ts tracker transfer ↔
          rules.Records ctx ts tracker transfer := by
  intro same
  have distinct : ([samplePayment 5].map (·.id)).Nodup := by decide
  have here :
      MatchingRules.Records {} (watched [coins, everything]) [samplePayment 5] coins.id
      (samplePayment 5).id :=
    (MatchingRules.records_iff distinct).2
      ⟨⟨_, rfl⟩, _, List.mem_cons_self, rfl, List.not_mem_nil, rfl, coins, rfl, rfl⟩
  have there :=
    (same {} (watched [coins, everything]) [samplePayment 5] [everything, coins]
      (by decide) distinct (by decide) (List.Perm.swap _ _ _)
      coins.id (samplePayment 5).id).2 here
  rcases (MatchingRules.records_iff distinct).1 there with
    ⟨-, t, member, -, -, -, d, first, own⟩
  cases List.mem_singleton.1 member
  have found :
      [everything, coins].find? (·.accepts (samplePayment 5)) = some everything := rfl
  change [everything, coins].find? (·.accepts (samplePayment 5)) = some d at first
  rw [found, Option.some.injEq] at first
  rw [← first] at own
  exact absurd own (by decide)

end MatchContext

end Paywatch
