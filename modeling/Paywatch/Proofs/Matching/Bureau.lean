import Mathlib.Logic.Relation
import Paywatch.Proofs.Matching.Interleaving
import Paywatch.Proofs.Matching.Orderly

/-!
# Many tasks at one ledger

Blocks are ingested and taken back, payments and bookings are recorded, routes are
opened, orders come and go, and earlier transfers are looked up and settled by tasks
that take turns at one ledger in any order.  All of them are prudent, so whatever their
turns are, the ledger stays in order, each task holds identifiers that nobody else uses,
and no plan uses a route or a transfer twice.
-/

namespace Paywatch

/-! ## What is carried out -/

/-- What is carried out by a task that uses the ledger. -/
inductive Duty where
  | block (i : Ingest) (lease : Lease) (b : Block) (base : Bool)
  | revert (i : Ingest) (lease : Lease) (range : RevertedRange)
  /-- Settles new transfers together with stored ones that were found unmatched. -/
  | settle (rules : MatchingRules) (chain : ChainId) (new stored : List Transfer)
  | payment (rules : MatchingRules) (p : Payment)
  | booking (s : Settings) (sender receiver : String) (token : Token) (amount : Amount)
      (memo : Option String)
  | openRoute (s : Settings) (request : RouteRequest)
  | createOrder (s : Settings) (amount : Amount) (token : Token) (reference : String)
  | expireOrder (id : OrderId)
  | registerTracker (s : Settings) (externalRef : String) (chain : ChainId)
      (address : Address) (token : Option Token)

namespace Duty

/-- The task.  It tells in the end whether it failed because a plan failed
its own check. -/
def flow : Duty → Flow Bool
  | block i lease b base => do return endsIn WorkerError.ofPlan (← i.block lease b base)
  | revert i lease range => do return endsIn WorkerError.ofPlan (← i.revert lease range)
  | settle rules chain new stored => do
    return endsIn SettleError.ofPlan (← rules.settle chain new stored)
  | payment rules p => do return endsIn RaidenError.ofPlan (← p.ingest rules)
  | booking s sender receiver token amount memo => do
    return endsIn EngineError.ofPlan
      (← s.recordInternal sender receiver token amount memo)
  | openRoute s request => do return endsIn EngineError.ofPlan (← s.openRoute request)
  | createOrder s amount token reference => do
    return endsIn EngineError.ofPlan (← s.createOrder amount token reference)
  | expireOrder id => do return endsIn EngineError.ofPlan (← Order.expire id)
  | registerTracker s externalRef chain address token => do
    return endsIn EngineError.ofPlan (← s.registerTracker externalRef chain address token)

/-- The new transfers that the task is started with. -/
def brings : Duty → List Transfer
  | settle _ _ new _ => new
  | _ => []

/-- The stored transfers that the task is started with. -/
def revisits : Duty → List Transfer
  | settle _ _ _ stored => stored
  | _ => []

/-- Every task is prudent that holds the identifiers of what it brings and knows what it
revisits, and its plans use nothing twice. -/
theorem prudently (j : Duty) {g : Grasp} (different : Different (j.brings ++ j.revisits))
    (held : ∀ t ∈ j.brings, t.id.ulid ∈ g.held)
    (final : ∀ t ∈ j.revisits, t.id ∈ g.final) :
    j.flow.Prudently (fun failed _ => failed = false) g := by
  cases j with
  | block i lease b base =>
      exact Flow.guarantees_bind.2 (i.prudently_block lease b base g)
  | revert i lease range =>
      exact Flow.guarantees_bind.2 (i.prudently_revert lease range g)
  | settle rules chain new stored =>
      exact Flow.guarantees_bind.2 (rules.prudently_settle chain different held final)
  | payment rules p => exact Flow.guarantees_bind.2 (p.prudently_ingest rules g)
  | booking s sender receiver token amount memo =>
      exact Flow.guarantees_bind.2
        (s.prudently_recordInternal sender receiver token amount memo g)
  | openRoute s request => exact Flow.guarantees_bind.2 (s.prudently_openRoute request g)
  | createOrder s amount token reference =>
      exact Flow.guarantees_bind.2 (s.prudently_createOrder amount token reference g)
  | expireOrder id =>
      exact Flow.guarantees_ledger_bind.2
        ⟨trivial, fun reply _ _ => by cases reply <;> rfl⟩
  | registerTracker s externalRef chain address token =>
      exact Flow.guarantees_bind.2
        (s.prudently_registerTracker externalRef chain address token g)

end Duty

/-! ## The bureau -/

/-- What a call finds that looks for unmatched transfers. -/
def Call.finds : (c : Call) → c.Reply → List (List Transfer)
  | .ledger (.unmatchedConfirmed ..), ts => [ts]
  | _, _ => []

/-- A ledger, the identifiers that were given out, and the tasks that were started. -/
structure Bureau where
  surroundings : Surroundings
  tasks : List (Flow Bool)
  /-- What was found whenever somebody looked for unmatched transfers. -/
  found : List (List Transfer)

namespace Bureau

def ledger (w : Bureau) : Ledger := w.surroundings.ledger

def start : Bureau := ⟨⟨.empty, []⟩, [], []⟩

/-- The ledger changes. -/
def withLedger (w : Bureau) (l : Ledger) : Bureau :=
  { w with surroundings := { w.surroundings with ledger := l } }

inductive Step : Bureau → Bureau → Prop where
  /-- A task is started.  The transfers that it brings have identifiers of their own
  that nobody was given, and those that it revisits were once found together. -/
  | start (w : Bureau) (j : Duty)
      (fresh : ∀ t ∈ j.brings, t.id.ulid ∉ w.surroundings.issued)
      (different : Different j.brings) (known : j.revisits = [] ∨ j.revisits ∈ w.found) :
      Step w
        { w with
          surroundings :=
            { w.surroundings with
              issued := j.brings.map (·.id.ulid) ++ w.surroundings.issued }
          tasks := w.tasks ++ [j.flow] }
  /-- A task makes its next call. -/
  | turn (w : Bureau) (k : Nat) (c : Call) (next : c.Reply → Flow Bool) (reply : c.Reply)
      (after : Surroundings) (running : w.tasks[k]? = some (.call c next))
      (permitted : w.surroundings.Permits c reply after) :
      Step w ⟨after, w.tasks.set k (next reply), c.finds reply ++ w.found⟩
  /-- Somebody looks for confirmed transfers that settled no route. -/
  | look (w : Bureau) (key : MatchKey) (token : Token) :
      Step w { w with found := w.ledger.unmatchedConfirmed key token :: w.found }
  /-- Somebody asks the ledger, or changes leases or trackers. -/
  | aside (w : Bureau) (c : Ledger.Call) (aside : c.isAside = true) :
      Step w (w.withLedger (w.ledger.perform c).2)
  | wait (w : Bureau) (ticks : Nat) : Step w (w.withLedger (w.ledger.wait ticks))
  /-- The lease of a chain runs out. -/
  | expire (w : Bureau) (chain : ChainId) :
      Step w (w.withLedger (w.ledger.expireLease chain))

abbrev Run : Bureau → Bureau → Prop := Relation.ReflTransGen Step

/-- The ledger is in order, and each task is prudent with what it holds and knows. -/
structure Tidy (w : Bureau) (holder : Holder) : Prop where
  orderly : Orderly w.surroundings holder
  started : ∀ u k, holder u = some k → k < w.tasks.length
  prudent : ∀ (k : Nat) (x : Flow Bool), w.tasks[k]? = some x → ∃ final : Set TransferId,
    (∀ id ∈ final, w.ledger.IsFinal id) ∧
      x.Prudently (fun failed _ => failed = false) ⟨holder.of k, final⟩
  found : ∀ ts ∈ w.found, Different ts ∧ ∀ t ∈ ts, w.ledger.IsFinal t.id

variable {w after : Bureau} {holder : Holder}

theorem tidy_start : Tidy start fun _ => none :=
  ⟨orderly_start, by simp, by simp [start], by simp [start]⟩

/-- What a task revisits is different from what it brings, and final. -/
theorem Tidy.revisits (tidy : Tidy w holder) {j : Duty}
    (fresh : ∀ t ∈ j.brings, t.id.ulid ∉ w.surroundings.issued)
    (different : Different j.brings) (known : j.revisits = [] ∨ j.revisits ∈ w.found) :
    Different (j.brings ++ j.revisits) ∧ ∀ t ∈ j.revisits, w.ledger.IsFinal t.id := by
  rcases known with none | found
  · rw [none, List.append_nil]
    exact ⟨different, by simp⟩
  · obtain ⟨differ, final⟩ := tidy.found _ found
    refine ⟨?_, final⟩
    refine different_append.2 ⟨different, differ, fun t brought u revisited same => ?_⟩
    obtain ⟨v, stored, -⟩ := final u revisited
    exact fresh t brought (same ▸ tidy.orderly.stored _ v stored)

theorem Tidy.started_duty (tidy : Tidy w holder) (j : Duty)
    (fresh : ∀ t ∈ j.brings, t.id.ulid ∉ w.surroundings.issued)
    (different : Different j.brings) (known : j.revisits = [] ∨ j.revisits ∈ w.found) :
    ∃ holder', Tidy
      { w with
        surroundings :=
          { w.surroundings with
            issued := j.brings.map (·.id.ulid) ++ w.surroundings.issued }
        tasks := w.tasks ++ [j.flow] } holder' := by
  have new : ∀ u ∈ j.brings.map (·.id.ulid), u ∉ w.surroundings.issued := by
    intro u member
    obtain ⟨t, brought, rfl⟩ := List.mem_map.1 member
    exact fresh t brought
  obtain ⟨apart, final⟩ := tidy.revisits fresh different known
  refine ⟨_, tidy.orderly.granted new w.tasks.length, ?_, ?_, tidy.found⟩
  · intro u k held
    rw [List.length_append, List.length_singleton]
    rcases Holder.assign_eq_some.1 held with ⟨-, same⟩ | ⟨-, held⟩
    · cases same
      exact Nat.lt_succ_self _
    · exact Nat.lt_succ_of_lt (tidy.started u k held)
  · intro k x running
    rcases getElem?_snoc.1 running with old | ⟨rfl, rfl⟩
    · have below := (List.getElem?_eq_some_iff.1 old).1
      rw [Holder.of_assign_of_ne (fun u member => tidy.orderly.unheld (new u member))
        below.ne]
      exact tidy.prudent k x old
    · refine ⟨{id | ∃ t ∈ j.revisits, t.id = id}, ?_, ?_⟩
      · rintro _ ⟨t, revisited, rfl⟩
        exact final t revisited
      · refine j.prudently apart (fun t brought => ?_) fun t revisited =>
          ⟨t, revisited, rfl⟩
        exact Holder.assign_eq_some.2 (Or.inl ⟨List.mem_map_of_mem brought, rfl⟩)

/-- A task makes a call. -/
theorem Tidy.turned (tidy : Tidy w holder) {k : Nat} {c : Call}
    {next : c.Reply → Flow Bool} {reply : c.Reply} {surroundings : Surroundings}
    (running : w.tasks[k]? = some (.call c next))
    (permitted : w.surroundings.Permits c reply surroundings) : ∃ holder',
      Tidy ⟨surroundings, w.tasks.set k (next reply), c.finds reply ++ w.found⟩
        holder' := by
  obtain ⟨final, isFinal, prudent, goesOn⟩ := tidy.prudent k _ running
  obtain ⟨holder', served⟩ := tidy.orderly.served rfl isFinal prudent permitted
  refine ⟨holder', served.orderly, ?_, ?_, ?_⟩
  · intro u j held
    rw [List.length_set]
    by_cases own : j = k
    · subst own
      exact (List.getElem?_eq_some_iff.1 running).1
    · refine tidy.started u j ?_
      rw [← Holder.mem_of, ← served.others j own]
      exact held
  · intro j x found
    rw [List.getElem?_set] at found
    split at found
    · rename_i own
      obtain ⟨-, found⟩ := Option.ite_none_right_eq_some.1 found
      cases found
      have rest := goesOn reply _ ⟨served.honest, rfl⟩
      refine ⟨_, served.final, ?_⟩
      rw [← own, ← served.own]
      exact rest
    · rename_i other
      rw [served.others j fun same => other same.symm]
      obtain ⟨known, stillFinal, goesOn⟩ := tidy.prudent j x found
      exact ⟨known, fun id member => served.lasts id (stillFinal id member), goesOn⟩
  · intro ts member
    rcases List.mem_append.1 member with new | old
    · cases c with
      | ledger c =>
          cases c with
          | unmatchedConfirmed key token =>
              obtain rfl := List.mem_singleton.1 new
              exact ⟨served.honest,
                fun t among => served.final _ (Set.mem_union_right _ ⟨t, among, rfl⟩)⟩
          | _ => cases new
      | _ => cases new
    · obtain ⟨different, wasFinal⟩ := tidy.found ts old
      exact ⟨different, fun t among => served.lasts _ (wasFinal t among)⟩

/-- The ledger changes, but neither transfers nor routes nor orders. -/
theorem Tidy.spared (tidy : Tidy w holder) {l : Ledger}
    (transfers : l.transfers = w.ledger.transfers) (routes : l.routes = w.ledger.routes)
    (orders : l.orders = w.ledger.orders) : Tidy (w.withLedger l) holder := by
  have lasts : ∀ id, w.ledger.IsFinal id → l.IsFinal id := by
    intro id isFinal
    rwa [Ledger.IsFinal, transfers]
  have orderly := tidy.orderly.spared transfers routes orders
  refine ⟨orderly, tidy.started, fun k x running => ?_, fun ts member => ?_⟩
  · obtain ⟨final, isFinal, goesOn⟩ := tidy.prudent k x running
    exact ⟨final, fun id member => lasts id (isFinal id member), goesOn⟩
  · obtain ⟨different, wasFinal⟩ := tidy.found ts member
    exact ⟨different, fun t among => lasts _ (wasFinal t among)⟩

/-- Somebody looks for unmatched transfers. -/
theorem Tidy.looked (tidy : Tidy w holder) (key : MatchKey) (token : Token) :
    Tidy { w with found := w.ledger.unmatchedConfirmed key token :: w.found } holder where
  orderly := tidy.orderly
  started := tidy.started
  prudent := tidy.prudent
  found := by
    refine List.forall_mem_cons.2 ⟨⟨?_, fun t found => ?_⟩, tidy.found⟩
    · exact tidy.orderly.different_unmatched key token
    · exact tidy.orderly.ordered.final_of_unmatched found

theorem tidy_step (tidy : Tidy w holder) (step : Step w after) :
    ∃ holder', Tidy after holder' := by
  cases step with
  | start j fresh different known => exact tidy.started_duty j fresh different known
  | turn k c next reply surroundings running permitted =>
      exact tidy.turned running permitted
  | look key token => exact ⟨holder, tidy.looked key token⟩
  | aside c aside =>
      refine ⟨holder, tidy.spared ?_ ?_ ?_⟩ <;> rw [Ledger.perform_frame w.ledger aside]
  | wait ticks => exact ⟨holder, tidy.spared rfl rfl rfl⟩
  | expire chain => exact ⟨holder, tidy.spared rfl rfl rfl⟩

theorem tidy_run (run : Run start w) : ∃ holder, Tidy w holder := by
  induction run with
  | refl => exact ⟨_, tidy_start⟩
  | tail _ step ih =>
      obtain ⟨_, tidy⟩ := ih
      exact tidy_step tidy step

/-! ## Tasks that are about to make an attempt -/

/-- A task is about to make an attempt. -/
def About {α : Type} (w : Bureau) (attempt : Flow α) : Prop :=
  ∃ (k : Nat) (next : α → Flow Bool), w.tasks[k]? = some (attempt >>= next)

/-- What a prudent attempt holds is neither stored nor claimed. -/
theorem Tidy.brought {α : Type} {attempt : Flow α} {new : List Transfer}
    (tidy : Tidy w holder) (about : w.About attempt)
    (held : ∀ goal g, attempt.Prudently goal g → Different new ∧
      ∀ t ∈ new, t.id.ulid ∈ g.held) :
    Different new ∧ ∀ t ∈ new, w.ledger.transfers.get? t.id = none ∧
      w.ledger.isClaimed t.id = false := by
  obtain ⟨k, next, running⟩ := about
  obtain ⟨final, -, prudent⟩ := tidy.prudent k _ running
  obtain ⟨different, own⟩ := held _ _ (Flow.guarantees_bind.1 prudent)
  exact ⟨different, fun t member => (tidy.orderly.held _ k (own t member)).2⟩

/-- No plan of a task failed its own check. -/
theorem Tidy.checked (tidy : Tidy w holder) (k : Nat) :
    w.tasks[k]? ≠ some (.done true) := by
  intro ended
  obtain ⟨final, -, passed⟩ := tidy.prudent k _ ended
  cases passed

/-- A task may go on alone until a part of it has ended. -/
theorem run_of_leads {α : Type} {x : Flow α} {next : α → Flow Bool} {k : Nat} {a : α}
    {surroundings : Surroundings} (running : w.tasks[k]? = some (x >>= next))
    (leads : x.Leads Surroundings.Permits w.surroundings a surroundings) : ∃ found,
      Run w ⟨surroundings, w.tasks.set k (next a), found ++ w.found⟩ := by
  induction x generalizing w with
  | done b =>
      obtain ⟨rfl, rfl⟩ := leads
      have same : w.tasks.set k (next a) = w.tasks := by
        obtain ⟨below, here⟩ := List.getElem?_eq_some_iff.1 running
        exact (congrArg (w.tasks.set k) here.symm).trans (List.set_getElem_self below)
      exact ⟨[], by rw [same]; exact .refl⟩
  | call c goOn ih =>
      obtain ⟨reply, there, permitted, rest⟩ := leads
      have first := Step.turn w k c _ reply there running permitted
      have below := (List.getElem?_eq_some_iff.1 running).1
      let mid : Bureau :=
        ⟨there, w.tasks.set k (goOn reply >>= next), c.finds reply ++ w.found⟩
      obtain ⟨found, later⟩ := ih reply (w := mid) (List.getElem?_set_self below) rest
      refine ⟨found ++ c.finds reply, ?_⟩
      rw [List.set_set, ← List.append_assoc] at later
      exact .head first later

/-- A task may go on alone until it is about to make an attempt. -/
theorem about_of_leads {α β : Type} {x : Flow α} {next : α → Flow Bool} {k : Nat} {a : α}
    {surroundings : Surroundings} {attempt : Flow β} {rest : β → Flow Bool}
    (running : w.tasks[k]? = some (x >>= next))
    (leads : x.Leads Surroundings.Permits w.surroundings a surroundings)
    (goesOn : next a = attempt >>= rest) :
    ∃ after, Run w after ∧ after.surroundings = surroundings ∧ after.About attempt := by
  obtain ⟨found, later⟩ := run_of_leads running leads
  have below := (List.getElem?_eq_some_iff.1 running).1
  exact ⟨_, later, rfl, k, rest,
    (List.getElem?_set_self below).trans (congrArg some goesOn)⟩

/-! ## Trying a schedule -/

/-- An act of a schedule. -/
inductive Act where
  | acquire (chain : ChainId) (holder : String) (ttl : Nat)
  /-- A task is started that brings nothing. -/
  | start (j : Duty)
  /-- A task makes its next call. -/
  | go (k : Nat)
  | look (key : MatchKey) (token : Token)

/-- The bureau afterwards, with nodes and identifiers as they are for a
flow that runs alone. -/
def act (catalog : Catalog) (n : Nodes) (w : Bureau) : Act → Option Bureau
  | .acquire chain holder ttl =>
      some (w.withLedger (w.ledger.perform (.acquire chain holder ttl)).2)
  | .start j =>
    if j.brings = [] ∧ (j.revisits = [] ∨ j.revisits ∈ w.found) then
      some { w with tasks := w.tasks ++ [j.flow] }
    else none
  | .go k =>
    match w.tasks[k]? with
    | some (.call c next) =>
      if w.surroundings.keepsPromise c then
        let (reply, after) := w.surroundings.perform catalog n c
        some ⟨after, w.tasks.set k (next reply), c.finds reply ++ w.found⟩
      else none
    | _ => none
  | .look key token =>
      some { w with found := w.ledger.unmatchedConfirmed key token :: w.found }

theorem step_of_act {catalog : Catalog} {n : Nodes} {a : Act}
    (played : act catalog n w a = some after) : Step w after := by
  cases a with
  | acquire chain holder ttl =>
      cases played
      exact .aside w _ rfl
  | start j =>
      obtain ⟨⟨nothing, known⟩, same⟩ := Option.ite_none_right_eq_some.1 played
      cases same
      simpa [nothing] using Step.start w j (by simp [nothing])
        (by simp [nothing, Different]) known
  | go k =>
      simp only [act] at played
      split at played
      · rename_i c next running
        obtain ⟨promise, same⟩ := Option.ite_none_right_eq_some.1 played
        cases same
        exact .turn w k c next _ _ running (Surroundings.answers_perform promise).permits
      · cases played
  | look key token =>
      cases played
      exact .look w key token

/-- A played schedule is a run. -/
theorem run_of_play {catalog : Catalog} {n : Nodes} {acts : List Act}
    (played : acts.foldlM (act catalog n) w = some after) : Run w after := by
  apply reflTransGen_of_foldlM ?_ played
  intro there a next acted
  exact step_of_act acted

/-- Plays a schedule among the sample nodes. -/
def play (acts : List Act) (w : Bureau) : Option Bureau :=
  acts.foldlM (act Session.sampleCatalog Session.homeBranch) w

/-- Ingests the block that has the payment. -/
def ingestPaid : Duty :=
  .block Session.sampleIngest Session.sampleLease ⟨⟨1⟩, 2, "0xa2", "0x01", 0⟩ true

/-- The block after the one of the payment. -/
def sampleNext : Block := ⟨⟨1⟩, 3, "0xa3", "0xa2", 0⟩

/-- Ingests the next block, which confirms the payment. -/
def ingestNext : Duty := .block Session.sampleIngest Session.sampleLease sampleNext false

/-- Places an order, and begins to open a route for it that asks for the payment. -/
def asking (order : OrderId) (k : Nat) : List Act :=
  [.start (.createOrder World.sampleSettings Books.sampleOrder.amount
    (.native ⟨1⟩) "invoice"), .go k, .go k,
    .start (.openRoute World.sampleSettings { World.sampleRequest with
      orderId := order })]

end Bureau

end Paywatch
