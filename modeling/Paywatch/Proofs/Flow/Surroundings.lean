import Paywatch.Flow.Attempt

/-!
# Flows that run alone

A flow in surroundings that only itself changes.  The ledger answers as it does.
What nodes, clocks and the source of identifiers answer is left open but for
what they promise: a node gives the block that it was asked for, and no
identifier is given out twice.
-/

namespace Paywatch

/-- What a flow changes around it. -/
structure Surroundings where
  ledger : Ledger
  /-- The identifiers that were given out. -/
  issued : List Ulid

/-- A call may be answered like this and leads there. -/
def Surroundings.Answers (catalog : Catalog) (s : Surroundings) :
    (c : Call) → c.Reply → Surroundings → Prop
  | .ledger c, reply, after =>
    reply = (s.ledger.perform c).1 ∧ after = { s with ledger := (s.ledger.perform c).2 }
  | .stamp, stamp, after =>
    stamp.ulid ∉ s.issued ∧ after = { s with issued := stamp.ulid :: s.issued }
  | .watchlist chain, watchlist, after => watchlist = catalog.watchlist chain ∧ after = s
  | .node chain (.block height), reply, after =>
    (∀ b, reply = .ok b → b.chain = chain ∧ b.height = height) ∧ after = s
  | _, _, after => after = s

/-- A call may be answered like this and leads there, where the ledger answers as it
does, every identifier is new, and everything else is answered in any way. -/
def Surroundings.Permits (s : Surroundings) : (c : Call) → c.Reply → Surroundings → Prop
  | .ledger c, reply, after =>
    reply = (s.ledger.perform c).1 ∧ after = { s with ledger := (s.ledger.perform c).2 }
  | .stamp, stamp, after =>
    stamp.ulid ∉ s.issued ∧ after = { s with issued := stamp.ulid :: s.issued }
  | _, _, after => after = s

theorem Surroundings.Answers.permits {catalog : Catalog} {s after : Surroundings}
    {c : Call} {reply : c.Reply} (answer : s.Answers catalog c reply after) :
    s.Permits c reply after := by
  cases c with
  | ledger c => exact answer
  | stamp => exact answer
  | watchlist chain => exact answer.2
  | node chain q =>
      cases q with
      | block height => exact answer.2
      | _ => exact answer
  | _ => exact answer

namespace Flow

variable {α β : Type} {catalog : Catalog} {s after : Surroundings}

/-- The flow may end with this result and lead there. -/
def Runs (catalog : Catalog) : Flow α → Surroundings → α → Surroundings → Prop
  | done a, s, b, after => b = a ∧ after = s
  | call c next, s, b, after =>
    ∃ reply there, s.Answers catalog c reply there ∧
      (next reply).Runs catalog there b after

@[simp] theorem runs_pure {a b : α} :
    Runs catalog (pure a) s b after ↔ b = a ∧ after = s := Iff.rfl

@[simp] theorem runs_ask {c : Call} {reply : c.Reply} :
    Runs catalog (ask c) s reply after ↔ s.Answers catalog c reply after := by
  constructor
  · rintro ⟨reply', there, answer, rfl, rfl⟩
    exact answer
  · intro answer
    exact ⟨reply, after, answer, rfl, rfl⟩

@[simp] theorem runs_ledger {c : Ledger.Call} {reply : c.Reply} :
    Runs catalog (ledger c) s reply after ↔
      reply = (s.ledger.perform c).1 ∧
        after = { s with ledger := (s.ledger.perform c).2 } :=
  runs_ask

@[simp] theorem runs_bind {x : Flow α} {f : α → Flow β} {b : β} :
    Runs catalog (x >>= f) s b after ↔
      ∃ a there, Runs catalog x s a there ∧ Runs catalog (f a) there b after := by
  show Runs catalog (x.bind f) s b after ↔ _
  induction x generalizing s with
  | done a =>
      constructor
      · intro runs
        exact ⟨a, s, ⟨rfl, rfl⟩, runs⟩
      · rintro ⟨a', there, ⟨rfl, rfl⟩, runs⟩
        exact runs
  | call c next ih =>
      simp only [Flow.bind, Runs, ih]
      constructor
      · rintro ⟨reply, there, answer, a, later, first, second⟩
        exact ⟨a, later, ⟨reply, there, answer, first⟩, second⟩
      · rintro ⟨a, later, ⟨reply, there, answer, first⟩, second⟩
        exact ⟨reply, there, answer, a, later, first, second⟩

/-- Announcing changes nothing. -/
theorem runs_publishAll {ns : List Notice} {u : Unit}
    (runs : Runs catalog (publishAll ns) s u after) : after = s := by
  unfold publishAll at runs
  induction ns generalizing s with
  | nil => exact runs.2
  | cons n rest ih =>
      rw [List.forM, runs_bind] at runs
      obtain ⟨_, there, first, second⟩ := runs
      obtain rfl : there = s := runs_ask.1 first
      exact ih second

end Flow

/-! ## Surroundings to try a flow in -/

/-- What the nodes of a chain know: blocks and their transactions.  They have no logs. -/
structure Nodes where
  blocks : List (Block × List Tx)

namespace Nodes

def block? (n : Nodes) (chain : ChainId) (height : Height) : Option Block :=
  (n.blocks.map Prod.fst).find? fun b => b.chain == chain && b.height == height

def transactions (n : Nodes) (hash : String) : List Tx :=
  ((n.blocks.find? fun b => b.1.hash == hash).map Prod.snd).getD []

/-- Answers a question. -/
def answer (n : Nodes) (chain : ChainId) : (q : Query) → Except ProviderError q.Found
  | .head => .ok 0
  | .block height =>
      ((n.block? chain height).map .ok).getD (.error (.blockNotFound height))
  | .logs _ _ => .ok []
  | .transactions hash => .ok (n.transactions hash)
  | .synced => .ok true
  | .fees => .ok {}

end Nodes

namespace Surroundings

/-- The next identifier. -/
def nextUlid (s : Surroundings) : Ulid := .ofNat s.issued.length

/-- Answers a call.  What has nothing to do with a ledger or a chain is answered as if
there were nothing of the kind. -/
def perform (catalog : Catalog) (n : Nodes) :
    (c : Call) → Surroundings → c.Reply × Surroundings
  | .ledger c, s => ((s.ledger.perform c).1, { s with ledger := (s.ledger.perform c).2 })
  | .node chain q, s => (n.answer chain q, s)
  | .stamp, s => (⟨s.nextUlid, default⟩, { s with issued := s.nextUlid :: s.issued })
  | .watchlist chain, s => (catalog.watchlist chain, s)
  | .ask _ .head, s => (.ok 0, s)
  | .ask _ (.block _), s => (.ok none, s)
  | .ask _ (.logs _ _), s => (.ok [], s)
  | .ask _ (.transactions _), s => (.ok [], s)
  | .ask _ .synced, s => (.ok true, s)
  | .ask _ .fees, s => (.ok {}, s)
  | .candidates _, s => ([], s)
  | .members _, s => ([], s)
  | .isScaling _, s => (false, s)
  | .report .., s => ((), s)
  | .reportSync .., s => ((), s)
  | .reportFees .., s => ((), s)
  | .now, s => (default, s)
  | .identifier, s => (0, s)
  | .publish _, s => ((), s)
  | .setPhase .., s => ((), s)
  | .blockProcessed .., s => ((), s)
  | .markHalted .., s => ((), s)
  | .clock, s => (0, s)
  | .stopRequested, s => (false, s)
  | .rest _, s => ((), s)
  | .send _, s => (true, s)
  | .startTracker .., s => ((), s)
  | .stopTracker, s => ((), s)
  | .await .., s => (.signal, s)
  | .payments .., s => (.ok [], s)

/-- An identifier that is asked for is new. -/
def keepsPromise (s : Surroundings) : Call → Bool
  | .stamp => !s.issued.contains s.nextUlid
  | _ => true

theorem answers_perform {catalog : Catalog} {n : Nodes} {s : Surroundings} {c : Call}
    (promise : s.keepsPromise c = true) :
    s.Answers catalog c (perform catalog n c s).1 (perform catalog n c s).2 := by
  cases c with
  | ledger c => exact ⟨rfl, rfl⟩
  | watchlist chain => exact ⟨rfl, rfl⟩
  | stamp =>
      refine ⟨fun member => ?_, rfl⟩
      have known := List.contains_iff_mem.2 member
      simp only [keepsPromise, Bool.not_eq_true', perform] at promise known
      rw [known] at promise
      cases promise
  | node chain q =>
      cases q with
      | block height =>
          refine ⟨fun b ok => ?_, rfl⟩
          simp only [perform, Nodes.answer] at ok
          cases found : n.block? chain height with
          | none =>
              rw [found] at ok
              cases ok
          | some b' =>
              rw [found] at ok
              cases ok
              have fits := List.find?_some found
              simpa using fits
      | _ => rfl
  | ask provider q => cases q <;> rfl
  | _ => rfl

end Surroundings

namespace Flow

variable {α : Type} {catalog : Catalog} {n : Nodes}

/-- Every call of the flow is answered as promised. -/
def keepsPromises (catalog : Catalog) (n : Nodes) : Flow α → Surroundings → Bool
  | done _, _ => true
  | call c next, s =>
    s.keepsPromise c &&
      (next (s.perform catalog n c).1).keepsPromises catalog n (s.perform catalog n c).2

/-- A flow that is run with promised answers does what it may do. -/
theorem runs_run (x : Flow α) (s : Surroundings)
    (promises : x.keepsPromises catalog n s = true) :
    Runs catalog x s (x.run (Surroundings.perform catalog n) s).1
      (x.run (Surroundings.perform catalog n) s).2 := by
  induction x generalizing s with
  | done a => exact ⟨rfl, rfl⟩
  | call c next ih =>
      simp only [keepsPromises, Bool.and_eq_true] at promises
      exact ⟨_, _, Surroundings.answers_perform promises.1, ih _ _ promises.2⟩

end Flow

end Paywatch
