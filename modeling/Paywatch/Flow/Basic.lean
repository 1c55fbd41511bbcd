import Paywatch.Event.Target
import Paywatch.Head.Message
import Paywatch.Ledger.Call
import Paywatch.Provider.Registry
import Paywatch.Raiden.Payment
import Paywatch.Status

/-!
# Flows

A running task is a flow: it is done, or it makes a call and goes on with the reply.
What answers the calls is left open, so one flow can be run alone, among others in any
order, against nodes that answer anything, and under a clock of its own.
-/

namespace Paywatch

/-- What wakes a worker that follows its chain. -/
inductive LiveEvent where
  /-- The request to stop may have changed. -/
  | signal
  | message (m : Message)
  /-- The tracker has ended. -/
  | closed
  /-- It is time to see whether the lease is to be renewed. -/
  | renewal
  /-- It is time to ask the providers how they are. -/
  | probe

/-- What a task can ask of its surroundings. Spans of time are in nanoseconds. -/
inductive Call where
  | ledger (c : Ledger.Call)
  /-- Puts a question to the providers of a chain, one after the other. -/
  | node (chain : ChainId) (q : Query)
  /-- Puts a question to one provider. -/
  | ask (provider : ProviderId) (q : Query)
  /-- The providers of a chain in the order of calls. -/
  | candidates (chain : ChainId)
  /-- The providers of a chain in the order of registration. -/
  | members (chain : ChainId)
  | isScaling (chain : ChainId)
  | report (provider : ProviderId) (outcome : CallOutcome)
  | reportSync (provider : ProviderId) (synced : Bool)
  | reportFees (provider : ProviderId) (sample : FeeSample)
  /-- An identifier and a time for a new record. -/
  | stamp
  /-- The time of day. -/
  | now
  /-- A random identifier for a payment. -/
  | identifier
  | publish (n : Notice)
  /-- The targets that are watched on a chain just now. -/
  | watchlist (chain : ChainId)
  | setPhase (chain : ChainId) (phase : Phase)
  | blockProcessed (chain : ChainId) (height : Height)
  | markHalted (chain : ChainId) (reason : String)
  /-- The time that has passed. -/
  | clock
  | stopRequested
  /-- Waits, but no longer than until the request to stop changes. -/
  | rest (nanos : Nat)
  /-- Hands a message to whoever follows the tracker; false if nobody does any more. -/
  | send (m : Message)
  | startTracker (tracker : Tracker) (capacity : Nat)
  /-- Tells the tracker to stop and waits until it has. -/
  | stopTracker
  /-- Waits for what comes first; the two times say when the next renewal
  and probe are due. -/
  | await (renewalAt probeAt : Nat)
  /-- Asks the Raiden node behind an address of the web for its payments of a token,
  from a place in its history on. -/
  | payments (url : String) (token : Address) (offset : Nat)

/-- Why a Raiden node gave no payments. -/
inductive FeedError where
  /-- There was no answer, or it could not be understood. -/
  | http (reason : String)
  | status (url : String) (code : Nat)
deriving DecidableEq, Repr

namespace FeedError

def message : FeedError → String
  | http reason => "Raiden node request failed: " ++ reason
  | status url code => "Raiden node " ++ url ++ " answered HTTP " ++ Text.decimal code

end FeedError

namespace Call

/-- What answers a call. -/
abbrev Reply : Call → Type
  | ledger c => c.Reply
  | node _ q => Except ProviderError q.Found
  | ask _ q => q.Reply
  | candidates _ => List ProviderId
  | members _ => List ProviderId
  | isScaling _ => Bool
  | report .. => Unit
  | reportSync .. => Unit
  | reportFees .. => Unit
  | stamp => Stamp
  | now => Instant
  | identifier => UInt64
  | publish _ => Unit
  | watchlist _ => Watchlist
  | setPhase .. => Unit
  | blockProcessed .. => Unit
  | markHalted .. => Unit
  | clock => Nat
  | stopRequested => Bool
  | rest _ => Unit
  | send _ => Bool
  | startTracker .. => Unit
  | stopTracker => Unit
  | await .. => LiveEvent
  | payments .. => Except FeedError (List PaymentEvent)

end Call

inductive Flow (α : Type) where
  | done (a : α)
  | call (c : Call) (next : c.Reply → Flow α)

namespace Flow

variable {α β γ : Type}

/-- Goes on with the result of a flow. -/
def bind (x : Flow α) (f : α → Flow β) : Flow β :=
  match x with
  | done a => f a
  | call c next => call c fun reply => (next reply).bind f

instance : Monad Flow where
  pure := done
  bind := bind

theorem bind_done (x : Flow α) : x.bind done = x := by
  induction x with
  | done a => rfl
  | call c next ih => simp only [bind, ih]

theorem bind_assoc (x : Flow α) (f : α → Flow β) (g : β → Flow γ) :
    (x.bind f).bind g = x.bind fun a => (f a).bind g := by
  induction x with
  | done a => rfl
  | call c next ih => simp only [bind, ih]

instance : LawfulMonad Flow :=
  LawfulMonad.mk' Flow (fun x => bind_done x) (fun _ _ => rfl) fun x f g =>
    bind_assoc x f g

/-- Makes one call. -/
def ask (c : Call) : Flow c.Reply := .call c .done

/-- Makes one call to the ledger. -/
def ledger (c : Ledger.Call) : Flow c.Reply := ask (.ledger c)

def publishAll (ns : List Notice) : Flow Unit := ns.forM fun n => ask (.publish n)

/-- Runs a flow alone: `perform` answers each call and changes the surroundings. -/
def run {σ : Type} (perform : (c : Call) → σ → c.Reply × σ) : Flow α → σ → α × σ
  | done a, s => (a, s)
  | call c next, s =>
    let (reply, s) := perform c s
    (next reply).run perform s

end Flow

end Paywatch
