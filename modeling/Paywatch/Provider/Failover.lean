import Paywatch.Flow.Basic

/-!
# Failover

A question to a chain is put to its providers one after the other until one answers. The
outcome of every call is reported, so that the order improves with experience.
-/

namespace Paywatch.Failover

/-- Asks the providers of a list; `attempts` and `last` go into the error
if all of them fail. -/
def askEach (chain : ChainId) (q : Query) (attempts : Nat) (last : String) :
    List ProviderId → Flow (Except ProviderError q.Found)
  | [] => pure (.error (.unavailable chain attempts last))
  | p :: rest => do
    match (← Flow.ask (.ask p q)).bind q.found with
    | .ok answer =>
      Flow.ask (.report p (.success (q.observedHead answer)))
      return .ok answer
    | .error e =>
      Flow.ask (.report p .failure)
      askEach chain q attempts e.message rest

/-- Puts a question to a chain. -/
def ask (chain : ChainId) (q : Query) : Flow (Except ProviderError q.Found) := do
  let providers ← Flow.ask (.candidates chain)
  askEach chain q providers.length "no providers registered" providers

/-- The flow with every question to a chain put to the providers of the chain. -/
def expand {α : Type} : Flow α → Flow α
  | .done a => .done a
  | .call (.node chain q) next => (ask chain q).bind fun reply => expand (next reply)
  | .call c next => .call c fun reply => expand (next reply)

/-- Asks one provider how it is; tells whether it answered. -/
def probe (scaling : Bool) (p : ProviderId) : Flow Bool := do
  match ← Flow.ask (.ask p .head) with
  | .error _ =>
    Flow.ask (.report p .failure)
    return false
  | .ok head =>
    Flow.ask (.report p (.success (some head)))
    unless scaling do
      match ← Flow.ask (.ask p .synced) with
      | .ok synced => Flow.ask (.reportSync p synced)
      | .error _ => pure ()
    match ← Flow.ask (.ask p .fees) with
    | .ok sample => Flow.ask (.reportFees p sample)
    | .error _ => pure ()
    return true

/-- Asks every provider of a chain how it is, degraded ones too; counts
those that answered. -/
def probeAll (chain : ChainId) : Flow Nat := do
  let scaling ← Flow.ask (.isScaling chain)
  let providers ← Flow.ask (.members chain)
  let answered ← providers.mapM (probe scaling)
  return answered.count true

end Paywatch.Failover
