import Paywatch.Flow.Basic

/-!
# Keeping a lease

A worker renews its lease after a third of the time for which it was given, so that it
is not lost to a short delay.
-/

namespace Paywatch

/-- A lease that is held, for how many nanoseconds it was given, and when
it was renewed. -/
structure Keeper where
  lease : Lease
  ttl : Nat
  renewedAt : Nat
deriving DecidableEq, Inhabited

namespace Keeper

/-- The time after which a lease is renewed, and between two attempts to get one. -/
def period (ttl : Nat) : Nat := ttl / 3

/-- Tries once to get the lease of a chain. -/
def acquire (chain : ChainId) (holder : String) (ttl : Nat) : Flow (Option Keeper) := do
  match ← Flow.ledger (.acquire chain holder ttl) with
  | none => return none
  | some lease => return some ⟨lease, ttl, ← Flow.ask .clock⟩

/-- Renews the lease if it is time. -/
def renewIfDue (k : Keeper) : Flow (Except LedgerError Keeper) := do
  let now ← Flow.ask .clock
  if now - k.renewedAt < period k.ttl then return .ok k
  match ← Flow.ledger (.renew k.lease k.ttl) with
  | .error e => return .error e
  | .ok () => return .ok { k with renewedAt := now }

def release (k : Keeper) : Flow Unit := Flow.ledger (.release k.lease)

end Keeper

end Paywatch
