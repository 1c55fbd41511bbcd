import Paywatch.Ledger.Basic

/-!
# Leases

A chain has one holder at a time. A lease that ran out may be taken over or, as long as
nobody did, renewed; a token that was replaced gives no rights.
-/

namespace Paywatch.Ledger

/-- Time goes on. -/
def wait (l : Ledger) (ticks : Nat) : Ledger := { l with now := l.now + ticks }

/-- The lease is the newest of its chain and has not run out. -/
def holds (l : Ledger) (lease : Lease) : Bool :=
  match l.leases.get? lease.chain with
  | some record => record.lease.token == lease.token && l.now < record.expiresAt
  | none => false

/-- Takes the lease of a chain, unless somebody holds it. -/
def acquire (l : Ledger) (chain : ChainId) (holder : String) (ttl : Nat) :
    Option Lease × Ledger :=
  if (l.leases.get? chain).all fun record => record.expiresAt ≤ l.now then
    let lease : Lease := ⟨chain, l.tokensIssued + 1, holder⟩
    (some lease,
      { l with
        tokensIssued := l.tokensIssued + 1
        leases := l.leases.insert chain ⟨lease, l.now + ttl⟩ })
  else (none, l)

/-- Lets a lease run on from now, if nobody has taken it over. -/
def renew (l : Ledger) (lease : Lease) (ttl : Nat) : Except LedgerError Ledger :=
  match l.leases.get? lease.chain with
  | some record =>
    if record.lease.token = lease.token then
      .ok { l with
        leases := l.leases.insert lease.chain { record with expiresAt := l.now + ttl } }
    else .error (.leaseLost lease.chain)
  | none => .error (.leaseLost lease.chain)

/-- Gives a lease back; one that was taken over stays with its new holder. -/
def release (l : Ledger) (lease : Lease) : Ledger :=
  match l.leases.get? lease.chain with
  | some record =>
    if record.lease.token = lease.token then
      { l with leases := l.leases.erase lease.chain }
    else l
  | none => l

/-- Ends the lease of a chain, as if its holder had stalled. -/
def expireLease (l : Ledger) (chain : ChainId) : Ledger :=
  { l with
    leases := l.leases.modify chain fun record => { record with expiresAt := l.now } }

end Paywatch.Ledger
