import Paywatch.Event.Payload
import Paywatch.Sorting

/-!
# Watched targets

The catalog lists the contracts and accounts that are watched; nothing else is.
On one chain an address stands at most once among the contracts and at most
once among the accounts.
-/

namespace Paywatch

/-- A watched contract or account. -/
structure Target where
  chain : ChainId
  address : Address
  kind : ContractKind
  events : List EventKind
  /-- The token whose movements the target reports. -/
  token : Token
  label : Option String
deriving DecidableEq, Repr

namespace Target

def watches (t : Target) (kind : EventKind) : Bool := t.events.contains kind

/-- Coins are watched at an account, everything else at a contract. -/
def isAccount (t : Target) : Bool := t.kind == .native

end Target

/-- Why a catalog or a configuration is refused. -/
inductive ConfigError where
  /-- The file cannot be read. -/
  | unreadable
  /-- The text has not the form it should have. -/
  | malformed
  | invalid (reason : String)
deriving DecidableEq, Repr

namespace ConfigError

/-- The message of a refused value; what makes a file unreadable or
malformed is said elsewhere. -/
def message : ConfigError → Option String
  | invalid reason => some ("Invalid configuration: " ++ reason)
  | _ => none

end ConfigError

/-- A target as the catalog lists it. -/
structure TargetEntry where
  chain : ChainId
  address : Address
  kind : ContractKind
  events : List EventKind
  /-- The token that a token network serves. -/
  token : Option Address
  label : Option String
deriving DecidableEq, Repr

namespace TargetEntry

/-- The target that an entry describes. -/
def target (entry : TargetEntry) : Except ConfigError Target := do
  let token ← match entry.kind, entry.token with
    | .erc20, _ => pure (Token.erc20 entry.chain entry.address)
    | .native, _ => pure (Token.native entry.chain)
    | .tokenNetwork, some token => pure (Token.erc20 entry.chain token)
    | .tokenNetwork, none =>
      throw (.invalid ("token_network target " ++ entry.address.text ++ " on chain "
        ++ entry.chain.text ++ " needs a token"))
  let events := if entry.events.isEmpty then entry.kind.events else entry.events
  match events.find? fun kind => !entry.kind.events.contains kind with
  | some kind =>
    throw (.invalid (entry.kind.text ++ " target " ++ entry.address.text ++
      " cannot emit " ++ kind.text))
  | none => return ⟨entry.chain, entry.address, entry.kind, events, token, entry.label⟩

end TargetEntry

/-- The targets of one chain. -/
structure Watchlist where
  contracts : List Target
  accounts : List Target
deriving DecidableEq, Repr, Inhabited

namespace Watchlist

def contract? (w : Watchlist) (address : Address) : Option Target :=
  w.contracts.find? (·.address == address)

def account? (w : Watchlist) (address : Address) : Option Target :=
  w.accounts.find? (·.address == address)

/-- The addresses of the contracts in ascending order. -/
def contractAddresses (w : Watchlist) : List Address :=
  sortBy (fun a b => a < b) (w.contracts.map (·.address))

def hasAccounts (w : Watchlist) : Bool := !w.accounts.isEmpty

def isEmpty (w : Watchlist) : Bool := w.contracts.isEmpty && w.accounts.isEmpty

def size (w : Watchlist) : Nat := w.contracts.length + w.accounts.length

end Watchlist

/-- All watched targets, in the order they were listed. -/
structure Catalog where
  targets : List Target
deriving DecidableEq, Repr, Inhabited

namespace Catalog

def empty : Catalog := ⟨[]⟩

def size (c : Catalog) : Nat := c.targets.length

/-- Two targets that may not both be listed. -/
def clash (t u : Target) : Bool :=
  t.chain == u.chain && t.address == u.address && t.isAccount == u.isAccount

/-- Adds targets one by one to those already taken. -/
def addAll (taken : List Target) : List Target → Except ConfigError (List Target)
  | [] => .ok taken
  | t :: rest =>
    if taken.any (clash t) then
      .error (.invalid ("Target " ++ t.address.text ++ " listed twice on chain " ++
        t.chain.text))
    else addAll (taken ++ [t]) rest

def ofTargets (targets : List Target) : Except ConfigError Catalog :=
  return ⟨← addAll [] targets⟩

def ofEntries (entries : List TargetEntry) : Except ConfigError Catalog := do
  ofTargets (← entries.mapM TargetEntry.target)

/-- The targets of a chain. -/
def watchlist (c : Catalog) (chain : ChainId) : Watchlist :=
  let here := c.targets.filter (·.chain == chain)
  ⟨here.filter (!·.isAccount), here.filter (·.isAccount)⟩

end Catalog

end Paywatch
