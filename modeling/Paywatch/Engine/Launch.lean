import Paywatch.Engine.Basic
import Paywatch.Event.Document
import Paywatch.Settings.Document

/-!
# Launching

What the command line asks for, and what is reported before the engine starts:
its chains, the targets that it watches on them and its Raiden nodes, or the
reason why it cannot start.
-/

namespace Paywatch.Launch

/-- The settings that are used if nothing is said. -/
def usualName : String := "dev"

/-- The name of the settings that the arguments ask for: whatever follows the first flag
that something follows. -/
def settingsName : List String → String
  | flag :: name :: rest =>
    if flag = "--env" ∨ flag = "-e" then name else settingsName (name :: rest)
  | _ => usualName

/-- Where the settings of a name are kept. -/
def settingsPath (name : String) : String := "config/" ++ name ++ ".yaml"

/-- Why a file was not used. -/
def refusal (path : String) : ConfigError → String
  | .unreadable => path ++ ": the file cannot be read"
  | .malformed => path ++ ": the file is malformed"
  | .invalid reason => path ++ ": " ++ reason

/-- One chain in a report. -/
def chainLine (catalog : Catalog) (c : ChainSettings) : String :=
  "chain " ++ c.chain.text ++ " (" ++ c.name ++ "): " ++ Text.decimal c.providers.length
    ++ " providers, " ++ Text.decimal (catalog.watchlist c.chain).size ++ " targets"

/-- One Raiden node in a report. -/
def nodeLine (s : RaidenNodeSettings) : String :=
  "raiden node " ++ s.address ++ " on chain " ++ s.chain.text ++ ": "
    ++ Text.decimal s.tokens.length ++ " tokens"

/-- The report on settings and targets; its error is the reason not to start. -/
def report (s : Settings) (targets : Option String) : Except String (List String) := do
  let catalog ← (Catalog.ofFile targets).mapError (refusal s.targetsPath)
  discard <| s.pollers.mapError EngineError.message
  return s.chains.map (chainLine catalog) ++ s.raiden.map nodeLine

end Paywatch.Launch
