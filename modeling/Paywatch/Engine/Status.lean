import Paywatch.Engine.Basic

/-!
# The status of the engine

How far each configured chain has come and how its providers are, for those
who look after the program.
-/

namespace Paywatch

/-- The status of one chain. -/
structure ChainStatus where
  chain : ChainId
  name : String
  /-- The highest head that a provider reported. -/
  head : Option Height
  watermark : Option BlockRef
  progress : Progress
  providers : List Provider

namespace Settings

/-- The status of every configured chain. -/
def status (s : Settings) (registry : Registry) (ledger : Ledger) (board : StatusBoard) :
    List ChainStatus :=
  s.chains.map fun c =>
    { chain := c.chain
      name := c.name
      head := registry.bestHead? c.chain
      watermark := ledger.watermark c.chain
      progress := board.progress c.chain
      providers := registry.members c.chain }

end Settings

end Paywatch
