import Paywatch.Engine.Status
import Paywatch.Provider.Document

/-!
# The status in documents
-/

namespace Paywatch

namespace ChainStatus

def toData (s : ChainStatus) : Data :=
  .record [("chain", s.chain.toData), ("name", .text s.name),
    ("head", .ofOption .ofWord s.head),
    ("watermark", .ofOption BlockRef.toData s.watermark),
    ("phase", .text s.progress.phase.text),
    ("halted", .bool (s.progress.phase == .halted)),
    ("halted_reason", .ofOption .text s.progress.haltedReason),
    ("providers", .ofList Provider.toData s.providers)]

end ChainStatus

namespace Settings

/-- The status of the engine of these settings. -/
def statusData (s : Settings) (chains : List ChainStatus) : Data :=
  .record [("instance", .text s.engine.instanceName),
    ("chains", .ofList ChainStatus.toData chains)]

end Settings

end Paywatch
