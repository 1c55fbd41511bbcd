import Paywatch.Chain.Document
import Paywatch.Provider.Registry

/-!
# Providers in documents

What the status says about a provider. Fees are written in the smallest unit and, unless
they are too large for a decimal of 96 bits, in billions of it with all nine places.
-/

namespace Paywatch

/-- A fee in billions of the smallest unit. -/
def Amount.gweiText? (fee : Amount) : Option String :=
  if fee.units < 1 <<< 96 then
    some (Text.decimal (fee.units / 1000000000) ++ "."
      ++ String.ofList (Text.decimalWidth 9 (fee.units % 1000000000)))
  else none

namespace Provider

def toData (p : Provider) : Data :=
  let (successes, outcomes) := p.successRatio
  .record [("id", .ofNat p.id.number.toNat), ("endpoint", .text p.endpoint),
    ("status", .text p.health.text), ("last_head", .ofOption .ofWord p.lastHead),
    ("synced", .ofOption .bool p.synced),
    ("gas_fee_wei", .ofOption Amount.toData p.gasFee),
    ("gas_fee_gwei", .ofOption .text (p.gasFee.bind Amount.gweiText?)),
    ("success_ratio", .float (Float.ofNat successes / Float.ofNat outcomes)),
    ("consecutive_failures", .ofNat p.failures)]

end Provider

end Paywatch
