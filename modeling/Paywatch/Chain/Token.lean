import Paywatch.Chain.Address

/-!
# Tokens

What a payment is made in: the coin of a chain, or the token of one contract.
-/

namespace Paywatch

inductive Token where
  | native (chain : ChainId)
  | erc20 (chain : ChainId) (contract : Address)
deriving DecidableEq, Repr

namespace Token

def chain : Token → ChainId
  | native chain => chain
  | erc20 chain _ => chain

def text : Token → String
  | native chain => chain.text ++ ":native"
  | erc20 chain contract => chain.text ++ ":" ++ contract.text

end Token

end Paywatch
