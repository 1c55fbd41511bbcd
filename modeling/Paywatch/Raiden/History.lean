import Paywatch.Flow.Basic
import Paywatch.Json.Reader
import Paywatch.Web.Talk

/-!
# Payment histories on the web

How the payments of a token are read from a Raiden node, from a place in its history on.
-/

namespace Paywatch

namespace PaymentEvent

/-- The request for the payments of a token. The address of the node ends
without a slash. -/
def request (url : String) (token : Address) (offset : Nat) : Web.Request where
  method := .get
  url := url ++ "/api/v1/payments/" ++ token.text ++ "?offset=" ++ Text.decimal offset

/-- The payments in a response. -/
def ofOutcome (url : String) (token : Address) :
    Web.Outcome → Except FeedError (List PaymentEvent)
  | .error reason => .error (.http reason)
  | .ok response =>
    if Web.isSuccess response.status then
      match (Json.read? response.body).bind (Data.list? PaymentEvent.ofData?) with
      | some events => .ok events
      | none => .error (.http Web.unreadable)
    else .error (.status (url ++ "/api/v1/payments/" ++ token.text) response.status)

/-- Asks a node for its payments of a token. -/
def fetch (url : String) (token : Address) (offset : Nat) :
    Web.Talk (Except FeedError (List PaymentEvent)) := do
  return ofOutcome url token (← Web.Talk.ask (request url token offset))

end PaymentEvent

end Paywatch
