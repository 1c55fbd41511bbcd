import Paywatch.Notice.Document
import Paywatch.Web.Talk

/-!
# Notices on the web

A notice can be posted to an address of the web. A delivery that fails is repeated
twice, each time after a longer pause.
-/

namespace Paywatch

namespace Notice

/-- The times of waiting between the attempts at a delivery. -/
def deliveryPauses : List Nat := [500, 1000]

/-- Posts a notice once; tells whether it was taken. -/
def post (url : String) (n : Notice) : Web.Talk Bool := do
  match ← Web.Talk.ask { method := .post, url, body := some n.toData } with
  | .ok response => return Web.isSuccess response.status
  | .error _ => return false

/-- Posts a notice until it is taken, once more after each pause. -/
def postAgain (url : String) (n : Notice) : (pauses : List Nat) → Web.Talk Bool
  | [] => n.post url
  | millis :: rest => do
    if ← n.post url then return true
    Web.Talk.wait millis
    n.postAgain url rest

/-- Delivers a notice; tells whether it was taken at last. -/
def deliver (url : String) (n : Notice) : Web.Talk Bool := n.postAgain url deliveryPauses

end Notice

end Paywatch
