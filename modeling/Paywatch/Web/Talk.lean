import Paywatch.Data.Basic
import Paywatch.Web.Status

/-!
# Talks with web services

A talk is done, or it sends a request and goes on with the response, or it waits. Who
responds is left open: a service, a list of prepared responses, or nobody.
-/

namespace Paywatch.Web

inductive Method where
  | get
  | post
deriving DecidableEq, Repr

structure Request where
  method : Method
  /-- The whole address with its query. -/
  url : String
  /-- What proves who asks. -/
  bearer : Option String := none
  /-- The document that is sent along. -/
  body : Option Data := none

structure Response where
  status : Nat
  body : String
deriving DecidableEq, Repr

/-- The response to a request, or the reason why there is none. -/
abbrev Outcome := Except String Response

inductive Talk (α : Type) where
  | done (a : α)
  | send (request : Request) (next : Outcome → Talk α)
  | pause (millis : Nat) (next : Talk α)

namespace Talk

variable {α β γ σ : Type}

/-- Goes on with the result of a talk. -/
def bind (x : Talk α) (f : α → Talk β) : Talk β :=
  match x with
  | done a => f a
  | send request next => send request fun outcome => (next outcome).bind f
  | pause millis next => pause millis (next.bind f)

instance : Monad Talk where
  pure := done
  bind := bind

theorem bind_done (x : Talk α) : x.bind done = x := by
  induction x with
  | done a => rfl
  | send request next ih => simp only [bind, ih]
  | pause millis next ih => simp only [bind, ih]

theorem bind_assoc (x : Talk α) (f : α → Talk β) (g : β → Talk γ) :
    (x.bind f).bind g = x.bind fun a => (f a).bind g := by
  induction x with
  | done a => rfl
  | send request next ih => simp only [bind, ih]
  | pause millis next ih => simp only [bind, ih]

instance : LawfulMonad Talk :=
  LawfulMonad.mk' Talk (fun x => bind_done x) (fun _ _ => rfl) fun x f g =>
    bind_assoc x f g

/-- Sends one request. -/
def ask (request : Request) : Talk Outcome := send request done

def wait (millis : Nat) : Talk Unit := pause millis (done ())

/-- Runs a talk with a peer, which remembers what it wants to. -/
def run (peer : Request → σ → Outcome × σ) : Talk α → σ → α × σ
  | done a, s => (a, s)
  | send request next, s =>
    let (outcome, s) := peer request s
    (next outcome).run peer s
  | pause _ next, s => next.run peer s

end Talk

/-- Why a request that reaches nobody has no response. -/
def Request.unanswered (r : Request) : String :=
  "error sending request for url (" ++ r.url ++ ")"

/-- The peer behind an address where nobody listens: it sees no request. -/
def nobody {σ : Type} (r : Request) (s : σ) : Outcome × σ := (.error r.unanswered, s)

/-- The reason why a response cannot be understood. -/
def unreadable : String := "error decoding response body"

end Paywatch.Web
