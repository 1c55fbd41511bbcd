import Paywatch.Script.Scene

/-!
# Steps on nodes

A script makes the chains of its nodes block by block, lets them fork, fail and lag, and
looks at what they have.
-/

namespace Paywatch.Script

variable {α : Type}

/-- The nodes that a step is about. -/
def clientsOf (d : Data) : Act α (List ProviderId) := do
  let w ← get
  match field d "client" with
  | .text "all" => return w.clients
  | _ => return (w.clients[nat d "client" 0]?).toList

def nodeOf? (d : Data) : Act α (Option ScriptedNode) := do
  let w ← get
  return (w.clients[nat d "client" 0]?).bind w.r.stage.nodes.get?

def changeNodes (d : Data) (f : ScriptedNode → ScriptedNode) : Act α Data := do
  let ids ← clientsOf d
  changeStage (·.changeNodes ids f)
  return .null

/-- The fate of one call in a script. -/
def fate (d : Data) : Option ProviderError :=
  match text d "kind" with
  | "rpc" =>
    let code := (asInt? (field d "code")).getD (-32000)
    some (.rpc (Int64.ofInt code) (text d "message"))
  | "invalid" => some (.invalidResponse (text d "message"))
  | "timeout" => some (.timeout (nat d "ms" 0))
  | "connection" => some (.rpcConnection (text d "message"))
  | _ => none

/-- Steps on nodes. -/
def nodeStep? (d : Data) : Option (Act α Data) :=
  let height := word d "height" 0
  match text d "do" with
  | "push" => some <| changeNodes d (·.push 0 (word d "from" 0) (word d "count" 0))
  | "extend" => some <| changeNodes d (·.extend (word d "count" 0))
  | "reorg" => some <| changeNodes d (·.reorg height (word d "fork" 0))
  | "add_log" => some <| changeNodes d (·.addLog height (log (field d "log")))
  | "add_transfer" => some do
    let token ← lift (typedField d "token" Address.ofData?)
    let sender ← lift (typedField d "from" Address.ofData?)
    let receiver ← lift (typedField d "to" Address.ofData?)
    changeNodes d (·.addLog height (ScriptedNode.transferLog token sender receiver
      ((bigNumber? d "amount").getD .zero) (text d "tx") (word d "index" 0)))
  | "add_tx" => some <| changeNodes d (·.addTx height (tx (field d "tx")))
  | "set_head" => some <| changeNodes d fun n => { n with reportedHead := word? d "head" }
  | "offline" => some <| changeNodes d fun n => { n with offline := flag d "on" }
  | "synced" => some <| changeNodes d fun n => { n with synced := flag d "on" }
  | "fee" => some <| changeNodes d fun n => { n with fees := feeSample d }
  | "latency" => some <| changeNodes d fun n => { n with latency := some (nat d "ms" 0) }
  | "override" =>
    let answer := match field d "block" with
      | .record es => some (block (.record es))
      | _ => none
    some <| changeNodes d fun n =>
      { n with overrides := n.overrides.insert height answer }
  | "clear_overrides" => some <| changeNodes d fun n => { n with overrides := .empty }
  | "script" =>
    some <| changeNodes d fun n =>
      { n with script := n.script ++ (list d "errors").map fate }
  | "block_at" => some do
    return .ofOption Block.toData ((← nodeOf? d).bind (·.blockAt? height))
  | "tip" => some do
    return .ofOption .ofWord ((← nodeOf? d).bind (·.highest?))
  | "calls" => some do
    return .ofOption (fun n : ScriptedNode => .ofNat n.calls) (← nodeOf? d)
  | _ => none

/-- The block that a step is about. -/
def stepBlock (d : Data) : Act α Block := do
  match field d "block" with
  | .record es => return block (.record es)
  | _ =>
    match (← nodeOf? d).bind (·.blockAt? (word d "height" 0)) with
    | some b => return b
    | none => refuse (fault "NoBlock")

end Paywatch.Script
