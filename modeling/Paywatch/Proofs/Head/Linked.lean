import Paywatch.Proofs.Head.Branch

/-!
# The stream of a tracker, replayed

Whoever starts from the window of a tracker and replays the messages of an advance comes
to the window that the tracker has afterwards, whatever the nodes answered and wherever
the advance failed.  Each block stands on the tip before it.  A reorganisation takes
back everything above a block of the window, and not more than allowed.
-/

namespace Paywatch

/-- The newest block after a message. -/
def Message.tipAfter (tip? : Option BlockRef) : Message → Option BlockRef
  | accepted b _ => some b.ref
  | reverted range => some range.forkPoint
  | _ => tip?

namespace Tracker

/-- The tracker as its message leaves it. -/
def follow (t : Tracker) : Message → Tracker
  | .accepted b _ => t.push b
  | .reverted range => { t with window := t.window.truncateAbove range.forkPoint.height }
  | _ => t

/-- The range takes back what lies above a block of the window, up to the tip. -/
structure Retreat (t : Tracker) (range : RevertedRange) (tip : BlockRef) : Prop where
  chain : range.chain = t.chain
  isTip : t.tip? = some tip
  toTip : range.toHeight = tip.height
  fromFork : range.fromHeight.toNat = range.forkPoint.height.toNat + 1
  nonempty : range.fromHeight.toNat ≤ range.toHeight.toNat
  shallow : range.toHeight.toNat - range.fromHeight.toNat + 1 ≤
    t.settings.maxReorgDepth.toNat
  accepted : range.forkPoint ∈ t.window.blocks

variable {given : Block → Prop}

/-- The message goes on from where the tracker stands.  A block is a given one and
stands on the tip, if there is a tip. -/
def Continues (given : Block → Prop) (t : Tracker) : Message → Prop
  | .accepted b _ => given b ∧ ∀ tip, t.tip? = some tip → b.StandsOn tip
  | .reverted range => ∃ tip, t.Retreat range tip
  | _ => False

/-- Each message goes on from where those before it lead. -/
def Linked (given : Block → Prop) : Tracker → List Message → Prop
  | _, [] => True
  | t, m :: rest => t.Continues given m ∧ (t.follow m).Linked given rest

theorem linked_append {t : Tracker} {xs ys : List Message} :
    t.Linked given (xs ++ ys) ↔ t.Linked given xs ∧
      (xs.foldl follow t).Linked given ys := by
  induction xs generalizing t with
  | nil => simp [Linked]
  | cons m rest ih => simp [Linked, ih, and_assoc]

section Follow

variable {t : Tracker} {m : Message} {messages : List Message}

@[simp] theorem follow_chain (t : Tracker) (m : Message) :
    (t.follow m).chain = t.chain := by
  cases m <;> rfl

theorem foldl_follow_chain (t : Tracker) (messages : List Message) :
    (messages.foldl follow t).chain = t.chain := by
  induction messages generalizing t with
  | nil => rfl
  | cons m rest ih => rw [List.foldl_cons, ih, follow_chain]

theorem Continues.consecutive (continues : t.Continues given m)
    (consecutive : t.window.Consecutive) : (t.follow m).window.Consecutive := by
  cases m with
  | accepted b live =>
      refine consecutive.push fun tip isTip => ?_
      have next := (continues.2 tip isTip).1
      show tip.height.toNat < b.height.toNat
      omega
  | reverted range =>
      obtain ⟨tip, retreat⟩ := continues
      exact consecutive.truncateAbove retreat.accepted
  | unavailable attempt retryIn => exact continues.elim
  | halted reason => exact continues.elim

theorem Continues.tip? (continues : t.Continues given m)
    (consecutive : t.window.Consecutive) : (t.follow m).tip? = m.tipAfter t.tip? := by
  cases m with
  | accepted b live => exact BlockWindow.tip?_push _ _
  | reverted range =>
      obtain ⟨tip, retreat⟩ := continues
      exact consecutive.tip?_truncateAbove retreat.accepted
  | unavailable attempt retryIn => exact continues.elim
  | halted reason => exact continues.elim

/-- What is followed stays without gaps, and the messages tell its tip. -/
theorem Linked.foldl_follow (linked : t.Linked given messages)
    (consecutive : t.window.Consecutive) :
    (messages.foldl follow t).window.Consecutive ∧
      (messages.foldl follow t).tip? = messages.foldl Message.tipAfter t.tip? := by
  induction messages generalizing t with
  | nil => exact ⟨consecutive, rfl⟩
  | cons m rest ih =>
      rw [List.foldl_cons, List.foldl_cons, ← linked.1.tip? consecutive]
      exact ih linked.2 (linked.1.consecutive consecutive)

end Follow

/-! ## Branches -/

/-- A branch is accepted block by block. -/
theorem Climb.linked {t : Tracker} {r : BlockRef} {branch : List Block} (live : Bool)
    (isTip : t.tip? = some r) (climb : Climb given r branch) :
    t.Linked given (branch.map (.accepted · live)) := by
  induction branch generalizing t r with
  | nil => trivial
  | cons b rest ih =>
      obtain ⟨isGiven, stands, others⟩ := climb
      refine ⟨⟨isGiven, ?_⟩, ih (BlockWindow.tip?_push _ _) others⟩
      intro tip isTip'
      rw [isTip] at isTip'
      cases isTip'
      exact stands

/-! ## Advancing -/

section Advance

variable {σ : Type} {answers : Answering σ} {s after : σ} {t : Tracker} {tip : BlockRef}

/-- If a block at the next height does not stand on the tip, its branch
parts below the tip. -/
theorem Parts.retreat {child : Block} {range : RevertedRange} {branch : List Block}
    (parts : Parts given t tip child range branch) (consecutive : t.window.Consecutive)
    (isTip : t.tip? = some tip) (next : child.height.toNat = tip.height.toNat + 1)
    (apart : ¬ child.StandsOn tip) : t.Retreat range tip := by
  have accepted := BlockWindow.mem_of_hashAt? consecutive parts.known
  have near := parts.near
  have above := parts.fromFork
  have lower : range.forkPoint.height.toNat < tip.height.toNat := by
    rcases consecutive.le_tip isTip accepted with same | lower
    · -- A branch from the tip on would be the block alone, which does not stand there.
      have fork : range.forkPoint = tip := same
      have climb := parts.climb
      have length := climb.height
      rw [fork] at climb length
      obtain rfl : branch = [] := List.length_eq_zero_iff.1 (by omega)
      exact absurd climb.2.1 apart
    · exact lower
  refine ⟨parts.chain, isTip, parts.toTip, above, ?_, ?_, accepted⟩
  all_goals
    rw [parts.toTip]
    omega

/-- Accepting blocks is following their messages. -/
theorem foldl_push (t : Tracker) (live : Bool) (blocks : List Block) :
    blocks.foldl push t = (blocks.map (.accepted · live)).foldl follow t := by
  rw [List.foldl_map]
  rfl

/-- A tracker that went on from `origin` and sent these messages. -/
structure Sent (given : Block → Prop) (origin : Tracker) (t : Tracker)
    (messages : List Message) : Prop where
  linked : origin.Linked given messages
  reached : messages.foldl follow origin = t
  consecutive : origin.window.Consecutive

theorem Sent.refl (consecutive : t.window.Consecutive) : Sent given t t [] :=
  ⟨trivial, rfl, consecutive⟩

variable {origin : Tracker} {sent more : List Message}

theorem Sent.window (before : Sent given origin t sent) : t.window.Consecutive := by
  rw [← before.reached]
  exact (before.linked.foldl_follow before.consecutive).1

theorem Sent.chain (before : Sent given origin t sent) : t.chain = origin.chain := by
  rw [← before.reached]
  exact foldl_follow_chain origin sent

theorem Sent.append (before : Sent given origin t sent) (linked : t.Linked given more) :
    Sent given origin (more.foldl follow t) (sent ++ more) where
  linked := linked_append.2 ⟨before.linked, by rw [before.reached]; exact linked⟩
  reached := by rw [List.foldl_append, before.reached]
  consecutive := before.consecutive

/-- The next block, or nothing. -/
theorem leads_takeNext (inPlace : GivesInPlace answers) {live : Bool} {height : Height}
    {a : Advance} (before : Sent (Gives answers origin.chain) origin t sent)
    (isTip : t.tip? = some tip) (next : height.toNat = tip.height.toNat + 1)
    (leads : (t.takeNext live sent height).Leads answers s a after) :
    Sent (Gives answers origin.chain) origin a.tracker a.messages ∧
      (a.outcome = .ok () → ∃ tip, a.tracker.tip? = some tip ∧ tip.height = height) := by
  unfold takeNext at leads
  obtain ⟨reply, there, fetched, leads⟩ := Flow.leads_bind.1 leads
  cases reply with
  | error e =>
      obtain ⟨rfl, -⟩ := leads
      exact ⟨before, by simp⟩
  | ok block =>
      obtain ⟨atHeight, isGiven⟩ := leads_fetchBlock inPlace fetched
      rw [← atHeight] at next
      have goesOn : t.hasNext = true := hasNext_of_tip isTip next
      simp only [goesOn, isTip, Option.all_some, if_true] at leads
      split at leads
      · rename_i extending
        obtain ⟨rfl, -⟩ := leads
        have climb : Climb (Gives answers origin.chain) tip [block] :=
          ⟨before.chain ▸ isGiven, (Block.standsOn_iff next).1 extending, trivial⟩
        rw [accept_one goesOn]
        exact ⟨before.append (climb.linked live isTip),
          fun _ => ⟨block.ref, BlockWindow.tip?_push _ _, atHeight⟩⟩
      · rename_i apart
        rw [Block.standsOn_iff next] at apart
        obtain ⟨reply, there, forks, leads⟩ := Flow.leads_bind.1 leads
        cases reply with
        | error e =>
            obtain ⟨rfl, -⟩ := leads
            exact ⟨before, by simp⟩
        | ok result =>
            obtain ⟨range, branch⟩ := result
            obtain ⟨rfl, -⟩ := leads
            have parts := leads_findFork inPlace isTip isGiven next forks
            have retreat := parts.retreat before.window isTip next apart
            have climb := parts.climb
            rw [before.chain] at climb
            have onFork := before.window.tip?_truncateAbove retreat.accepted
            have linked : t.Linked (Gives answers origin.chain)
                (.reverted range :: (branch ++ [block]).map (.accepted · live)) :=
              ⟨⟨tip, retreat⟩, climb.linked live onFork⟩
            rw [climb.switch, foldl_push _ live]
            refine ⟨before.append linked, fun _ => ⟨block.ref, ?_, atHeight⟩⟩
            simp [follow]

theorem leads_takeBlocks (inPlace : GivesInPlace answers) {live : Bool} {count : Nat}
    {height : Height} {a b : Advance}
    (before : Sent (Gives answers origin.chain) origin a.tracker a.messages)
    (isTip : a.tracker.tip? = some tip)
    (next : count ≠ 0 → height.toNat = tip.height.toNat + 1)
    (leads : (takeBlocks live count height a).Leads answers s b after) :
    Sent (Gives answers origin.chain) origin b.tracker b.messages := by
  induction count generalizing s height a tip with
  | zero =>
      obtain ⟨rfl, -⟩ := leads
      exact before
  | succ count ih =>
      rw [takeBlocks] at leads
      obtain ⟨c, there, taken, rest⟩ := Flow.leads_bind.1 leads
      have here := next (by simp)
      obtain ⟨sent, reached⟩ := leads_takeNext inPlace before isTip here taken
      cases outcome : c.outcome with
      | error e =>
          rw [outcome] at rest
          obtain ⟨rfl, -⟩ := rest
          exact sent
      | ok u =>
          simp only [outcome] at rest
          obtain ⟨tip', isTip', rfl⟩ := reached outcome
          cases above : tip'.height.plus? 1 with
          | none =>
              simp only [above] at rest
              obtain ⟨rfl, -⟩ := rest
              exact sent
          | some higher =>
              simp only [above] at rest
              exact ih sent isTip' (fun _ => Height.plus?_eq_some_iff.1 above) rest

/-- However an advance ends, its messages lead from the old window to the new one. -/
theorem leads_advance (inPlace : GivesInPlace answers) {target : Height} {live : Bool}
    {a : Advance} (consecutive : t.window.Consecutive)
    (leads : (t.advance target live).Leads answers s a after) :
    Sent (Gives answers t.chain) t a.tracker a.messages := by
  have start : Sent (Gives answers t.chain) t t [] := Sent.refl consecutive
  unfold advance at leads
  split at leads
  · rename_i noTip
    obtain ⟨reply, there, fetched, leads⟩ := Flow.leads_bind.1 leads
    cases reply with
    | error e =>
        obtain ⟨rfl, -⟩ := leads
        exact start
    | ok block =>
        obtain ⟨rfl, -⟩ := leads
        have linked : t.Linked (Gives answers t.chain) [.accepted block live] := by
          refine ⟨⟨(leads_fetchBlock inPlace fetched).2, ?_⟩, trivial⟩
          intro tip isTip
          rw [noTip] at isTip
          cases isTip
        rw [accept_one (hasNext_of_none noTip)]
        exact start.append linked
  · rename_i tip isTip
    split at leads
    · obtain ⟨rfl, -⟩ := leads
      exact start
    · split at leads
      · rename_i most next mostIs nextIs
        exact leads_takeBlocks inPlace start isTip
          (fun _ => Height.plus?_eq_some_iff.1 nextIs) leads
      · obtain ⟨rfl, -⟩ := leads
        exact start

/-- The stream of an advance is well formed, also if the advance fails:  its
messages follow one another from the old window on, and lead to the window and the
tip that the tracker has now. -/
theorem advance_replays (inPlace : GivesInPlace answers) {target : Height} {live : Bool}
    {a : Advance} (consecutive : t.window.Consecutive)
    (leads : (t.advance target live).Leads answers s a after) :
    t.Linked (Gives answers t.chain) a.messages ∧ a.messages.foldl follow t = a.tracker ∧
      a.messages.foldl Message.tipAfter t.tip? = a.tracker.tip? := by
  have sent := leads_advance inPlace consecutive leads
  refine ⟨sent.linked, sent.reached, ?_⟩
  rw [← sent.reached, (sent.linked.foldl_follow consecutive).2]

end Advance

/-! ## A tracker on the wrong branch -/

/-- The window ends on a branch that the nodes gave up. -/
def astray : Tracker := ⟨⟨1⟩, ⟨2, 100, 0, {}⟩, ⟨[⟨1, "0x01"⟩, ⟨2, "0xa2"⟩], 3, by decide⟩⟩

def newBranch : List Block := [⟨⟨1⟩, 2, "0xb2", "0x01", 0⟩, ⟨⟨1⟩, 3, "0xb3", "0xb2", 0⟩]

/-- The nodes do not know a fourth block. -/
def forkedNodes : Nodes := ⟨(⟨⟨1⟩, 1, "0x01", "0x00", 0⟩ :: newBranch).map (·, [])⟩

/-- The tracker goes over to the other branch, and then fails. -/
theorem advance_replays_astray : ∃ a : Advance,
    a.outcome = .error (.provider (.blockNotFound 4)) ∧
    a.messages = .reverted ⟨⟨1⟩, 2, 2, ⟨1, "0x01"⟩⟩ :: newBranch.map (.accepted · true) ∧
    astray.Linked (Gives (Surroundings.Answers ⟨[]⟩) ⟨1⟩) a.messages ∧
    a.messages.foldl follow astray = a.tracker ∧
    a.messages.foldl Message.tipAfter astray.tip? = a.tracker.tip? := by
  have keeps :
      (astray.advance 4 true).keepsPromises ⟨[]⟩ forkedNodes ⟨.empty, []⟩ = true := by
    decide +kernel
  have leads := Flow.leads_iff_runs.2 (Flow.runs_run _ _ keeps)
  have consecutive : astray.window.Consecutive :=
    List.isChain_cons_cons.2 ⟨rfl, List.IsChain.singleton _⟩
  refine ⟨_, ?_, ?_, advance_replays ?_ consecutive leads⟩
  · decide +kernel
  · decide +kernel
  · intro s chain height b after answer
    exact (answer.1 b rfl).2

end Tracker

end Paywatch
