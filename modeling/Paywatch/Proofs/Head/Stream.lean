import Paywatch.Proofs.Head.Branch

/-!
# What a tracker reports

Whatever the nodes answer, the stream of a tracker takes back only blocks that lie less
than the depth of a reorganisation below the highest block reported so far.  The reason
is that a tracker goes back from its tip, that its tip never sinks between two blocks,
and that it stops after so many steps.
-/

namespace Paywatch

namespace Message

/-- The highest block of a stream, after another message. -/
def top (top : Nat) : Message → Nat
  | accepted b _ => max top b.height.toNat
  | _ => top

/-- The message is about a chain. -/
def IsOf (chain : ChainId) : Message → Prop
  | accepted b _ => b.chain = chain
  | reverted range => range.chain = chain
  | _ => True

/-- The message is about a given block, or a range of the chain. -/
def Tells (given : Block → Prop) (chain : ChainId) : Message → Prop
  | accepted b _ => given b
  | reverted range => range.chain = chain
  | _ => True

theorem isOf_of_tells {chain : ChainId} {m : Message}
    (tells : m.Tells (·.chain = chain) chain) : m.IsOf chain := by
  cases m <;> exact tells

theorem Tells.imp {given more : Block → Prop} {chain : ChainId} {m : Message}
    (tells : m.Tells given chain) (allows : ∀ b, given b → more b) :
    m.Tells more chain := by
  cases m with
  | accepted b live => exact allows b tells
  | _ => exact tells

/-- All blocks that the message takes back lie less than `depth` below `top`. -/
def IsShallow (depth top : Nat) : Message → Prop
  | reverted range => top < range.fromHeight.toNat + depth
  | _ => True

/-- No message takes back a block `depth` or more below the highest one before it. -/
def Shallow (depth : Nat) : (top : Nat) → List Message → Prop
  | _, [] => True
  | highest, m :: rest => m.IsShallow depth highest ∧ Shallow depth (m.top highest) rest

theorem shallow_append {depth highest : Nat} {xs ys : List Message} :
    Shallow depth highest (xs ++ ys) ↔
      Shallow depth highest xs ∧ Shallow depth (xs.foldl top highest) ys := by
  induction xs generalizing highest with
  | nil => simp [Shallow]
  | cons m rest ih => simp [Shallow, ih, and_assoc]

/-- Accepted blocks are never a matter of depth; they raise the top no
further than they reach. -/
theorem shallow_accepted {depth highest bound : Nat} {branch : List Block} {live : Bool}
    (low : ∀ b ∈ branch, b.height.toNat ≤ bound) (start : highest ≤ bound) :
    Shallow depth highest (branch.map (.accepted · live)) ∧
      (branch.map (.accepted · live)).foldl top highest ≤ bound := by
  induction branch generalizing highest with
  | nil => exact ⟨trivial, start⟩
  | cons b rest ih =>
      rw [List.forall_mem_cons] at low
      have bounded : max highest b.height.toNat ≤ bound := Nat.max_le.2 ⟨start, low.1⟩
      obtain ⟨shallow, above⟩ := ih low.2 bounded
      exact ⟨⟨trivial, shallow⟩, above⟩

end Message

namespace Tracker

variable {given : Block → Prop} {t : Tracker} {tip : BlockRef}

/-- Accepting blocks leaves the chain and the settings of a tracker. -/
theorem foldl_push_keeps (t : Tracker) (blocks : List Block) :
    (blocks.foldl push t).chain = t.chain ∧
      (blocks.foldl push t).settings = t.settings := by
  induction blocks generalizing t with
  | nil => exact ⟨rfl, rfl⟩
  | cons b rest ih => exact ih (t.push b)

/-- The newest accepted block of a tracker is the highest that was reported. -/
def StandsAt (t : Tracker) (highest : Nat) : Prop :=
  match t.tip? with
  | some tip => tip.height.toNat = highest
  | none => highest = 0

theorem standsAt_push {highest : Nat} {block : Block}
    (reached : block.height.toNat = highest) : (t.push block).StandsAt highest := by
  unfold StandsAt push tip?
  rw [BlockWindow.tip?_push]
  exact reached

/-- What a tracker that went on from `origin` has told since the top was `highest`: only
shallow messages, about given blocks and ranges of its chain. -/
structure Told (given : Block → Prop) (origin : Tracker) (highest : Nat) (t : Tracker)
    (messages : List Message) : Prop where
  chain : t.chain = origin.chain
  settings : t.settings = origin.settings
  tells : ∀ m ∈ messages, m.Tells given origin.chain
  shallow : Message.Shallow origin.settings.maxReorgDepth.toNat highest messages

/-- The messages are told, and their top is where the tracker stands now. -/
structure Reports (given : Block → Prop) (origin : Tracker) (highest : Nat) (t : Tracker)
    (messages : List Message) : Prop
    extends Told given origin highest t messages where
  stands : t.StandsAt (messages.foldl Message.top highest)

theorem Reports.refl {highest : Nat} (stands : t.StandsAt highest) :
    Reports given t highest t [] :=
  ⟨⟨rfl, rfl, by simp, trivial⟩, stands⟩

section Told

variable {origin : Tracker} {highest : Nat} {sent : List Message}

/-- What is told about blocks of the chain is about the chain. -/
theorem Told.ofChain (told : Told (·.chain = origin.chain) origin highest t sent) :
    ∀ m ∈ sent, m.IsOf origin.chain :=
  fun m member => Message.isOf_of_tells (told.tells m member)

/-- Another block, at least as high as everything before. -/
theorem Told.accept {block : Block} (told : Told given origin highest t sent)
    (isGiven : given block)
    (reached : sent.foldl Message.top highest ≤ block.height.toNat) (live : Bool) :
    Reports given origin highest (t.push block) (sent ++ [.accepted block live]) := by
  refine ⟨⟨told.chain, told.settings, ?_, ?_⟩, standsAt_push ?_⟩
  · intro m member
    rcases List.mem_append.1 member with old | new
    · exact told.tells m old
    · rw [List.mem_singleton.1 new]
      exact isGiven
  · exact Message.shallow_append.2 ⟨told.shallow, trivial, trivial⟩
  · simp only [List.foldl_append, List.foldl_cons, List.foldl_nil, Message.top]
    omega

/-- A reorganisation, from the top on.  The new branch does not reach above it. -/
theorem Told.switch {range : RevertedRange} {branch : List Block}
    (told : Told given origin highest t sent) (rangeChain : range.chain = origin.chain)
    (rangeShallow : (Message.reverted range).IsShallow origin.settings.maxReorgDepth.toNat
      (sent.foldl Message.top highest))
    (low : ∀ b ∈ branch, given b ∧ b.height.toNat ≤ sent.foldl Message.top highest)
    (live : Bool) :
    Told given origin highest (branch.foldl push (t.backTo range.forkPoint.height))
        (sent ++ .reverted range :: branch.map (.accepted · live)) ∧
      List.foldl Message.top highest
          (sent ++ .reverted range :: branch.map (.accepted · live)) ≤
        sent.foldl Message.top highest := by
  obtain ⟨chain, settings⟩ := foldl_push_keeps (t.backTo range.forkPoint.height) branch
  obtain ⟨branchShallow, branchTop⟩ :=
    @Message.shallow_accepted origin.settings.maxReorgDepth.toNat _ _ _ live
      (fun b member => (low b member).2) (Nat.le_refl _)
  refine ⟨⟨chain.trans told.chain, settings.trans told.settings, ?_, ?_⟩, ?_⟩
  · intro m member
    rcases List.mem_append.1 member with old | new
    · exact told.tells m old
    · rcases List.mem_cons.1 new with rfl | accepted
      · exact rangeChain
      · obtain ⟨b, among, rfl⟩ := List.mem_map.1 accepted
        exact (low b among).1
  · exact Message.shallow_append.2 ⟨told.shallow, rangeShallow, branchShallow⟩
  · rw [List.foldl_append, List.foldl_cons]
    exact branchTop

/-! ## Advancing -/

variable {σ : Type} {answers : Answering σ} {s after : σ}

/-- The next block, or nothing. -/
theorem reports_takeNext (inPlace : GivesInPlace answers) {live : Bool} {height : Height}
    {a : Advance} (before : Reports (Gives answers origin.chain) origin highest t sent)
    (isTip : t.tip? = some tip) (next : height.toNat = tip.height.toNat + 1)
    (leads : (t.takeNext live sent height).Leads answers s a after) :
    Reports (Gives answers origin.chain) origin highest a.tracker a.messages ∧
      (a.outcome = .ok () → ∃ tip, a.tracker.tip? = some tip ∧ tip.height = height) := by
  have stands : tip.height.toNat = sent.foldl Message.top highest := by
    have stands := before.stands
    rwa [StandsAt, isTip] at stands
  unfold takeNext at leads
  obtain ⟨reply, there, fetched, leads⟩ := Flow.leads_bind.1 leads
  cases reply with
  | error e =>
      obtain ⟨rfl, -⟩ := leads
      exact ⟨before, by simp⟩
  | ok block =>
      obtain ⟨atHeight, isGiven⟩ := leads_fetchBlock inPlace fetched
      rw [← atHeight] at next
      have isOurs : Gives answers origin.chain block := before.chain ▸ isGiven
      have goesOn : t.hasNext = true := hasNext_of_tip isTip next
      simp only [goesOn, if_true] at leads
      split at leads
      · obtain ⟨rfl, -⟩ := leads
        rw [accept_one goesOn]
        exact ⟨before.toTold.accept isOurs (by omega) live,
          fun _ => ⟨block.ref, tip?_push _ _, atHeight⟩⟩
      · obtain ⟨reply, there, forks, leads⟩ := Flow.leads_bind.1 leads
        cases reply with
        | error e =>
            obtain ⟨rfl, -⟩ := leads
            exact ⟨before, by simp⟩
        | ok result =>
            obtain ⟨range, branch⟩ := result
            obtain ⟨rfl, -⟩ := leads
            have parts := leads_findFork inPlace isTip isGiven next forks
            have near := parts.near
            have above := parts.fromFork
            rw [before.settings] at near
            have shallow : (Message.reverted range).IsShallow
                origin.settings.maxReorgDepth.toNat (sent.foldl Message.top highest) := by
              simp only [Message.IsShallow]
              omega
            have low : ∀ b ∈ branch, Gives answers origin.chain b ∧
                b.height.toNat ≤ sent.foldl Message.top highest := by
              intro b member
              obtain ⟨isGiven, lower⟩ := parts.climb.below b member
              exact ⟨before.chain ▸ isGiven, by omega⟩
            obtain ⟨told, reached⟩ :=
              before.toTold.switch (parts.chain.trans before.chain) shallow low live
            have last := told.accept isOurs (by omega) live
            rw [parts.climb.switch]
            refine ⟨by simpa using last, fun _ => ⟨block.ref, by simp, atHeight⟩⟩

theorem reports_takeBlocks (inPlace : GivesInPlace answers) {live : Bool} {count : Nat}
    {height : Height} {a b : Advance}
    (before : Reports (Gives answers origin.chain) origin highest a.tracker a.messages)
    (isTip : a.tracker.tip? = some tip)
    (next : count ≠ 0 → height.toNat = tip.height.toNat + 1)
    (leads : (takeBlocks live count height a).Leads answers s b after) :
    Reports (Gives answers origin.chain) origin highest b.tracker b.messages := by
  induction count generalizing s height a tip with
  | zero =>
      obtain ⟨rfl, -⟩ := leads
      exact before
  | succ count ih =>
      rw [takeBlocks] at leads
      obtain ⟨c, there, taken, rest⟩ := Flow.leads_bind.1 leads
      have here := next (by simp)
      obtain ⟨reports, reached⟩ := reports_takeNext inPlace before isTip here taken
      cases outcome : c.outcome with
      | error e =>
          rw [outcome] at rest
          obtain ⟨rfl, -⟩ := rest
          exact reports
      | ok u =>
          simp only [outcome] at rest
          obtain ⟨tip', isTip', rfl⟩ := reached outcome
          cases above : tip'.height.plus? 1 with
          | none =>
              simp only [above] at rest
              obtain ⟨rfl, -⟩ := rest
              exact reports
          | some higher =>
              simp only [above] at rest
              exact ih reports isTip' (fun _ => Height.plus?_eq_some_iff.1 above) rest

end Told

/-- However an advance ends, what it tells is shallow, and about blocks
that were given. -/
theorem reports_advance {σ : Type} {answers : Answering σ} {s after : σ}
    (inPlace : GivesInPlace answers) {target : Height} {live : Bool} {highest : Nat}
    {a : Advance} (stands : t.StandsAt highest)
    (leads : (t.advance target live).Leads answers s a after) :
    Reports (Gives answers t.chain) t highest a.tracker a.messages := by
  have start : Reports (Gives answers t.chain) t highest t [] := Reports.refl stands
  unfold advance at leads
  split at leads
  · rename_i noTip
    obtain ⟨reply, there, fetched, leads⟩ := Flow.leads_bind.1 leads
    cases reply with
    | error e =>
        obtain ⟨rfl, -⟩ := leads
        exact start
    | ok block =>
        obtain ⟨rfl, -⟩ := leads
        rw [StandsAt, noTip] at stands
        rw [accept_one (hasNext_of_none noTip)]
        refine start.toTold.accept (leads_fetchBlock inPlace fetched).2 ?_ live
        rw [List.foldl_nil, stands]
        exact Nat.zero_le _
  · rename_i tip isTip
    split at leads
    · obtain ⟨rfl, -⟩ := leads
      exact start
    · split at leads
      · rename_i most next mostIs nextIs
        exact reports_takeBlocks inPlace start isTip
          (fun _ => Height.plus?_eq_some_iff.1 nextIs) leads
      · obtain ⟨rfl, -⟩ := leads
        exact start

/-- Where nobody else changes anything, going on changes nothing around the tracker. -/
theorem runs_advance {catalog : Catalog} {s after : Surroundings} {target : Height}
    {live : Bool} {highest : Nat} {a : Advance} (stands : t.StandsAt highest)
    (runs : (t.advance target live).Runs catalog s a after) :
    after = s ∧ Reports (·.chain = t.chain) t highest a.tracker a.messages := by
  have alone : Alone catalog (Surroundings.Answers catalog) :=
    fun _ _ _ _ answer => answer
  have leads := Flow.leads_iff_runs.2 runs
  constructor
  · refine (only_advance_toNodes t target live).kept id ?_ leads
    intro s c reply after asks answer
    cases c with
    | node chain q =>
        cases q with
        | block height => exact answer.2
        | _ => exact answer
    | _ => exact asks.elim
  · have reports := reports_advance alone.givesInPlace stands leads
    refine ⟨⟨reports.chain, reports.settings, fun m member => ?_, reports.shallow⟩,
      reports.stands⟩
    exact (reports.tells m member).imp fun b gives => alone.chain_of_gives gives

end Tracker

end Paywatch
