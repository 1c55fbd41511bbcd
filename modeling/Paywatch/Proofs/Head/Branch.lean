import Paywatch.Head.Advance
import Paywatch.Proofs.Chain.Heights
import Paywatch.Proofs.Flow.Rules
import Paywatch.Proofs.Head.Window

/-!
# Where a branch parts

A block that does not stand on the tip belongs to another branch.  The tracker follows
that branch down to a block of its window.  Whatever the nodes answer, what it comes
back with is the branch from there up to the block that it started from, and the way
down is no longer than a reorganisation may reach.
-/

namespace Paywatch

/-- The block lies one above another and points to it. -/
def Block.StandsOn (b : Block) (r : BlockRef) : Prop :=
  b.height.toNat = r.height.toNat + 1 ∧ b.parentHash = r.hash

theorem height_eq_add_one {low high : Height} (next : high.toNat = low.toNat + 1) :
    high = low + 1 := by
  have bound := high.toNat_lt
  refine UInt64.toNat_inj.1 ?_
  rw [UInt64.toNat_add, UInt64.toNat_one]
  omega

theorem Block.standsOn_iff {b : Block} {r : BlockRef}
    (next : b.height.toNat = r.height.toNat + 1) :
    b.extends? r = true ↔ b.StandsOn r := by
  rw [Block.StandsOn, and_iff_right next]
  simp [Block.extends?, height_eq_add_one next]

/-- The call is a question to the providers of a chain. -/
def Call.ToNodes : Call → Prop
  | .node .. => True
  | _ => False

theorem Call.ToNodes.plain {c : Call} (asks : c.ToNodes) : c.Plain := by
  cases c with
  | ledger c => exact asks.elim
  | _ => trivial

namespace Tracker

variable {given : Block → Prop}

/-- Given blocks, each on the one before, the first on `r`. -/
def Climb (given : Block → Prop) : BlockRef → List Block → Prop
  | _, [] => True
  | r, b :: rest => given b ∧ b.StandsOn r ∧ Climb given b.ref rest

section Climb

variable {r : BlockRef} {branch : List Block} {child : Block}

theorem Climb.height (climb : Climb given r (branch ++ [child])) :
    child.height.toNat = r.height.toNat + branch.length + 1 := by
  induction branch generalizing r with
  | nil => exact climb.2.1.1
  | cons b rest ih =>
      obtain ⟨-, ⟨next, -⟩, others⟩ := climb
      have higher := ih others
      have here : b.ref.height = b.height := rfl
      rw [List.length_cons]
      rw [here] at higher
      omega

/-- The branch of a block consists of given blocks that lie below it. -/
theorem Climb.below (climb : Climb given r (branch ++ [child])) :
    ∀ b ∈ branch, given b ∧ b.height.toNat < child.height.toNat := by
  induction branch generalizing r with
  | nil => simp
  | cons b rest ih =>
      obtain ⟨isGiven, -, others⟩ := climb
      have here : b.ref.height = b.height := rfl
      have higher := others.height
      rw [here] at higher
      exact List.forall_mem_cons.2 ⟨⟨isGiven, by omega⟩, ih others⟩

end Climb

/-! ## Accepting a branch -/

section Accept

variable {t : Tracker} {r : BlockRef} {branch : List Block}

@[simp] theorem tip?_push (t : Tracker) (b : Block) : (t.push b).tip? = some b.ref :=
  BlockWindow.tip?_push _ _

/-- Below a block there is a next height. -/
theorem hasNext_of_lt {b : Block}
    (lower : ∀ tip, t.tip? = some tip → tip.height.toNat < b.height.toNat) :
    t.hasNext = true := by
  rw [hasNext, BlockWindow.hasNext, Option.all_eq_true]
  intro tip isTip
  have below := lower tip isTip
  have bound := b.height.toNat_lt
  obtain ⟨next, is, -⟩ := Height.next_of_lt (h := tip.height) (by omega)
  rw [is]
  rfl

theorem hasNext_of_none (noTip : t.tip? = none) : t.hasNext = true := by
  rw [hasNext, BlockWindow.hasNext, show t.window.tip? = none from noTip]
  rfl

theorem hasNext_of_tip {tip : BlockRef} {b : Block} (isTip : t.tip? = some tip)
    (next : b.height.toNat = tip.height.toNat + 1) : t.hasNext = true :=
  hasNext_of_lt (b := b) fun tip' isTip' => by
    rw [isTip] at isTip'
    cases isTip'
    omega

theorem accept_one (goesOn : t.hasNext = true) (live : Bool) (sent : List Message)
    (b : Block) :
    t.accept live sent [b] = ⟨t.push b, sent ++ [.accepted b live], .ok ()⟩ := by
  rw [accept, if_pos goesOn, accept]

/-- A branch that stands above the tip is accepted as a whole. -/
theorem Climb.accept (climb : Climb given r branch)
    (low : ∀ tip, t.tip? = some tip → tip.height.toNat ≤ r.height.toNat) (live : Bool)
    (sent : List Message) : t.accept live sent branch =
      ⟨branch.foldl push t, sent ++ branch.map (.accepted · live), .ok ()⟩ := by
  induction branch generalizing t r sent with
  | nil => simp [Tracker.accept]
  | cons b rest ih =>
      obtain ⟨-, ⟨next, -⟩, others⟩ := climb
      have goesOn : t.hasNext = true := hasNext_of_lt (b := b) fun tip isTip => by
        have below := low tip isTip
        omega
      have onTop : ∀ tip, (t.push b).tip? = some tip →
        tip.height.toNat ≤ b.ref.height.toNat := by
        rintro tip isTip
        rw [tip?_push] at isTip
        cases isTip
        exact Nat.le_refl _
      rw [Tracker.accept, if_pos goesOn, ih others onTop]
      simp

/-- The tracker without the blocks above a height. -/
def backTo (t : Tracker) (height : Height) : Tracker :=
  { t with window := t.window.truncateAbove height }

/-- A branch that stands on the fork takes the place of the range. -/
theorem Climb.switch (range : RevertedRange) (climb : Climb given range.forkPoint branch)
    (live : Bool) (sent : List Message) : t.switch live sent range branch =
      ⟨branch.foldl push (t.backTo range.forkPoint.height),
        sent ++ .reverted range :: branch.map (.accepted · live), .ok ()⟩ := by
  have low : ∀ tip, (t.backTo range.forkPoint.height).tip? = some tip →
      tip.height.toNat ≤ range.forkPoint.height.toNat :=
    fun _ isTip => BlockWindow.height_le_of_truncateAbove isTip
  rw [Tracker.switch, ← backTo, climb.accept low]
  simp

end Accept

/-! ## Flows of a tracker -/

section Flows

variable {t : Tracker}

theorem only_fetchBlock_toNodes (t : Tracker) (height : Height) :
    (t.fetchBlock height).Only Call.ToNodes :=
  Flow.only_bind (Flow.only_ask.2 trivial) fun _ => Flow.only_pure _

theorem only_walkBack_toNodes (t : Tracker) (tip : BlockRef) (fuel : Nat)
    (height : Height) (expected : String) (branch : List Block) :
    (t.walkBack tip fuel height expected branch).Only Call.ToNodes := by
  induction fuel generalizing height expected branch with
  | zero =>
      rw [walkBack]
      repeat' split
      all_goals exact Flow.only_pure _
  | succ fuel ih =>
      rw [walkBack]
      split
      · exact Flow.only_pure _
      · split
        · exact Flow.only_pure _
        · split
          · exact Flow.only_pure _
          · split
            · exact Flow.only_pure _
            · refine Flow.only_bind (only_fetchBlock_toNodes t height) fun reply => ?_
              split
              · exact Flow.only_pure _
              · split
                · exact ih _ _ _
                · exact Flow.only_pure _

theorem only_findFork_toNodes (t : Tracker) (child : Block) :
    (t.findFork child).Only Call.ToNodes := by
  unfold findFork
  split
  · exact Flow.only_pure _
  · refine Flow.only_bind (only_walkBack_toNodes _ _ _ _ _ _) fun reply => ?_
    split
    · exact Flow.only_pure _
    · split <;> exact Flow.only_pure _

theorem only_takeNext_toNodes (t : Tracker) (live : Bool) (sent : List Message)
    (height : Height) : (t.takeNext live sent height).Only Call.ToNodes := by
  unfold takeNext
  refine Flow.only_bind (only_fetchBlock_toNodes t height) fun reply => ?_
  split
  · exact Flow.only_pure _
  · split
    · split
      · exact Flow.only_pure _
      · refine Flow.only_bind (only_findFork_toNodes _ _) fun reply => ?_
        split <;> exact Flow.only_pure _
    · exact Flow.only_pure _

/-- A tracker that goes on asks nodes and nothing else. -/
theorem only_advance_toNodes (t : Tracker) (target : Height) (live : Bool) :
    (t.advance target live).Only Call.ToNodes := by
  have takes : ∀ (count : Nat) (height : Height) (a : Advance),
      (takeBlocks live count height a).Only Call.ToNodes := by
    intro count
    induction count with
    | zero => exact fun height a => Flow.only_pure a
    | succ count ih =>
        intro height a
        refine Flow.only_bind (only_takeNext_toNodes _ _ _ _) fun a => ?_
        split
        · split
          · exact Flow.only_pure _
          · exact ih _ _
        · exact Flow.only_pure _
  unfold advance
  split
  · refine Flow.only_bind (only_fetchBlock_toNodes t target) fun reply => ?_
    split <;> exact Flow.only_pure _
  · split
    · exact Flow.only_pure _
    · split
      · exact takes _ _ _
      · exact Flow.only_pure _

theorem only_fetchBlock (t : Tracker) (height : Height) :
    (t.fetchBlock height).Only Call.Plain :=
  (only_fetchBlock_toNodes t height).imp fun _ => Call.ToNodes.plain

theorem only_advance (t : Tracker) (target : Height) (live : Bool) :
    (t.advance target live).Only Call.Plain :=
  (only_advance_toNodes t target live).imp fun _ => Call.ToNodes.plain

theorem only_queryHead (t : Tracker) : t.queryHead.Only Call.Plain :=
  Flow.only_bind (Flow.only_ask.2 trivial) fun _ => Flow.only_pure _

end Flows

/-! ## Going back -/

section Back

variable {σ : Type} {answers : Answering σ} {s after : σ} {t : Tracker} {tip : BlockRef}

theorem leads_fetchBlock {height : Height} {b : Block} (inPlace : GivesInPlace answers)
    (leads : (t.fetchBlock height).Leads answers s (.ok b) after) :
    b.height = height ∧ Gives answers t.chain b := by
  unfold fetchBlock at leads
  obtain ⟨reply, there, asked, ok, rfl⟩ := Flow.leads_bind.1 leads
  rw [Flow.leads_ask] at asked
  cases reply with
  | error e => cases ok
  | ok b' =>
      cases ok
      exact ⟨inPlace _ _ _ _ _ asked, s, height, _, asked⟩

theorem orphaned?_eq_some {height : Height} {orphaned : UInt64}
    (is : orphaned? tip height = some orphaned) :
    tip.height.toNat + 1 = height.toNat + orphaned.toNat := by
  obtain ⟨distance, apart, next⟩ := Option.bind_eq_some_iff.1 is
  have apart := Height.minus?_eq_some_iff.1 apart
  have next := Height.plus?_eq_some_iff.1 next
  rw [UInt64.toNat_one] at next
  omega

/-- Below the last height the way down from the tip can be counted. -/
theorem exists_orphaned? {height : Height} (below : height.toNat ≤ tip.height.toNat)
    (notLast : tip.height.toNat + 1 < 2 ^ 64) :
    ∃ orphaned, orphaned? tip height = some orphaned := by
  obtain ⟨distance, apart, sum⟩ := Height.minus?_of_le below
  obtain ⟨orphaned, next, -⟩ := Height.next_of_lt (h := distance) (by omega)
  exact ⟨orphaned, by rw [orphaned?, apart, Option.bind_some, next]⟩

/-- One step down from a height that is above the ground and not too deep. -/
theorem step_down {height : Height} {orphaned depth : UInt64}
    (is : orphaned? tip height = some orphaned)
    (allowed : ¬ (depth < orphaned ∨ height = 0)) :
    height.toNat = (height - 1).toNat + 1 ∧
      tip.height.toNat ≤ (height - 1).toNat + depth.toNat := by
  rw [not_or] at allowed
  obtain ⟨shallow, aboveGround⟩ := allowed
  have positive : 0 < height.toNat := by
    rcases Nat.eq_zero_or_pos height.toNat with zero | positive
    · exact absurd (UInt64.toNat_inj.1 zero) aboveGround
    · exact positive
  have lower : (height - 1).toNat = height.toNat - 1 :=
    UInt64.toNat_sub_of_le _ _ (UInt64.le_iff_toNat_le.2 positive)
  have distance := orphaned?_eq_some is
  rw [UInt64.lt_iff_toNat_lt] at shallow
  omega

/-- A walk back ends at a block that the window has, not too deep below the tip, and the
branch of `child` stands on it. -/
theorem leads_walkBack (inPlace : GivesInPlace answers) {child : Block} {fuel : Nat}
    {height : Height} {expected : String} {branch blocks : List Block} {fork : BlockRef}
    (leads : (t.walkBack tip fuel height expected branch).Leads answers s
      (.ok (fork, blocks)) after)
    (near : tip.height.toNat ≤ height.toNat + t.settings.maxReorgDepth.toNat)
    (climb : Climb (Gives answers t.chain) ⟨height, expected⟩ (branch ++ [child])) :
    t.window.hashAt? fork.height = some fork.hash ∧
      tip.height.toNat ≤ fork.height.toNat + t.settings.maxReorgDepth.toNat ∧
      Climb (Gives answers t.chain) fork (blocks ++ [child]) := by
  induction fuel generalizing s height expected branch with
  | zero =>
      rw [walkBack] at leads
      split at leads
      · cases leads.1
      · rename_i accepted found
        split at leads
        · rename_i same
          cases leads.1
          exact ⟨same ▸ found, near, climb⟩
        · split at leads
          · cases leads.1
          · split at leads <;> cases leads.1
  | succ fuel ih =>
      rw [walkBack] at leads
      split at leads
      · cases leads.1
      · rename_i accepted found
        split at leads
        · rename_i same
          cases leads.1
          exact ⟨same ▸ found, near, climb⟩
        · split at leads
          · cases leads.1
          · rename_i orphaned distance
            split at leads
            · cases leads.1
            · rename_i allowed
              obtain ⟨reply, there, fetched, leads⟩ := Flow.leads_bind.1 leads
              cases reply with
              | error e => cases leads.1
              | ok ancestor =>
                  simp only at leads
                  split at leads
                  · rename_i isExpected
                    obtain ⟨atHeight, isGiven⟩ := leads_fetchBlock inPlace fetched
                    obtain ⟨next, stillNear⟩ := step_down distance allowed
                    refine ih leads stillNear ⟨isGiven, ⟨?_, rfl⟩, ?_⟩
                    · rw [atHeight]
                      exact next
                    · have sameRef : ancestor.ref = ⟨height, expected⟩ := by
                        rw [Block.ref, atHeight, isExpected]
                      rw [sameRef]
                      exact climb
                  · cases leads.1

/-- The range takes back what lies above a block of the window, up to the tip, and the
branch of `child` starts there. -/
structure Parts (given : Block → Prop) (t : Tracker) (tip : BlockRef) (child : Block)
    (range : RevertedRange) (branch : List Block) : Prop where
  chain : range.chain = t.chain
  toTip : range.toHeight = tip.height
  fromFork : range.fromHeight.toNat = range.forkPoint.height.toNat + 1
  known : t.window.hashAt? range.forkPoint.height = some range.forkPoint.hash
  near : tip.height.toNat ≤ range.forkPoint.height.toNat + t.settings.maxReorgDepth.toNat
  climb : Climb given range.forkPoint (branch ++ [child])

/-- Whatever fork is found for a block at the next height, the branches part there. -/
theorem leads_findFork (inPlace : GivesInPlace answers) {child : Block}
    {range : RevertedRange} {branch : List Block} (isTip : t.tip? = some tip)
    (isGiven : Gives answers t.chain child)
    (next : child.height.toNat = tip.height.toNat + 1)
    (leads : (t.findFork child).Leads answers s (.ok (range, branch)) after) :
    Parts (Gives answers t.chain) t tip child range branch := by
  unfold findFork at leads
  rw [isTip] at leads
  obtain ⟨reply, there, walks, leads⟩ := Flow.leads_bind.1 leads
  cases reply with
  | error e => cases leads.1
  | ok result =>
      obtain ⟨fork, blocks⟩ := result
      obtain ⟨known, near, climb⟩ := leads_walkBack inPlace walks
        (Nat.le_add_right _ _) ⟨isGiven, ⟨next, rfl⟩, trivial⟩
      cases above : fork.height.plus? 1 with
      | none =>
          simp only [above] at leads
          cases leads.1
      | some lowest =>
          simp only [above] at leads
          obtain ⟨same, -⟩ := leads
          obtain ⟨rfl, rfl⟩ := Prod.mk.inj (Except.ok.inj same)
          exact ⟨rfl, rfl, Height.plus?_eq_some_iff.1 above, known, near, climb⟩

end Back

end Tracker

end Paywatch
