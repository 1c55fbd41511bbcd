import Paywatch.Proofs.Head.Linked

/-!
# How far an advance comes

An advance that succeeds comes as far as its target and the number of blocks for one
poll allow, neither more nor less.  It ends with an overflow only where that height is
the last one there is, or where the sum of the tip and the number of blocks is no word.
In the second case nothing is asked at all.
-/

namespace Paywatch

namespace Tracker

variable {σ : Type} {answers : Answering σ} {s after : σ} {t : Tracker} {tip : BlockRef}

/-! ## No overflow on the way -/

theorem ne_overflow_of_fetchBlock {height : Height} {e : TrackerError}
    (leads : (t.fetchBlock height).Leads answers s (.error e) after) : e ≠ .overflow := by
  obtain ⟨reply, there, -, failed, -⟩ := Flow.leads_bind.1 leads
  cases reply with
  | error e' =>
      cases failed
      rintro ⟨⟩
  | ok b => cases failed

theorem ne_overflow_of_walkBack {fuel : Nat} {height : Height} {expected : String}
    {branch : List Block} {e : TrackerError} (below : height.toNat ≤ tip.height.toNat)
    (notLast : tip.height.toNat + 1 < 2 ^ 64)
    (leads : (t.walkBack tip fuel height expected branch).Leads answers s
      (.error e) after) :
    e ≠ .overflow := by
  induction fuel generalizing s height expected branch with
  | zero =>
      obtain ⟨orphaned, distance⟩ := exists_orphaned? below notLast
      rw [walkBack] at leads
      simp only [distance] at leads
      split at leads
      · cases leads.1
        rintro ⟨⟩
      · split at leads
        · cases leads.1
        · split at leads <;>
          · cases leads.1
            rintro ⟨⟩
  | succ fuel ih =>
      obtain ⟨orphaned, distance⟩ := exists_orphaned? below notLast
      rw [walkBack] at leads
      simp only [distance] at leads
      split at leads
      · cases leads.1
        rintro ⟨⟩
      · split at leads
        · cases leads.1
        · split at leads
          · cases leads.1
            rintro ⟨⟩
          · rename_i allowed
            obtain ⟨reply, there, fetched, leads⟩ := Flow.leads_bind.1 leads
            cases reply with
            | error e' =>
                cases leads.1
                exact ne_overflow_of_fetchBlock fetched
            | ok ancestor =>
                simp only at leads
                split at leads
                · have lower := (step_down distance allowed).1
                  exact ih (by omega) leads
                · cases leads.1
                  rintro ⟨⟩

theorem ne_overflow_of_findFork (inPlace : GivesInPlace answers) {child : Block}
    {e : TrackerError} (isTip : t.tip? = some tip) (isGiven : Gives answers t.chain child)
    (next : child.height.toNat = tip.height.toNat + 1)
    (leads : (t.findFork child).Leads answers s (.error e) after) : e ≠ .overflow := by
  have bound := child.height.toNat_lt
  unfold findFork at leads
  rw [isTip] at leads
  obtain ⟨reply, there, walks, leads⟩ := Flow.leads_bind.1 leads
  cases reply with
  | error e' =>
      cases leads.1
      exact ne_overflow_of_walkBack (Nat.le_refl _) (by omega) walks
  | ok result =>
      obtain ⟨fork, blocks⟩ := result
      obtain ⟨-, -, climb⟩ := leads_walkBack inPlace walks
        (Nat.le_add_right _ _) ⟨isGiven, ⟨next, rfl⟩, trivial⟩
      have higher := climb.height
      obtain ⟨above, isAbove, -⟩ := Height.next_of_lt (h := fork.height) (by omega)
      simp only [isAbove] at leads
      cases leads.1

/-- The block after the tip is taken, with a reorganisation or without, or it is not
there, or the reorganisation cannot be followed. -/
theorem ne_overflow_of_takeNext (inPlace : GivesInPlace answers) {live : Bool}
    {sent : List Message} {height : Height} {a : Advance} (isTip : t.tip? = some tip)
    (next : height.toNat = tip.height.toNat + 1)
    (leads : (t.takeNext live sent height).Leads answers s a after) :
    a.outcome ≠ .error .overflow := by
  unfold takeNext at leads
  obtain ⟨reply, there, fetched, leads⟩ := Flow.leads_bind.1 leads
  cases reply with
  | error e =>
      cases leads.1
      exact fun same => ne_overflow_of_fetchBlock fetched (Except.error.inj same)
  | ok block =>
      obtain ⟨atHeight, isGiven⟩ := leads_fetchBlock inPlace fetched
      rw [← atHeight] at next
      have goesOn : t.hasNext = true := hasNext_of_tip isTip next
      simp only [goesOn, if_true] at leads
      split at leads
      · rw [accept_one goesOn] at leads
        cases leads.1
        rintro ⟨⟩
      · obtain ⟨reply, there, forks, leads⟩ := Flow.leads_bind.1 leads
        cases reply with
        | error e =>
            cases leads.1
            exact fun same =>
              ne_overflow_of_findFork inPlace isTip isGiven next forks
                (Except.error.inj same)
        | ok result =>
            obtain ⟨range, branch⟩ := result
            have parts := leads_findFork inPlace isTip isGiven next forks
            simp only [parts.climb.switch] at leads
            cases leads.1
            rintro ⟨⟩

/-! ## So many blocks -/

/-- After so many blocks the tip lies so much higher, and there is a height after it.
Nothing overflows where there is one. -/
theorem reaches_takeBlocks (inPlace : GivesInPlace answers) {origin : Tracker}
    {live : Bool} {count : Nat} {height : Height} {a b : Advance}
    (before : Sent (Gives answers origin.chain) origin a.tracker a.messages)
    (going : a.outcome = .ok ()) (isTip : a.tracker.tip? = some tip)
    (next : height.toNat = tip.height.toNat + 1)
    (leads : (takeBlocks live count height a).Leads answers s b after) :
    (b.outcome = .ok () → tip.height.toNat + count + 1 < 2 ^ 64 ∧
      ∃ tip', b.tracker.tip? = some tip' ∧ tip'.height.toNat = tip.height.toNat + count) ∧
    (tip.height.toNat + count + 1 < 2 ^ 64 → b.outcome ≠ .error .overflow) := by
  induction count generalizing s height a tip with
  | zero =>
      have bound := height.toNat_lt
      obtain ⟨rfl, -⟩ := leads
      rw [going]
      exact ⟨fun _ => ⟨by omega, tip, isTip, rfl⟩, fun _ => by simp⟩
  | succ count ih =>
      rw [takeBlocks] at leads
      obtain ⟨c, there, taken, rest⟩ := Flow.leads_bind.1 leads
      obtain ⟨sent, reached⟩ := leads_takeNext inPlace before isTip next taken
      cases outcome : c.outcome with
      | error e =>
          have fine := ne_overflow_of_takeNext inPlace isTip next taken
          rw [outcome] at rest fine
          obtain ⟨rfl, -⟩ := rest
          rw [outcome]
          exact ⟨by simp, fun _ => fine⟩
      | ok u =>
          simp only [outcome] at rest
          obtain ⟨tip', isTip', rfl⟩ := reached outcome
          cases above : tip'.height.plus? 1 with
          | none =>
              have last := Height.plus?_eq_none_iff.1 above
              rw [UInt64.toNat_one] at last
              simp only [above] at rest
              obtain ⟨rfl, -⟩ := rest
              exact ⟨by simp, fun room => by omega⟩
          | some higher =>
              have follows := Height.plus?_eq_some_iff.1 above
              simp only [above] at rest
              obtain ⟨far, safe⟩ := ih sent outcome isTip' follows rest
              refine ⟨fun ok => ?_, fun room => safe (by omega)⟩
              obtain ⟨room, tip'', isTip'', height⟩ := far ok
              exact ⟨by omega, tip'', isTip'', by omega⟩

/-! ## An advance -/

/-- How far an advance may come, in exact numbers. -/
def reach (t : Tracker) (tip : BlockRef) (target : Height) : Nat :=
  min target.toNat (tip.height.toNat + t.settings.maxBlocksPerPoll.toNat)

/-- The bound of an advance is a word, and the advance does not come to the
last height there is. -/
structure Fits (t : Tracker) (tip : BlockRef) (target : Height) : Prop where
  bound : tip.height.toNat + t.settings.maxBlocksPerPoll.toNat < 2 ^ 64
  notLast : t.reach tip target + 1 < 2 ^ 64

variable {target : Height} {live : Bool} {a : Advance}

/-- Where the bound is no word, an advance ends before it asks anything. -/
theorem advance_of_overflow (isTip : t.tip? = some tip) (ahead : tip.height < target)
    (overflows : 2 ^ 64 ≤ tip.height.toNat + t.settings.maxBlocksPerPoll.toNat) :
    t.advance target live = pure ⟨t, [], .error .overflow⟩ := by
  rw [advance, isTip]
  simp only [UInt64.not_le.2 ahead, if_false, Height.plus?_eq_none_iff.2 overflows]

/-- An advance succeeds only where it fits, and comes as far as it may.  Where it fits,
it does not overflow. -/
theorem reaches_advance (inPlace : GivesInPlace answers)
    (consecutive : t.window.Consecutive) (isTip : t.tip? = some tip)
    (ahead : tip.height < target)
    (leads : (t.advance target live).Leads answers s a after) :
    (a.outcome = .ok () → t.Fits tip target ∧
      ∃ tip', a.tracker.tip? = some tip' ∧ tip'.height.toNat = t.reach tip target) ∧
    (t.Fits tip target → a.outcome ≠ .error .overflow) := by
  have higher := UInt64.lt_iff_toNat_lt.1 ahead
  have inWord := target.toNat_lt
  by_cases bound : tip.height.toNat + t.settings.maxBlocksPerPoll.toNat < 2 ^ 64
  · obtain ⟨most, isMost, mostIs⟩ := Height.plus?_of_lt bound
    obtain ⟨next, isNext, nextIs⟩ := Height.next_of_lt (h := tip.height) (by omega)
    have goal : (min target most).toNat = t.reach tip target := by
      rw [UInt64.toNat_min, mostIs, reach]
    have above : tip.height.toNat + ((min target most).toNat - tip.height.toNat) =
        t.reach tip target := by
      rw [goal, reach]
      omega
    rw [advance, isTip] at leads
    simp only [UInt64.not_le.2 ahead, if_false, isMost, isNext] at leads
    have reaches :=
      reaches_takeBlocks inPlace (Sent.refl consecutive) rfl isTip nextIs leads
    rw [above] at reaches
    refine ⟨fun ok => ?_, fun fits => reaches.2 fits.notLast⟩
    obtain ⟨notLast, reached⟩ := reaches.1 ok
    exact ⟨⟨bound, notLast⟩, reached⟩
  · rw [advance_of_overflow isTip ahead (by omega)] at leads
    obtain ⟨rfl, -⟩ := leads
    exact ⟨by simp, fun fits => absurd fits.bound bound⟩

end Tracker

end Paywatch
