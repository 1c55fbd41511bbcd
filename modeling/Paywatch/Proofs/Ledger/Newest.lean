import Paywatch.Proofs.Ingest.Placing
import Paywatch.Proofs.Order.Ranking

/-!
# The watermark is the newest block

Four kinds of batches move a watermark:  up by one, up by a leap, down, or not at all.
Whichever come, and in whatever order, the watermark stays the newest of the remembered
blocks of its chain, and what lies too far below it is forgotten.  So a tracker that
starts from the remembered blocks starts from the watermark.

Behind the last height there is no next one:  a block that would have to be compared
with it is not accepted, and changes nothing.
-/

namespace Paywatch

/-- A batch as it is built:  only a reorganisation takes blocks back, and it takes back
all blocks above its target. -/
def Batch.Regular (b : Batch) : Prop :=
  match b.link with
  | .rewind => ∃ range, b.reverted = some range ∧ range.fromHeight = b.target.height + 1
  | _ => b.reverted = none

/-- How a batch may follow a watermark, and whether it moves it. -/
inductive Batch.Advances (b : Batch) (mark : BlockRef) (recorded : Option String) :
    Bool → Prop where
  | child (link : b.link = .child mark.hash)
      (next : b.target.height.toNat = mark.height.toNat + 1) :
      Advances b mark recorded true
  /-- The block was processed before. -/
  | known {parentHash : String} (link : b.link = .child parentHash)
      (notLast : mark.height.toNat + 1 < 2 ^ 64) (low : b.target.height ≤ mark.height)
      (isHash : recorded = some b.target.hash) : Advances b mark recorded false
  | base (link : b.link = .base) (above : mark.height < b.target.height) :
      Advances b mark recorded true
  | rewind (link : b.link = .rewind) (low : b.target.height ≤ mark.height)
      (agrees : recorded.all (· == b.target.hash) = true) : Advances b mark recorded true

namespace Batch

variable {b : Batch} {mark : BlockRef} {recorded : Option String}

theorem advances_of_ok {moves : Bool} (ok : b.advances (some mark) recorded = .ok moves) :
    b.Advances mark recorded moves := by
  unfold advances at ok
  cases link : b.link with
  | child parentHash =>
      simp only [link] at ok
      cases above : mark.height.plus? 1 with
      | none =>
          rw [above] at ok
          cases ok
      | some next =>
          have higher : next.toNat = mark.height.toNat + 1 :=
            Height.plus?_eq_some_iff.1 above
          have bound := next.toNat_lt
          simp only [above] at ok
          split at ok
          · rename_i follows
            cases ok
            exact .child (by rw [link, follows.2]) (by rw [follows.1, higher])
          · split at ok
            · rename_i old
              cases ok
              exact .known link (by omega) old.1 old.2
            · cases ok
  | base =>
      simp only [link] at ok
      split at ok
      · rename_i above
        cases ok
        exact .base link above
      · cases ok
  | rewind =>
      simp only [link] at ok
      split at ok
      · rename_i old
        cases ok
        exact .rewind link old.1 old.2
      · cases ok

end Batch

namespace Place

variable {p q : Place} {b : Batch}

/-- Whatever a regular batch leaves to be remembered was remembered before, and lies no
higher than where the batch moves the watermark. -/
theorem Rooted.takenBack_low (rooted : p.Rooted) (regular : b.Regular)
    {recorded : Option String} (moves : b.advances p.mark recorded = .ok true)
    {h : Height} {r : BlockRef} (found : (p.takenBack b).recent h = some r) :
    p.recent h = some r ∧ h.toNat ≤ b.target.height.toNat := by
  have old : p.recent h = some r := by
    unfold takenBack at found
    split at found
    · exact (recent_forget found).1
    · exact found
  obtain ⟨mark, isMark, low⟩ := rooted.below h r old
  refine ⟨old, ?_⟩
  rw [isMark] at moves
  cases Batch.advances_of_ok moves with
  | child link next => omega
  | base link above => exact low.trans (UInt64.lt_iff_toNat_lt.1 above).le
  | rewind link below agrees =>
      simp only [Batch.Regular, link] at regular
      obtain ⟨range, isRange, fromTarget⟩ := regular
      rw [takenBack, isRange] at found
      have lower := (recent_forget found).2
      rw [fromTarget, UInt64.toNat_add, UInt64.toNat_one] at lower
      have below := Nat.mod_le (b.target.height.toNat + 1) (2 ^ 64)
      omega

/-- The watermark may only stay where nothing is taken back. -/
theorem takenBack_of_stays (regular : b.Regular) {recorded : Option String}
    (stays : b.advances p.mark recorded = .ok false) : p.takenBack b = p := by
  cases isMark : p.mark with
  | none =>
      unfold Batch.advances at stays
      cases link : b.link <;> simp [link, isMark] at stays
  | some mark =>
      rw [isMark] at stays
      cases Batch.advances_of_ok stays with
      | known link notLast low isHash =>
          simp only [Batch.Regular, link] at regular
          rw [takenBack, regular]

/-- What a regular batch makes of a place:  nothing, or the place is moved
to its target. -/
theorem commit_regular (regular : b.Regular) (accepted : p.commit b = .ok q) :
    q = p ∨ b.advances p.mark ((p.recent b.target.height).map (·.hash)) = .ok true ∧
      q = (p.takenBack b).moveTo b.target := by
  unfold commit at accepted
  cases link : b.advances p.mark ((p.recent b.target.height).map (·.hash)) with
  | error e =>
      rw [link] at accepted
      cases accepted
  | ok moves =>
      rw [link] at accepted
      obtain rfl := Except.ok.inj accepted
      cases moves with
      | true => exact Or.inr ⟨rfl, rfl⟩
      | false => exact Or.inl (takenBack_of_stays regular link)

theorem Rooted.commit (rooted : p.Rooted) (regular : b.Regular)
    (accepted : p.commit b = .ok q) : q.Rooted := by
  rcases commit_regular regular accepted with rfl | ⟨moves, rfl⟩
  · exact rooted
  · apply rooted_moveTo
    · intro h r found
      exact rooted.height h r (rooted.takenBack_low regular moves found).1
    · intro h r found
      exact (rooted.takenBack_low regular moves found).2

theorem Retained.commit (retained : p.Retained) (regular : b.Regular)
    (accepted : p.commit b = .ok q) : q.Retained := by
  rcases commit_regular regular accepted with rfl | ⟨-, rfl⟩
  · exact retained
  · exact retained_moveTo _ _

end Place

namespace Ledger

variable {l after : Ledger} {chain : ChainId}

/-! ## Remembered blocks in order -/

/-- The remembered blocks of a chain, highest last. -/
def allRecent (l : Ledger) (chain : ChainId) : List BlockRef :=
  (sortBy (fun a b => a.1.2 < b.1.2)
    (l.recent.entries.filter fun e => e.1.1 == chain)).map (·.2)

theorem recentBlocks_eq (l : Ledger) (chain : ChainId) (limit : Nat) :
    l.recentBlocks chain limit =
      (l.allRecent chain).drop ((l.allRecent chain).length - limit) := rfl

theorem mem_allRecent {r : BlockRef} :
    r ∈ l.allRecent chain ↔ ∃ h, (l.place chain).recent h = some r := by
  constructor
  · intro member
    obtain ⟨⟨⟨c, h⟩, r'⟩, sorted, rfl⟩ := List.mem_map.1 member
    obtain ⟨entry, here⟩ := List.mem_filter.1 (mem_sortBy.1 sorted)
    rw [beq_iff_eq] at here
    subst here
    exact ⟨h, Table.mem_entries_iff.1 entry⟩
  · rintro ⟨h, found⟩
    have here : ((chain, h), r) ∈ l.recent.entries.filter fun e => e.1.1 == chain :=
      List.mem_filter.2 ⟨Table.mem_entries_iff.2 found, beq_self_eq_true chain⟩
    exact List.mem_map.2 ⟨_, mem_sortBy.2 here, rfl⟩

/-- Remembered blocks go up from each to the next. -/
theorem pairwise_allRecent (rooted : (l.place chain).Rooted) :
    (l.allRecent chain).Pairwise fun r s => r.height < s.height := by
  have ranks : Ranks (fun a b : (ChainId × Height) × BlockRef => decide (a.1.2 < b.1.2))
      fun e => e.1.2.toNat := by
    intro x y
    rw [decide_eq_true_iff, UInt64.lt_iff_toNat_lt]
  let here := l.recent.entries.filter fun e => e.1.1 == chain
  have ofChain : ∀ e ∈ sortBy (fun a b => decide (a.1.2 < b.1.2)) here,
      e.1.1 = chain ∧ e.2.height = e.1.2 := by
    rintro ⟨⟨c, h⟩, r⟩ member
    obtain ⟨entry, isChain⟩ := List.mem_filter.1 (mem_sortBy.1 member)
    obtain rfl := beq_iff_eq.1 isChain
    exact ⟨rfl, rooted.height h r (Table.mem_entries_iff.1 entry)⟩
  have keysOnce :
      ((sortBy (fun a b => decide (a.1.2 < b.1.2)) here).map (·.1)).Nodup := by
    rw [((perm_sortBy _ here).map _).nodup_iff]
    exact l.recent.distinct.sublist (List.Sublist.map _ List.filter_sublist)
  have sorted : (sortBy (fun a b => decide (a.1.2 < b.1.2)) here).Pairwise
      fun e f => e.1.2.toNat ≤ f.1.2.toNat := ranks.pairwise_sortBy
  rw [allRecent, List.pairwise_map]
  refine (sorted.and (List.pairwise_map.1 keysOnce)).imp_of_mem ?_
  intro e f member member' ⟨low, different⟩
  obtain ⟨isChain, height⟩ := ofChain e member
  obtain ⟨isChain', height'⟩ := ofChain f member'
  rw [height, height', UInt64.lt_iff_toNat_lt]
  refine lt_of_le_of_ne low fun same => different (Prod.ext ?_ (UInt64.toNat_inj.1 same))
  rw [isChain, isChain']

/-- The highest of the remembered blocks is the watermark. -/
theorem getLast?_allRecent (rooted : (l.place chain).Rooted) :
    (l.allRecent chain).getLast? = l.watermark chain := by
  cases isMark : l.watermark chain with
  | none =>
      rw [List.getLast?_eq_none_iff, List.eq_nil_iff_forall_not_mem]
      intro r member
      obtain ⟨h, found⟩ := mem_allRecent.1 member
      obtain ⟨mark, isMark', -⟩ := rooted.below h r found
      cases isMark.symm.trans isMark'
  | some mark =>
      have member : mark ∈ l.allRecent chain :=
        mem_allRecent.2 ⟨mark.height, rooted.marked mark isMark⟩
      obtain ⟨front, last, split⟩ :=
        (List.eq_nil_or_concat' (l.allRecent chain)).resolve_left
        (List.ne_nil_of_mem member)
      have ordered := pairwise_allRecent rooted
      rw [split] at member ordered ⊢
      rw [List.getLast?_concat]
      rcases List.mem_append.1 member with inFront | isLast
      · -- then the last one lies above the watermark, where nothing is remembered
        have lower :=
          (List.pairwise_append.1 ordered).2.2 mark inFront last List.mem_cons_self
        have isThere : last ∈ l.allRecent chain :=
          split ▸ List.mem_append_right front List.mem_cons_self
        obtain ⟨h, found⟩ := mem_allRecent.1 isThere
        obtain ⟨mark', isMark', low⟩ := rooted.below h last found
        cases isMark.symm.trans isMark'
        rw [rooted.height h last found, UInt64.lt_iff_toNat_lt] at lower
        omega
      · rw [List.mem_singleton.1 isLast]

theorem pairwise_recentBlocks (rooted : (l.place chain).Rooted) (limit : Nat) :
    (l.recentBlocks chain limit).Pairwise fun r s => r.height < s.height :=
  (pairwise_allRecent rooted).sublist (List.drop_sublist _ _)

theorem getLast?_recentBlocks (rooted : (l.place chain).Rooted) {limit : Nat}
    (some : 1 ≤ limit) : (l.recentBlocks chain limit).getLast? = l.watermark chain := by
  rw [recentBlocks_eq, List.getLast?_drop, ← getLast?_allRecent rooted]
  split
  · rename_i short
    cases empty : l.allRecent chain with
    | nil => rfl
    | cons r rest =>
        rw [empty] at short
        simp only [List.length_cons] at short
        omega
  · rfl

/-! ## Runs -/

theorem place_commitPlan {writes : List TransferWrite} {plan : Plan}
    (accepted : l.commitPlan writes plan = .ok after) (chain : ChainId) :
    after.place chain = l.place chain := by
  simp only [commitPlan, bind_eq_ok] at accepted
  obtain ⟨_, -, _, -, result⟩ := accepted
  obtain rfl := Except.ok.inj result
  rw [writePlan, foldl_writeDeposit_frame, foldl_writeClaim_frame,
    foldl_writeTransfer_frame]
  rfl

/-- A batch moves the place of its own chain only. -/
theorem place_commit_of_ne {b : Batch} (accepted : l.commit b = .ok after)
    (other : b.chain ≠ chain) : after.place chain = l.place chain := by
  obtain ⟨moves, -, marks, recent⟩ := (committed_of_commit accepted).moved
  have markSame : after.watermark chain = l.watermark chain := by
    rw [watermark, marks]
    split
    · rw [Table.get?_insert, if_neg other]
      rfl
    · rfl
  have takenSame :
      ∀ h, (l.takenBack b).recent.get? (chain, h) = l.recent.get? (chain, h) := by
    intro h
    unfold takenBack
    split
    · simp only [revertRange, Table.get?_filter]
      cases l.recent.get? (chain, h) <;> simp [Ne.symm other]
    · rfl
  have recentSame : ∀ h, after.recent.get? (chain, h) = l.recent.get? (chain, h) := by
    intro h
    rw [recent, ← takenSame h]
    split
    · simp only [advance, Table.get?_filter, Table.get?_insert, Prod.mk.injEq,
        other, false_and, if_false]
      cases (l.takenBack b).recent.get? (chain, h) <;> simp [Ne.symm other]
    · rfl
  simp only [place, markSame, recentSame]

/-- What may happen to a ledger as far as one chain goes:  all calls, refused or not,
while time goes on and leases end.  Batches of the chain are regular. -/
inductive Traffic (chain : ChainId) : Ledger → Ledger → Prop where
  | call (l : Ledger) (c : Call)
      (regular : ∀ b, c = .commit b → b.chain = chain → b.Regular) :
      Traffic chain l (l.perform c).2
  | wait (l : Ledger) (ticks : Nat) : Traffic chain l (l.wait ticks)
  | expire (l : Ledger) (other : ChainId) : Traffic chain l (l.expireLease other)

theorem Traffic.place_kept (step : Traffic chain l after)
    (rooted : (l.place chain).Rooted) (retained : (l.place chain).Retained) :
    (after.place chain).Rooted ∧ (after.place chain).Retained := by
  have keep : ∀ next : Ledger, next.place chain = l.place chain →
      (next.place chain).Rooted ∧ (next.place chain).Retained := by
    intro next same
    rw [same]
    exact ⟨rooted, retained⟩
  cases step with
  | wait ticks => exact keep _ rfl
  | expire other => exact keep _ rfl
  | call c regular =>
      cases c with
      | commit b =>
          simp only [perform, attempt]
          cases accepted : l.commit b with
          | error e => exact keep l rfl
          | ok next =>
              by_cases here : b.chain = chain
              · subst here
                have moved := place_commit accepted
                have isRegular := regular b rfl rfl
                exact ⟨rooted.commit isRegular moved, retained.commit isRegular moved⟩
              · exact keep next (place_commit_of_ne accepted here)
      | commitPlan writes plan =>
          simp only [perform, attempt]
          cases accepted : l.commitPlan writes plan with
          | error e => exact keep l rfl
          | ok next => exact keep next (place_commitPlan accepted chain)
      | _ => exact keep _ (l.place_perform chain trivial)

theorem rooted_of_traffic (run : Relation.ReflTransGen (Traffic chain) .empty l) :
    (l.place chain).Rooted ∧ (l.place chain).Retained := by
  induction run with
  | refl =>
      exact ⟨⟨by simp [place, watermark, empty], by simp [place, empty],
          by simp [place, empty]⟩,
        by simp [Place.Retained, place, empty]⟩
  | tail _ step ih => exact step.place_kept ih.1 ih.2

/-- In exact numbers, nothing is remembered further below a watermark than
the retention. -/
theorem sub_retention_le {mark h : Height} (kept : retentionFloor mark ≤ h) :
    mark.toNat - 1024 ≤ h.toNat := by
  rw [UInt64.le_iff_toNat_le] at kept
  unfold retentionFloor at kept
  have size : retention.toNat = 1024 := rfl
  split at kept
  · rename_i short
    have short := UInt64.lt_iff_toNat_lt.1 short
    omega
  · rename_i enough
    rw [UInt64.toNat_sub_of_le _ _ (UInt64.not_lt.1 enough)] at kept
    omega

/-- Either nothing is known of a chain, or its watermark is the newest of its remembered
blocks, which lie at their own heights and not too far below.  The remembered blocks are
told in order, and the last one is the watermark. -/
theorem watermark_newest (run : Relation.ReflTransGen (Traffic chain) .empty l) :
    ((l.watermark chain = none ∧ ∀ h, l.recent.get? (chain, h) = none) ∨
      ∃ mark, l.watermark chain = some mark ∧
        l.recent.get? (chain, mark.height) = some mark ∧
        ∀ h r, l.recent.get? (chain, h) = some r →
          r.height = h ∧ mark.height.toNat - 1024 ≤ h.toNat ∧
            h.toNat ≤ mark.height.toNat) ∧
      ∀ limit, 1 ≤ limit →
        (l.recentBlocks chain limit).Pairwise (fun r s => r.height < s.height) ∧
        (l.recentBlocks chain limit).getLast? = l.watermark chain := by
  obtain ⟨rooted, retained⟩ := rooted_of_traffic run
  constructor
  · cases isMark : l.watermark chain with
    | none =>
        refine Or.inl
          ⟨rfl, fun h => Option.eq_none_iff_forall_ne_some.2 fun r found => ?_⟩
        obtain ⟨mark, isMark', -⟩ := rooted.below h r found
        cases isMark.symm.trans isMark'
    | some mark =>
        refine Or.inr ⟨mark, rfl, rooted.marked mark isMark,
          fun h r found => ⟨rooted.height h r found, ?_, ?_⟩⟩
        · exact sub_retention_le (retained mark h r isMark found)
        · obtain ⟨mark', isMark', low⟩ := rooted.below h r found
          cases isMark.symm.trans isMark'
          exact low
  · exact fun limit some =>
      ⟨pairwise_recentBlocks rooted limit, getLast?_recentBlocks rooted some⟩

/-- A worker takes the chain. -/
def taken : Ledger := (empty.perform (.acquire ⟨1⟩ "worker" 10)).2

def sampleLease : Lease := ⟨⟨1⟩, 1, "worker"⟩

/-- It starts at a block. -/
def firstBlock : Ledger :=
  (taken.perform (.commit (.ofBase sampleLease ⟨⟨1⟩, 5, "0xa5", "0xa4", 0⟩))).2

/-- It goes one block on. -/
def twoBlocks : Ledger :=
  (firstBlock.perform (.commit (.ofBlock sampleLease ⟨⟨1⟩, 6, "0xa6", "0xa5", 0⟩))).2

/-- The second block is taken back. -/
def oneBlock : Ledger :=
  (twoBlocks.perform (.commit (.ofRevert sampleLease ⟨⟨1⟩, 6, 6, ⟨5, "0xa5"⟩⟩))).2

theorem watermark_newest_taken_back :
    oneBlock.watermark ⟨1⟩ = some ⟨5, "0xa5"⟩ ∧
      (oneBlock.recentBlocks ⟨1⟩ 3).getLast? = oneBlock.watermark ⟨1⟩ := by
  have takes : Traffic ⟨1⟩ empty taken := .call _ _ (by simp)
  have starts : Traffic ⟨1⟩ taken firstBlock := by
    apply Traffic.call
    rintro _ ⟨⟩ -
    rfl
  have goesOn : Traffic ⟨1⟩ firstBlock twoBlocks := by
    apply Traffic.call
    rintro _ ⟨⟩ -
    rfl
  have back : Traffic ⟨1⟩ twoBlocks oneBlock := by
    apply Traffic.call
    rintro _ ⟨⟩ -
    exact ⟨_, rfl, rfl⟩
  have run : Relation.ReflTransGen (Traffic ⟨1⟩) empty oneBlock :=
    (((Relation.ReflTransGen.single takes).tail starts).tail goesOn).tail back
  exact ⟨by decide +kernel, ((watermark_newest run).2 3 (by decide)).2⟩

end Ledger

end Paywatch
