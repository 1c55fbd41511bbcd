import Mathlib.Data.List.Chain
import Mathlib.Data.List.Nodup
import Paywatch.Head.Window
import Paywatch.Proofs.Basic

/-!
# Windows without gaps

The heights in a window go up one by one.  Every way in which the program fills a
window keeps it so, and then a block is found at its height, and giving up what lies
above a block ends there.
-/

namespace Paywatch

/-- The second block lies one above the first. -/
def BlockRef.Below (r s : BlockRef) : Prop := s.height.toNat = r.height.toNat + 1

namespace BlockWindow

variable {w : BlockWindow} {r s tip : BlockRef}

/-- Each block lies one above the block before it. -/
def Consecutive (w : BlockWindow) : Prop := w.blocks.IsChain BlockRef.Below

/-- In a run of consecutive blocks a block lies as far up as it comes later. -/
theorem height_of_getElem? {first : BlockRef} {rest : List BlockRef} {k : Nat}
    (chain : (first :: rest).IsChain BlockRef.Below)
    (at? : (first :: rest)[k]? = some r) :
    r.height.toNat = first.height.toNat + k := by
  induction rest generalizing first k with
  | nil =>
      cases k with
      | zero => cases at?; rfl
      | succ k => simp at at?
  | cons second rest ih =>
      cases k with
      | zero => cases at?; rfl
      | succ k =>
          rw [List.isChain_cons_cons] at chain
          have later := ih chain.2 at?
          have next : second.height.toNat = first.height.toNat + 1 := chain.1
          omega

/-- What comes later lies higher. -/
theorem Consecutive.ascending (consecutive : w.Consecutive) :
    w.blocks.Pairwise fun r s => r.height.toNat < s.height.toNat := by
  have higher : w.blocks.IsChain fun r s => r.height.toNat < s.height.toNat :=
    List.IsChain.imp (fun r s below => by rw [BlockRef.Below] at below; omega) consecutive
  let _ : Trans (fun r s : BlockRef => r.height.toNat < s.height.toNat)
      (fun r s : BlockRef => r.height.toNat < s.height.toNat)
      (fun r s : BlockRef => r.height.toNat < s.height.toNat) := ⟨Nat.lt_trans⟩
  exact higher.pairwise

/-- No block lies above the tip. -/
theorem Consecutive.le_tip (consecutive : w.Consecutive) (isTip : w.tip? = some tip)
    (member : r ∈ w.blocks) : r = tip ∨ r.height.toNat < tip.height.toNat := by
  obtain ⟨rest, split⟩ := List.getLast?_eq_some_iff.1 isTip
  have ascending := consecutive.ascending
  rw [split] at ascending member
  rcases List.mem_append.1 member with lower | last
  · exact Or.inr
      ((List.pairwise_append.1 ascending).2.2 r lower tip (List.mem_singleton.2 rfl))
  · exact Or.inl (List.mem_singleton.1 last)

/-- At one height stands one block. -/
theorem Consecutive.eq_of_height (consecutive : w.Consecutive) (first : r ∈ w.blocks)
    (second : s ∈ w.blocks) (same : r.height = s.height) : r = s := by
  have distinct : (w.blocks.map (·.height)).Nodup := by
    refine List.pairwise_map.2 (consecutive.ascending.imp fun lower same => ?_)
    rw [same] at lower
    exact Nat.lt_irrefl _ lower
  exact List.inj_on_of_nodup_map distinct first second same

/-- The hash that is found at a height belongs to a block of the window. -/
theorem mem_of_hashAt? {height : Height} {hash : String} (consecutive : w.Consecutive)
    (found : w.hashAt? height = some hash) : ⟨height, hash⟩ ∈ w.blocks := by
  unfold hashAt? lowest? at found
  cases blocks : w.blocks with
  | nil => simp [blocks] at found
  | cons first rest =>
      simp only [blocks, List.head?_cons, Option.map_some] at found
      split at found
      · rename_i above
        obtain ⟨r, at?, rfl⟩ := Option.map_eq_some_iff.1 found
        have place :
            r.height.toNat = first.height.toNat + (height - first.height).toNat := by
          rw [Consecutive, blocks] at consecutive
          exact height_of_getElem? consecutive at?
        rw [UInt64.toNat_sub_of_le _ _ above] at place
        have low := UInt64.le_iff_toNat_le.1 above
        have sameHeight : r.height = height := UInt64.toNat_inj.1 (by omega)
        rw [← sameHeight]
        exact List.mem_of_getElem? at?
      · cases found

/-! ## Filling a window -/

theorem consecutive_ofCapacity (n : Nat) : (ofCapacity n).Consecutive := List.IsChain.nil

@[simp] theorem tip?_push (w : BlockWindow) (r : BlockRef) :
    (w.push r).tip? = some r := by
  simp [push, tip?]

/-- In front of a new block stays a run that ended at the tip, if the
block goes on from there. -/
theorem push_eq (w : BlockWindow) (r : BlockRef) : ∃ kept, kept <:+ w.blocks ∧
    (w.push r).blocks = kept ++ [r] ∧ (kept ≠ [] → w.continues r.height = true) := by
  unfold push
  by_cases continues : w.continues r.height = true
  · simp only [continues, if_true]
    split
    · exact ⟨_, List.tail_suffix _, rfl, fun _ => trivial⟩
    · exact ⟨_, List.suffix_refl _, rfl, fun _ => trivial⟩
  · have dropped : (if w.continues r.height = true then w.blocks else []) = [] := by
      rw [if_neg continues]
    simp only [dropped, List.tail_nil, ite_self]
    exact ⟨[], List.nil_suffix, rfl, fun more => absurd rfl more⟩

theorem blocks_push_empty (empty : w.blocks = []) : (w.push r).blocks = [r] := by
  obtain ⟨kept, isSuffix, blocks, -⟩ := push_eq w r
  rw [empty] at isSuffix
  rw [blocks, List.suffix_nil.1 isSuffix]
  rfl

theorem mem_push (member : s ∈ (w.push r).blocks) : s ∈ w.blocks ∨ s = r := by
  obtain ⟨kept, isSuffix, blocks, -⟩ := push_eq w r
  rw [blocks] at member
  rcases List.mem_append.1 member with old | new
  · exact Or.inl (isSuffix.subset old)
  · exact Or.inr (List.mem_singleton.1 new)

/-- A block above the tip goes on without a gap, or starts anew. -/
theorem Consecutive.push (consecutive : w.Consecutive)
    (above : ∀ tip, w.tip? = some tip → tip.height.toNat < r.height.toNat) :
    (w.push r).Consecutive := by
  obtain ⟨kept, isSuffix, blocks, goesOn⟩ := push_eq w r
  rw [Consecutive, blocks]
  refine List.isChain_append.2 ⟨consecutive.suffix isSuffix, List.IsChain.singleton r, ?_⟩
  rintro last isLast _ ⟨⟩
  have isTip : w.tip? = some last := by
    obtain ⟨front, split⟩ := isSuffix
    rw [tip?, ← split, List.getLast?_append, Option.mem_def.1 isLast]
    rfl
  have some : kept ≠ [] := by
    rintro rfl
    cases isLast
  have continues := goesOn some
  simp only [BlockWindow.continues, isTip, Option.all_some, beq_iff_eq] at continues
  have higher := above last isTip
  have bound := r.height.toNat_lt
  have next := congrArg UInt64.toNat continues
  rw [UInt64.toNat_add, UInt64.toNat_one] at next
  rw [BlockRef.Below]
  omega

/-! ## Giving up blocks -/

theorem Consecutive.truncateAbove_eq {below above : List BlockRef}
    (consecutive : w.Consecutive) (split : w.blocks = below ++ r :: above) :
    (w.truncateAbove r.height).blocks = below ++ [r] := by
  have higher : ∀ s ∈ above.reverse, decide (r.height < s.height) = true := by
    intro s member
    have ascending := consecutive.ascending
    rw [split] at ascending
    have later := (List.pairwise_cons.1 (List.pairwise_append.1 ascending).2.1).1 s
      (List.mem_reverse.1 member)
    exact decide_eq_true (UInt64.lt_iff_toNat_lt.2 later)
  have reversed : w.blocks.reverse = above.reverse ++ r :: below.reverse := by
    rw [split, List.reverse_append, List.reverse_cons, List.append_assoc]
    rfl
  unfold truncateAbove
  simp only
  rw [reversed, List.dropWhile_append_of_pos higher, List.dropWhile_cons_of_neg (by simp)]
  simp

/-- Giving up what lies above a block makes it the tip. -/
theorem Consecutive.tip?_truncateAbove (consecutive : w.Consecutive)
    (member : r ∈ w.blocks) : (w.truncateAbove r.height).tip? = some r := by
  obtain ⟨below, above, split⟩ := List.append_of_mem member
  rw [tip?, consecutive.truncateAbove_eq split]
  simp

theorem Consecutive.truncateAbove (consecutive : w.Consecutive) (member : r ∈ w.blocks) :
    (w.truncateAbove r.height).Consecutive := by
  obtain ⟨below, above, split⟩ := List.append_of_mem member
  have isPrefix : below ++ [r] <+: w.blocks := ⟨above, by simp [split]⟩
  rw [Consecutive, consecutive.truncateAbove_eq split]
  exact List.IsChain.prefix consecutive isPrefix

/-- Nothing that stays lies above the height. -/
theorem height_le_of_truncateAbove {height : Height} {tip : BlockRef}
    (isTip : (w.truncateAbove height).tip? = some tip) :
    tip.height.toNat ≤ height.toNat := by
  unfold tip? truncateAbove at isTip
  rw [List.getLast?_reverse] at isTip
  have passes := List.head?_dropWhile_not (fun r : BlockRef => decide (height < r.height))
    w.blocks.reverse
  rw [isTip] at passes
  simpa [UInt64.le_iff_toNat_le] using passes

theorem mem_truncateAbove {height : Height}
    (member : s ∈ (w.truncateAbove height).blocks) :
    s ∈ w.blocks := by
  unfold BlockWindow.truncateAbove at member
  rw [List.mem_reverse] at member
  exact List.mem_reverse.1 ((List.dropWhile_sublist _).subset member)

/-! ## Starting from stored blocks -/

theorem mem_of_dropRepeated {refs : List BlockRef} (member : s ∈ dropRepeated refs) :
    s ∈ refs := by
  induction refs with
  | nil => exact member
  | cons r rest ih =>
      rw [dropRepeated] at member
      cases kept : dropRepeated rest with
      | nil =>
          rw [kept] at member
          exact List.mem_cons.2 (Or.inl (List.mem_singleton.1 member))
      | cons first more =>
          rw [kept] at member ih
          have later : s = r ∨ s ∈ first :: more := by
            simp only at member
            split at member
            · exact (List.mem_cons.1 member).imp_right (List.mem_cons_of_mem _)
            · exact List.mem_cons.1 member
          exact List.mem_cons.2 (later.imp_right ih)

theorem pairwise_dropRepeated {refs : List BlockRef}
    (sorted : refs.Pairwise fun r s => r.height.toNat ≤ s.height.toNat) :
    (dropRepeated refs).Pairwise fun r s => r.height.toNat < s.height.toNat := by
  induction refs with
  | nil => exact List.Pairwise.nil
  | cons r rest ih =>
      rw [List.pairwise_cons] at sorted
      have ascending := ih sorted.2
      rw [dropRepeated]
      cases kept : dropRepeated rest with
      | nil => exact List.pairwise_singleton _ r
      | cons s more =>
          rw [kept] at ascending
          have low := sorted.1 s (mem_of_dropRepeated (kept ▸ List.mem_cons_self))
          have higher := (List.pairwise_cons.1 ascending).1
          simp only
          split
          · rename_i same
            exact List.pairwise_cons.2
              ⟨fun q member => same ▸ higher q member, (List.pairwise_cons.1 ascending).2⟩
          · rename_i other
            have below : r.height.toNat < s.height.toNat :=
              Nat.lt_of_le_of_ne low fun same => other (UInt64.toNat_inj.1 same)
            refine List.pairwise_cons.2 ⟨?_, ascending⟩
            rintro q member
            rcases List.mem_cons.1 member with rfl | later
            · exact below
            · exact Nat.lt_trans below (higher q later)

theorem Consecutive.foldl_push {refs : List BlockRef} (consecutive : w.Consecutive)
    (above : ∀ tip, w.tip? = some tip → ∀ r ∈ refs, tip.height.toNat < r.height.toNat)
    (ascending : refs.Pairwise fun r s => r.height.toNat < s.height.toNat) :
    (refs.foldl BlockWindow.push w).Consecutive := by
  induction refs generalizing w with
  | nil => exact consecutive
  | cons r rest ih =>
      rw [List.pairwise_cons] at ascending
      refine ih (consecutive.push fun tip isTip => above tip isTip r List.mem_cons_self)
        ?_ ascending.2
      intro tip isTip
      rw [tip?_push] at isTip
      cases isTip
      exact ascending.1

/-- Sorted blocks of which none is repeated go up. -/
theorem ascending_sorted (refs : List BlockRef) :
    (dropRepeated (sortBy (fun r s => r.height < s.height) refs)).Pairwise
      fun r s => r.height.toNat < s.height.toNat := by
  refine pairwise_dropRepeated ((pairwise_sortBy ?_ ?_).imp ?_)
  · intro r s before
    have below := UInt64.lt_iff_toNat_lt.1 (of_decide_eq_true before)
    exact decide_eq_false fun above => Nat.lt_asymm below (UInt64.lt_iff_toNat_lt.1 above)
  · intro r s q first second
    rw [decide_eq_false_iff_not, UInt64.lt_iff_toNat_lt] at first second ⊢
    omega
  · intro r s ordered
    rw [decide_eq_false_iff_not, UInt64.lt_iff_toNat_lt] at ordered
    omega

/-- However the stored blocks were ordered, the window has no gap. -/
theorem consecutive_seed (w : BlockWindow) (refs : List BlockRef) :
    (w.seed refs).Consecutive :=
  Consecutive.foldl_push List.IsChain.nil (by simp [tip?]) (ascending_sorted refs)

theorem mem_of_foldl_push {refs : List BlockRef}
    (member : s ∈ (refs.foldl push w).blocks) :
    s ∈ w.blocks ∨ s ∈ refs := by
  induction refs generalizing w with
  | nil => exact Or.inl member
  | cons r rest ih =>
      rcases ih member with pushed | later
      · exact (mem_push pushed).imp_right fun same => List.mem_cons.2 (Or.inl same)
      · exact Or.inr (List.mem_cons_of_mem _ later)

/-- Every block of the window is one of those it was started from. -/
theorem mem_of_seed {refs : List BlockRef} (member : s ∈ (w.seed refs).blocks) :
    s ∈ refs := by
  rcases mem_of_foldl_push member with none | among
  · cases none
  · exact mem_sortBy.1 (mem_of_dropRepeated among)

@[simp] theorem tip?_seed_singleton (w : BlockWindow) (r : BlockRef) :
    (w.seed [r]).tip? = some r := by
  simp [seed, sortBy, insertBy, dropRepeated]

end BlockWindow

end Paywatch
