import Paywatch.Proofs.Head.Window

/-!
# What a window contains

A window is started from stored blocks, filled and cut back in any order.  Its contents
follow from these changes alone:  consecutive blocks, each the last one that was brought
to its height, as many as there is room for.  What stored blocks make of it is said
without sorting them, by going down from the highest one.
-/

namespace Paywatch

/-- A change of a window. -/
inductive WindowChange where
  | seed (refs : List BlockRef)
  | push (r : BlockRef)
  | truncateAbove (height : Height)

namespace WindowChange

/-- The blocks that the change brings. -/
def brought : WindowChange → List BlockRef
  | seed refs => refs
  | push r => [r]
  | truncateAbove _ => []

/-- All blocks that the change brings lie below the highest height of all. -/
def Fits (c : WindowChange) : Prop := ∀ r ∈ c.brought, r.height.toNat < UInt64.size - 1

/-- The block that the change brings to a height, the first one if it brings several. -/
def at? (height : Height) (c : WindowChange) : Option BlockRef :=
  c.brought.find? (·.height == height)

/-- The block that was brought to a height last. -/
def newest? (changes : List WindowChange) (height : Height) : Option BlockRef :=
  changes.reverse.findSome? (at? height)

instance (c : WindowChange) : Decidable c.Fits :=
  inferInstanceAs (Decidable (∀ r ∈ c.brought, r.height.toNat < UInt64.size - 1))

variable {changes : List WindowChange} {c : WindowChange} {height : Height} {r : BlockRef}

theorem at?_eq (height : Height) (c : WindowChange) :
    c.at? height = c.brought.find? (·.height.toNat == height.toNat) := by
  unfold at?
  congr 1
  funext r
  rw [Bool.eq_iff_iff, beq_iff_eq, beq_iff_eq, UInt64.toNat_inj]

theorem newest?_append (changes : List WindowChange) (c : WindowChange)
    (height : Height) :
    newest? (changes ++ [c]) height = (c.at? height).or (newest? changes height) := by
  cases here : c.at? height <;> simp [newest?, here]

/-- What was brought last was brought by one of the changes. -/
theorem exists_of_newest? (newest : newest? changes height = some r) :
    ∃ c ∈ changes, r ∈ c.brought := by
  obtain ⟨c, member, here⟩ := List.exists_of_findSome?_eq_some newest
  exact ⟨c, List.mem_reverse.1 member, List.mem_of_find?_eq_some here⟩

end WindowChange

namespace BlockRef

/-- The blocks from this height down to the first height at which none is listed, lowest
first.  At each height it is the block that is listed first. -/
def runBelow (refs : List BlockRef) : Nat → List BlockRef
  | 0 => (refs.find? (·.height.toNat == 0)).toList
  | height + 1 =>
    match refs.find? (·.height.toNat == height + 1) with
    | some r => runBelow refs height ++ [r]
    | none => []

/-- The highest run of consecutive heights. -/
def highestRun (refs : List BlockRef) : List BlockRef :=
  match (refs.map (·.height.toNat)).max? with
  | some top => runBelow refs top
  | none => []

variable {refs run : List BlockRef} {r : BlockRef}

theorem runBelow_of_none {height : Nat} (none : ∀ r ∈ refs, r.height.toNat ≠ height) :
    runBelow refs height = [] := by
  have absent : refs.find? (·.height.toNat == height) = .none := by simpa using none
  cases height with
  | zero => simp [runBelow, absent]
  | succ height => simp [runBelow, absent]

/-- A run that goes down as far as blocks are listed is the run below its last block. -/
theorem runBelow_eq (consecutive : (run ++ [r]).IsChain Below)
    (listed : ∀ s ∈ run ++ [r], refs.find? (·.height.toNat == s.height.toNat) = some s)
    (ends : ∀ first, (run ++ [r]).head? = some first → ∀ s ∈ refs,
      s.height.toNat + 1 ≠ first.height.toNat) :
    runBelow refs r.height.toNat = run ++ [r] := by
  induction run using List.reverseRecOn generalizing r with
  | nil =>
      have here := listed r (by simp)
      cases height : r.height.toNat with
      | zero =>
          rw [height] at here
          simp [runBelow, here]
      | succ below =>
          have nothing : runBelow refs below = [] :=
            runBelow_of_none fun s member same => ends r rfl s member (by omega)
          rw [height] at here
          simp [runBelow, here, nothing]
  | append_singleton front q ih =>
      have here := listed r (by simp)
      have next : r.height.toNat = q.height.toNat + 1 := by
        have apart := (List.isChain_append.1 consecutive).2.2
        exact apart q (by simp) r (by simp)
      have lower : runBelow refs q.height.toNat = front ++ [q] := by
        apply ih
        · exact (List.isChain_append.1 consecutive).1
        · exact fun s member => listed s (List.mem_append_left _ member)
        · intro first isFirst
          apply ends first
          rw [List.head?_append, isFirst]
          rfl
      rw [next] at here ⊢
      simp [runBelow, here, lower]

/-- A run below a height is made of the blocks that are listed first. -/
theorem find?_of_mem_runBelow {height : Nat} (member : r ∈ runBelow refs height) :
    refs.find? (·.height.toNat == r.height.toNat) = some r := by
  have first : ∀ {height : Nat}, refs.find? (·.height.toNat == height) = some r →
      refs.find? (·.height.toNat == r.height.toNat) = some r := by
    intro height found
    have here : r.height.toNat = height := by simpa using List.find?_some found
    rwa [here]
  induction height with
  | zero => exact first (Option.mem_toList.1 member)
  | succ height ih =>
      rw [runBelow] at member
      split at member
      · rename_i s found
        rcases List.mem_append.1 member with lower | top
        · exact ih lower
        · exact first (List.mem_singleton.1 top ▸ found)
      · cases member

theorem find?_of_mem_highestRun (member : r ∈ highestRun refs) :
    refs.find? (·.height.toNat == r.height.toNat) = some r := by
  unfold highestRun at member
  split at member
  · exact find?_of_mem_runBelow member
  · cases member

/-- A run below the highest block, of blocks that are listed first, is the highest run
if it goes down as far as blocks are listed. -/
theorem highestRun_eq (consecutive : (run ++ [r]).IsChain Below)
    (listed : ∀ s ∈ run ++ [r], refs.find? (·.height.toNat == s.height.toNat) = some s)
    (ends : ∀ first, (run ++ [r]).head? = some first →
      ∀ s ∈ refs, s.height.toNat + 1 ≠ first.height.toNat)
    (highest : ∀ s ∈ refs, s.height.toNat ≤ r.height.toNat) :
    highestRun refs = run ++ [r] := by
  have top : (refs.map (·.height.toNat)).max? = some r.height.toNat := by
    apply List.max?_eq_some_iff.2
    constructor
    · exact List.mem_map_of_mem (List.mem_of_find?_eq_some (listed r (by simp)))
    · simpa using highest
  rw [highestRun, top]
  exact runBelow_eq consecutive listed ends

end BlockRef

namespace BlockWindow

variable {w : BlockWindow} {r : BlockRef} {refs : List BlockRef}

/-- The window after a change. -/
def changed (w : BlockWindow) : WindowChange → BlockWindow
  | .seed refs => w.seed refs
  | .push r => w.push r
  | .truncateAbove height => w.truncateAbove height

/-- The window has blocks, and the height is not the next one above them. -/
def LeavesGap (w : BlockWindow) (height : Height) : Prop :=
  ∃ tip, w.tip? = some tip ∧ height.toNat ≠ tip.height.toNat + 1

/-! ## Adding one block -/

@[simp] theorem capacity_push (w : BlockWindow) (r : BlockRef) :
    (w.push r).capacity = w.capacity := rfl

theorem push_of_not_continues (parts : w.continues r.height = false) :
    (w.push r).blocks = [r] := by
  simp [push, parts]

theorem push_of_continues (goesOn : w.continues r.height = true) :
    (w.push r).blocks =
      (if w.blocks.length = w.capacity then w.blocks.tail else w.blocks) ++ [r] := by
  simp [push, goesOn]

/-- Below the highest height a block goes on from the tip, or leaves a gap. -/
theorem continues_iff {height : Height}
    (fits : ∀ tip, w.tip? = some tip → tip.height.toNat < UInt64.size - 1) :
    w.continues height = true ↔ ¬ w.LeavesGap height := by
  unfold continues LeavesGap
  cases isTip : w.tip? with
  | none => simp
  | some tip =>
      have room := fits tip isTip
      have next : (tip.height + 1).toNat = tip.height.toNat + 1 := by
        rw [UInt64.size] at room
        rw [UInt64.toNat_add, UInt64.toNat_one]
        omega
      simp [← UInt64.toNat_inj, next]

theorem length_push (bounded : w.blocks.length ≤ w.capacity) :
    (w.push r).blocks.length ≤ w.capacity := by
  have room := w.capacity_pos
  cases goesOn : w.continues r.height with
  | false =>
      rw [push_of_not_continues goesOn]
      exact room
  | true =>
      rw [push_of_continues goesOn]
      split <;> simp <;> omega

/-- A window stays without gaps whatever block is added below the highest height. -/
theorem Consecutive.push_of_fits (consecutive : w.Consecutive)
    (fits : ∀ tip, w.tip? = some tip → tip.height.toNat < UInt64.size - 1) :
    (w.push r).Consecutive := by
  cases goesOn : w.continues r.height with
  | false =>
      rw [Consecutive, push_of_not_continues goesOn]
      exact List.IsChain.singleton r
  | true =>
      apply consecutive.push
      intro tip isTip
      have noGap := (continues_iff fits).1 goesOn
      by_contra below
      exact noGap ⟨tip, isTip, by omega⟩

/-! ## Looking up and cutting back -/

/-- A block stands as far up in the window as its height. -/
theorem Consecutive.getElem?_of_mem {first : BlockRef} {rest : List BlockRef}
    (consecutive : w.Consecutive) (blocks : w.blocks = first :: rest)
    (member : r ∈ w.blocks) :
    first.height.toNat ≤ r.height.toNat ∧
      w.blocks[r.height.toNat - first.height.toNat]? = some r := by
  obtain ⟨k, found⟩ := List.mem_iff_getElem?.1 member
  have place : r.height.toNat = first.height.toNat + k := by
    rw [Consecutive, blocks] at consecutive
    rw [blocks] at found
    exact height_of_getElem? consecutive found
  refine ⟨by omega, ?_⟩
  rw [place, Nat.add_sub_cancel_left, found]

/-- Looking at the place of a height is looking for the block at that height. -/
theorem Consecutive.hashAt?_eq (consecutive : w.Consecutive) (height : Height) :
    w.hashAt? height = (w.blocks.find? (·.height == height)).map (·.hash) := by
  cases found : w.blocks.find? (·.height == height) with
  | none =>
      apply Option.eq_none_iff_forall_ne_some.2
      intro hash known
      have member := mem_of_hashAt? consecutive known
      simpa using List.find?_eq_none.1 found _ member
  | some r =>
      have member := List.mem_of_find?_eq_some found
      have here : r.height = height := by simpa using List.find?_some found
      subst here
      cases blocks : w.blocks with
      | nil => simp [blocks] at member
      | cons first rest =>
          obtain ⟨above, there⟩ := consecutive.getElem?_of_mem blocks member
          have low : first.height ≤ r.height := UInt64.le_iff_toNat_le.2 above
          rw [blocks] at there
          simp [hashAt?, lowest?, blocks, low, UInt64.toNat_sub_of_le, there]

/-- Cutting back from the newest block on drops exactly what lies above the height. -/
theorem Consecutive.truncateAbove_eq_filter (consecutive : w.Consecutive)
    (height : Height) :
    (w.truncateAbove height).blocks = w.blocks.filter fun r => r.height ≤ height := by
  have ascending := consecutive.ascending
  show w.blocks.rdropWhile (fun r => height < r.height) = _
  generalize w.blocks = blocks at ascending ⊢
  induction blocks using List.reverseRecOn with
  | nil => rfl
  | append_singleton front r ih =>
      rw [List.pairwise_append] at ascending
      by_cases above : height < r.height
      · rw [List.rdropWhile_concat_pos _ _ _ (by simpa using above), ih ascending.1]
        simp [UInt64.not_le.2 above]
      · have below : ∀ s ∈ front, s.height ≤ height := by
          intro s member
          have lower := ascending.2.2 s member r (by simp)
          rw [UInt64.lt_iff_toNat_lt] at above
          rw [UInt64.le_iff_toNat_le]
          omega
        have kept : front.filter (fun s => s.height ≤ height) = front := by
          simpa using below
        rw [List.rdropWhile_concat_neg _ _ _ (by simpa using above),
          List.filter_append, kept]
        simp [UInt64.not_lt.1 above]

/-! ## Starting from stored blocks -/

/-- Sorting keeps the block that is listed first at its height in front. -/
theorem find?_sortBy (refs : List BlockRef) (height : Nat) :
    (sortBy (fun r s => r.height < s.height) refs).find? (·.height.toNat == height) =
      refs.find? (·.height.toNat == height) := by
  have inserts : ∀ (r : BlockRef) (sorted : List BlockRef),
      (insertBy (fun r s => r.height < s.height) r sorted).find?
        (·.height.toNat == height) = (r :: sorted).find? (·.height.toNat == height) := by
    intro r sorted
    induction sorted with
    | nil => rfl
    | cons s rest ih =>
        rw [insertBy]
        split
        · rename_i below
          have lower : s.height.toNat < r.height.toNat := by
            simpa [UInt64.lt_iff_toNat_lt] using below
          rw [List.find?_cons, ih]
          by_cases here : s.height.toNat = height
          · have higher : r.height.toNat ≠ height := by omega
            simp [here, higher]
          · simp [List.find?_cons, beq_eq_false_iff_ne.2 here]
        · rfl
  induction refs with
  | nil => rfl
  | cons r rest ih =>
      rw [sortBy, List.foldr_cons, inserts, List.find?_cons, List.find?_cons, ← ih]
      rfl

/-- Of neighbours at the same height the first is kept. -/
theorem find?_dropRepeated (refs : List BlockRef) (height : Nat) :
    (dropRepeated refs).find? (·.height.toNat == height) =
      refs.find? (·.height.toNat == height) := by
  induction refs with
  | nil => rfl
  | cons r rest ih =>
      rw [dropRepeated, List.find?_cons, ← ih]
      cases dropRepeated rest with
      | nil => simp [List.find?_cons]
      | cons s more =>
          by_cases same : r.height = s.height <;>
            cases here : (s.height.toNat == height) <;> simp [List.find?_cons, same, here]

end BlockWindow

namespace BlockRef

/-- Blocks of ascending heights, the last of which are a run.  The others
lie below a gap. -/
structure EndsIn (sorted run : List BlockRef) : Prop where
  consecutive : run.IsChain Below
  nonempty : run = [] → sorted = []
  split : ∃ front, sorted = front ++ run ∧
    ∀ s ∈ front, ∀ first, run.head? = some first → s.height.toNat + 1 < first.height.toNat

variable {sorted refs lower run : List BlockRef} {q r : BlockRef}

theorem endsIn_single (r : BlockRef) : EndsIn [r] [r] :=
  ⟨List.IsChain.singleton r, by simp, [], rfl, by simp⟩

/-- The next block goes on from the run. -/
theorem EndsIn.goOn (ends : EndsIn sorted (lower ++ [q]))
    (next : r.height.toNat = q.height.toNat + 1) :
    EndsIn (sorted ++ [r]) (lower ++ [q] ++ [r]) := by
  obtain ⟨front, split, apart⟩ := ends.split
  refine ⟨?_, by simp, front, by simp [split], ?_⟩
  · apply List.isChain_append.2
    exact ⟨ends.consecutive, List.IsChain.singleton r, by simpa [Below] using next⟩
  · intro s member first isFirst
    rw [List.head?_append_of_ne_nil _ (by simp)] at isFirst
    exact apart s member first isFirst

/-- A higher block that is not the next one is a run of its own. -/
theorem EndsIn.part (ends : EndsIn sorted (lower ++ [q]))
    (ascending : (sorted ++ [r]).Pairwise fun r s => r.height.toNat < s.height.toNat)
    (gap : r.height.toNat ≠ q.height.toNat + 1) : EndsIn (sorted ++ [r]) [r] := by
  obtain ⟨front, split, -⟩ := ends.split
  refine ⟨List.IsChain.singleton r, by simp, sorted, rfl, ?_⟩
  intro s member first isFirst
  cases isFirst
  rw [split, List.pairwise_append, ← List.append_assoc, List.pairwise_append] at ascending
  have below := ascending.2.2 q (by simp) r (by simp)
  rw [split, ← List.append_assoc] at member
  rcases List.mem_append.1 member with earlier | last
  · have lower := ascending.1.2.2 s earlier q (by simp)
    omega
  · cases List.mem_singleton.1 last
    omega

/-- In ascending blocks each is the one that is found at its height. -/
theorem find?_of_ascending
    (ascending : sorted.Pairwise fun r s => r.height.toNat < s.height.toNat)
    (member : r ∈ sorted) : sorted.find? (·.height.toNat == r.height.toNat) = some r := by
  cases found : sorted.find? (·.height.toNat == r.height.toNat) with
  | some s =>
      have same : s.height.toNat = r.height.toNat := by simpa using List.find?_some found
      have distinct : (sorted.map (·.height.toNat)).Nodup :=
        List.pairwise_map.2 (ascending.imp Nat.ne_of_lt)
      rw [List.inj_on_of_nodup_map distinct (List.mem_of_find?_eq_some found) member same]
  | none =>
      rw [List.find?_eq_none] at found
      simpa using found r member

/-- A run at the end of sorted blocks is the highest one of those that
they were sorted from. -/
theorem EndsIn.eq_highestRun (ends : EndsIn sorted run)
    (ascending : sorted.Pairwise fun r s => r.height.toNat < s.height.toNat)
    (listed : ∀ height, sorted.find? (·.height.toNat == height) =
      refs.find? (·.height.toNat == height)) :
    run = highestRun refs := by
  obtain ⟨front, rfl, apart⟩ := ends.split
  have kept :
      ∀ s ∈ front ++ run, refs.find? (·.height.toNat == s.height.toNat) = some s := by
    intro s member
    rw [← listed, find?_of_ascending ascending member]
  -- Every height that is listed is one of the sorted blocks.
  have heights : ∀ s ∈ refs, ∃ t ∈ front ++ run, t.height.toNat = s.height.toNat := by
    intro s member
    cases found : (front ++ run).find? (·.height.toNat == s.height.toNat) with
    | some t =>
        exact ⟨t, List.mem_of_find?_eq_some found, by simpa using List.find?_some found⟩
    | none =>
        rw [listed, List.find?_eq_none] at found
        simpa using found s member
  rcases List.eq_nil_or_concat' run with rfl | ⟨lower, top, rfl⟩
  · have none : refs = [] := by
      apply List.eq_nil_iff_forall_not_mem.2
      intro s member
      obtain ⟨t, among, -⟩ := heights s member
      simp [ends.nonempty rfl] at among
    simp [highestRun, none]
  · symm
    apply highestRun_eq ends.consecutive
    · exact fun s member => kept s (List.mem_append_right _ member)
    · intro first isFirst s member below
      obtain ⟨t, among, same⟩ := heights s member
      rcases List.mem_append.1 among with earlier | inside
      · have gap := apart t earlier first isFirst
        omega
      · obtain ⟨rest, isFirst⟩ := List.head?_eq_some_iff.1 isFirst
        rw [isFirst] at inside ascending
        rcases List.mem_cons.1 inside with rfl | higher
        · omega
        · have above :=
            (List.pairwise_cons.1 (List.pairwise_append.1 ascending).2.1).1 t higher
          omega
    · intro s member
      obtain ⟨t, among, same⟩ := heights s member
      rw [← List.append_assoc] at among ascending
      rcases List.mem_append.1 among with earlier | last
      · have below := (List.pairwise_append.1 ascending).2.2 t earlier top (by simp)
        omega
      · cases List.mem_singleton.1 last
        omega

end BlockRef

namespace BlockWindow

variable {w : BlockWindow} {r : BlockRef}

/-- Blocks of ascending heights that are added one after the other leave the last run
among them, as far as there is room. -/
theorem foldl_push_ascending {sorted : List BlockRef} (empty : w.blocks = [])
    (ascending : sorted.Pairwise fun r s => r.height.toNat < s.height.toNat) :
    ∃ run, BlockRef.EndsIn sorted run ∧
      (sorted.foldl push w).blocks = run.rtake w.capacity ∧
      (sorted.foldl push w).capacity = w.capacity := by
  induction sorted using List.reverseRecOn with
  | nil =>
      exact ⟨[], ⟨List.IsChain.nil, fun _ => rfl, [], rfl, by simp⟩, by simp [empty], rfl⟩
  | append_singleton sorted r ih =>
      obtain ⟨run, ends, blocks, capacity⟩ := ih (List.pairwise_append.1 ascending).1
      rw [List.foldl_append, List.foldl_cons, List.foldl_nil]
      generalize sorted.foldl push w = v at blocks capacity
      have room := w.capacity_pos
      have alone : [r].rtake w.capacity = [r] := by
        rw [← List.nil_append [r], rtake_concat room]
        simp
      rcases List.eq_nil_or_concat' run with rfl | ⟨lower, q, rfl⟩
      · rw [ends.nonempty rfl, List.nil_append]
        rw [List.rtake_nil] at blocks
        exact ⟨[r], BlockRef.endsIn_single r,
          by rw [blocks_push_empty blocks, alone], capacity⟩
      · have isTip : v.tip? = some q := by
          rw [tip?, blocks, rtake_concat room, List.getLast?_concat]
        have below : q.height.toNat < r.height.toNat := by
          obtain ⟨front, split, -⟩ := ends.split
          exact (List.pairwise_append.1 ascending).2.2 q (by simp [split]) r (by simp)
        have gap : v.continues r.height = true ↔ r.height.toNat = q.height.toNat + 1 := by
          rw [continues_iff, LeavesGap, isTip]
          · simp
          · intro tip same
            have bound := r.height.toNat_lt
            cases isTip.symm.trans same
            rw [UInt64.size]
            omega
        cases goesOn : v.continues r.height with
        | true =>
            refine ⟨_, ends.goOn (gap.1 goesOn), ?_, capacity⟩
            rw [push_of_continues goesOn, blocks, capacity,
              @rtake_concat _ (lower ++ [q]) r _ room]
        | false =>
            rw [Bool.eq_false_iff, Ne, gap] at goesOn
            refine ⟨[r], ends.part ascending goesOn, ?_, capacity⟩
            rw [push_of_not_continues, alone]
            rwa [Bool.eq_false_iff, Ne, gap]

/-- However the stored blocks were ordered and repeated, the highest run of them stays,
as far as there is room. -/
theorem blocks_seed (w : BlockWindow) (refs : List BlockRef) :
    (w.seed refs).blocks = (BlockRef.highestRun refs).rtake w.capacity ∧
      (w.seed refs).capacity = w.capacity := by
  have ascending := ascending_sorted refs
  obtain ⟨run, ends, blocks, capacity⟩ :=
    foldl_push_ascending (w := { w with blocks := [] }) rfl ascending
  refine ⟨?_, capacity⟩
  have highest := ends.eq_highestRun ascending fun height =>
    (find?_dropRepeated _ height).trans (find?_sortBy refs height)
  rw [← highest]
  exact blocks

/-! ## Any changes -/

/-- The window after changes, one after the other. -/
def afterAll (n : Nat) (changes : List WindowChange) : BlockWindow :=
  changes.foldl changed (ofCapacity n)

theorem afterAll_append (n : Nat) (changes : List WindowChange) (c : WindowChange) :
    afterAll n (changes ++ [c]) = (afterAll n changes).changed c := by
  simp [afterAll]

/-- What every change keeps. -/
structure Filled (w : BlockWindow) (changes : List WindowChange) : Prop where
  consecutive : w.Consecutive
  bounded : w.blocks.length ≤ w.capacity
  newest : ∀ r ∈ w.blocks, WindowChange.newest? changes r.height = some r

variable {changes : List WindowChange}

theorem Filled.fits (filled : w.Filled changes) (fits : ∀ c ∈ changes, c.Fits) :
    ∀ tip, w.tip? = some tip → tip.height.toNat < UInt64.size - 1 := by
  intro tip isTip
  have newest := filled.newest tip (List.mem_of_getLast? isTip)
  obtain ⟨c, member, brought⟩ := WindowChange.exists_of_newest? newest
  exact fits c member tip brought

theorem Filled.seed (refs : List BlockRef) :
    (w.seed refs).Filled (changes ++ [.seed refs]) := by
  obtain ⟨blocks, capacity⟩ := blocks_seed w refs
  refine ⟨consecutive_seed w refs, ?_, ?_⟩
  · rw [blocks, capacity, List.rtake, List.length_drop]
    omega
  · intro r member
    rw [blocks] at member
    have listed := BlockRef.find?_of_mem_highestRun (List.mem_of_mem_drop member)
    have here : (WindowChange.seed refs).at? r.height = some r := by
      rw [WindowChange.at?_eq]
      exact listed
    rw [WindowChange.newest?_append, here, Option.some_or]

theorem Filled.push (filled : w.Filled changes) (fits : ∀ c ∈ changes, c.Fits)
    (r : BlockRef) : (w.push r).Filled (changes ++ [.push r]) := by
  have tipFits := filled.fits fits
  have here : (WindowChange.push r).at? r.height = some r := by
    simp [WindowChange.at?, WindowChange.brought]
  have new : WindowChange.newest? (changes ++ [.push r]) r.height = some r := by
    rw [WindowChange.newest?_append, here, Option.some_or]
  refine ⟨filled.consecutive.push_of_fits tipFits, length_push filled.bounded, ?_⟩
  intro s member
  cases goesOn : w.continues r.height with
  | false =>
      rw [push_of_not_continues goesOn] at member
      cases List.mem_singleton.1 member
      exact new
  | true =>
      rcases mem_push member with old | rfl
      · -- An old block lies below the new one, which therefore does not stand for it.
        obtain ⟨tip, isTip⟩ : ∃ tip, w.tip? = some tip := by
          cases blocks : w.blocks with
          | nil => simp [blocks] at old
          | cons first rest => simp [tip?, blocks, List.getLast?_cons]
        have noGap := (continues_iff tipFits).1 goesOn
        have next : r.height.toNat = tip.height.toNat + 1 := by
          by_contra gap
          exact noGap ⟨tip, isTip, gap⟩
        have lower : s.height.toNat ≤ tip.height.toNat := by
          rcases filled.consecutive.le_tip isTip old with rfl | below <;> omega
        have elsewhere : (WindowChange.push r).at? s.height = none := by
          rw [WindowChange.at?_eq]
          simp [WindowChange.brought]
          omega
        rw [WindowChange.newest?_append, elsewhere, Option.none_or]
        exact filled.newest s old
      · exact new

theorem Filled.truncateAbove (filled : w.Filled changes) (height : Height) :
    (w.truncateAbove height).Filled (changes ++ [.truncateAbove height]) := by
  have blocks := filled.consecutive.truncateAbove_eq_filter height
  have sublist : (w.truncateAbove height).blocks.Sublist w.blocks := by
    rw [blocks]
    exact List.filter_sublist
  refine ⟨?_, Nat.le_trans sublist.length_le filled.bounded, ?_⟩
  · have isPrefix : (w.truncateAbove height).blocks <+: w.blocks :=
      List.rdropWhile_prefix _ _
    exact List.IsChain.prefix filled.consecutive isPrefix
  · intro r member
    have nothing : (WindowChange.truncateAbove height).at? r.height = none := rfl
    rw [WindowChange.newest?_append, nothing, Option.none_or]
    exact filled.newest r (sublist.subset member)

theorem Filled.changed (filled : w.Filled changes) (fits : ∀ c ∈ changes, c.Fits)
    (c : WindowChange) : (w.changed c).Filled (changes ++ [c]) := by
  cases c with
  | seed refs => exact Filled.seed refs
  | push r => exact filled.push fits r
  | truncateAbove height => exact filled.truncateAbove height

theorem capacity_changed (w : BlockWindow) (c : WindowChange) :
    (w.changed c).capacity = w.capacity := by
  cases c with
  | seed refs => exact (blocks_seed w refs).2
  | push r => rfl
  | truncateAbove height => rfl

theorem filled_afterAll (n : Nat) (fits : ∀ c ∈ changes, c.Fits) :
    (afterAll n changes).Filled changes ∧ (afterAll n changes).capacity = max n 1 := by
  induction changes using List.reverseRecOn with
  | nil =>
      exact ⟨⟨consecutive_ofCapacity n, by simp [afterAll, ofCapacity],
        by simp [afterAll, ofCapacity]⟩, rfl⟩
  | append_singleton changes c ih =>
      have fits := fun d member => fits d (List.mem_append_left _ member)
      obtain ⟨filled, capacity⟩ := ih fits
      rw [afterAll_append, capacity_changed]
      exact ⟨filled.changed fits c, capacity⟩

/-- Whatever the changes were, a window holds consecutive blocks, no more than there is
room for, each the last one that was brought to its height, and finds them at their
heights.  A further block takes the place of all others if it leaves a gap, and of the
lowest one if the window is full; cutting back drops what lies above; and stored blocks
leave the newest part of their highest run. -/
theorem contents_afterAll (n : Nat) (fits : ∀ c ∈ changes, c.Fits) :
    (afterAll n changes).Consecutive ∧ (afterAll n changes).size ≤ max n 1 ∧
      (∀ height, (afterAll n changes).hashAt? height =
        ((afterAll n changes).blocks.find? (·.height == height)).map (·.hash)) ∧
      (∀ r ∈ (afterAll n changes).blocks,
        WindowChange.newest? changes r.height = some r) ∧
      (∀ r, (afterAll n changes).LeavesGap r.height →
        ((afterAll n changes).push r).blocks = [r]) ∧
      (∀ r, ¬ (afterAll n changes).LeavesGap r.height →
        ((afterAll n changes).push r).blocks =
        (if (afterAll n changes).size = max n 1 then (afterAll n changes).blocks.tail
          else (afterAll n changes).blocks) ++ [r]) ∧
      (∀ height, ((afterAll n changes).truncateAbove height).blocks =
        (afterAll n changes).blocks.filter fun r => r.height ≤ height) ∧
      ∀ refs, ((afterAll n changes).seed refs).blocks =
        (BlockRef.highestRun refs).rtake (max n 1) := by
  obtain ⟨filled, capacity⟩ := filled_afterAll n fits
  have continues : ∀ height, (afterAll n changes).continues height = true ↔
      ¬ (afterAll n changes).LeavesGap height := fun _ => continues_iff (filled.fits fits)
  rw [← capacity]
  refine ⟨filled.consecutive, filled.bounded, filled.consecutive.hashAt?_eq,
    filled.newest, ?_, ?_, filled.consecutive.truncateAbove_eq_filter,
    fun refs => (blocks_seed _ refs).1⟩
  · intro r gap
    apply push_of_not_continues
    rw [Bool.eq_false_iff, Ne, continues, not_not]
    exact gap
  · intro r noGap
    exact push_of_continues ((continues _).2 noGap)

/-- Stored blocks with a gap and a repeated height, one more block than there
is room for, and a cut. -/
def sampleChanges : List WindowChange :=
  [.seed [⟨7, "a"⟩, ⟨9, "c"⟩, ⟨3, "y"⟩, ⟨8, "b"⟩, ⟨8, "x"⟩], .push ⟨10, "d"⟩,
    .truncateAbove 9]

theorem contents_afterAll_sample :
    (∀ c ∈ sampleChanges, c.Fits) ∧
      (afterAll 3 sampleChanges).blocks = [⟨8, "b"⟩, ⟨9, "c"⟩] ∧
      WindowChange.newest? sampleChanges 8 = some ⟨8, "b"⟩ ∧
      (afterAll 3 sampleChanges).hashAt? 9 = some "c" ∧
      ((afterAll 3 sampleChanges).push ⟨12, "f"⟩).blocks = [⟨12, "f"⟩] := by
  have fits : ∀ c ∈ sampleChanges, c.Fits := by decide
  have blocks : (afterAll 3 sampleChanges).blocks = [⟨8, "b"⟩, ⟨9, "c"⟩] := by decide
  obtain ⟨-, -, hashAt, newest, gap, -⟩ := contents_afterAll 3 fits
  refine ⟨fits, blocks, newest ⟨8, "b"⟩ (by simp [blocks]), ?_, gap _ ?_⟩
  · rw [hashAt, blocks]
    rfl
  · exact ⟨⟨9, "c"⟩, by simp [tip?, blocks], by decide⟩

end BlockWindow

end Paywatch
