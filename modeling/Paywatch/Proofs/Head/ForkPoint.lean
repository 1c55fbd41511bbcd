import Paywatch.Proofs.Head.Linked

/-!
# Finding the fork

While the nodes serve one chain of linked blocks, an advance knows where its window
leaves that chain: at the highest block that both have.  If that block is not too deep
below the tip, the tracker takes back what lies above it, once, and then takes the
blocks of the chain one by one.  Otherwise nothing happens at all.
-/

namespace Paywatch

namespace BlockWindow

variable {w : BlockWindow} {r tip : BlockRef} {height : Height}

/-- A block of a window without gaps lies as far above the lowest one as its
place is from the first. -/
theorem Consecutive.height_eq {low : Height} {place : Nat} (consecutive : w.Consecutive)
    (isLow : w.lowest? = some low) (found : w.blocks[place]? = some r) :
    r.height.toNat = low.toNat + place := by
  cases blocks : w.blocks with
  | nil => simp [blocks] at found
  | cons first rest =>
      rw [Consecutive, blocks] at consecutive
      rw [blocks] at found
      simp only [lowest?, blocks, List.head?_cons, Option.map_some,
        Option.some.injEq] at isLow
      rw [← isLow]
      exact height_of_getElem? consecutive found

/-- Above a block of the window lie as many as come after it. -/
theorem Consecutive.tip_eq {place : Nat} (consecutive : w.Consecutive)
    (isTip : w.tip? = some tip) (found : w.blocks[place]? = some r) :
    tip.height.toNat + place + 1 = r.height.toNat + w.size := by
  cases blocks : w.blocks with
  | nil => simp [blocks] at found
  | cons first rest =>
      have isLow : w.lowest? = some first.height := by simp [lowest?, blocks]
      have last : w.blocks[rest.length]? = some tip := by
        rw [← isTip, tip?, List.getLast?_eq_getElem?, blocks]
        rfl
      have here := consecutive.height_eq isLow found
      have top := consecutive.height_eq isLow last
      rw [size, blocks, List.length_cons]
      omega

theorem exists_lowest (member : r ∈ w.blocks) : ∃ low, w.lowest? = some low := by
  cases blocks : w.blocks with
  | nil => simp [blocks] at member
  | cons first rest => exact ⟨first.height, by simp [lowest?, blocks]⟩

/-- A block of the window is found at its height. -/
theorem Consecutive.hashAt?_of_mem (consecutive : w.Consecutive) (member : r ∈ w.blocks) :
    w.hashAt? r.height = some r.hash := by
  rcases List.getElem?_of_mem member with ⟨place, found⟩
  rcases exists_lowest member with ⟨low, isLow⟩
  have up := consecutive.height_eq isLow found
  have above : low ≤ r.height := UInt64.le_iff_toNat_le.2 (by omega)
  have distance : (r.height - low).toNat = place := by
    rw [UInt64.toNat_sub_of_le _ _ above]
    omega
  simp only [hashAt?, isLow, if_pos above, distance, found, Option.map_some]

/-- From its tip down to any of its blocks a window has a block at every height. -/
theorem Consecutive.exists_hashAt? (consecutive : w.Consecutive)
    (isTip : w.tip? = some tip) (member : r ∈ w.blocks)
    (above : r.height.toNat ≤ height.toNat) (below : height.toNat ≤ tip.height.toNat) :
    ∃ hash, w.hashAt? height = some hash := by
  rcases List.getElem?_of_mem member with ⟨place, found⟩
  rcases exists_lowest member with ⟨low, isLow⟩
  have up := consecutive.height_eq isLow found
  have down := consecutive.tip_eq isTip found
  have high : low ≤ height := UInt64.le_iff_toNat_le.2 (by omega)
  have inside : (height - low).toNat < w.blocks.length := by
    rw [UInt64.toNat_sub_of_le _ _ high]
    rw [size] at down
    omega
  refine ⟨w.blocks[(height - low).toNat].hash, ?_⟩
  simp only [hashAt?, isLow, if_pos high, List.getElem?_eq_getElem inside,
    Option.map_some]

/-- The tip lies less than the size of the window above each of its blocks. -/
theorem Consecutive.tip_lt (consecutive : w.Consecutive) (isTip : w.tip? = some tip)
    (member : r ∈ w.blocks) : tip.height.toNat < r.height.toNat + w.size := by
  rcases List.getElem?_of_mem member with ⟨place, found⟩
  have down := consecutive.tip_eq isTip found
  omega

end BlockWindow

/-! ## One chain -/

/-- The blocks of one chain by their heights, up to `top`: each points to
the one before it. -/
structure Line (line : Nat → Block) (top : Nat) : Prop where
  height : ∀ h ≤ top, (line h).height.toNat = h
  linked : ∀ h < top, (line (h + 1)).parentHash = (line h).hash

/-- The nodes of a chain give the blocks of the line up to `top`, whenever
they are asked. -/
structure Serves {σ : Type} (answers : Answering σ) (chain : ChainId) (line : Nat → Block)
    (top : Nat) : Prop where
  gives : ∀ s (height : Height), height.toNat ≤ top →
    ∃ after, answers s (.node chain (.block height)) (.ok (line height.toNat)) after
  nothingElse : ∀ s (height : Height) reply after, height.toNat ≤ top →
    answers s (.node chain (.block height)) reply after → reply = .ok (line height.toNat)

namespace Line

variable {line : Nat → Block} {top : Nat}

/-- The blocks above `low` up to `high`, from the lowest on. -/
def stretch (line : Nat → Block) (low high : Nat) : List Block :=
  (List.range' (low + 1) (high - low)).map line

@[simp] theorem stretch_self (line : Nat → Block) (h : Nat) : stretch line h h = [] := by
  simp [stretch]

theorem stretch_succ (line : Nat → Block) {low high : Nat} (below : low ≤ high) :
    stretch line low (high + 1) = stretch line low high ++ [line (high + 1)] := by
  have longer : high + 1 - low = high - low + 1 := by omega
  have last : low + 1 + (high - low) = high + 1 := by omega
  simp [stretch, longer, List.range'_1_concat, last]

theorem stretch_append (line : Nat → Block) {low mid high : Nat} (first : low ≤ mid)
    (second : mid ≤ high) :
    stretch line low mid ++ stretch line mid high = stretch line low high := by
  have start : mid + 1 = low + 1 + 1 * (mid - low) := by omega
  have length : high - low = (mid - low) + (high - mid) := by omega
  rw [stretch, stretch, stretch, ← List.map_append, length, start, List.range'_append]

theorem stretch_cons (line : Nat → Block) (low count : Nat) :
    stretch line low (low + (count + 1)) = line (low + 1) :: stretch line (low + 1)
      (low + 1 + count) := by
  rw [← stretch_append line (Nat.le_add_right low 1) (by omega),
    stretch_succ line (Nat.le_refl low), stretch_self, Nat.add_right_comm, Nat.add_assoc]
  rfl

theorem ref_eq (isLine : Line line top) {height : Height} (within : height.toNat ≤ top) :
    (line height.toNat).ref = ⟨height, (line height.toNat).hash⟩ := by
  have same : (line height.toNat).height = height :=
    UInt64.toNat_inj.1 (isLine.height _ within)
  rw [Block.ref, same]

/-- A block of the line stands on the one before it. -/
theorem standsOn (isLine : Line line top) {h : Nat} (below : h < top) :
    (line (h + 1)).StandsOn (line h).ref := by
  constructor
  · show (line (h + 1)).height.toNat = (line h).height.toNat + 1
    rw [isLine.height _ below, isLine.height _ (Nat.le_of_lt below)]
  · exact isLine.linked h below

/-- The line climbs from each of its blocks. -/
theorem climb (isLine : Line line top) {low count : Nat} (within : low + count ≤ top) :
    Tracker.Climb (fun _ => True) (line low).ref (stretch line low (low + count)) := by
  induction count generalizing low with
  | zero =>
      rw [Nat.add_zero, stretch_self]
      trivial
  | succ count ih =>
      rw [stretch_cons]
      exact ⟨trivial, isLine.standsOn (by omega), ih (by omega)⟩

end Line

namespace Tracker

variable {t : Tracker} {tip : BlockRef} {line : Nat → Block} {top : Nat}

/-- The window has the block of the line at height `k`, not too deep below the tip. -/
structure Shared (t : Tracker) (tip : BlockRef) (line : Nat → Block) (k : Nat) :
    Prop where
  entry : ∃ r ∈ t.window.blocks, r.height.toNat = k ∧ r.hash = (line k).hash
  near : tip.height.toNat - k ≤ t.settings.maxReorgDepth.toNat

/-- The highest such height. -/
structure IsForkPoint (t : Tracker) (tip : BlockRef) (line : Nat → Block) (k : Nat) :
    Prop where
  shared : t.Shared tip line k
  highest : ∀ j, t.Shared tip line j → j ≤ k

theorem IsForkPoint.unique {j k : Nat} (first : t.IsForkPoint tip line j)
    (second : t.IsForkPoint tip line k) : j = k :=
  Nat.le_antisymm (second.highest j first.shared) (first.highest k second.shared)

section Shared

variable {k : Nat} {height : Height}

theorem Shared.le_tip (consecutive : t.window.Consecutive) (isTip : t.tip? = some tip)
    (shared : t.Shared tip line k) : k ≤ tip.height.toNat := by
  rcases shared.entry with ⟨r, member, rfl, -⟩
  rcases consecutive.le_tip isTip member with rfl | lower
  · exact Nat.le_refl _
  · exact Nat.le_of_lt lower

/-- What is shared at a height is what the window has there. -/
theorem Shared.hashAt? (consecutive : t.window.Consecutive)
    (shared : t.Shared tip line height.toNat) :
    t.window.hashAt? height = some (line height.toNat).hash := by
  rcases shared.entry with ⟨r, member, sameHeight, sameHash⟩
  rw [← sameHash, ← UInt64.toNat_inj.1 sameHeight]
  exact consecutive.hashAt?_of_mem member

/-- Where the window has nothing, it shares nothing below. -/
theorem not_shared_of_none (consecutive : t.window.Consecutive)
    (isTip : t.tip? = some tip) (below : height.toNat ≤ tip.height.toNat)
    (passed : ∀ k, t.Shared tip line k → k ≤ height.toNat)
    (nothing : t.window.hashAt? height = none) : ¬ t.Shared tip line k := by
  intro shared
  rcases shared.entry with ⟨r, member, rfl, -⟩
  rcases consecutive.exists_hashAt? isTip member (passed _ shared) below with
    ⟨hash, there⟩
  rw [nothing] at there
  cases there

/-- The first height on the way down at which the hashes agree is the fork point. -/
theorem isForkPoint_of_hashAt? (consecutive : t.window.Consecutive)
    (near : tip.height.toNat ≤ height.toNat + t.settings.maxReorgDepth.toNat)
    (passed : ∀ k, t.Shared tip line k → k ≤ height.toNat)
    (found : t.window.hashAt? height = some (line height.toNat).hash) :
    t.IsForkPoint tip line height.toNat := by
  have entry := BlockWindow.mem_of_hashAt? consecutive found
  exact ⟨⟨⟨_, entry, rfl, rfl⟩, by omega⟩, passed⟩

/-- Where the hashes differ, whatever is shared lies below. -/
theorem shared_lt_of_hashAt? (consecutive : t.window.Consecutive) {hash : String}
    (passed : ∀ k, t.Shared tip line k → k ≤ height.toNat)
    (found : t.window.hashAt? height = some hash)
    (other : hash ≠ (line height.toNat).hash) (shared : t.Shared tip line k) :
    k < height.toNat := by
  apply Nat.lt_of_le_of_ne (passed k shared)
  rintro rfl
  rw [shared.hashAt? consecutive, Option.some.injEq] at found
  exact other found.symm

/-- What lies below the lowest height that may be reached is not shared. -/
theorem not_shared_of_stop (lower : ∀ k, t.Shared tip line k → k < height.toNat)
    {orphaned : UInt64} (distance : orphaned? tip height = some orphaned)
    (stops : t.settings.maxReorgDepth < orphaned ∨ height = 0) :
    ¬ t.Shared tip line k := by
  intro shared
  have under := lower k shared
  have close := shared.near
  rcases stops with deep | ground
  · have apart := orphaned?_eq_some distance
    rw [UInt64.lt_iff_toNat_lt] at deep
    omega
  · rw [ground] at under
    exact Nat.not_lt_zero _ under

end Shared

/-! ## Going back to the fork -/

section Back

variable {σ : Type} {answers : Answering σ} {s : σ}

theorem surely_fetchBlock (serves : Serves answers t.chain line top) (height : Height)
    (within : height.toNat ≤ top) :
    Flow.Surely answers (t.fetchBlock height) s fun reply _ =>
      reply = .ok (line height.toNat) := by
  apply Flow.surely_bind
  apply Flow.surely_ask
  · rcases serves.gives s height within with ⟨after, answer⟩
    exact ⟨_, after, answer⟩
  · intro reply after answer
    apply Flow.surely_pure
    rw [serves.nothingElse s height reply after within answer]
    rfl

/-- What a walk back from `height` comes to: the fork point and the line from there on,
or nothing is shared. -/
def Resolved (t : Tracker) (tip : BlockRef) (line : Nat → Block) (height : Nat)
    (branch : List Block) :
    Except TrackerError (BlockRef × List Block) → Prop
  | .ok (fork, blocks) => ∃ k ≤ height, t.IsForkPoint tip line k ∧ fork = (line k).ref ∧
      blocks = Line.stretch line k height ++ branch
  | .error e => e = t.tooDeep tip ∧ ∀ k, ¬ t.Shared tip line k

/-- A walk back along the line that has found nothing shared above `height` finds the
fork point below, if there is one. -/
theorem surely_walkBack (isLine : Line line top)
    (serves : Serves answers t.chain line top) (consecutive : t.window.Consecutive)
    (isTip : t.tip? = some tip) {fuel : Nat} {height : Height} {branch : List Block}
    (within : tip.height.toNat < top) (below : height.toNat ≤ tip.height.toNat)
    (near : tip.height.toNat ≤ height.toNat + t.settings.maxReorgDepth.toNat)
    (passed : ∀ k, t.Shared tip line k → k ≤ height.toNat)
    (enough : ∀ r ∈ t.window.blocks, height.toNat < r.height.toNat + fuel) :
    Flow.Surely answers (t.walkBack tip fuel height (line height.toNat).hash branch) s
      fun result _ =>
      Resolved t tip line height.toNat branch result := by
  induction fuel generalizing s height branch with
  | zero =>
      rw [walkBack]
      cases found : t.window.hashAt? height with
      | none =>
          exact Flow.surely_pure
            ⟨rfl, fun _ => not_shared_of_none consecutive isTip below passed found⟩
      | some accepted =>
          -- A block of the window at `height` would leave fuel.
          have low := enough _ (BlockWindow.mem_of_hashAt? consecutive found)
          exact absurd low (Nat.lt_irrefl _)
  | succ fuel ih =>
      rw [walkBack]
      cases found : t.window.hashAt? height with
      | none =>
          exact Flow.surely_pure
            ⟨rfl, fun _ => not_shared_of_none consecutive isTip below passed found⟩
      | some accepted =>
          simp only
          split
          · rename_i same
            rw [same] at found
            have isFork := isForkPoint_of_hashAt? consecutive near passed found
            apply Flow.surely_pure
            refine ⟨height.toNat, Nat.le_refl _, isFork, ?_, by simp⟩
            exact (isLine.ref_eq (by omega)).symm
          · rename_i other
            have lower : ∀ k, t.Shared tip line k → k < height.toNat :=
              fun k shared => shared_lt_of_hashAt? consecutive passed found other shared
            obtain ⟨orphaned, distance⟩ := exists_orphaned? below (by
              have bound := (line top).height.toNat_lt
              rw [isLine.height top (Nat.le_refl _)] at bound
              omega)
            simp only [distance]
            split
            · rename_i stops
              exact Flow.surely_pure
                ⟨rfl, fun _ => not_shared_of_stop lower distance stops⟩
            · rename_i goesOn
              rcases step_down distance goesOn with ⟨next, stillNear⟩
              apply (surely_fetchBlock serves height (by omega)).bind
              rintro reply there rfl
              have parent :
                  (line height.toNat).parentHash = (line (height - 1).toNat).hash := by
                rw [next]
                exact isLine.linked _ (by omega)
              simp only [if_true, parent]
              have deeper := @ih there (height - 1) (line height.toNat :: branch)
                (by omega) stillNear (fun k shared => by have := lower k shared; omega)
                (fun r member => by have := enough r member; omega)
              apply deeper.imp
              intro result after resolved
              cases result with
              | error e => exact resolved
              | ok found =>
                  rcases resolved with ⟨k, low, isFork, fork, blocks⟩
                  refine ⟨k, by omega, isFork, fork, ?_⟩
                  rw [blocks, next, Line.stretch_succ line low, List.append_assoc]
                  rfl

/-- The fork of a block at the height after the tip. -/
def Forked (t : Tracker) (tip : BlockRef) (line : Nat → Block) :
    Except TrackerError (RevertedRange × List Block) → Prop
  | .ok (range, branch) => ∃ k ≤ tip.height.toNat, t.IsForkPoint tip line k ∧
      range = ⟨t.chain, .ofNat (k + 1), tip.height, (line k).ref⟩ ∧
      branch = Line.stretch line k tip.height.toNat
  | .error e => e = t.tooDeep tip ∧ ∀ k, ¬ t.Shared tip line k

theorem surely_findFork (isLine : Line line top)
    (serves : Serves answers t.chain line top) (consecutive : t.window.Consecutive)
    (isTip : t.tip? = some tip) (within : tip.height.toNat < top) :
    Flow.Surely answers (t.findFork (line (tip.height.toNat + 1))) s fun result _ =>
      Forked t tip line result := by
  rw [findFork, isTip]
  simp only [isLine.linked _ within]
  apply (surely_walkBack isLine serves consecutive isTip within (Nat.le_refl _)
    (Nat.le_add_right _ _) (fun k shared => shared.le_tip consecutive isTip)
    fun r member => consecutive.tip_lt isTip member).bind
  intro result there resolved
  cases result with
  | error e => exact Flow.surely_pure resolved
  | ok found =>
      rcases resolved with ⟨k, low, isFork, fork, blocks⟩
      have height : found.1.height.toNat = k := by
        rw [fork]
        exact isLine.height k (by omega)
      have last := (line top).height.toNat_lt
      rw [isLine.height top (Nat.le_refl _)] at last
      obtain ⟨above, isAbove, next⟩ := Height.next_of_lt (h := found.1.height) (by omega)
      simp only [isAbove]
      apply Flow.surely_pure
      refine ⟨k, low, isFork, ?_, by simpa using blocks⟩
      have same : above = .ofNat (k + 1) := by
        have room := above.toNat_lt
        apply UInt64.toNat_inj.1
        rw [next, height] at room ⊢
        rw [UInt64.toNat_ofNat', Nat.mod_eq_of_lt room]
      rw [same, fork]

end Back

/-! ## Taking the blocks of the line -/

section Forward

variable {σ : Type} {answers : Answering σ} {s : σ} {live : Bool} {sent : List Message}

/-- The messages about blocks that are taken. -/
def acceptances (live : Bool) (blocks : List Block) : List Message :=
  blocks.map (.accepted · live)

/-- On the line the next block of the line is taken. -/
theorem surely_takeNext_on_line (isLine : Line line top)
    (serves : Serves answers t.chain line top) {height : Height} {h : Nat}
    (next : height.toNat = h + 1) (within : h < top)
    (onLine : t.tip? = some (line h).ref) :
    Flow.Surely answers (t.takeNext live sent height) s fun a _ =>
      a = ⟨t.push (line (h + 1)), sent ++ [.accepted (line (h + 1)) live], .ok ()⟩ := by
  have fetched := surely_fetchBlock (t := t) (s := s) serves height (by omega)
  rw [next] at fetched
  have stands := isLine.standsOn within
  rw [takeNext]
  apply fetched.bind
  rintro reply there rfl
  have goesOn : t.hasNext = true := hasNext_of_tip onLine stands.1
  simp only [goesOn, onLine, Option.all_some, (Block.standsOn_iff stands.1).2 stands,
    if_true, accept_one goesOn]
  exact Flow.surely_pure rfl

theorem surely_takeBlocks_on_line (isLine : Line line top) (live : Bool) (count h : Nat)
    (height : Height) {a : Advance} (serves : Serves answers a.tracker.chain line top)
    (going : a.outcome = .ok ()) (onLine : a.tracker.tip? = some (line h).ref)
    (within : h + count ≤ top) (next : count ≠ 0 → height.toNat = h + 1)
    (room : h + count + 1 < 1 <<< 64) :
    Flow.Surely answers (takeBlocks live count height a) s fun b _ =>
      b.outcome = .ok () ∧
        b.messages = a.messages ++ acceptances live (Line.stretch line h (h + count)) ∧
        b.tracker.tip? = some (line (h + count)).ref := by
  induction count generalizing s h height a with
  | zero =>
      apply Flow.surely_pure
      exact ⟨going, by simp [acceptances], onLine⟩
  | succ count ih =>
      rw [takeBlocks]
      apply (surely_takeNext_on_line isLine serves (next (by simp))
        (by omega) onLine).bind
      rintro b there rfl
      have here := next (by simp)
      obtain ⟨higher, isHigher, above⟩ := Height.next_of_lt (h := height) (by omega)
      rw [here] at above
      simp only [isHigher]
      have later := ih (s := there) (h + 1) higher
        (a := ⟨a.tracker.push (line (h + 1)), a.messages ++
          [.accepted (line (h + 1)) live], .ok ()⟩)
        serves rfl (tip?_push _ _) (by omega) (fun _ => above) (by omega)
      apply later.imp
      rintro b after ⟨ok, messages, onTop⟩
      refine ⟨ok, ?_, by rwa [Nat.add_right_comm, Nat.add_assoc] at onTop⟩
      rw [messages, List.append_assoc, Line.stretch_cons]
      rfl

/-- What is taken back if the line leaves the window at height `k`: everything above,
if there is anything. -/
def retreat (t : Tracker) (tip : BlockRef) (line : Nat → Block) (k : Nat) :
    List Message :=
  if k < tip.height.toNat then
    [.reverted ⟨t.chain, .ofNat (k + 1), tip.height, (line k).ref⟩] else []

/-- How the first block of an advance ends: the tracker is on the line, or as it was. -/
def Entered (t : Tracker) (tip : BlockRef) (line : Nat → Block) (live : Bool)
    (a : Advance) : Prop :=
  (∃ k ≤ tip.height.toNat, t.IsForkPoint tip line k ∧ a.outcome = .ok () ∧
    a.messages = t.retreat tip line k ++
      acceptances live (Line.stretch line k (tip.height.toNat + 1)) ∧
    a.tracker.chain = t.chain ∧ a.tracker.tip? = some (line (tip.height.toNat + 1)).ref) ∨
  a = ⟨t, [], .error (t.tooDeep tip)⟩ ∧ ∀ k, ¬ t.Shared tip line k

/-- The window shares its tip with the line exactly if the next block stands there. -/
theorem extends?_iff_shared (isLine : Line line top) (consecutive : t.window.Consecutive)
    (isTip : t.tip? = some tip) (within : tip.height.toNat < top) :
    (line (tip.height.toNat + 1)).extends? tip = true ↔
      t.Shared tip line tip.height.toNat := by
  have next := isLine.height (tip.height.toNat + 1) within
  rw [Block.standsOn_iff next, Block.StandsOn, and_iff_right next, isLine.linked _ within]
  constructor
  · intro same
    exact ⟨⟨tip, List.mem_of_getLast? isTip, rfl, same.symm⟩, by omega⟩
  · intro shared
    rcases shared.entry with ⟨r, member, sameHeight, sameHash⟩
    have isLast : r = tip := consecutive.eq_of_height member (List.mem_of_getLast? isTip)
      (UInt64.toNat_inj.1 sameHeight)
    rw [← sameHash, isLast]

theorem surely_takeNext (isLine : Line line top)
    (serves : Serves answers t.chain line top) (consecutive : t.window.Consecutive)
    (isTip : t.tip? = some tip) {height : Height}
    (next : height.toNat = tip.height.toNat + 1) (within : tip.height.toNat < top) :
    Flow.Surely answers (t.takeNext live [] height) s fun a _ =>
      Entered t tip line live a := by
  have fetched := surely_fetchBlock (t := t) (s := s) serves height (by omega)
  rw [next] at fetched
  have goesOn : t.hasNext = true := hasNext_of_tip isTip (isLine.height _ within)
  rw [takeNext]
  apply fetched.bind
  rintro reply there rfl
  simp only [goesOn, isTip, Option.all_some, if_true]
  split
  · rename_i onTip
    have shared := (extends?_iff_shared isLine consecutive isTip within).1 onTip
    have isFork : t.IsForkPoint tip line tip.height.toNat :=
      ⟨shared, fun j other => other.le_tip consecutive isTip⟩
    apply Flow.surely_pure
    rw [accept_one goesOn]
    refine Or.inl ⟨_, Nat.le_refl _, isFork, rfl, ?_, rfl, tip?_push _ _⟩
    simp [retreat, acceptances, Line.stretch_succ]
  · rename_i offTip
    rw [extends?_iff_shared isLine consecutive isTip within] at offTip
    apply (surely_findFork isLine serves consecutive isTip within).bind
    intro reply after found
    cases reply with
    | error e =>
        apply Flow.surely_pure
        exact Or.inr ⟨by rw [found.1], found.2⟩
    | ok result =>
        rcases result with ⟨range, branch⟩
        rcases found with ⟨k, low, isFork, rfl, rfl⟩
        have lower : k < tip.height.toNat := by
          apply Nat.lt_of_le_of_ne low
          rintro rfl
          exact offTip isFork.shared
        have climb : Climb (fun _ => True) (line k).ref
            (Line.stretch line k (k + (tip.height.toNat + 1 - k))) :=
          isLine.climb (by omega)
        rw [Nat.add_sub_cancel' (by omega), Line.stretch_succ line low] at climb
        apply Flow.surely_pure
        rw [Climb.switch ⟨t.chain, .ofNat (k + 1), tip.height, (line k).ref⟩ climb]
        refine Or.inl ⟨k, low, isFork, rfl, ?_, ?_, by simp⟩
        · simp [retreat, lower, acceptances, Line.stretch_succ line low]
        · rw [foldl_push _ live]
          exact foldl_follow_chain _ _

end Forward

/-- While the nodes serve one chain up to the goal, and no height on the way to it and
behind it overflows, an advance succeeds exactly if the window has a block of that chain
which is not too deep below the tip.  Then it takes back what lies above the highest such
block, if there is anything, and takes the chain from there to the goal, which is the
new tip.  Otherwise it says that the reorganisation is too deep, and nothing has
changed. -/
theorem advance_finds_fork {σ : Type} {answers : Answering σ} {goal : Nat}
    (target : Height) (live : Bool) (s : σ) (consecutive : t.window.Consecutive)
    (isTip : t.tip? = some tip) (ahead : tip.height < target)
    (positive : 1 ≤ t.settings.maxBlocksPerPoll)
    (room : tip.height.toNat + t.settings.maxBlocksPerPoll.toNat < 1 <<< 64)
    (notLast : goal + 1 < 1 <<< 64)
    (isGoal : goal =
      min target.toNat (tip.height.toNat + t.settings.maxBlocksPerPoll.toNat))
    (isLine : Line line goal) (serves : Serves answers t.chain line goal) :
    Flow.Surely answers (t.advance target live) s fun a _ =>
      (a.outcome = .ok () ↔ ∃ k, t.Shared tip line k) ∧
      (a.outcome = .ok () → ∃ k, t.IsForkPoint tip line k ∧
        a.messages = t.retreat tip line k ++ acceptances live (Line.stretch line k goal) ∧
        a.tracker.tip? = some (line goal).ref) ∧
      (a.outcome ≠ .ok () →
        a.outcome = .error (.reorgTooDeep t.chain t.settings.maxReorgDepth tip.height) ∧
        a.messages = [] ∧ a.tracker = t) := by
  rw [UInt64.lt_iff_toNat_lt] at ahead
  rw [UInt64.le_iff_toNat_le, UInt64.toNat_one] at positive
  obtain ⟨most, isMost, mostIs⟩ := Height.plus?_of_lt room
  have within : tip.height.toNat < goal := by omega
  obtain ⟨next, isNext, nextIs⟩ := Height.next_of_lt (h := tip.height) (by omega)
  obtain ⟨second, isSecond, secondIs⟩ := Height.next_of_lt (h := next) (by omega)
  have goalIs : (min target most).toNat = goal := by
    rw [UInt64.toNat_min, mostIs, isGoal]
  have count : goal - tip.height.toNat = goal - (tip.height.toNat + 1) + 1 := by omega
  have notBehind : ¬ target ≤ tip.height := by
    rw [UInt64.le_iff_toNat_le]
    omega
  rw [advance, isTip]
  simp only [if_neg notBehind, isMost, isNext, goalIs, count, takeBlocks]
  -- The first block may need a reorganisation, all others stand on the line.
  apply (surely_takeNext isLine serves consecutive isTip nextIs within).bind
  rintro a there (⟨k, low, isFork, ok, messages, chain, onLine⟩ | ⟨rfl, nothing⟩)
  · have rest :=
      surely_takeBlocks_on_line (s := there) isLine live (goal - (tip.height.toNat + 1))
      (tip.height.toNat + 1) second (by rwa [chain]) ok onLine (by omega)
      (fun _ => by rw [secondIs, nextIs]) (by omega)
    rw [Nat.add_sub_cancel' within] at rest
    simp only [ok, isSecond]
    apply rest.imp
    rintro b after ⟨okay, told, onTop⟩
    have all : b.messages = t.retreat tip line k ++
      acceptances live (Line.stretch line k goal) := by
      rw [told, messages, List.append_assoc, acceptances, acceptances, ← List.map_append,
        Line.stretch_append line (by omega) within]
      rfl
    exact ⟨iff_of_true okay ⟨k, isFork.shared⟩, fun _ => ⟨k, isFork, all, onTop⟩,
      fun failed => absurd okay failed⟩
  · apply Flow.surely_pure
    refine ⟨iff_of_false (by simp) (by simpa using nothing), by simp,
      fun _ => ⟨rfl, rfl, rfl⟩⟩

/-! ## A tracker that comes to another branch -/

/-- The blocks of a chain with these hashes. -/
def sampleLine (h : Nat) : Block :=
  ⟨⟨1⟩, .ofNat h, "0x" ++ Text.decimal h, "0x" ++ Text.decimal (h - 1), 0⟩

/-- Nodes that serve the chain and nothing else. -/
def serving (line : Nat → Block) : Answering Unit
  | _, .node _ (.block height), reply, _ => reply = .ok (line height.toNat)
  | _, _, _, _ => True

/-- The window left the chain above its sixth block. -/
def strayed : Tracker :=
  ⟨⟨1⟩, ⟨3, 2, 0, {}⟩, ⟨[⟨5, "0x5"⟩, ⟨6, "0x6"⟩, ⟨7, "0xa7"⟩, ⟨8, "0xa8"⟩], 4, by decide⟩⟩

theorem isForkPoint_strayed : strayed.IsForkPoint ⟨8, "0xa8"⟩ sampleLine 6 := by
  constructor
  · exact ⟨⟨⟨6, "0x6"⟩, by decide, rfl, by decide +kernel⟩, by decide⟩
  · intro j shared
    rcases shared.entry with ⟨r, member, rfl, sameHash⟩
    simp only [strayed, List.mem_cons, List.not_mem_nil, or_false] at member
    rcases member with rfl | rfl | rfl | rfl
    · decide
    · decide
    all_goals
      revert sameHash
      decide +kernel

/-- Two blocks are taken back, the blocks of the chain take their place,
and two more follow. -/
theorem advance_finds_fork_strayed : ∃ a : Advance,
    (strayed.advance 20 true).Leads (serving sampleLine) () a () ∧ a.outcome = .ok () ∧
    a.messages = .reverted ⟨⟨1⟩, 7, 8, ⟨6, "0x6"⟩⟩ ::
      acceptances true [sampleLine 7, sampleLine 8, sampleLine 9, sampleLine 10] ∧
    a.tracker.tip? = some (sampleLine 10).ref := by
  have consecutive : strayed.window.Consecutive :=
    List.isChain_cons_cons.2 ⟨rfl, List.isChain_cons_cons.2 ⟨rfl, List.isChain_cons_cons.2
      ⟨rfl, List.IsChain.singleton _⟩⟩⟩
  have isLine : Line sampleLine 10 := ⟨by decide, fun _ _ => rfl⟩
  have serves : Serves (serving sampleLine) strayed.chain sampleLine 10 :=
    ⟨fun _ _ _ => ⟨(), rfl⟩, fun _ _ _ _ _ answer => answer⟩
  have surely := advance_finds_fork 20 true () consecutive rfl (by decide) (by decide)
    (by decide) (by decide)
    rfl isLine serves
  rcases surely.exists with ⟨a, after, leads, succeeds, success, -⟩
  have ok := succeeds.2 ⟨6, isForkPoint_strayed.shared⟩
  rcases success ok with ⟨k, highest, messages, isTip⟩
  obtain rfl := highest.unique isForkPoint_strayed
  refine ⟨a, leads, ok, ?_, isTip⟩
  rw [messages]
  decide +kernel

end Tracker

end Paywatch
