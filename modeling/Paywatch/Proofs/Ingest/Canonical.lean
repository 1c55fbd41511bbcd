import Paywatch.Proofs.Ingest.Changes
import Paywatch.Proofs.Ingest.Playing

/-!
# Canonical payments

Confirmation looks at heights alone.  It still confirms only payments of the branch that
the worker is on, because whatever moves the watermark to another branch takes back what
is pending on the old one.  One thing does not:  a base block above an older watermark.
The transfers that are pending then are carried over to whatever branch the base block
is on, and a later block, or the base block itself, confirms them.
-/

namespace Paywatch

namespace BlockRef

/-- `p` is the block below `c` that the hash of `c` determines. -/
def Parent (parentOf : String → String) (p c : BlockRef) : Prop :=
  c.height.toNat = p.height.toNat + 1 ∧ p.hash = parentOf c.hash

/-- A block is an ancestor of itself and of what stands on it. -/
abbrev Ancestor (parentOf : String → String) : BlockRef → BlockRef → Prop :=
  Relation.ReflTransGen (Parent parentOf)

variable {parentOf : String → String} {p q m : BlockRef}

theorem Ancestor.height_le (ancestor : Ancestor parentOf p q) :
    p.height.toNat ≤ q.height.toNat := by
  induction ancestor with
  | refl => exact Nat.le_refl _
  | tail _ parent ih =>
      have next := parent.1
      omega

theorem Ancestor.eq_of_height (ancestor : Ancestor parentOf p q)
    (same : p.height.toNat = q.height.toNat) : p = q := by
  rcases Relation.ReflTransGen.cases_tail ancestor with rfl | ⟨c, earlier, parent⟩
  · rfl
  · have low := Ancestor.height_le earlier
    have next := parent.1
    omega

/-- The ancestors of a block are in line. -/
theorem Ancestor.of_height_le (first : Ancestor parentOf p m)
    (second : Ancestor parentOf q m) (low : p.height.toNat ≤ q.height.toNat) :
    Ancestor parentOf p q := by
  have unique : Relator.RightUnique (Function.swap (Parent parentOf)) := by
    intro c r s one two
    have height : r.height = s.height := UInt64.toNat_inj.1 (by
      have left := one.1
      have right := two.1
      omega)
    have hash : r.hash = s.hash := one.2.trans two.2.symm
    cases r
    cases s
    cases height
    cases hash
    rfl
  rcases Relation.ReflTransGen.total_of_right_unique unique
      (Relation.reflTransGen_swap.2 first) (Relation.reflTransGen_swap.2 second) with
        down | up
  · have above : Ancestor parentOf q p := Relation.reflTransGen_swap.1 down
    rw [above.eq_of_height (Nat.le_antisymm above.height_le low)]
  · exact Relation.reflTransGen_swap.1 up

end BlockRef

open BlockRef (Ancestor)

namespace Pursuit

/-- Above `bottom`, everything that is remembered, and everything that is pending and
was not carried over, lies on the branch of the watermark. -/
structure Canonical (i : Ingest) (parentOf : String → String) (bottom : Nat)
    (s : Pursuit) :
    Prop where
  low : ∀ mark, (s.ledger.place i.chain).mark = some mark → bottom ≤ mark.height.toNat
  known : ∀ r mark, s.Remembers i r → bottom ≤ r.height.toNat →
    (s.ledger.place i.chain).mark = some mark → Ancestor parentOf r mark
  pending : ∀ id t, s.ledger.transfers.get? id = some t → t.status = .pending →
    id ∉ s.carried →
    ∃ origin mark, t.origin = .blockchain origin ∧
    (s.ledger.place i.chain).mark = some mark ∧
      bottom ≤ origin.blockHeight.toNat ∧
      Ancestor parentOf ⟨origin.blockHeight, origin.blockHash⟩ mark

variable {i : Ingest} {answers : Answering Surroundings} {parentOf : String → String}
  {bottom : Nat} {s after : Pursuit} {taken : List String} {settings : TrackerSettings}

theorem canonical_start : Canonical i parentOf 0 (start i settings) where
  low := by rintro _ ⟨⟩
  known := by rintro _ _ _ _ ⟨⟩
  pending := by rintro _ _ ⟨⟩

/-- The first block of all, or a base block:  what was remembered and not
carried over lies below. -/
theorem canonical_of_ground {b : Block} {base : Bool} {lease : Lease} {h : Harvest}
    (recorded : s.ledger.Recorded i.chain s.surroundings.issued taken)
    (entered : Entered i answers b base lease h s.surroundings after.surroundings)
    (place : after.ledger.place i.chain = (s.ledger.place i.chain).moveTo b.ref)
    (remembers : ∀ r, after.Remembers i r → r = b.ref ∨ s.Remembers i r)
    (below : ∀ r, s.Remembers i r → r.height.toNat < b.height.toNat)
    (carries : ∀ id t, s.ledger.transfers.get? id = some t → t.status = .pending →
      id ∈ after.carried) :
    Canonical i parentOf b.height.toNat after where
  low := by
    rw [place]
    rintro _ ⟨⟩
    exact Nat.le_refl _
  known := by
    rw [place]
    rintro r _ remembered high ⟨⟩
    rcases remembers r remembered with rfl | old
    · exact .refl
    · exact absurd (below r old) (Nat.not_lt.2 high)
  pending := by
    rw [place]
    intro id t found pending fresh
    rcases entered.pending recorded found pending with
      old | ⟨origin, isOrigin, height, hash⟩
    · exact absurd (carries id t old pending) fresh
    · refine ⟨origin, b.ref, isOrigin, rfl,
        Nat.le_of_eq (congrArg UInt64.toNat height.symm), ?_⟩
      rw [height, hash]
      exact .refl

/-- A block on the watermark has the watermark and its ancestors among its own. -/
theorem canonical_of_next {b : Block} {lease : Lease} {h : Harvest} {mark : BlockRef}
    (lineage : b.parentHash = parentOf b.hash) (canonical : Canonical i parentOf bottom s)
    (recorded : s.ledger.Recorded i.chain s.surroundings.issued taken)
    (entered : Entered i answers b false lease h s.surroundings after.surroundings)
    (isMark : (s.ledger.place i.chain).mark = some mark) (stands : b.StandsOn mark)
    (place : after.ledger.place i.chain = (s.ledger.place i.chain).moveTo b.ref)
    (carried : after.carried = s.carried)
    (remembers : ∀ r, after.Remembers i r → r = b.ref ∨ s.Remembers i r) :
    Canonical i parentOf bottom after := by
  have parent : BlockRef.Parent parentOf mark b.ref :=
    ⟨stands.1, stands.2.symm.trans lineage⟩
  have low := canonical.low mark isMark
  have higher : bottom ≤ b.height.toNat := by
    have next := stands.1
    omega
  constructor
  case low =>
    rw [place]
    rintro _ ⟨⟩
    exact higher
  case known =>
    rw [place]
    rintro r _ remembered high ⟨⟩
    rcases remembers r remembered with rfl | old
    · exact .refl
    · exact (canonical.known r mark old high isMark).tail parent
  case pending =>
    rw [place, carried]
    intro id t found pending fresh
    rcases entered.pending recorded found pending with
      old | ⟨origin, isOrigin, height, hash⟩
    · obtain ⟨origin, mark', isOrigin, isMark', high, ancestor⟩ :=
        canonical.pending id t old pending fresh
      obtain rfl := Option.some.inj (isMark'.symm.trans isMark)
      exact ⟨origin, b.ref, isOrigin, rfl, high, ancestor.tail parent⟩
    · refine ⟨origin, b.ref, isOrigin, rfl, by rw [height]; exact higher, ?_⟩
      rw [height, hash]
      exact .refl

/-- What stays below the end of a range stays on the branch; what is
pending above is taken back. -/
theorem canonical_of_retreat {range : RevertedRange} {mark : BlockRef}
    (canonical : Canonical i parentOf bottom s)
    (recorded : s.ledger.Recorded i.chain s.surroundings.issued taken)
    (reverted : Reverted i.chain range s.ledger after.ledger)
    (rangeChain : range.chain = i.chain)
    (isMark : (s.ledger.place i.chain).mark = some mark)
    (fromFork : range.fromHeight.toNat = range.forkPoint.height.toNat + 1)
    (reaches : mark.height.toNat ≤ range.toHeight.toNat)
    (fork : s.Remembers i range.forkPoint)
    (place : after.ledger.place i.chain =
      (s.ledger.place i.chain).follow (.reverted range))
    (carried : after.carried = s.carried)
    (remembers : ∀ r, after.Remembers i r → s.Remembers i r ∧
      (r = range.forkPoint ∨ r.height.toNat < range.forkPoint.height.toNat)) :
    Canonical i parentOf (min bottom range.forkPoint.height.toNat) after := by
  constructor
  case low =>
    rw [place]
    rintro _ ⟨⟩
    exact Nat.min_le_right _ _
  case known =>
    rw [place]
    rintro r _ remembered high ⟨⟩
    obtain ⟨old, rfl | lower⟩ := remembers r remembered
    · exact .refl
    · -- As the block lies below the fork, it is the bottom that it lies above.
      have aboveBottom : bottom ≤ r.height.toNat := by omega
      have forkLine := canonical.known _ mark fork (by omega) isMark
      exact (canonical.known r mark old aboveBottom isMark).of_height_le forkLine
        (Nat.le_of_lt lower)
  case pending =>
    rw [place, carried]
    intro id t found pending fresh
    obtain ⟨old, outside⟩ := reverted.pending recorded rangeChain found pending
    obtain ⟨origin, mark', isOrigin, isMark', high, ancestor⟩ :=
      canonical.pending id t old pending fresh
    obtain rfl := Option.some.inj (isMark'.symm.trans isMark)
    have below := ancestor.height_le
    have lower := (RevertedRange.contains_eq_false_iff fromFork (below.trans reaches)).1
      (outside origin isOrigin)
    have forkLine := canonical.known _ mark' fork (high.trans lower) isMark
    exact ⟨origin, _, isOrigin, rfl, (Nat.min_le_left _ _).trans high,
      ancestor.of_height_le forkLine lower⟩

/-- The pending transfers are left behind by a base block above an older watermark. -/
theorem mem_leftBehind (recorded : s.ledger.Recorded i.chain s.surroundings.issued taken)
    {mark : BlockRef} (isMark : (s.ledger.place i.chain).mark = some mark)
    {id : TransferId} {t : Transfer} (found : s.ledger.transfers.get? id = some t)
    (pending : t.status = .pending) : id ∈ s.leftBehind i.chain := by
  unfold leftBehind
  rw [show s.ledger.watermark i.chain = some mark from isMark]
  exact List.mem_map.2
    ⟨t, recorded.mem_pendingTransfers found pending, (recorded.stored id t found).1⟩

theorem canonical_effect
    (lineage : ∀ b, Gives answers i.chain b → b.parentHash = parentOf b.hash)
    (locked : Locked i answers s)
    (recorded : s.ledger.Recorded i.chain s.surroundings.issued taken)
    (canonical : Canonical i parentOf bottom s) (effect : Effect i answers s after) :
    ∃ bottom', Canonical i parentOf bottom' after := by
  cases effect with
  | still calm place carried remembers =>
      refine ⟨bottom, ?_, ?_, ?_⟩
      · rw [place]
        exact canonical.low
      · rw [place]
        exact fun r mark remembered => canonical.known r mark (remembers r remembered)
      · rw [place, carried, show after.ledger.transfers = _ from calm.records.transfers]
        exact canonical.pending
  | next entered stands place carried remembers =>
      cases isMark : (s.ledger.place i.chain).mark with
      | none =>
          -- Nothing is remembered, and nothing is pending but what was carried over.
          refine ⟨_, canonical_of_ground recorded entered place remembers ?_ ?_⟩
          · intro r old
            obtain ⟨mark, isMark', -⟩ := locked.remembers_below old
            rw [isMark] at isMark'
            cases isMark'
          · intro id t found pending
            by_contra fresh
            rw [carried] at fresh
            obtain ⟨origin, mark, -, isMark', -⟩ :=
              canonical.pending id t found pending fresh
            rw [isMark] at isMark'
            cases isMark'
      | some mark =>
          exact ⟨bottom, canonical_of_next (lineage _ entered.isGiven) canonical
            recorded entered isMark (stands mark isMark) place carried remembers⟩
  | base entered above place carried remembers =>
      refine ⟨_, canonical_of_ground recorded entered place remembers ?_ ?_⟩
      · intro r old
        obtain ⟨mark, isMark, below⟩ := locked.remembers_below old
        exact below.trans_lt (UInt64.lt_iff_toNat_lt.1 (above mark isMark))
      · rw [carried]
        intro id t found pending
        by_contra fresh
        obtain ⟨earlier, now⟩ := not_or.1 (mt List.mem_append.2 fresh)
        obtain ⟨origin, mark, -, isMark, -⟩ :=
          canonical.pending id t found pending earlier
        exact now (mem_leftBehind recorded isMark found pending)
  | repeated entered isMark place carried remembers =>
      refine ⟨bottom, ?_, ?_, ?_⟩
      · rw [place]
        exact canonical.low
      · rw [place]
        exact fun r mark remembered => canonical.known r mark (remembers r remembered)
      · rw [place, carried]
        intro id t found pending fresh
        rcases entered.pending recorded found pending with
          old | ⟨origin, isOrigin, height, hash⟩
        · exact canonical.pending id t old pending fresh
        · refine ⟨origin, _, isOrigin, isMark, ?_, ?_⟩
          · rw [height]
            exact canonical.low _ isMark
          · rw [height, hash]
            exact .refl
  | retreat reverted grows rangeChain isMark fromFork low reaches fork place carried
      remembers =>
      exact ⟨_, canonical_of_retreat canonical recorded (reverted taken recorded)
        rangeChain isMark fromFork reaches fork place carried remembers⟩

/-- A worker is in step, its records fit together, and what is pending is
of its branch. -/
structure Faithful (i : Ingest) (answers : Answering Surroundings)
    (parentOf : String → String) (s : Pursuit) : Prop where
  locked : Locked i answers s
  recorded : ∃ taken, s.ledger.Recorded i.chain s.surroundings.issued taken
  canonical : ∃ bottom, Canonical i parentOf bottom s

theorem faithful_run {catalog : Catalog} (consistent : catalog.Consistent)
    (alone : Alone catalog answers)
    (lineage : ∀ b, Gives answers i.chain b → b.parentHash = parentOf b.hash)
    (run : Run i answers (start i settings) s) : Faithful i answers parentOf s := by
  induction run with
  | refl => exact ⟨locked_start, ⟨_, Ledger.recorded_empty _ _⟩, ⟨_, canonical_start⟩⟩
  | tail _ step ih =>
      obtain ⟨locked, ⟨taken, recorded⟩, ⟨bottom, canonical⟩⟩ := ih
      have effect := effect_of_step consistent alone locked step
      exact ⟨locked_step (alone.placing i.chain) locked step, effect.recorded recorded,
        canonical_effect lineage locked recorded canonical effect⟩

/-! ## Confirmations -/

/-- A block that is due was given, and is ingested if the errand succeeds. -/
theorem Locked.entered {catalog : Catalog} (consistent : catalog.Consistent)
    (alone : Alone catalog answers) (locked : Locked i answers s) {errand : Errand}
    {b : Block} {lease : Lease} {there : Surroundings} (due : s.Due errand)
    (isBlock : errand.block? = some b)
    (leads : (errand.run i lease).Leads answers s.surroundings (.ok ()) there) :
    ∃ base h, Entered i answers b base lease h s.surroundings there := by
  cases errand with
  | base base =>
      cases isBlock
      exact ⟨true, entered_of_errand consistent alone (locked.basis b due).isGiven leads⟩
  | message m =>
      cases m with
      | accepted next live =>
          cases isBlock
          refine ⟨false, entered_of_errand consistent alone ?_ leads⟩
          rcases due with isFirst | isLast
          · obtain ⟨rest, messages⟩ := List.head?_eq_some_iff.1 isFirst
            exact (locked.next messages).2.1.1
          · exact (locked.last _ isLast).1
      | reverted range => cases isBlock
      | unavailable attempt retryIn => cases isBlock
      | halted reason => cases isBlock

/-- What is carried over to another branch once an errand is done. -/
def carriedBy (s : Pursuit) (chain : ChainId) : Errand → List TransferId
  | .base _ => s.carried ++ s.leftBehind chain
  | .message _ => s.carried

namespace Faithful

/-- What is pending and not carried over stems from an ancestor of the block to commit. -/
theorem ancestor (faithful : Faithful i answers parentOf s)
    (lineage : ∀ b, Gives answers i.chain b → b.parentHash = parentOf b.hash)
    {errand : Errand} {b : Block} (due : s.Due errand) (isBlock : errand.block? = some b)
    {id : TransferId} {t : Transfer} (found : s.ledger.transfers.get? id = some t)
    (pending : t.status = .pending) (fresh : id ∉ s.carriedBy i.chain errand) :
    ∃ origin, t.origin = .blockchain origin ∧
      Ancestor parentOf ⟨origin.blockHeight, origin.blockHash⟩ b.ref := by
  obtain ⟨locked, ⟨taken, recorded⟩, ⟨bottom, canonical⟩⟩ := faithful
  cases errand with
  | base base =>
      -- Whatever is pending is carried over, now or before.
      obtain ⟨earlier, now⟩ := not_or.1 (mt List.mem_append.2 fresh)
      obtain ⟨origin, mark, -, isMark, -⟩ := canonical.pending id t found pending earlier
      exact absurd (mem_leftBehind recorded isMark found pending) now
  | message m =>
      obtain ⟨origin, mark, isOrigin, isMark, -, toMark⟩ :=
        canonical.pending id t found pending fresh
      refine ⟨origin, isOrigin, ?_⟩
      cases m with
      | accepted next live =>
          cases isBlock
          rcases due with isFirst | isLast
          · obtain ⟨rest, messages⟩ := List.head?_eq_some_iff.1 isFirst
            obtain ⟨following, continues, -⟩ := locked.next messages
            have stands := continues.2 mark ((locked.agree following).tip.trans isMark)
            exact toMark.tail ⟨stands.1, stands.2.symm.trans (lineage b continues.1)⟩
          · obtain rfl := Option.some.inj ((locked.last _ isLast).2.symm.trans isMark)
            exact toMark
      | reverted range => cases isBlock
      | unavailable attempt retryIn => cases isBlock
      | halted reason => cases isBlock

end Faithful

/-- A block that is due is committed and confirms a pending transfer. -/
structure Confirms (i : Ingest) (answers : Answering Surroundings) (s : Pursuit)
    (errand : Errand) (b : Block) (id : TransferId) (t : Transfer) : Prop where
  due : s.Due errand
  isBlock : errand.block? = some b
  before : ∃ u, s.ledger.transfers.get? id = some u ∧ u.status = .pending
  committed :
      ∃ lease there, (errand.run i lease).Leads answers s.surroundings (.ok ()) there ∧
    there.ledger.transfers.get? id = some t ∧ t.status = .confirmed

/-- A transfer that a block confirms stems from an ancestor of the block, unless a base
block above an older watermark carried it over. -/
theorem confirms_of_branch {catalog : Catalog} {entries : List TargetEntry}
    (listed : Catalog.ofEntries entries = .ok catalog) (alone : Alone catalog answers)
    (lineage : ∀ b, Gives answers i.chain b → b.parentHash = parentOf b.hash)
    (run : Run i answers (start i settings) s) {errand : Errand} {b : Block}
    {id : TransferId} {t : Transfer} (confirms : Confirms i answers s errand b id t) :
    (∃ origin, t.origin = .blockchain origin ∧
      Ancestor parentOf ⟨origin.blockHeight, origin.blockHash⟩ b.ref) ∨
    id ∈ s.carriedBy i.chain errand := by
  have consistent := Catalog.consistent_of_ofEntries listed
  have faithful := faithful_run consistent alone lineage run
  obtain ⟨u, found, pending⟩ := confirms.before
  obtain ⟨lease, there, leads, afterwards, confirmed⟩ := confirms.committed
  by_cases carried : id ∈ s.carriedBy i.chain errand
  · exact Or.inr carried
  · obtain ⟨origin, isOrigin, ancestor⟩ :=
      faithful.ancestor lineage confirms.due confirms.isBlock found pending carried
    refine Or.inl ⟨origin, ?_, ancestor⟩
    obtain ⟨taken, recorded⟩ := faithful.recorded
    obtain ⟨base, h, entered⟩ :=
      faithful.locked.entered consistent alone confirms.due confirms.isBlock leads
    obtain ⟨now, present, same | change⟩ :=
      (entered.absorbed recorded).present recorded.toKeyed found
    · obtain rfl := Option.some.inj (afterwards.symm.trans present)
      rw [same.1, pending] at confirmed
      cases confirmed
    · obtain rfl := Option.some.inj (afterwards.symm.trans present)
      exact (Transfer.confirmedAs_of_due change).origin.trans isOrigin

/-! ## On and off the branch -/

/-- The block of both branches that has the hash. -/
def sampleBlock? (hash : String) : Option Block :=
  (bothBranches.blocks.map Prod.fst).find? fun b => b.hash == hash

def sampleParentOf (hash : String) : String :=
  ((sampleBlock? hash).map (·.parentHash)).getD ""

def sampleHeightOf (hash : String) : Height :=
  ((sampleBlock? hash).map (·.height)).getD 0

theorem sample_lineage (b : Block) (isGiven : Gives sampleAnswers ⟨1⟩ b) :
    b.height = sampleHeightOf b.hash ∧ b.parentHash = sampleParentOf b.hash := by
  have all : ∀ b ∈ bothBranches.blocks.map Prod.fst,
      b.height = sampleHeightOf b.hash ∧ b.parentHash = sampleParentOf b.hash := by
    decide +kernel
  exact all b (Surroundings.mem_archive_of_gives isGiven)

/-- What a worker commits next. -/
def errand? (s : Pursuit) : Option Errand :=
  match s.stance with
  | .based b => some (.base b)
  | _ => s.messages.head?.map .message

theorem due_of_errand? {errand : Errand} (next : s.errand? = some errand) :
    s.Due errand := by
  unfold errand? at next
  split at next
  · rename_i b based
    cases next
    exact based
  · obtain ⟨m, first, rfl⟩ := Option.map_eq_some_iff.1 next
    exact Or.inl first

/-- The stored transfer with this identifier has the status and stems from a block. -/
def hasTransfer (status : TransferStatus) (origin : BlockRef) (l : Ledger)
    (id : TransferId) : Bool :=
  (l.transfers.get? id).any fun t => t.status == status &&
    match t.origin with
    | .blockchain o => o.blockHeight == origin.height && o.blockHash == origin.hash
    | _ => false

theorem exists_of_hasTransfer {status : TransferStatus} {origin : BlockRef} {l : Ledger}
    {id : TransferId} (has : hasTransfer status origin l id = true) :
    ∃ t, l.transfers.get? id = some t ∧ t.status = status ∧
      ∃ o, t.origin = .blockchain o ∧
      (⟨o.blockHeight, o.blockHash⟩ : BlockRef) = origin := by
  obtain ⟨t, found, isSuch⟩ := (Option.any_eq_true _ _).1 has
  rw [Bool.and_eq_true, beq_iff_eq] at isSuch
  obtain ⟨same, stems⟩ := isSuch
  refine ⟨t, found, same, ?_⟩
  split at stems
  · rename_i o isOrigin
    rw [Bool.and_eq_true, beq_iff_eq, beq_iff_eq] at stems
    exact ⟨o, isOrigin, by rw [stems.1, stems.2]⟩
  · cases stems

/-- With these nodes the next errand of the sample commits a block and confirms a
transfer that stems from another, and that is carried over or not. -/
def confirmsFrom (n : Nodes) (block origin : BlockRef) (carries : Bool) (s : Pursuit) :
    Bool :=
  s.errand?.any fun errand =>
    (errand.block?.any fun b => b.ref == block) &&
      (s.succeed? Session.sampleIngest Session.sampleCatalog bothBranches n
        Session.sampleLease errand).any fun there =>
      (s.ledger.transfers.values.map (·.id)).any fun id =>
        hasTransfer .pending origin s.ledger id &&
          hasTransfer .confirmed origin there.ledger id &&
          (s.carriedBy ⟨1⟩ errand).contains id == carries

theorem exists_confirms_of_play {acts : List Act} {n : Nodes} {block origin : BlockRef}
    {carries : Bool}
    (played : (play acts).any (confirmsFrom n block origin carries) = true) :
    ∃ s, Run Session.sampleIngest sampleAnswers
        (start Session.sampleIngest Session.sampleSettings) s ∧
      ∃ errand b id t o, Confirms Session.sampleIngest sampleAnswers s errand b id t ∧
        b.ref = block ∧ t.origin = .blockchain o ∧
        (⟨o.blockHeight, o.blockHash⟩ : BlockRef) = origin ∧
        (id ∈ s.carriedBy ⟨1⟩ errand ↔ carries = true) := by
  obtain ⟨s, run, found⟩ := exists_run_of_play played
  obtain ⟨errand, next, found⟩ := (Option.any_eq_true _ _).1 found
  rw [Bool.and_eq_true] at found
  obtain ⟨isBlock, found⟩ := found
  obtain ⟨b, isBlock, sameBlock⟩ := (Option.any_eq_true _ _).1 isBlock
  obtain ⟨there, succeeds, found⟩ := (Option.any_eq_true _ _).1 found
  obtain ⟨id, -, found⟩ := List.any_eq_true.1 found
  simp only [Bool.and_eq_true, beq_iff_eq] at found sameBlock
  obtain ⟨⟨before, afterwards⟩, carried⟩ := found
  obtain ⟨u, stored, pending, -⟩ := exists_of_hasTransfer before
  obtain ⟨t, changed, confirmed, o, isOrigin, same⟩ := exists_of_hasTransfer afterwards
  obtain ⟨-, leads⟩ := leads_of_succeed? succeeds
  refine ⟨s, run, errand, b, id, t, o,
    ⟨due_of_errand? next, isBlock, ⟨u, stored, pending⟩, _,
    there, leads, changed, confirmed⟩, sameBlock, isOrigin, same, ?_⟩
  rw [← carried, List.contains_iff_mem]

/-- The third block of the branch of the payment confirms it. -/
theorem confirms_of_branch_outward : ∃ s,
    Run Session.sampleIngest sampleAnswers
      (start Session.sampleIngest Session.sampleSettings) s ∧
    ∃ errand b id t o, Confirms Session.sampleIngest sampleAnswers s errand b id t ∧
      id ∉ s.carriedBy ⟨1⟩ errand ∧ b.ref = ⟨3, "0xa3"⟩ ∧ t.origin = .blockchain o ∧
      (⟨o.blockHeight, o.blockHash⟩ : BlockRef) = ⟨2, "0xa2"⟩ ∧
      Ancestor sampleParentOf ⟨o.blockHeight, o.blockHash⟩ b.ref := by
  have played : (play (outward ++ [.advance Session.homeBranch 3])).any
      (confirmsFrom Session.homeBranch ⟨3, "0xa3"⟩ ⟨2, "0xa2"⟩ false) = true := by
    decide +kernel
  obtain ⟨s, run, errand, b, id, t, o, confirms, isBlock, isOrigin, same, carried⟩ :=
    exists_confirms_of_play played
  have fresh : id ∉ s.carriedBy ⟨1⟩ errand :=
    fun member => Bool.false_ne_true (carried.1 member)
  rcases confirms_of_branch Session.listed_sampleCatalog Surroundings.alone_answersFrom
      (fun b isGiven => (sample_lineage b isGiven).2) run confirms with
    ⟨o', isOrigin', ancestor⟩ | member
  · rw [isOrigin] at isOrigin'
    cases isOrigin'
    exact ⟨s, run, errand, b, id, t, o, confirms, fresh, isBlock, isOrigin,
      same, ancestor⟩
  · exact absurd member fresh

/-- It is not true that a block confirms only what stems from its ancestors:  a worker
that comes to the payment, and is started again when the nodes are on the other branch
and too far ahead, confirms the payment with its base block there. -/
theorem other_branch_may_be_confirmed : ¬ ∀ (i : Ingest) (settings : TrackerSettings)
    (entries : List TargetEntry) (catalog : Catalog) (answers : Answering Surroundings)
    (heightOf : String → Height) (parentOf : String → String) (s : Pursuit), 1 ≤ i.depth →
    Catalog.ofEntries entries = .ok catalog → Alone catalog answers →
    (∀ b, Gives answers i.chain b → b.height = heightOf b.hash ∧
      b.parentHash = parentOf b.hash) →
    Run i answers (start i settings) s →
    ∀ errand b id t, Confirms i answers s errand b id t →
      ∃ origin, t.origin = .blockchain origin ∧
      Ancestor parentOf ⟨origin.blockHeight, origin.blockHash⟩ b.ref := by
  intro claim
  have played : (play (outward ++ [.restart, .rebase farBranch 4])).any
      (confirmsFrom farBranch ⟨4, "0xb4"⟩ ⟨2, "0xa2"⟩ true) = true := by
    decide +kernel
  obtain ⟨s, run, errand, b, id, t, o, confirms, isBlock, isOrigin, same, -⟩ :=
    exists_confirms_of_play played
  obtain ⟨o', isOrigin', ancestor⟩ :=
    claim _ _ _ _ _ sampleHeightOf sampleParentOf s (by decide)
    Session.listed_sampleCatalog Surroundings.alone_answersFrom sample_lineage run
      errand b id t
    confirms
  rw [isOrigin] at isOrigin'
  cases isOrigin'
  rw [same, isBlock] at ancestor
  have onBranch : Ancestor sampleParentOf ⟨2, "0xb2"⟩ ⟨4, "0xb4"⟩ :=
    .tail (.single (b := ⟨3, "0xb3"⟩) ⟨by decide, by decide +kernel⟩)
      ⟨by decide, by decide +kernel⟩
  have together := ancestor.of_height_le onBranch (Nat.le_refl _)
  have equal := together.eq_of_height rfl
  revert equal
  decide

end Pursuit

end Paywatch
