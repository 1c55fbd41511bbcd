import Mathlib.Logic.Relation
import Paywatch.Proofs.Head.Linked
import Paywatch.Proofs.Ledger.Newest

/-!
# A worker that keeps up with its chain

A pursuit is a worker of one chain with its tracker:  it starts from a base block or
goes on from the watermark, applies what the tracker tells, and may be interrupted
and started again at any moment.  Whatever happens, the window with the applied
messages agrees with the place of the chain in the ledger, so nothing that the
worker commits fails to link.
-/

namespace Paywatch

/-- How a worker stands to its chain. -/
inductive Stance where
  /-- It was started, and has not yet looked where to go on. -/
  | idle
  /-- It starts from this block, which is not committed yet. -/
  | based (b : Block)
  | following

/-- What a worker may have to commit. -/
inductive Errand where
  | base (b : Block)
  | message (m : Message)

namespace Errand

def run (i : Ingest) (lease : Lease) : Errand → Flow (Except WorkerError Unit)
  | base b => do return (← i.block lease b true).map fun _ => ()
  | message m => i.apply lease m

/-- The block that is committed, if it is one. -/
def block? : Errand → Option Block
  | base b => some b
  | message (.accepted b _) => some b
  | message _ => none

/-- The batch before its contents. -/
def batch (lease : Lease) : Errand → Option Batch
  | base b => some (.ofBase lease b)
  | message m => m.batch lease

end Errand

/-- The tracker of a worker, what it told that is not applied yet, and
what both live in. -/
structure Pursuit where
  tracker : Tracker
  stance : Stance
  messages : List Message
  surroundings : Surroundings
  /-- The tracker as it was when it told what is applied by now. -/
  settled : Tracker
  /-- The message that was applied last. -/
  last : Option Message
  /-- The transfers that were pending when a base block was committed
  above an older watermark. -/
  carried : List TransferId

/-- The tracker without its blocks. -/
def Tracker.blank (t : Tracker) : Tracker := { t with window := emptyWindow t.settings }

namespace Pursuit

def ledger (s : Pursuit) : Ledger := s.surroundings.ledger

/-- A new tracker and an empty ledger. -/
def start (i : Ingest) (settings : TrackerSettings) : Pursuit where
  tracker := .new i.chain settings
  stance := .following
  messages := []
  surroundings := ⟨.empty, []⟩
  settled := .new i.chain settings
  last := none
  carried := []

/-- A worker commits its base block, or the oldest message, or the last one once more. -/
def Due (s : Pursuit) : Errand → Prop
  | .base b => s.stance = .based b
  | .message m => s.messages.head? = some m ∨ s.last = some m

/-- The pending transfers that a base block leaves behind. -/
def leftBehind (s : Pursuit) (chain : ChainId) : List TransferId :=
  match s.ledger.watermark chain with
  | none => []
  | some _ => (s.ledger.pendingTransfers chain).map (·.id)

inductive Step (i : Ingest) (answers : Answering Surroundings) :
    Pursuit → Pursuit → Prop where
  /-- The worker starts again, with the same tracker or a new one; what
  was told is lost. -/
  | restart (s : Pursuit) (t : Tracker)
      (sameOrNew : t = s.tracker ∨ ∃ settings, t = .new i.chain settings) :
      Step i answers s
        { s with tracker := t, stance := .idle, messages := [], settled := t.blank }
  /-- The tracker goes on from the watermark. -/
  | resume (s : Pursuit) (mark : BlockRef) (t : Tracker) (after : Surroundings)
      (idle : s.stance = .idle) (isMark : s.ledger.watermark i.chain = some mark)
      (leads : (CatchUp.resume i s.tracker mark).Leads answers s.surroundings t after) :
      Step i answers s
        { s with tracker := t, stance := .following, surroundings := after, settled := t }
  /-- The tracker starts anew, above the watermark if there is one. -/
  | rebase (s : Pursuit) (height : Height) (b : Block) (after : Surroundings)
      (idle : s.stance = .idle)
      (above : ∀ mark, s.ledger.watermark i.chain = some mark → mark.height < height)
      (leads : (s.tracker.fetchBlock height).Leads answers s.surroundings (.ok b) after) :
      Step i answers s
        { s with
          tracker := s.tracker.resetBase b
          stance := .based b
          surroundings := after }
  /-- The base block is committed. -/
  | ground (s : Pursuit) (b : Block) (lease : Lease) (after : Surroundings)
      (based : s.stance = .based b) (leaseChain : lease.chain = i.chain)
      (leads : ((Errand.base b).run i lease).Leads answers s.surroundings
        (.ok ()) after) :
      Step i answers s
        { s with
          stance := .following
          surroundings := after
          settled := s.tracker
          last := none
          carried := s.carried ++ s.leftBehind i.chain }
  /-- The tracker goes on, and tells what it found, also if it fails in the end. -/
  | advance (s : Pursuit) (target : Height) (live : Bool) (a : Tracker.Advance)
      (after : Surroundings) (following : s.stance = .following)
      (leads : (s.tracker.advance target live).Leads answers s.surroundings a after) :
      Step i answers s
        { s with
          tracker := a.tracker
          messages := s.messages ++ a.messages
          surroundings := after }
  /-- The oldest message is applied. -/
  | apply (s : Pursuit) (m : Message) (rest : List Message) (lease : Lease)
      (after : Surroundings)
      (next : s.messages = m :: rest) (leaseChain : lease.chain = i.chain)
      (leads : ((Errand.message m).run i lease).Leads answers s.surroundings
        (.ok ()) after) :
      Step i answers s
        { s with
          messages := rest
          surroundings := after
          settled := s.settled.follow m
          last := some m }
  /-- The last message is applied once more. -/
  | again (s : Pursuit) (m : Message) (lease : Lease) (after : Surroundings)
      (isLast : s.last = some m) (leaseChain : lease.chain = i.chain)
      (leads : ((Errand.message m).run i lease).Leads answers s.surroundings
        (.ok ()) after) :
      Step i answers s { s with surroundings := after }
  /-- What the worker has to commit fails, and can be tried again. -/
  | fail (s : Pursuit) (errand : Errand) (lease : Lease) (e : WorkerError)
      (after : Surroundings) (due : s.Due errand) (leaseChain : lease.chain = i.chain)
      (leads : (errand.run i lease).Leads answers s.surroundings (.error e) after) :
      Step i answers s { s with surroundings := after }
  /-- Somebody makes a call that commits nothing. -/
  | ask (s : Pursuit) (c : Call) (reply : c.Reply) (after : Surroundings)
      (plain : c.Plain) (answer : answers s.surroundings c reply after) :
      Step i answers s { s with surroundings := after }
  | wait (s : Pursuit) (ticks : Nat) :
      Step i answers s
        { s with surroundings := { s.surroundings with ledger := s.ledger.wait ticks } }

abbrev Run (i : Ingest) (answers : Answering Surroundings) : Pursuit → Pursuit → Prop :=
  Relation.ReflTransGen (Step i answers)

end Pursuit

/-! ## A tracker and a place that agree -/

/-- The place after a message. -/
def Place.follow (p : Place) : Message → Place
  | .accepted b _ => p.moveTo b.ref
  | .reverted range => (p.forget range.fromHeight).moveTo range.forkPoint
  | _ => p

/-- The window ends at the watermark, and no remembered block is on another branch. -/
structure Agree (t : Tracker) (p : Place) : Prop where
  rooted : p.Rooted
  consecutive : t.window.Consecutive
  tip : t.tip? = p.mark
  remembered : ∀ r ∈ t.window.blocks, ∀ q, p.recent r.height = some q → q = r

namespace Agree

variable {given : Block → Prop} {t : Tracker} {p : Place} {m : Message}

/-- The next block of the tracker links onto the watermark. -/
theorem accept {b : Block} {live : Bool} (agree : Agree t p)
    (continues : t.Continues given (.accepted b live)) (lease : Lease) :
    p.commit (.ofBlock lease b) = .ok (p.moveTo b.ref) ∧
      Agree (t.push b) (p.moveTo b.ref) := by
  have stands : ∀ mark, p.mark = some mark → b.StandsOn mark :=
    fun mark isMark => continues.2 mark (agree.tip.trans isMark)
  have low : ∀ h r, p.recent h = some r → h.toNat < b.height.toNat := by
    intro h r found
    obtain ⟨mark, isMark, below⟩ := agree.rooted.below h r found
    have next := (stands mark isMark).1
    omega
  constructor
  · exact Place.commit_ofBlock stands
  · refine ⟨Place.rooted_moveTo agree.rooted.height fun h r found =>
      Nat.le_of_lt (low h r found), continues.consecutive agree.consecutive,
      BlockWindow.tip?_push _ _, ?_⟩
    intro r member q found
    rcases Place.recent_moveTo found with ⟨same, rfl⟩ | ⟨elsewhere, old⟩
    · rcases BlockWindow.mem_push member with among | rfl
      · -- A block of the old window lies below the new one.
        obtain ⟨tip, isTip⟩ : ∃ tip, t.tip? = some tip :=
          Option.isSome_iff_exists.1 (List.getLast?_isSome.2 (List.ne_nil_of_mem among))
        have next := (continues.2 tip isTip).1
        have here : r.height.toNat = b.height.toNat := congrArg UInt64.toNat same
        rcases agree.consecutive.le_tip isTip among with rfl | lower <;> omega
      · rfl
    · rcases BlockWindow.mem_push member with among | rfl
      · exact agree.remembered r among q old
      · exact absurd rfl elsewhere

/-- The range that a tracker takes back ends at the watermark and goes down to a block
that the ledger, if it remembers that height, remembers as well. -/
theorem retreat {range : RevertedRange} {tip : BlockRef} (agree : Agree t p)
    (retreat : t.Retreat range tip) (lease : Lease) :
    p.commit (.ofRevert lease range) = .ok (p.follow (.reverted range)) ∧
      Agree (t.follow (.reverted range)) (p.follow (.reverted range)) := by
  have isMark : p.mark = some tip := agree.tip.symm.trans retreat.isTip
  have below : range.forkPoint.height.toNat < tip.height.toNat := by
    have nonempty := retreat.nonempty
    rw [retreat.fromFork, retreat.toTip] at nonempty
    omega
  constructor
  · exact Place.commit_ofRevert isMark (UInt64.le_iff_toNat_le.2 (Nat.le_of_lt below))
      (agree.remembered _ retreat.accepted)
  · refine ⟨Place.rooted_moveTo ?_ ?_, agree.consecutive.truncateAbove retreat.accepted,
      agree.consecutive.tip?_truncateAbove retreat.accepted, ?_⟩
    · intro h r found
      exact agree.rooted.height h r (Place.recent_forget found).1
    · intro h r found
      have lower := (Place.recent_forget found).2
      rw [retreat.fromFork] at lower
      omega
    · intro r member q found
      have among := BlockWindow.mem_truncateAbove member
      rcases Place.recent_moveTo found with ⟨same, rfl⟩ | ⟨-, old⟩
      · -- Two blocks of one window at one height are one block.
        exact agree.consecutive.eq_of_height retreat.accepted among same.symm
      · exact agree.remembered r among q (Place.recent_forget old).1

theorem follow (agree : Agree t p) (continues : t.Continues given m) (lease : Lease) :
    ∃ start, m.batch lease = some start ∧ p.commit start = .ok (p.follow m) ∧
      Agree (t.follow m) (p.follow m) := by
  cases m with
  | accepted b live => exact ⟨_, rfl, agree.accept continues lease⟩
  | reverted range =>
      obtain ⟨tip, retreats⟩ := continues
      exact ⟨_, rfl, agree.retreat retreats lease⟩
  | unavailable attempt retryIn => exact continues.elim
  | halted reason => exact continues.elim

/-- A place that only forgot some blocks. -/
theorem fewer {q : Place} (agree : Agree t p) (rooted : q.Rooted) (mark : q.mark = p.mark)
    (fewer : ∀ h r, q.recent h = some r → p.recent h = some r) : Agree t q where
  rooted := rooted
  consecutive := agree.consecutive
  tip := agree.tip.trans mark.symm
  remembered r member q found := agree.remembered r member q (fewer _ _ found)

/-- A window of remembered blocks that ends at the watermark. -/
theorem of_stored (rooted : p.Rooted) (consecutive : t.window.Consecutive)
    (tip : t.tip? = p.mark) (stored : ∀ r ∈ t.window.blocks, p.recent r.height = some r) :
    Agree t p where
  rooted := rooted
  consecutive := consecutive
  tip := tip
  remembered r member _ found := Option.some.inj (found.symm.trans (stored r member))

/-- A base block and the window that starts from it. -/
theorem base {b : Block} (rooted : p.Rooted) (blocks : t.window.blocks = [b.ref])
    (above : ∀ mark, p.mark = some mark → mark.height < b.height) :
    Agree t (p.moveTo b.ref) := by
  have moved : (p.moveTo b.ref).Rooted := by
    refine Place.rooted_moveTo rooted.height fun h r found => ?_
    obtain ⟨mark, isMark, below⟩ := rooted.below h r found
    have higher := UInt64.lt_iff_toNat_lt.1 (above mark isMark)
    show h.toNat ≤ b.height.toNat
    omega
  refine of_stored moved ?_ ?_ ?_
  · rw [BlockWindow.Consecutive, blocks]
    exact List.IsChain.singleton _
  · rw [Tracker.tip?, BlockWindow.tip?, blocks]
    rfl
  · intro r member
    rw [blocks] at member
    rw [List.mem_singleton.1 member]
    exact moved.marked _ rfl

end Agree

/-- The message was applied, and the watermark is still where it led. -/
def Message.Stands (given : Block → Prop) (chain : ChainId) (p : Place) : Message → Prop
  | accepted b _ => given b ∧ p.mark = some b.ref
  | reverted range => range.chain = chain ∧ p.mark = some range.forkPoint ∧
      range.fromHeight.toNat = range.forkPoint.height.toNat + 1 ∧
      range.fromHeight.toNat ≤ range.toHeight.toNat
  | _ => False

/-- The place after a message that was applied before. -/
def Place.again (p : Place) : Message → Place
  | .reverted range => p.follow (.reverted range)
  | _ => p

/-- A message that was applied links once more:  a block moves nothing, and a range
forgets nothing that the place stands on. -/
theorem Message.Stands.again {given : Block → Prop} {chain : ChainId} {p : Place}
    {m : Message} (stands : m.Stands given chain p) (rooted : p.Rooted) (lease : Lease) :
    ∃ start, m.batch lease = some start ∧
      (∀ e, p.commit start = .error e → e.isMismatch = false) ∧
      (∀ q, p.commit start = .ok q → q = p.again m) ∧
      (p.again m).Rooted ∧ (p.again m).mark = p.mark ∧
      ∀ h r, (p.again m).recent h = some r → p.recent h = some r := by
  cases m with
  | accepted b live =>
      have marked : (p.recent b.height).map (·.hash) = some b.hash :=
        congrArg (Option.map (·.hash)) (rooted.marked _ stands.2)
      refine ⟨_, rfl, ?_, ?_, rooted, rfl, fun _ _ found => found⟩
      · intro e refused
        rcases Nat.lt_or_ge (b.height.toNat + 1) (2 ^ 64) with notLast | last
        · have accepted : p.commit (.ofBlock lease b) = .ok p :=
            (Place.commit_ofBlock_old stands.2 (Nat.le_refl _) notLast).2 ⟨marked, rfl⟩
          rw [accepted] at refused
          cases refused
        · rw [Place.commit_ofBlock_last stands.2 last] at refused
          cases refused
          rfl
      · intro q accepted
        rcases Nat.lt_or_ge (b.height.toNat + 1) (2 ^ 64) with notLast | last
        · exact ((Place.commit_ofBlock_old stands.2 (Nat.le_refl _) notLast).1 accepted).2
        · rw [Place.commit_ofBlock_last stands.2 last] at accepted
          cases accepted
  | reverted range =>
      obtain ⟨-, isMark, fromFork, -⟩ := stands
      have marked := rooted.marked _ isMark
      have commits : p.commit (.ofRevert lease range) = .ok (p.again (.reverted range)) :=
        Place.commit_ofRevert isMark (UInt64.le_iff_toNat_le.2 (Nat.le_refl _))
          fun r found => Option.some.inj (found.symm.trans marked)
      refine ⟨_, rfl, ?_, ?_, Place.rooted_moveTo ?_ ?_, isMark.symm, ?_⟩
      · rw [commits]
        nofun
      · rw [commits]
        exact fun q same => (Except.ok.inj same).symm
      · intro h r found
        exact rooted.height h r (Place.recent_forget found).1
      · intro h r found
        have lower := (Place.recent_forget found).2
        rw [fromFork] at lower
        omega
      · intro h r found
        rcases Place.recent_moveTo found with ⟨rfl, rfl⟩ | ⟨-, old⟩
        · exact marked
        · exact (Place.recent_forget old).1
  | unavailable attempt retryIn => exact stands.elim
  | halted reason => exact stands.elim

theorem Tracker.Continues.stands {given : Block → Prop} {chain : ChainId} {t : Tracker}
    {p : Place} {m : Message} (continues : t.Continues given m)
    (ofChain : t.chain = chain) : m.Stands given chain (p.follow m) := by
  cases m with
  | accepted b live => exact ⟨continues.1, rfl⟩
  | reverted range =>
      obtain ⟨tip, retreat⟩ := continues
      exact ⟨retreat.chain.trans ofChain, rfl, retreat.fromFork, retreat.nonempty⟩
  | unavailable attempt retryIn => exact continues.elim
  | halted reason => exact continues.elim

/-! ## Lock-step -/

theorem Ledger.mem_recentBlocks {l : Ledger} {chain : ChainId} {limit : Nat}
    {r : BlockRef} (member : r ∈ l.recentBlocks chain limit) :
    ∃ h, (l.place chain).recent h = some r :=
  mem_allRecent.1 (List.mem_of_mem_drop member)

/-- The batch of an errand is the one that its flow commits. -/
theorem Errand.leads_run {answers : Answering Surroundings} {i : Ingest}
    (placing : Placing i.chain answers) {errand : Errand} {lease : Lease} {start : Batch}
    {s after : Surroundings} {r : Except WorkerError Unit}
    (leaseChain : lease.chain = i.chain) (isBatch : errand.batch lease = some start)
    (leads : (errand.run i lease).Leads answers s r after) :
    Resulted start (s.ledger.place i.chain) (after.ledger.place i.chain) r := by
  cases errand with
  | base b =>
      cases isBatch
      obtain ⟨result, there, ingests, rfl, rfl⟩ := Flow.leads_bind.1 leads
      have resulted := Ingest.leads_block placing leaseChain ingests
      cases result <;> exact resulted
  | message m => exact Ingest.leads_apply placing leaseChain isBatch leads

namespace Pursuit

/-- The base block of a worker lies above the watermark, and is the whole window. -/
structure Basis (given : Block → Prop) (p : Place) (t : Tracker) (b : Block) : Prop where
  isGiven : given b
  above : ∀ mark, p.mark = some mark → mark.height < b.height
  blocks : t.window.blocks = [b.ref]

/-- The worker, its tracker and the ledger are in step. -/
structure Locked (i : Ingest) (answers : Answering Surroundings) (s : Pursuit) :
    Prop where
  rooted : (s.ledger.place i.chain).Rooted
  trackerChain : s.tracker.chain = i.chain
  unsettled : s.stance ≠ .following →
    s.messages = [] ∧ s.settled.window.blocks = []
  basis : ∀ b, s.stance = .based b →
    Basis (Gives answers i.chain) (s.ledger.place i.chain) s.tracker b
  agree : s.stance = .following → Agree s.settled (s.ledger.place i.chain)
  linked : s.settled.Linked (Gives answers i.chain) s.messages
  reached : s.stance = .following → s.messages.foldl Tracker.follow s.settled = s.tracker
  last : ∀ m, s.last = some m →
    m.Stands (Gives answers i.chain) i.chain (s.ledger.place i.chain)

variable {i : Ingest} {answers : Answering Surroundings} {settings : TrackerSettings}
  {s after : Pursuit}

theorem locked_start : Locked i answers (start i settings) where
  rooted := ⟨by rintro _ ⟨⟩, by rintro _ _ ⟨⟩, by rintro _ _ ⟨⟩⟩
  trackerChain := rfl
  unsettled other := absurd rfl other
  basis := by rintro _ ⟨⟩
  agree _ := Agree.of_stored ⟨by rintro _ ⟨⟩, by rintro _ _ ⟨⟩, by rintro _ _ ⟨⟩⟩
    (BlockWindow.consecutive_ofCapacity _) rfl (by rintro _ ⟨⟩)
  linked := trivial
  reached _ := rfl
  last := by rintro _ ⟨⟩

namespace Locked

theorem settledChain (locked : Locked i answers s) (following : s.stance = .following) :
    s.settled.chain = i.chain := by
  rw [← locked.trackerChain, ← locked.reached following, Tracker.foldl_follow_chain]

/-- Only a worker that follows its chain has messages to apply, and the first one goes
on from what was applied before. -/
theorem next (locked : Locked i answers s) {m : Message} {rest : List Message}
    (next : s.messages = m :: rest) : s.stance = .following ∧
      s.settled.Continues (Gives answers i.chain) m ∧
      (s.settled.follow m).Linked (Gives answers i.chain) rest := by
  have linked := locked.linked
  rw [next] at linked
  refine ⟨?_, linked⟩
  by_contra other
  rw [(locked.unsettled other).1] at next
  cases next

/-- What a worker has to commit links. -/
theorem links (locked : Locked i answers s) {errand : Errand} (due : s.Due errand)
    (lease : Lease) : ∃ start, errand.batch lease = some start ∧
      ∀ e, (s.ledger.place i.chain).commit start = .error e → e.isMismatch = false := by
  cases errand with
  | base b =>
      refine ⟨_, rfl, ?_⟩
      rw [Place.commit_ofBase (locked.basis b due).above]
      nofun
  | message m =>
      rcases due with isFirst | isLast
      · obtain ⟨rest, messages⟩ := List.head?_eq_some_iff.1 isFirst
        obtain ⟨following, continues, -⟩ := locked.next messages
        obtain ⟨start, isBatch, commits, -⟩ :=
          (locked.agree following).follow continues lease
        refine ⟨start, isBatch, ?_⟩
        rw [commits]
        nofun
      · obtain ⟨start, isBatch, harmless, -⟩ :=
          (locked.last m isLast).again locked.rooted lease
        exact ⟨start, isBatch, harmless⟩

/-- No commit of the worker fails to link. -/
theorem linking (placing : Placing i.chain answers) (locked : Locked i answers s)
    {errand : Errand} {lease : Lease} {e : WorkerError} {there : Surroundings}
    (due : s.Due errand) (leaseChain : lease.chain = i.chain)
    (leads : (errand.run i lease).Leads answers s.surroundings (.error e) there) :
    e.isMismatch = false ∧ there.ledger.place i.chain = s.ledger.place i.chain := by
  obtain ⟨start, isBatch, harmless⟩ := locked.links due lease
  obtain ⟨kept, refused⟩ := Errand.leads_run placing leaseChain isBatch leads
  refine ⟨?_, kept⟩
  cases mismatch : e.isMismatch with
  | false => rfl
  | true =>
      obtain ⟨refusal, failed, isMismatch⟩ := refused mismatch
      cases (harmless refusal failed).symm.trans isMismatch

/-- A base block moves the place to itself. -/
theorem moved_base (placing : Placing i.chain answers) (locked : Locked i answers s)
    {b : Block} {lease : Lease} {there : Surroundings} (based : s.stance = .based b)
    (leaseChain : lease.chain = i.chain)
    (leads : ((Errand.base b).run i lease).Leads answers s.surroundings (.ok ()) there) :
    there.ledger.place i.chain = (s.ledger.place i.chain).moveTo b.ref ∧
      Agree s.tracker (there.ledger.place i.chain) := by
  have basis := locked.basis b based
  have commits : (s.ledger.place i.chain).commit (.ofBase lease b) = .ok _ :=
    Place.commit_ofBase basis.above
  have moved : there.ledger.place i.chain = (s.ledger.place i.chain).moveTo b.ref :=
    Except.ok.inj ((Errand.leads_run placing leaseChain rfl leads).symm.trans commits)
  rw [moved]
  exact ⟨rfl, Agree.base locked.rooted basis.blocks basis.above⟩

/-- A message moves the place along with the window. -/
theorem moved_next (placing : Placing i.chain answers) (locked : Locked i answers s)
    {m : Message} {rest : List Message} {lease : Lease} {there : Surroundings}
    (next : s.messages = m :: rest) (leaseChain : lease.chain = i.chain)
    (leads : ((Errand.message m).run i lease).Leads answers s.surroundings
      (.ok ()) there) :
    there.ledger.place i.chain = (s.ledger.place i.chain).follow m ∧
      Agree (s.settled.follow m) (there.ledger.place i.chain) := by
  obtain ⟨following, continues, -⟩ := locked.next next
  obtain ⟨start, isBatch, commits, agree⟩ :=
    (locked.agree following).follow continues lease
  have moved : there.ledger.place i.chain = (s.ledger.place i.chain).follow m :=
    Except.ok.inj
      ((Ingest.leads_apply placing leaseChain isBatch leads).symm.trans commits)
  rw [moved]
  exact ⟨rfl, agree⟩

/-- A message that is applied once more leads to a place of its own again. -/
theorem moved_again (placing : Placing i.chain answers) (locked : Locked i answers s)
    {m : Message} {lease : Lease} {there : Surroundings} (isLast : s.last = some m)
    (leaseChain : lease.chain = i.chain)
    (leads : ((Errand.message m).run i lease).Leads answers s.surroundings
      (.ok ()) there) :
    (there.ledger.place i.chain).Rooted ∧
      (there.ledger.place i.chain).mark = (s.ledger.place i.chain).mark ∧
      (∀ h r, (there.ledger.place i.chain).recent h = some r →
        (s.ledger.place i.chain).recent h = some r) ∧
      there.ledger.place i.chain = (s.ledger.place i.chain).again m := by
  obtain ⟨start, isBatch, -, leadsBack, rooted, mark, fewer⟩ :=
    (locked.last m isLast).again locked.rooted lease
  have moved : there.ledger.place i.chain = (s.ledger.place i.chain).again m :=
    leadsBack _ (Ingest.leads_apply placing leaseChain isBatch leads)
  rw [moved]
  exact ⟨rooted, mark, fewer, rfl⟩

/-- The place may forget blocks, as long as it stays rooted at its watermark. -/
theorem fewer (locked : Locked i answers s) {there : Surroundings}
    (rooted : (there.ledger.place i.chain).Rooted)
    (mark : (there.ledger.place i.chain).mark = (s.ledger.place i.chain).mark)
    (fewer : ∀ h r, (there.ledger.place i.chain).recent h = some r →
      (s.ledger.place i.chain).recent h = some r) :
    Locked i answers { s with surroundings := there } where
  rooted := rooted
  trackerChain := locked.trackerChain
  unsettled := locked.unsettled
  basis b based := ⟨(locked.basis b based).isGiven,
    fun m isMark => (locked.basis b based).above m (mark.symm.trans isMark),
    (locked.basis b based).blocks⟩
  agree following := (locked.agree following).fewer rooted mark fewer
  linked := locked.linked
  reached := locked.reached
  last m isLast := by
    have stands := locked.last m isLast
    cases m with
    | accepted b live => exact ⟨stands.1, mark.trans stands.2⟩
    | reverted range => exact ⟨stands.1, mark.trans stands.2.1, stands.2.2⟩
    | unavailable attempt retryIn => exact stands
    | halted reason => exact stands

theorem kept (locked : Locked i answers s) {there : Surroundings}
    (same : there.ledger.place i.chain = s.ledger.place i.chain) :
    Locked i answers { s with surroundings := there } :=
  locked.fewer (by rw [same]; exact locked.rooted) (by rw [same])
    (by rw [same]; exact fun _ _ => id)

end Locked

/-- Going on from the watermark, the tracker has remembered blocks that end there. -/
theorem leads_resume (placing : Placing i.chain answers) {t t' : Tracker}
    {mark : BlockRef} {s after : Surroundings} (rooted : (s.ledger.place i.chain).Rooted)
    (isMark : (s.ledger.place i.chain).mark = some mark)
    (leads : (CatchUp.resume i t mark).Leads answers s t' after) :
    after.ledger.place i.chain = s.ledger.place i.chain ∧ t'.chain = t.chain ∧
      t'.window.Consecutive ∧ t'.tip? = some mark ∧
      ∀ r ∈ t'.window.blocks, (s.ledger.place i.chain).recent r.height = some r := by
  unfold CatchUp.resume at leads
  obtain ⟨refs, there, asks, same, rfl⟩ := Flow.leads_bind.1 leads
  have kept := placing.kept (Flow.only_ask.2 (by trivial)) asks
  obtain ⟨l, samePlace, rfl, -⟩ := placing.ledger _ _ _ _ (Flow.leads_ask.1 asks)
  have stored : ∀ r ∈ l.recentBlocks i.chain t.window.capacity,
      (s.ledger.place i.chain).recent r.height = some r := by
    intro r member
    obtain ⟨h, found⟩ := Ledger.mem_recentBlocks member
    rw [samePlace] at found
    rwa [rooted.height h r found]
  refine ⟨kept, ?_⟩
  split at same
  · rename_i ends
    subst same
    exact ⟨rfl, BlockWindow.consecutive_seed _ _, ends,
      fun r member => stored r (BlockWindow.mem_of_seed member)⟩
  · subst same
    refine ⟨rfl, BlockWindow.consecutive_seed _ _, BlockWindow.tip?_seed_singleton _ _,
      ?_⟩
    intro r member
    rw [List.mem_singleton.1 (BlockWindow.mem_of_seed member)]
    exact rooted.marked mark isMark

theorem locked_step (placing : Placing i.chain answers) (locked : Locked i answers s)
    (step : Step i answers s after) : Locked i answers after := by
  cases step with
  | restart t sameOrNew =>
      have chain : t.chain = i.chain := by
        rcases sameOrNew with rfl | ⟨settings, rfl⟩
        · exact locked.trackerChain
        · rfl
      exact
        { rooted := locked.rooted
          trackerChain := chain
          unsettled := fun _ => ⟨rfl, rfl⟩
          basis := by rintro _ ⟨⟩
          agree := by rintro ⟨⟩
          linked := trivial
          reached := by rintro ⟨⟩
          last := locked.last }
  | resume mark t there idle isMark leads =>
      obtain ⟨kept, chain, consecutive, tip, stored⟩ :=
        leads_resume placing locked.rooted isMark leads
      have fresh : s.messages = [] := (locked.unsettled (by rw [idle]; rintro ⟨⟩)).1
      have still := locked.kept kept
      exact
        { rooted := still.rooted
          trackerChain := chain.trans locked.trackerChain
          unsettled := fun other => absurd rfl other
          basis := by rintro _ ⟨⟩
          agree := fun _ => by
            refine Agree.of_stored still.rooted consecutive ?_ ?_
            · show _ = (there.ledger.place i.chain).mark
              rw [kept, tip]
              exact isMark.symm
            · show ∀ r ∈ t.window.blocks,
                (there.ledger.place i.chain).recent r.height = some r
              rw [kept]
              exact stored
          linked := by
            show t.Linked _ s.messages
            rw [fresh]
            trivial
          reached := fun _ => by
            show s.messages.foldl Tracker.follow t = t
            rw [fresh]
            rfl
          last := still.last }
  | rebase height b there idle above leads =>
      have unsettled := locked.unsettled (by rw [idle]; rintro ⟨⟩)
      obtain ⟨atHeight, isGiven⟩ := Tracker.leads_fetchBlock placing.inPlace leads
      have kept := placing.kept (Tracker.only_fetchBlock _ _) leads
      have still := locked.kept kept
      exact
        { rooted := still.rooted
          trackerChain := locked.trackerChain
          unsettled := fun _ => unsettled
          basis := by
            rintro _ ⟨⟩
            refine ⟨locked.trackerChain ▸ isGiven, ?_, ?_⟩
            · intro mark isMark
              rw [atHeight]
              exact above mark ((congrArg Place.mark kept).symm.trans isMark)
            · exact BlockWindow.blocks_push_empty rfl
          agree := by rintro ⟨⟩
          linked := still.linked
          reached := by rintro ⟨⟩
          last := still.last }
  | ground b lease there based leaseChain leads =>
      have unsettled := locked.unsettled (by rw [based]; rintro ⟨⟩)
      have agree := (locked.moved_base placing based leaseChain leads).2
      exact
        { rooted := agree.rooted
          trackerChain := locked.trackerChain
          unsettled := fun other => absurd rfl other
          basis := by rintro _ ⟨⟩
          agree := fun _ => agree
          linked := by
            show s.tracker.Linked _ s.messages
            rw [unsettled.1]
            trivial
          reached := fun _ => by
            show s.messages.foldl Tracker.follow s.tracker = s.tracker
            rw [unsettled.1]
            rfl
          last := by rintro _ ⟨⟩ }
  | advance target live a there following leads =>
      have agree := locked.agree following
      have reached := locked.reached following
      have consecutive : s.tracker.window.Consecutive := by
        rw [← reached]
        exact (locked.linked.foldl_follow agree.consecutive).1
      have sent := Tracker.leads_advance placing.inPlace consecutive leads
      have still := locked.kept (placing.kept (Tracker.only_advance _ _ _) leads)
      exact
        { rooted := still.rooted
          trackerChain := sent.chain.trans locked.trackerChain
          unsettled := fun other => absurd following other
          basis := by
            intro b based
            rw [show s.stance = .following from following] at based
            cases based
          agree := still.agree
          linked := by
            refine Tracker.linked_append.2 ⟨locked.linked, ?_⟩
            rw [reached, ← locked.trackerChain]
            exact sent.linked
          reached := fun _ => by
            show (s.messages ++ a.messages).foldl Tracker.follow s.settled = a.tracker
            rw [List.foldl_append, reached, sent.reached]
          last := still.last }
  | apply m rest lease there next leaseChain leads =>
      obtain ⟨following, continues, linked⟩ := locked.next next
      obtain ⟨moved, agree⟩ := locked.moved_next placing next leaseChain leads
      exact
        { rooted := agree.rooted
          trackerChain := locked.trackerChain
          unsettled := fun other => absurd following other
          basis := by
            intro b based
            rw [show s.stance = .following from following] at based
            cases based
          agree := fun _ => agree
          linked := linked
          reached := fun _ => by
            have reached := locked.reached following
            rwa [next] at reached
          last := by
            rintro _ ⟨⟩
            show m.Stands _ _ (there.ledger.place i.chain)
            rw [moved]
            exact continues.stands (locked.settledChain following) }
  | again m lease there isLast leaseChain leads =>
      obtain ⟨rooted, mark, fewer, -⟩ :=
        locked.moved_again placing isLast leaseChain leads
      exact locked.fewer rooted mark fewer
  | fail errand lease e there due leaseChain leads =>
      exact locked.kept (locked.linking placing due leaseChain leads).2
  | ask c reply there plain answer =>
      exact locked.kept (placing.kept (Flow.only_ask.2 plain) (Flow.leads_ask.2 answer))
  | wait ticks => exact locked.kept rfl

theorem locked_run (placing : Placing i.chain answers)
    (run : Run i answers (start i settings) s) : Locked i answers s := by
  induction run with
  | refl => exact locked_start
  | tail _ step ih => exact locked_step placing ih step

end Pursuit

end Paywatch
