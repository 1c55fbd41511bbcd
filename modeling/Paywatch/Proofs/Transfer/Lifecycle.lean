import Paywatch.Proofs.Ingest.Session
import Paywatch.Proofs.Transfer.Custody

/-!
# The life of stored transfers

Blocks are ingested and taken back, payments and bookings are recorded, and transfers
are settled by tasks that take turns at one ledger in any order, while leases change
hands and orders come and go.  A task writes whole records that it made from what it
read some turns ago.  All the same a stored transfer is never lost, it carries a
confirmation exactly if it is confirmed, and once it is confirmed or reverted it stays
as it is:  every identifier is held by one task until it is stored, and whatever is
replaced is still pending when it is.
-/

namespace Paywatch

namespace Ledger

variable {l after : Ledger} {c : Call} {held : Set Ulid}

/-! ## What a careful call does to transfers -/

/-- What a careful call replaces is pending. -/
theorem pending_of_updated (careful : Careful held (c.written l)) {t : Transfer}
    {expected : TransferStatus} (member : .update t expected ∈ c.written l) :
    ∃ u, l.transfers.get? t.id = some u ∧ u.status = .pending := by
  obtain ⟨u, found, same⟩ := stored_of_updated member
  exact ⟨u, found, same.trans (careful.pending t expected member)⟩

/-- What is stored stays so, and stays as it is once it is confirmed or reverted. -/
def Lasts (l after : Ledger) : Prop :=
  ∀ id t, l.transfers.get? id = some t → ∃ t', after.transfers.get? id = some t' ∧
    (t.status.isTerminal = true → t' = t)

theorem lasts_of_eq (same : after.transfers = l.transfers) : Lasts l after := by
  intro id t found
  rw [same]
  exact ⟨t, found, fun _ => rfl⟩

theorem Lasts.trans {m : Ledger} (first : Lasts l m) (second : Lasts m after) :
    Lasts l after := by
  intro id t found
  obtain ⟨u, there, same⟩ := first id t found
  obtain ⟨v, last, same'⟩ := second id u there
  refine ⟨v, last, fun terminal => ?_⟩
  obtain rfl := same terminal
  exact same' terminal

section Perform

variable (careful : Careful held (c.written l))
include careful

/-- What is stored after a careful call was stored before, or is sound and
new, or replaces another. -/
theorem stored_perform {id : TransferId} {t : Transfer}
    (found : (l.perform c).2.transfers.get? id = some t) :
    l.transfers.get? id = some t ∨
      t.Sound ∧ (id.ulid ∈ insertedBy (c.written l) ∨
        ∃ u, l.transfers.get? id = some u) := by
  rcases stored_or_written found with old | ⟨w, member, rfl, rfl⟩
  · exact Or.inl old
  · refine Or.inr ⟨careful.sound w member, ?_⟩
    cases w with
    | insert t => exact Or.inl (mem_insertedBy.2 ⟨t, member, rfl⟩)
    | update t expected =>
        obtain ⟨u, found, -⟩ := pending_of_updated careful member
        exact Or.inr ⟨u, found⟩

theorem lasts_perform (unstored : ∀ u ∈ held, l.transfers.get? ⟨u⟩ = none) :
    Lasts l (l.perform c).2 := by
  intro id t found
  rw [transfers_perform]
  rcases written_or_leftOut l (c.written l) id with ⟨w, member, rfl, there⟩ | ⟨same, -⟩
  · refine ⟨w.transfer, there, fun terminal => ?_⟩
    cases w with
    | insert u =>
        have fresh := unstored _ (careful.held u member)
        rw [show (⟨u.id.ulid⟩ : TransferId) = u.id from rfl] at fresh
        rw [TransferWrite.transfer, fresh] at found
        cases found
    | update u expected =>
        obtain ⟨v, stored, pending⟩ := pending_of_updated careful member
        rw [TransferWrite.transfer, stored] at found
        obtain rfl := Option.some.inj found
        rw [pending] at terminal
        cases terminal
  · exact ⟨t, same.trans found, fun _ => rfl⟩

end Perform

end Ledger

/-! ## Who holds which identifier -/

/-- Identifiers and the tasks that hold them. -/
abbrev Holder := Ulid → Option Nat

namespace Holder

/-- What a task holds. -/
def of (holder : Holder) (k : Nat) : Set Ulid := {u | holder u = some k}

/-- Some identifiers go over to a task, or to nobody. -/
def assign (holder : Holder) (us : List Ulid) (taker : Option Nat) : Holder :=
  fun u => if u ∈ us then taker else holder u

variable {holder : Holder} {us : List Ulid} {j k : Nat} {u : Ulid}

theorem mem_of : u ∈ holder.of k ↔ holder u = some k := Iff.rfl

theorem assign_eq_some {taker : Option Nat} : holder.assign us taker u = some k ↔
    u ∈ us ∧ taker = some k ∨ u ∉ us ∧ holder u = some k := by
  unfold assign
  split
  · rename_i member
    simp [member]
  · rename_i other
    simp [other]

/-- What nobody held goes over to a task, and the others hold what they held. -/
theorem of_assign_of_ne (unheld : ∀ u ∈ us, holder u = none) (other : j ≠ k) :
    (holder.assign us (some k)).of j = holder.of j := by
  ext u
  rw [mem_of, assign_eq_some, mem_of, Option.some.injEq]
  constructor
  · rintro (⟨-, same⟩ | ⟨-, held⟩)
    · exact absurd same.symm other
    · exact held
  · intro held
    refine Or.inr ⟨fun member => ?_, held⟩
    rw [unheld u member] at held
    cases held

/-- What a task held goes over to nobody, and the others hold what they held. -/
theorem of_assign_of_held (heldHere : ∀ u ∈ us, holder u = some k) (other : j ≠ k) :
    (holder.assign us none).of j = holder.of j := by
  ext u
  rw [mem_of, assign_eq_some, mem_of]
  constructor
  · rintro (⟨-, ⟨⟩⟩ | ⟨-, held⟩)
    exact held
  · intro held
    refine Or.inr ⟨fun member => ?_, held⟩
    rw [heldHere u member] at held
    exact other (Option.some.inj held).symm

end Holder

/-- The ledger holds sound transfers only, their identifiers were given out, and so were
those that are held, but no transfer is stored under these. -/
structure Kept (s : Surroundings) (holder : Holder) : Prop where
  sound : ∀ id t, s.ledger.transfers.get? id = some t → t.Sound
  issued : ∀ id t, s.ledger.transfers.get? id = some t → id.ulid ∈ s.issued
  held : ∀ u k, holder u = some k → u ∈ s.issued ∧ s.ledger.transfers.get? ⟨u⟩ = none

theorem kept_start : Kept ⟨.empty, []⟩ fun _ => none where
  sound := by simp [Ledger.empty]
  issued := by simp [Ledger.empty]
  held := by simp

namespace Kept

variable {s after : Surroundings} {holder : Holder} {k : Nat}

/-- New identifiers are given out to a task. -/
theorem granted (kept : Kept s holder) {us : List Ulid} (fresh : ∀ u ∈ us, u ∉ s.issued)
    (k : Nat) : Kept { s with issued := us ++ s.issued } (holder.assign us (some k)) where
  sound := kept.sound
  issued id t found := List.mem_append_right _ (kept.issued id t found)
  held := by
    intro u j held
    rcases Holder.assign_eq_some.1 held with ⟨member, -⟩ | ⟨-, held⟩
    · refine ⟨List.mem_append_left _ member,
        Option.eq_none_iff_forall_ne_some.2 fun t found => ?_⟩
      exact fresh u member (kept.issued _ t found)
    · obtain ⟨old, unstored⟩ := kept.held u j held
      exact ⟨List.mem_append_right _ old, unstored⟩

theorem unheld (kept : Kept s holder) {u : Ulid} (fresh : u ∉ s.issued) :
    holder u = none :=
  Option.eq_none_iff_forall_ne_some.2 fun j held => fresh (kept.held u j held).1

/-- The ledger changes, but not its transfers. -/
theorem spared (kept : Kept s holder) {l : Ledger}
    (same : l.transfers = s.ledger.transfers) : Kept { s with ledger := l } holder where
  sound := by simpa only [same] using kept.sound
  issued := by simpa only [same] using kept.issued
  held := by simpa only [same] using kept.held

/-- A careful task writes to the ledger and gives up what it inserts. -/
theorem performed (kept : Kept s holder) {c : Ledger.Call}
    (careful : Careful (holder.of k) (c.written s.ledger)) :
    Kept { s with ledger := (s.ledger.perform c).2 }
      (holder.assign (insertedBy (c.written s.ledger)) none) where
  sound := by
    intro id t found
    rcases Ledger.stored_perform careful found with old | ⟨sound, -⟩
    · exact kept.sound id t old
    · exact sound
  issued := by
    intro id t found
    rcases Ledger.stored_perform careful found with old | ⟨-, inserted | ⟨u, old⟩⟩
    · exact kept.issued id t old
    · obtain ⟨u, member, same⟩ := mem_insertedBy.1 inserted
      rw [← same]
      exact (kept.held _ k (careful.held u member)).1
    · exact kept.issued id u old
  held := by
    intro u j held
    rcases Holder.assign_eq_some.1 held with ⟨-, none⟩ | ⟨other, held⟩
    · cases none
    · obtain ⟨issued, unstored⟩ := kept.held u j held
      refine ⟨issued, Option.eq_none_iff_forall_ne_some.2 fun t found => ?_⟩
      rcases Ledger.stored_perform careful found with old | ⟨-, inserted | ⟨v, old⟩⟩
      · rw [unstored] at old
        cases old
      · exact other inserted
      · rw [unstored] at old
        cases old

end Kept

/-! ## One call of a task among others -/

/-- After a call of one task the others hold what they held, the task holds what it
takes itself to hold, and what was stored lasts. -/
structure Answered (s : Surroundings) (holder : Holder) (k : Nat) (c : Call)
    (reply : c.Reply) (after : Surroundings) (holder' : Holder) : Prop where
  kept : Kept after holder'
  own : Custody (holder.of k) c reply (holder'.of k)
  others : ∀ j, j ≠ k → holder'.of j = holder.of j
  lasts : s.ledger.Lasts after.ledger

section Answered

variable {s after : Surroundings} {holder : Holder} {k : Nat}

theorem of_assign_written (c : Ledger.Call)
    (careful : Careful (holder.of k) (c.written s.ledger)) :
    ∀ j, j ≠ k →
      (holder.assign (insertedBy (c.written s.ledger)) none).of j = holder.of j := by
  intro j other
  refine Holder.of_assign_of_held (fun u inserted => ?_) other
  obtain ⟨t, member, rfl⟩ := mem_insertedBy.1 inserted
  exact careful.held t member

/-- A task that commits holds what it takes itself to hold. -/
theorem of_assign_commit {held : Set Ulid} {writes : List TransferWrite} {l : Ledger}
    {result : Except LedgerError Ledger} (isHeld : holder.of k = held) :
    (holder.assign (insertedBy (if result.isOk then writes else [])) none).of k =
      stillHeld held writes (l.attempt result).1 := by
  subst isHeld
  ext u
  rw [Holder.mem_of, Holder.assign_eq_some, mem_stillHeld, Holder.mem_of]
  cases result with
  | error e => simp [Ledger.attempt, insertedBy, Except.isOk, Except.toBool]
  | ok next => simp [Ledger.attempt, Except.isOk, Except.toBool, and_comm]

theorem of_assign_nil : (holder.assign (insertedBy []) none).of k = holder.of k := by
  ext u
  rw [Holder.mem_of, Holder.assign_eq_some, Holder.mem_of]
  simp [insertedBy]

theorem Kept.answered (kept : Kept s holder) {c : Call} {reply : c.Reply}
    (careful : c.Careful (holder.of k)) (permitted : s.Permits c reply after) :
    ∃ holder', Answered s holder k c reply after holder' := by
  cases c with
  | stamp =>
      obtain ⟨fresh, rfl⟩ := permitted
      have new : ∀ u ∈ [reply.ulid], u ∉ s.issued := by
        simpa using fresh
      have unheld : ∀ u ∈ [reply.ulid], holder u = none :=
        fun u member => kept.unheld (new u member)
      refine ⟨_, kept.granted new k, ?_, fun j other => ?_, ?_⟩
      · show _ = insert _ _
        ext u
        rw [Holder.mem_of, Holder.assign_eq_some, List.mem_singleton, Set.mem_insert_iff,
          Holder.mem_of]
        by_cases same : u = reply.ulid <;> simp [same]
      · exact Holder.of_assign_of_ne unheld other
      · exact Ledger.lasts_of_eq rfl
  | ledger c =>
      obtain ⟨rfl, rfl⟩ := permitted
      have written : Careful (holder.of k) (c.written s.ledger) := by
        cases c with
        | commit b =>
            simp only [Ledger.Call.written]
            split
            · exact careful
            · exact careful_nil _
        | commitPlan writes p =>
            simp only [Ledger.Call.written]
            split
            · exact careful
            · exact careful_nil _
        | _ => exact careful_nil _
      refine ⟨_, kept.performed written, ?_, of_assign_written c written,
        Ledger.lasts_perform written fun u held => (kept.held u k held).2⟩
      cases c with
      | transfersInRange chain low high =>
          refine ⟨fun t told => ?_, of_assign_nil⟩
          obtain ⟨id, found⟩ := Table.mem_values_iff.1 (List.mem_filter.1 told).1
          exact kept.sound id t found
      | commit b => exact of_assign_commit rfl
      | commitPlan writes p => exact of_assign_commit rfl
      | _ => exact of_assign_nil
  | _ =>
      obtain rfl := (show after = s from permitted)
      exact ⟨holder, kept, rfl, fun _ _ => rfl, Ledger.lasts_of_eq rfl⟩

end Answered

/-! ## Tasks that write transfers -/

/-- What is carried out by a task that writes transfers. -/
inductive Job where
  | block (i : Ingest) (lease : Lease) (b : Block) (base : Bool)
  | revert (i : Ingest) (lease : Lease) (range : RevertedRange)
  /-- Settles new transfers together with stored ones. -/
  | settle (rules : MatchingRules) (chain : ChainId) (new stored : List Transfer)
  | payment (rules : MatchingRules) (p : Payment)
  | booking (s : Settings) (sender receiver : String) (token : Token) (amount : Amount)
      (memo : Option String)

namespace Job

def flow : Job → Flow Unit
  | block i lease b base => do
    let _ ← i.block lease b base
    return ()
  | revert i lease range => do
    let _ ← i.revert lease range
    return ()
  | settle rules chain new stored => do
    let _ ← rules.settle chain new stored
    return ()
  | payment rules p => do
    let _ ← p.ingest rules
    return ()
  | booking s sender receiver token amount memo => do
    let _ ← s.recordInternal sender receiver token amount memo
    return ()

/-- The new transfers that the task is started with. -/
def brings : Job → List Transfer
  | settle _ _ new _ => new
  | _ => []

/-- Every task is careful that holds the identifiers of what it is started with. -/
theorem careful (j : Job) {held : Set Ulid} (made : ∀ t ∈ j.brings, t.Made)
    (among : ∀ t ∈ j.brings, t.id.ulid ∈ held) : j.flow.Careful held := by
  have ended : ∀ {α : Type} {x : Flow α}, x.Careful held →
      Flow.Careful held (do let _ ← x; return ()) := by
    intro α x careful
    exact careful.bind fun _ _ _ => Flow.careful_pure ()
  cases j with
  | block i lease b base => exact ended (i.careful_block lease b base held)
  | revert i lease range => exact ended (i.careful_revert lease range held)
  | settle rules chain new stored =>
      exact ended
        (rules.careful_settle chain stored (fun t member => (made t member).sound) among)
  | payment rules p => exact ended (p.careful_ingest rules held)
  | booking s sender receiver token amount memo =>
      exact ended (s.careful_recordInternal sender receiver token amount memo held)

end Job

/-- A ledger, the identifiers that were given out, and the tasks that were started. -/
structure Office where
  surroundings : Surroundings
  tasks : List (Flow Unit)

namespace Office

def ledger (w : Office) : Ledger := w.surroundings.ledger

def start : Office := ⟨⟨.empty, []⟩, []⟩

inductive Step : Office → Office → Prop where
  /-- A task is started.  The transfers that it brings have identifiers
  that nobody was given. -/
  | start (w : Office) (j : Job) (made : ∀ t ∈ j.brings, t.Made)
      (fresh : ∀ t ∈ j.brings, t.id.ulid ∉ w.surroundings.issued) :
      Step w
        { surroundings :=
            { w.surroundings with
              issued := j.brings.map (·.id.ulid) ++ w.surroundings.issued }
          tasks := w.tasks ++ [j.flow] }
  /-- A task makes its next call. -/
  | turn (w : Office) (k : Nat) (c : Call) (next : c.Reply → Flow Unit) (reply : c.Reply)
      (after : Surroundings) (running : w.tasks[k]? = some (.call c next))
      (permitted : w.surroundings.Permits c reply after) :
      Step w ⟨after, w.tasks.set k (next reply)⟩
  /-- Somebody else makes a call that commits nothing. -/
  | other (w : Office) (c : Ledger.Call) (plain : c.commits = false) :
      Step w { w with
        surroundings := { w.surroundings with ledger := (w.ledger.perform c).2 } }
  | wait (w : Office) (ticks : Nat) :
      Step w { w with
        surroundings := { w.surroundings with ledger := w.ledger.wait ticks } }
  /-- The lease of a chain runs out. -/
  | expire (w : Office) (chain : ChainId) :
      Step w { w with
        surroundings := { w.surroundings with ledger := w.ledger.expireLease chain } }

abbrev Run : Office → Office → Prop := Relation.ReflTransGen Step

/-- All identifiers are kept, and each task is careful with what it holds. -/
structure Tidy (w : Office) (holder : Holder) : Prop where
  kept : Kept w.surroundings holder
  started : ∀ u k, holder u = some k → k < w.tasks.length
  careful : ∀ (k : Nat) (x : Flow Unit), w.tasks[k]? = some x → x.Careful (holder.of k)

variable {w after : Office} {holder : Holder}

theorem tidy_start : Tidy start fun _ => none :=
  ⟨kept_start, by simp, by simp [start]⟩

theorem Tidy.started_job (tidy : Tidy w holder) (j : Job) (made : ∀ t ∈ j.brings, t.Made)
    (fresh : ∀ t ∈ j.brings, t.id.ulid ∉ w.surroundings.issued) : ∃ holder', Tidy
      { surroundings :=
          { w.surroundings with
            issued := j.brings.map (·.id.ulid) ++ w.surroundings.issued }
        tasks := w.tasks ++ [j.flow] } holder' := by
  have new : ∀ u ∈ j.brings.map (·.id.ulid), u ∉ w.surroundings.issued := by
    intro u member
    obtain ⟨t, brought, rfl⟩ := List.mem_map.1 member
    exact fresh t brought
  refine ⟨_, tidy.kept.granted new w.tasks.length, ?_, ?_⟩
  · intro u k held
    rw [List.length_append, List.length_singleton]
    rcases Holder.assign_eq_some.1 held with ⟨-, same⟩ | ⟨-, held⟩
    · cases same
      exact Nat.lt_succ_self _
    · exact Nat.lt_succ_of_lt (tidy.started u k held)
  · intro k x running
    rcases getElem?_snoc.1 running with old | ⟨rfl, rfl⟩
    · have below := (List.getElem?_eq_some_iff.1 old).1
      rw [Holder.of_assign_of_ne (fun u member => tidy.kept.unheld (new u member))
        below.ne]
      exact tidy.careful k x old
    · refine j.careful made fun t brought => ?_
      exact Holder.assign_eq_some.2 (Or.inl ⟨List.mem_map_of_mem brought, rfl⟩)

/-- A task makes a call. -/
theorem Tidy.turned (tidy : Tidy w holder) {k : Nat} {c : Call}
    {next : c.Reply → Flow Unit} {reply : c.Reply} {surroundings : Surroundings}
    (running : w.tasks[k]? = some (.call c next))
    (permitted : w.surroundings.Permits c reply surroundings) :
    (∃ holder', Tidy ⟨surroundings, w.tasks.set k (next reply)⟩ holder') ∧
      w.ledger.Lasts surroundings.ledger := by
  have careful := tidy.careful k _ running
  obtain ⟨holder', answered⟩ := tidy.kept.answered careful.first permitted
  refine ⟨⟨holder', answered.kept, ?_, ?_⟩, answered.lasts⟩
  · intro u j held
    rw [List.length_set]
    by_cases own : j = k
    · subst own
      exact (List.getElem?_eq_some_iff.1 running).1
    · refine tidy.started u j ?_
      rw [← Holder.mem_of, ← answered.others j own]
      exact held
  · intro j x found
    rw [List.getElem?_set] at found
    split at found
    · rename_i own
      obtain ⟨-, found⟩ := Option.ite_none_right_eq_some.1 found
      cases found
      rw [← own]
      exact careful.next answered.own
    · rename_i other
      rw [answered.others j fun same => other same.symm]
      exact tidy.careful j x found

/-- Somebody else changes the ledger, but not its transfers. -/
theorem Tidy.spared (tidy : Tidy w holder) {l : Ledger}
    (same : l.transfers = w.ledger.transfers) :
    (∃ holder',
      Tidy { w with surroundings := { w.surroundings with ledger := l } } holder') ∧
      w.ledger.Lasts l :=
  ⟨⟨holder, tidy.kept.spared same, tidy.started, tidy.careful⟩, Ledger.lasts_of_eq same⟩

theorem tidy_step (tidy : Tidy w holder) (step : Step w after) :
    (∃ holder', Tidy after holder') ∧ w.ledger.Lasts after.ledger := by
  cases step with
  | start j made fresh => exact ⟨tidy.started_job j made fresh, Ledger.lasts_of_eq rfl⟩
  | turn k c next reply surroundings running permitted =>
      exact tidy.turned running permitted
  | other c plain =>
      exact tidy.spared (Ledger.sameRecords_perform w.ledger plain).transfers
  | wait ticks => exact tidy.spared rfl
  | expire chain => exact tidy.spared rfl

theorem tidy_run (tidy : Tidy w holder) (run : Run w after) :
    (∃ holder', Tidy after holder') ∧ w.ledger.Lasts after.ledger := by
  induction run with
  | refl => exact ⟨⟨holder, tidy⟩, Ledger.lasts_of_eq rfl⟩
  | tail _ step ih =>
      obtain ⟨⟨_, there⟩, first⟩ := ih
      obtain ⟨last, second⟩ := tidy_step there step
      exact ⟨last, first.trans second⟩

/-- Whatever tasks take their turns in whatever order:  a stored transfer carries a
confirmation exactly if it is confirmed, it stays stored, and once it is confirmed or
reverted nothing about it changes. -/
theorem transfer_lifecycle (first : Run start w) (later : Run w after) {id : TransferId}
    {t : Transfer} (stored : w.ledger.transfers.get? id = some t) :
    (t.status = .confirmed ↔ t.confirmation.isSome = true) ∧
      ∃ t', after.ledger.transfers.get? id = some t' ∧
        (t.status.isTerminal = true → t' = t) := by
  obtain ⟨⟨_, tidy⟩, -⟩ := tidy_run tidy_start first
  exact ⟨tidy.kept.sound id t stored, (tidy_run tidy later).2 id t stored⟩

/-! ## A reorganisation that comes too late -/

/-- What happens next in an office that is played. -/
inductive Act where
  | acquire (chain : ChainId) (holder : String) (ttl : Nat)
  /-- A task is started that brings no transfers. -/
  | start (j : Job)
  /-- A task makes its next call. -/
  | go (k : Nat)

/-- The office afterwards, with nodes and identifiers as they are for a
flow that runs alone. -/
def act (catalog : Catalog) (n : Nodes) (w : Office) : Act → Option Office
  | .acquire chain holder ttl =>
    let acquired := (w.ledger.perform (.acquire chain holder ttl)).2
    some { w with surroundings := { w.surroundings with ledger := acquired } }
  | .start j =>
    if j.brings = [] then some { w with tasks := w.tasks ++ [j.flow] } else none
  | .go k =>
    match w.tasks[k]? with
    | some (.call c next) =>
      if w.surroundings.keepsPromise c then
        let (reply, after) := w.surroundings.perform catalog n c
        some ⟨after, w.tasks.set k (next reply)⟩
      else none
    | _ => none

theorem step_of_act {catalog : Catalog} {n : Nodes} {a : Act}
    (played : act catalog n w a = some after) : Step w after := by
  cases a with
  | acquire chain holder ttl =>
      cases played
      exact .other w _ rfl
  | start j =>
      obtain ⟨nothing, same⟩ := Option.ite_none_right_eq_some.1 played
      cases same
      simpa [nothing] using Step.start w j (by simp [nothing]) (by simp [nothing])
  | go k =>
      simp only [act] at played
      split at played
      · rename_i c next running
        obtain ⟨promise, same⟩ := Option.ite_none_right_eq_some.1 played
        cases same
        exact .turn w k c next _ _ running (Surroundings.answers_perform promise).permits
      · cases played

theorem run_of_play {catalog : Catalog} {n : Nodes} {acts : List Act}
    (played : acts.foldlM (act catalog n) w = some after) : Run w after := by
  apply reflTransGen_of_foldlM ?_ played
  intro there a next acted
  exact step_of_act acted

/-- A payment is ingested.  Then a task takes back its block, and while it is about to
commit, another confirms the payment. -/
def racing : List Act :=
  [.acquire ⟨1⟩ "worker" 10,
    .start (.block Session.sampleIngest Session.sampleLease
      ⟨⟨1⟩, 2, "0xa2", "0x01", 0⟩ true)] ++
    .replicate 7 (.go 0) ++
    [.start (.revert Session.sampleIngest Session.sampleLease ⟨⟨1⟩, 2, 2, ⟨1, "0x01"⟩⟩),
      .go 1,
      .start (.block Session.sampleIngest Session.sampleLease
        ⟨⟨1⟩, 3, "0xa3", "0xa2", 0⟩ false)] ++
    .replicate 7 (.go 2)

/-- The reorganisation commits, is refused, reads again and commits what is left of it. -/
def retrying : List Act := .replicate 3 (.go 1)

/-- A transfer is confirmed, and then the acts take back all blocks from
the second one on. -/
def confirmsBefore (acts : List Act) (w : Office) : Bool :=
  w.ledger.transfers.values.any (·.status == .confirmed) &&
    (acts.foldlM (act Session.sampleCatalog Session.homeBranch) w).any fun after =>
      after.ledger.watermark ⟨1⟩ == some ⟨1, "0x01"⟩

/-- The block of the payment is taken back, and the payment stays confirmed. -/
theorem transfer_lifecycle_racing : ∃ w after, Run start w ∧ Run w after ∧
    after.ledger.watermark ⟨1⟩ = some ⟨1, "0x01"⟩ ∧
    ∃ id t, w.ledger.transfers.get? id = some t ∧ t.status = .confirmed ∧
      t.confirmation.isSome = true ∧ after.ledger.transfers.get? id = some t := by
  have played : (racing.foldlM (act Session.sampleCatalog Session.homeBranch) start).any
      (confirmsBefore retrying) = true := by decide +kernel
  obtain ⟨w, reached, confirms⟩ := (Option.any_eq_true _ _).1 played
  rw [confirmsBefore, Bool.and_eq_true] at confirms
  obtain ⟨confirmed, takesBack⟩ := confirms
  obtain ⟨t, member, status⟩ := List.any_eq_true.1 confirmed
  obtain ⟨id, stored⟩ := Table.mem_values_iff.1 member
  obtain ⟨after, goesOn, mark⟩ := (Option.any_eq_true _ _).1 takesBack
  have isConfirmed := beq_iff_eq.1 status
  have first := run_of_play reached
  have later := run_of_play goesOn
  obtain ⟨carries, t', found, same⟩ := transfer_lifecycle first later stored
  obtain rfl := same (by rw [isConfirmed]; rfl)
  exact ⟨w, after, first, later, beq_iff_eq.1 mark, id, t', stored, isConfirmed,
    carries.1 isConfirmed, found⟩

end Office

end Paywatch
