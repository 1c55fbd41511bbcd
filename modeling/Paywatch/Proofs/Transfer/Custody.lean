import Mathlib.Data.Set.Insert
import Paywatch.Engine.Basic
import Paywatch.Proofs.Ingest.Proposal
import Paywatch.Proofs.Ingest.Recorded
import Paywatch.Proofs.Ledger.Consumers

/-!
# Identifiers in custody

Whoever makes a transfer holds its identifier until the transfer is stored.  A task
inserts only what it holds, replaces only what was pending, and writes no transfer that
is confirmed without a confirmation or carries one without being confirmed.  That is all
that the course of stored transfers needs of the tasks that write them, and every task
that does is careful in this way, whatever it is told by a ledger that holds sound
transfers, and however often it has to try again.
-/

namespace Paywatch

namespace Transfer

variable {t t' : Transfer}

/-- The transfer carries a confirmation exactly if it is confirmed. -/
def Sound (t : Transfer) : Prop := t.status = .confirmed ↔ t.confirmation.isSome = true

/-- The transfers that can be made:  each begins in a block, in a channel or between
accounts, and goes on from there. -/
inductive Made : Transfer → Prop where
  | accounts {stamp : Stamp} {sender receiver : String} {token : Token} {amount : Amount}
      {memo : Option String} {t : Transfer}
      (made : ofAccounts stamp sender receiver token amount memo = .ok t) : Made t
  | block (stamp : Stamp) (origin : ChainOrigin) (token : Token)
      (sender receiver : Address) (amount : Amount) (time : Instant) :
      Made (ofBlock stamp origin token sender receiver amount time)
  | channel (stamp : Stamp) (origin : RaidenOrigin) (token : Token)
      (sender receiver : Address) (amount : Amount) :
      Made (ofChannel stamp origin token sender receiver amount)
  | confirm {t t' : Transfer} {c : Confirmation} (made : Made t)
      (confirmed : t.confirm c = .ok t') : Made t'
  | revert {t t' : Transfer} (made : Made t) (reverted : t.revert = .ok t') : Made t'
  | execute {t t' : Transfer} {e : Execution} (made : Made t)
      (executed : t.execute e = .ok t') : Made t'

theorem sound_of_accounts {stamp : Stamp} {sender receiver : String} {token : Token}
    {amount : Amount} {memo : Option String}
    (made : ofAccounts stamp sender receiver token amount memo = .ok t) :
    t.Sound ∧ t.id = ⟨stamp.ulid⟩ := by
  unfold ofAccounts at made
  split at made
  · cases made
  · cases made
    exact ⟨by simp [Sound], rfl⟩

theorem sound_of_confirm {c : Confirmation} (confirmed : t.confirm c = .ok t') :
    t'.Sound := by
  unfold confirm at confirmed
  split at confirmed
  · cases confirmed
  split at confirmed
  · cases confirmed
  cases confirmed
  simp [Sound]

theorem Sound.reverted (sound : t.Sound) (pending : t.status = .pending) :
    Sound { t with status := .reverted } := by
  unfold Sound at sound ⊢
  rw [pending] at sound
  simpa using sound

theorem Made.sound (made : t.Made) : t.Sound := by
  induction made with
  | accounts made => exact (sound_of_accounts made).1
  | block => simp [Sound, ofBlock]
  | channel => simp [Sound, ofChannel]
  | confirm made confirmed => exact sound_of_confirm confirmed
  | revert made reverted ih =>
      unfold Transfer.revert at reverted
      split at reverted
      · cases reverted
      · rename_i pending
        cases reverted
        exact ih.reverted (not_not.1 pending)
  | execute made executed ih =>
      unfold Transfer.execute at executed
      split at executed
      · cases executed
      · cases executed
        exact ih

theorem sound_of_due {depth : UInt64} {head : Height} {now : Instant}
    (confirmed : t.confirmDue? depth head now = some t') : t'.Sound := by
  unfold confirmDue? at confirmed
  split at confirmed
  · split at confirmed
    · split at confirmed
      · rename_i result
        cases confirmed
        exact sound_of_confirm result
      · cases confirmed
    · cases confirmed
  · cases confirmed

theorem Sound.revertIn? {range : RevertedRange} (sound : t.Sound)
    (reverted : t.revertIn? range = some t') : t'.Sound := by
  obtain ⟨⟨-, pending⟩, rfl⟩ := Transfer.revertIn?_eq_some.1 reverted
  exact sound.reverted pending

theorem Represents.sound {e : ChainEvent} (represents : t.Represents e) : t.Sound := by
  simp [Sound, represents.pending, represents.unconfirmed]

end Transfer

/-! ## Careful writes -/

/-- The identifier of the transfer, if it is a new one. -/
def TransferWrite.inserted? : TransferWrite → Option Ulid
  | .insert t => some t.id.ulid
  | .update .. => none

/-- The identifiers that are inserted. -/
def insertedBy (writes : List TransferWrite) : List Ulid :=
  writes.filterMap TransferWrite.inserted?

theorem mem_insertedBy {writes : List TransferWrite} {u : Ulid} :
    u ∈ insertedBy writes ↔ ∃ t, .insert t ∈ writes ∧ t.id.ulid = u := by
  rw [insertedBy, List.mem_filterMap]
  constructor
  · rintro ⟨w, member, same⟩
    cases w with
    | insert t => exact ⟨t, member, Option.some.inj same⟩
    | update t expected => cases same
  · rintro ⟨t, member, rfl⟩
    exact ⟨_, member, rfl⟩

/-- What may be written by whoever holds these identifiers. -/
structure Careful (held : Set Ulid) (writes : List TransferWrite) : Prop where
  sound : ∀ w ∈ writes, w.transfer.Sound
  held : ∀ t, .insert t ∈ writes → t.id.ulid ∈ held
  pending : ∀ t expected, .update t expected ∈ writes → expected = .pending

theorem careful_nil (held : Set Ulid) : Careful held [] := ⟨by simp, by simp, by simp⟩

theorem careful_inserts {held : Set Ulid} {new : List Transfer}
    (sound : ∀ t ∈ new, t.Sound) (among : ∀ t ∈ new, t.id.ulid ∈ held) :
    Careful held (new.map .insert) where
  sound := by
    intro w member
    obtain ⟨t, isNew, rfl⟩ := List.mem_map.1 member
    exact sound t isNew
  held := by
    intro t member
    obtain ⟨u, isNew, same⟩ := List.mem_map.1 member
    cases same
    exact among _ isNew
  pending := by
    intro t expected member
    obtain ⟨u, -, same⟩ := List.mem_map.1 member
    cases same

/-- A call that writes nothing but what may be written. -/
def Call.Careful (held : Set Ulid) : Call → Prop
  | .ledger (.commit b) => Paywatch.Careful held b.writes
  | .ledger (.commitPlan writes _) => Paywatch.Careful held writes
  | _ => True

theorem Call.Plain.careful {c : Call} (plain : c.Plain) (held : Set Ulid) :
    c.Careful held := by
  cases c with
  | ledger c =>
      cases c with
      | commit b => exact plain.elim
      | commitPlan writes p => exact plain.elim
      | _ => trivial
  | _ => trivial

/-! ## Careful tasks -/

/-- What is still held after a commit:  everything, or what it did not
insert, if it was accepted. -/
def stillHeld (held : Set Ulid) (writes : List TransferWrite)
    (reply : Except LedgerError Unit) : Set Ulid :=
  {u | u ∈ held ∧ (reply.isOk = true → u ∉ insertedBy writes)}

theorem mem_stillHeld {held : Set Ulid} {writes : List TransferWrite}
    {reply : Except LedgerError Unit} {u : Ulid} : u ∈ stillHeld held writes reply ↔
      u ∈ held ∧ (reply.isOk = true → u ∉ insertedBy writes) := Iff.rfl

theorem stillHeld_error (held : Set Ulid) (writes : List TransferWrite)
    (e : LedgerError) :
    stillHeld held writes (.error e) = held := by
  simp [stillHeld, Except.isOk, Except.toBool]

/-- What a task may be answered that holds these identifiers, and what it holds
then.  A stamp is one more. -/
def Custody : Answering (Set Ulid)
  | held, .stamp, stamp, after => after = insert stamp.ulid held
  | held, .ledger (.transfersInRange ..), reply, after =>
      (∀ t ∈ reply, t.Sound) ∧ after = held
  | held, .ledger (.commit b), reply, after => after = stillHeld held b.writes reply
  | held, .ledger (.commitPlan writes _), reply, after =>
      after = stillHeld held writes reply
  | held, _, _, after => after = held

/-- Nothing is given away but by a commit that is accepted. -/
theorem idle_custody : Idle Custody fun held after => held ⊆ after where
  refl held := subset_rfl
  trans held mid after first second := first.trans second
  mute := by
    intro held c reply after mute answer
    cases c with
    | stamp =>
        rw [show after = _ from answer]
        exact Set.subset_insert _ _
    | ledger c =>
        cases c with
        | transfersInRange chain low high => exact answer.2.ge
        | commit b => cases mute
        | commitPlan writes p => cases mute
        | _ => exact (show after = held from answer).ge
    | _ => exact (show after = held from answer).ge
  commit := by
    intro held batch e after answer
    rw [show after = _ from answer, stillHeld_error]
  commitPlan := by
    intro held writes plan e after answer
    rw [show after = _ from answer, stillHeld_error]

/-- Whoever carries the flow out writes nothing but what may be written by whoever holds
what is held at the time. -/
def Flow.Careful {α : Type} (held : Set Ulid) (x : Flow α) : Prop :=
  ∀ c there, x.Makes Custody held c there → c.Careful there

namespace Flow

variable {α β : Type} {held after : Set Ulid}

theorem Careful.bind {x : Flow α} {f : α → Flow β} (first : x.Careful held)
    (second : ∀ a mid, x.Leads Custody held a mid → (f a).Careful mid) :
    (x >>= f).Careful held := by
  intro c there makes
  rcases makes_bind.1 makes with makes | ⟨a, mid, leads, makes⟩
  · exact first c there makes
  · exact second a mid leads c there makes

theorem Only.careful {x : Flow α} (only : x.Only Call.Plain) : x.Careful held :=
  fun _ there makes => (only.makes makes).careful there

theorem careful_pure (a : α) : (pure a : Flow α).Careful held :=
  fun _ _ makes => makes.elim

theorem Careful.first {c : Call} {next : c.Reply → Flow α}
    (careful : (call c next).Careful held) : c.Careful held :=
  careful c held (Or.inl ⟨rfl, rfl⟩)

theorem Careful.next {c : Call} {next : c.Reply → Flow α}
    (careful : (call c next).Careful held) {reply : c.Reply}
    (answer : Custody held c reply after) : (next reply).Careful after :=
  fun d there makes => careful d there (Or.inr ⟨reply, after, answer, makes⟩)

end Flow

section Tasks

variable {held : Set Ulid}

theorem Ingest.careful_block (i : Ingest) (lease : Lease) (b : Block) (base : Bool)
    (held : Set Ulid) : (i.block lease b base).Careful held := by
  intro c there makes
  rcases makes_block idle_custody makes with plain | ⟨p, rfl⟩
  · exact plain.careful there
  have fresh : ∀ t ∈ p.new, t.Sound ∧ t.id.ulid ∈ there := by
    intro t member
    obtain ⟨e, -, stamp, time, made, before, since, -, stamped, since_sub⟩ :=
      made_of_gather idle_custody p.reads t member
    obtain ⟨represents, identifier⟩ := represents_of_transfer made
    refine ⟨represents.sound, ?_⟩
    have told : p.asking ⊆ p.told := (show p.told = p.asking from p.pending).ge
    have clock : p.told ⊆ p.planning := (show p.planning = p.told from p.clock).ge
    have planned : p.planning ⊆ there := idle_custody.of_mute (only_plan i _) p.plans
    have kept := (since_sub.trans p.waits).trans ((told.trans clock).trans planned)
    rw [identifier]
    rw [show since = _ from stamped] at kept
    exact kept (Set.mem_insert _ _)
  have isNew : ∀ u ∈ p.new, ∀ t,
      (u.confirmDue? i.depth (startOf lease b base).target.height p.now).getD u = t →
      t.Sound ∧ t.id.ulid ∈ there := by
    intro u member t made
    obtain ⟨sound, among⟩ := fresh u member
    cases due : u.confirmDue? i.depth (startOf lease b base).target.height p.now with
    | some confirmed =>
        rw [due, Option.getD_some] at made
        subst made
        rw [(Transfer.confirmedAs_of_due due).id]
        exact ⟨Transfer.sound_of_due due, among⟩
    | none =>
        rw [due, Option.getD_none] at made
        subst made
        exact ⟨sound, among⟩
  refine ⟨fun w member => ?_, fun t member => ?_, fun t expected member => ?_⟩
  · rcases mem_confirmation_writes member with ⟨u, -, t, changed, rfl⟩ | ⟨u, new, rfl⟩
    · exact Transfer.sound_of_due changed
    · exact (isNew u new _ rfl).1
  · rcases mem_confirmation_writes member with ⟨u, -, t, changed, same⟩ | ⟨u, new, same⟩
    · cases same
    · cases same
      exact (isNew u new _ rfl).2
  · rcases mem_confirmation_writes member with ⟨u, -, t, changed, same⟩ | ⟨u, new, same⟩
    · cases same
      rfl
    · cases same

theorem Ingest.careful_revert (i : Ingest) (lease : Lease) (range : RevertedRange)
    (held : Set Ulid) : (i.revert lease range).Careful held := by
  intro c there makes
  rcases makes_revert idle_custody makes with plain | ⟨p, rfl⟩
  · exact plain.careful there
  have updates : ∀ w ∈ (p.batch lease).writes, ∃ t, w = .update t .pending ∧ t.Sound := by
    intro w member
    obtain ⟨t, changed, rfl⟩ := List.mem_map.1 member
    obtain ⟨u, told, reverted⟩ := List.mem_filterMap.1 changed
    exact ⟨t, rfl, (p.told.1 u told).revertIn? reverted⟩
  refine ⟨fun w member => ?_, fun t member => ?_, fun t expected member => ?_⟩
  · obtain ⟨t, rfl, sound⟩ := updates w member
    exact sound
  · obtain ⟨u, same, -⟩ := updates _ member
    cases same
  · obtain ⟨u, same, -⟩ := updates _ member
    cases same
    rfl

theorem MatchingRules.careful_settle (rules : MatchingRules) (chain : ChainId)
    {new : List Transfer} (stored : List Transfer) (sound : ∀ t ∈ new, t.Sound)
    (among : ∀ t ∈ new, t.id.ulid ∈ held) :
    (rules.settle chain new stored).Careful held := by
  intro c there makes
  rcases makes_settle idle_custody makes with plain | ⟨kept, plan, rfl⟩
  · exact plain.careful there
  · exact careful_inserts sound fun t member => kept (among t member)

/-- A transfer that was just stamped is settled. -/
theorem MatchingRules.careful_settle_one (rules : MatchingRules) (chain : ChainId)
    {t : Transfer} {stamp : Stamp} (sound : t.Sound) (identifier : t.id = ⟨stamp.ulid⟩) :
    (rules.settle chain [t] []).Careful (insert stamp.ulid held) := by
  refine rules.careful_settle chain [] ?_ ?_
  · simpa using sound
  · simp [identifier]

theorem Payment.sound_of_transfer {p : Payment} {stamp : Stamp} {t : Transfer}
    (made : p.transfer stamp = .ok t) : t.Sound ∧ t.id = ⟨stamp.ulid⟩ := by
  unfold transfer at made
  split at made
  · cases made
  · split at made
    all_goals
      cases made
      exact ⟨(Transfer.Made.channel _ _ _ _ _ _).sound, rfl⟩

theorem Payment.careful_ingest (rules : MatchingRules) (p : Payment) (held : Set Ulid) :
    (p.ingest rules).Careful held := by
  unfold ingest
  refine Flow.Careful.bind (Flow.Only.careful (Flow.only_ask.2 trivial))
    fun stamp mid stamped => ?_
  obtain rfl := Flow.leads_ask.1 stamped
  split
  · exact Flow.careful_pure _
  · rename_i t made
    obtain ⟨sound, identifier⟩ := sound_of_transfer made
    refine Flow.Careful.bind (Flow.Only.careful (Flow.only_ask.2 trivial))
      fun known mid asked => ?_
    obtain rfl := Flow.leads_ask.1 asked
    split
    · exact Flow.careful_pure _
    · refine (rules.careful_settle_one p.chain sound identifier).bind fun result _ _ => ?_
      cases result <;> exact Flow.careful_pure _

theorem Settings.careful_recordInternal (s : Settings) (sender receiver : String)
    (token : Token) (amount : Amount) (memo : Option String) (held : Set Ulid) :
    (s.recordInternal sender receiver token amount memo).Careful held := by
  unfold recordInternal
  refine Flow.Careful.bind (Flow.Only.careful (Flow.only_ask.2 trivial))
    fun stamp mid stamped => ?_
  obtain rfl := Flow.leads_ask.1 stamped
  split
  · exact Flow.careful_pure _
  · rename_i t made
    obtain ⟨sound, identifier⟩ := Transfer.sound_of_accounts made
    refine (s.engine.rules.careful_settle_one t.chain sound identifier).bind
      fun result _ _ => ?_
    cases result <;> exact Flow.careful_pure _

end Tasks

end Paywatch
