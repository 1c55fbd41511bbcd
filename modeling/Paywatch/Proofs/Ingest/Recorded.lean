import Mathlib.Data.List.Nodup
import Paywatch.Proofs.Ingest.Block
import Paywatch.Proofs.Ledger.Writes

/-!
# Events and their transfers

How the recorded events of a chain and its transfers hang together, and that blocks and
reorganisations keep it.  An event is recorded without its block, and forgotten when its
block is taken back; the transfer of the event is known by the block for good.  So
`Recorded` carries along which transfers were ever taken back.
-/

namespace Paywatch

/-- What the transfer of an event is known by. -/
def ChainEvent.dedupeKey (e : ChainEvent) : String :=
  "chain:" ++ e.chain.text ++ ":" ++ e.blockHash ++ ":" ++ e.txHash ++ ":"
    ++ Text.decimalWord e.logIndex

theorem due_iff {height head : Height} {depth : UInt64} :
    isDue height head depth = true ↔ height.toNat + depth.toNat ≤ head.toNat := by
  have bound := head.toNat_lt
  simp only [isDue, Bool.and_eq_true, decide_eq_true_eq]
  omega

namespace Transfer

variable {t u : Transfer}

theorem dedupeKey_of_origin {e : ChainEvent} (origin : t.origin = .blockchain e.origin) :
    t.dedupeKey = e.dedupeKey := by
  simp [dedupeKey, origin, ChainEvent.dedupeKey, ChainEvent.origin]

theorem dedupeKey_congr (sameId : t.id = u.id) (sameOrigin : t.origin = u.origin) :
    t.dedupeKey = u.dedupeKey := by
  simp only [dedupeKey, sameId, sameOrigin]

/-- What becomes confirmed was pending and lies deep enough, and nothing
else about it changes. -/
structure ConfirmedAs (depth : UInt64) (head : Height) (u t : Transfer) : Prop where
  wasPending : u.status = .pending
  due : ∃ height, u.originHeight = some height ∧ isDue height head depth = true
  status : t.status = .confirmed
  id : t.id = u.id
  origin : t.origin = u.origin
  token : t.token = u.token

theorem confirmedAs_of_due {depth : UInt64} {head : Height} {now : Instant}
    (confirmed : u.confirmDue? depth head now = some t) : ConfirmedAs depth head u t := by
  unfold confirmDue? at confirmed
  split at confirmed
  · rename_i height wasPending atHeight
    split at confirmed
    · rename_i due
      unfold confirm at confirmed
      split at confirmed
      · rename_i result
        split at result
        · cases result
        · split at result
          · cases result
          · cases result
            cases confirmed
            exact ⟨wasPending, ⟨height, atHeight, due⟩, rfl, rfl, rfl, rfl⟩
      · cases confirmed
    · cases confirmed
  · cases confirmed

/-- What is due and has no confirmation yet is confirmed. -/
theorem waits_of_confirmDue? {origin : ChainOrigin} {depth : UInt64} {head : Height}
    {now : Instant} (pending : t.status = .pending) (unconfirmed : t.confirmation = none)
    (isOrigin : t.origin = .blockchain origin)
    (waits : t.confirmDue? depth head now = none) :
    head.toNat < origin.blockHeight.toNat + depth.toNat := by
  by_contra deep
  have due : isDue origin.blockHeight head depth = true :=
    due_iff.2 (Nat.le_of_not_lt deep)
  simp [confirmDue?, confirm, originHeight, pending, unconfirmed, isOrigin, due] at waits

theorem faithful_confirmDue? (depth : UInt64) (head : Height) (now : Instant) :
    Ledger.Faithful (·.confirmDue? depth head now) where
  id _ _ confirmed := (confirmedAs_of_due confirmed).id
  key _ _ confirmed :=
    dedupeKey_congr (confirmedAs_of_due confirmed).id
      (confirmedAs_of_due confirmed).origin

/-- What a reorganisation reverts was pending and lies in its range. -/
theorem revertIn?_eq_some {range : RevertedRange} : u.revertIn? range = some t ↔
    (u.inRange range = true ∧ u.status = .pending) ∧
      { u with status := .reverted } = t := by
  unfold revertIn? revert
  by_cases concerned : u.inRange range = true ∧ u.status = .pending
  · simp [concerned]
  · have untouched : (u.inRange range && u.status == .pending) = false := by
      rw [Bool.eq_false_iff]
      intro both
      rw [Bool.and_eq_true, beq_iff_eq] at both
      exact concerned both
    simp [untouched, concerned]

theorem faithful_revertIn? (range : RevertedRange) :
    Ledger.Faithful (·.revertIn? range) where
  id u t reverted := by
    obtain ⟨-, rfl⟩ := revertIn?_eq_some.1 reverted
    rfl
  key u t reverted := by
    obtain ⟨-, rfl⟩ := revertIn?_eq_some.1 reverted
    rfl

end Transfer

/-- What becomes confirmed lies deep enough below the head. -/
theorem due_of_confirmed {u t : Transfer} {origin : ChainOrigin} {depth : UInt64}
    {head : Height} {now : Instant} (isOrigin : u.origin = .blockchain origin)
    (confirmed : u.confirmDue? depth head now = some t) :
    origin.blockHeight.toNat + depth.toNat ≤ head.toNat := by
  obtain ⟨height, atHeight, due⟩ := (Transfer.confirmedAs_of_due confirmed).due
  rw [Transfer.originHeight, isOrigin] at atHeight
  cases atHeight
  exact due_iff.1 due

namespace Ledger

/-- The dedupe keys of the transfers that a reorganisation reverts. -/
def takenBy (l : Ledger) (range : RevertedRange) : List String :=
  (l.transfers.values.filter fun t => (t.revertIn? range).isSome).map (·.dedupeKey)

/-- The events, transfers and orphans of a ledger fit together, where only one chain is
followed and `taken` lists the dedupe keys of the transfers that were taken back. -/
structure Recorded (l : Ledger) (chain : ChainId) (issued : List Ulid)
    (taken : List String) : Prop
    extends Keyed l where
  eventsKeyed : ∀ k e, l.events.get? k = some e → e.key = k
  covered : ∀ k e, l.events.get? k = some e → ∃ id, l.recorded.get? e.dedupeKey = some id
  live : ∀ id t, l.transfers.get? id = some t → t.status = .pending → ∃ e,
    l.events.get? e.key = some e ∧ e.chain = chain ∧ t.origin = .blockchain e.origin ∧
      t.chain = chain
  reverted_iff : ∀ id t, l.transfers.get? id = some t →
    (t.status = .reverted ↔ t.dedupeKey ∈ taken)
  takenKnown : ∀ key ∈ taken, ∃ id, l.recorded.get? key = some id
  orphaned : ∀ key ∈ taken, ∃ o ∈ l.orphans, o.dedupeKey = key
  isIssued : ∀ id t, l.transfers.get? id = some t → id.ulid ∈ issued

theorem recorded_empty (chain : ChainId) (issued : List Ulid) :
    Recorded .empty chain issued [] where
  stored := by simp [empty]
  known := by simp [empty]
  eventsKeyed := by simp [empty]
  covered := by simp [empty]
  live := by simp [empty]
  reverted_iff := by simp [empty]
  takenKnown := by simp
  orphaned := by simp
  isIssued := by simp [empty]

/-- What is pending is among the pending transfers of the chain. -/
theorem Recorded.mem_pendingTransfers {l : Ledger} {chain : ChainId} {issued : List Ulid}
    {taken : List String} (recorded : Recorded l chain issued taken) {id : TransferId}
    {t : Transfer} (found : l.transfers.get? id = some t)
    (pending : t.status = .pending) :
    t ∈ l.pendingTransfers chain := by
  obtain ⟨e, -, -, origin, ofChain⟩ := recorded.live id t found pending
  refine List.mem_filter.2 ⟨Table.mem_values_iff.2 ⟨id, found⟩, ?_⟩
  simp [pending, ofChain, Transfer.originHeight, origin]

/-- Only events, orphans, transfers and their keys matter, and identifiers
may be given out. -/
theorem Recorded.congr {l m : Ledger} {chain : ChainId} {issued more : List Ulid}
    {taken : List String} (recorded : Recorded l chain issued taken)
    (events : m.events = l.events) (orphans : m.orphans = l.orphans)
    (transfers : m.transfers = l.transfers) (keys : m.recorded = l.recorded)
    (grows : issued ⊆ more) : Recorded m chain more taken where
  stored := by rw [transfers, keys]; exact recorded.stored
  known := by rw [transfers, keys]; exact recorded.known
  eventsKeyed := by rw [events]; exact recorded.eventsKeyed
  covered := by rw [events, keys]; exact recorded.covered
  live := by rw [events, transfers]; exact recorded.live
  reverted_iff := by rw [transfers]; exact recorded.reverted_iff
  takenKnown := by rw [keys]; exact recorded.takenKnown
  orphaned := by rw [orphans]; exact recorded.orphaned
  isIssued := by
    rw [transfers]
    intro id t found
    exact grows (recorded.isIssued id t found)

end Ledger

/-! ## Blocks -/

section Block

variable {h : Harvest} {i : Ingest} {b : Block} {start : Batch} {s after : Surroundings}

/-- What a block makes of the transfers. -/
structure Absorbed (h : Harvest) (i : Ingest) (height : Height) (l after : Ledger) :
    Prop where
  keyed : after.Keyed
  keysKept : ∀ key id, l.recorded.get? key = some id → after.recorded.get? key = some id
  /-- A transfer is as before, was confirmed, or is new. -/
  cases : ∀ id t, after.transfers.get? id = some t →
    (l.transfers.get? id = some t ∧
      (t ∈ l.pendingTransfers i.chain → t.confirmDue? i.depth height h.now = none)) ∨
    (∃ u, l.transfers.get? id = some u ∧ u.confirmDue? i.depth height h.now = some t) ∨
    ∃ u ∈ h.new, t = (u.confirmDue? i.depth height h.now).getD u ∧
      l.recorded.get? t.dedupeKey = none
  recorded : ∀ u ∈ h.new, ∃ id, after.recorded.get? u.dedupeKey = some id

/-- A stored transfer is still there, as it was or confirmed. -/
theorem Absorbed.present {height : Height} {l l' : Ledger}
    (absorbed : Absorbed h i height l l') (keyed : l.Keyed) {id : TransferId}
    {u : Transfer} (found : l.transfers.get? id = some u) :
    ∃ t, l'.transfers.get? id = some t ∧
      ((t = u ∧ (u ∈ l.pendingTransfers i.chain →
        u.confirmDue? i.depth height h.now = none)) ∨
        u.confirmDue? i.depth height h.now = some t) := by
  have known := (keyed.stored id u found).2
  obtain ⟨t, there, sameKey⟩ := absorbed.keyed.known _ id (absorbed.keysKept _ id known)
  refine ⟨t, there, ?_⟩
  rcases absorbed.cases id t there with
    ⟨old, waits⟩ | ⟨v, old, confirmed⟩ | ⟨-, -, -, unknown⟩
  · obtain rfl := Option.some.inj (old.symm.trans found)
    exact Or.inl ⟨rfl, waits⟩
  · obtain rfl := Option.some.inj (old.symm.trans found)
    exact Or.inr confirmed
  · rw [sameKey, known] at unknown
    cases unknown

/-- A new transfer, confirmed at once or not, is known as it was made. -/
theorem getD_confirmDue? (depth : UInt64) (height : Height) (now : Instant)
    (u : Transfer) :
    let t := (u.confirmDue? depth height now).getD u
    t.id = u.id ∧ t.origin = u.origin ∧ t.token = u.token ∧ t.dedupeKey = u.dedupeKey ∧
      (t.status = u.status ∨ t.status = .confirmed) := by
  cases confirmed : u.confirmDue? depth height now with
  | none => exact ⟨rfl, rfl, rfl, rfl, Or.inl rfl⟩
  | some t =>
      have change := Transfer.confirmedAs_of_due confirmed
      exact ⟨change.id, change.origin, change.token,
        Transfer.dedupeKey_congr change.id change.origin, Or.inr change.status⟩

theorem absorbed_of_committed {height : Height} {l l' : Ledger} (keyed : l.Keyed)
    (distinct : (h.new.map (·.id)).Nodup)
    (fresh : ∀ t ∈ h.new, l.transfers.get? t.id = none)
    (transfers : l'.transfers =
      ((h.confirmation i height l).1.foldl Ledger.writeTransfer l).transfers)
    (keys : l'.recorded =
      ((h.confirmation i height l).1.foldl Ledger.writeTransfer l).recorded) :
    Absorbed h i height l l' := by
  simp only [Harvest.confirmation, Ingest.confirmation,
    List.foldl_append] at transfers keys
  have faithful := Transfer.faithful_confirmDue? i.depth height h.now
  have among : ∀ u ∈ l.pendingTransfers i.chain, u ∈ l.transfers.values :=
    fun u member => (List.mem_filter.1 member).1
  generalize middleIs :
    ((l.pendingTransfers i.chain).filterMap (·.confirmDue? i.depth height h.now)).map
      (fun t => TransferWrite.update t .pending) = updates at transfers keys
  have amended := Ledger.amended_get? keyed faithful among .pending
  have middleKeyed := Ledger.keyed_amended keyed faithful among .pending
  have middleKeys := Ledger.updates_recorded l ((l.pendingTransfers i.chain).filterMap
    (·.confirmDue? i.depth height h.now)) .pending
  rw [middleIs] at middleKeyed middleKeys
  simp only [middleIs] at amended
  generalize updates.foldl Ledger.writeTransfer l =
    m at transfers keys amended middleKeyed middleKeys
  have inserted : Ledger.Inserted m
      (h.new.map fun t => (t.confirmDue? i.depth height h.now).getD t)
      (((h.new.map fun t => (t.confirmDue? i.depth height h.now).getD t).map
        TransferWrite.insert).foldl Ledger.writeTransfer m) := by
    apply Ledger.inserted_all middleKeyed
    · have sameIds :
        (h.new.map fun t => (t.confirmDue? i.depth height h.now).getD t).map (·.id) =
          h.new.map (·.id) := by
        rw [List.map_map]
        exact List.map_congr_left fun u _ => (getD_confirmDue? i.depth height h.now u).1
      rw [sameIds]
      exact distinct
    · intro t member
      obtain ⟨u, new, rfl⟩ := List.mem_map.1 member
      rw [(getD_confirmDue? i.depth height h.now u).1]
      rcases amended u.id with ⟨v, t, -, before, -, -⟩ | ⟨-, same⟩
      · rw [fresh u new] at before
        cases before
      · rw [same]
        exact fresh u new
  have keysKept : ∀ key id, l.recorded.get? key = some id →
    l'.recorded.get? key = some id := by
    intro key id found
    rw [keys]
    exact inserted.keysKept key id (by rwa [middleKeys])
  constructor
  case keyed =>
    constructor
    · rw [transfers, keys]
      exact inserted.keyed.stored
    · rw [transfers, keys]
      exact inserted.keyed.known
  case keysKept => exact keysKept
  case cases =>
    intro id t found
    rw [transfers] at found
    rcases inserted.origin id t found with old | ⟨new, unknown⟩
    · rcases amended id with ⟨u, t', -, before, confirmed, changed⟩ | ⟨unchanged, same⟩
      · obtain rfl := Option.some.inj (old.symm.trans changed)
        exact Or.inr (Or.inl ⟨u, before, confirmed⟩)
      · rw [same] at old
        exact Or.inl ⟨old, fun pending => unchanged t pending (keyed.stored id t old).1⟩
    · obtain ⟨u, isNew, rfl⟩ := List.mem_map.1 new
      rw [middleKeys] at unknown
      exact Or.inr (Or.inr ⟨u, isNew, rfl, unknown⟩)
  case recorded =>
    intro u isNew
    obtain ⟨id, known⟩ := inserted.recorded _ (List.mem_map_of_mem isNew)
    rw [(getD_confirmDue? i.depth height h.now u).2.2.2.1] at known
    exact ⟨id, by rwa [keys]⟩

/-- The transfers after a block. -/
theorem Harvest.Ingested.absorbed (ingested : h.Ingested i b start s after)
    (keyed : s.ledger.Keyed)
    (isIssued : ∀ id t, s.ledger.transfers.get? id = some t → id.ulid ∈ s.issued) :
    Absorbed h i start.target.height s.ledger after.ledger := by
  have committed := Ledger.committed_of_commit ingested.committed
  apply absorbed_of_committed keyed ingested.new.distinct ?_ committed.transfers
    committed.recorded
  intro t member
  cases found : s.ledger.transfers.get? t.id with
  | none => rfl
  | some u => exact absurd (isIssued _ u found) (ingested.new.unissued t member).1

theorem Harvest.takenBack_batch (noRange : start.reverted = none) (l : Ledger) :
    l.takenBack (h.batch i start l) = l :=
  Ledger.takenBack_of_none noRange

/-- The events after a block: those before it, and its own. -/
theorem Harvest.Ingested.events (ingested : h.Ingested i b start s after)
    (noRange : start.reverted = none) (k : EventKey) :
    (∃ e ∈ h.events, e.key = k ∧ after.ledger.events.get? k = some e) ∨
      (∀ e ∈ h.events, e.key ≠ k) ∧
        after.ledger.events.get? k = s.ledger.events.get? k := by
  have committed := Ledger.committed_of_commit ingested.committed
  rw [committed.events, Harvest.takenBack_batch noRange]
  exact Ledger.events_get? ingested.keys ingested.unknown k

/-- No event is lost to a block. -/
theorem Harvest.Ingested.events_kept (ingested : h.Ingested i b start s after)
    (noRange : start.reverted = none) {e : ChainEvent}
    (found : s.ledger.events.get? e.key = some e) :
    after.ledger.events.get? e.key = some e := by
  rcases ingested.events noRange e.key with ⟨d, member, same, -⟩ | ⟨-, kept⟩
  · have unknown := ingested.unknown d member
    rw [same, found] at unknown
    cases unknown
  · rw [kept, found]

/-- Every event of the block is recorded. -/
theorem Harvest.Ingested.events_new (ingested : h.Ingested i b start s after)
    (noRange : start.reverted = none) {e : ChainEvent} (member : e ∈ h.events) :
    after.ledger.events.get? e.key = some e := by
  rcases ingested.events noRange e.key with ⟨d, among, same, found⟩ | ⟨others, -⟩
  · rwa [List.inj_on_of_nodup_map ingested.keys among member same] at found
  · exact absurd rfl (others e member)

/-- A confirmed transfer was not taken back before. -/
theorem Transfer.ConfirmedAs.not_taken {depth : UInt64} {head : Height} {u t : Transfer}
    {l : Ledger} {chain : ChainId} {issued : List Ulid} {taken : List String}
    (change : ConfirmedAs depth head u t) (recorded : l.Recorded chain issued taken)
    {id : TransferId} (found : l.transfers.get? id = some u) : t.dedupeKey ∉ taken := by
  rw [dedupeKey_congr change.id change.origin]
  intro isTaken
  have reverted := (recorded.reverted_iff id u found).2 isTaken
  rw [change.wasPending] at reverted
  cases reverted

/-- A block keeps events and transfers together. -/
theorem Ledger.Recorded.block {taken : List String}
    (ingested : h.Ingested i b start s after) (noRange : start.reverted = none)
    (ofChain : b.chain = i.chain) (grows : s.issued ⊆ after.issued)
    (recorded : s.ledger.Recorded i.chain s.issued taken) :
    after.ledger.Recorded i.chain after.issued taken := by
  have absorbed := ingested.absorbed recorded.toKeyed recorded.isIssued
  have sameOrphans : after.ledger.orphans = s.ledger.orphans := by
    rw [(Ledger.committed_of_commit ingested.committed).orphans,
      Harvest.takenBack_batch noRange]
  constructor
  case toKeyed => exact absorbed.keyed
  case eventsKeyed =>
    intro k e found
    rcases ingested.events noRange k with ⟨d, -, same, here⟩ | ⟨-, kept⟩
    · rw [here] at found
      cases found
      exact same
    · exact recorded.eventsKeyed k e (kept ▸ found)
  case covered =>
    intro k e found
    rcases ingested.events noRange k with ⟨d, member, -, here⟩ | ⟨-, kept⟩
    · rw [here] at found
      obtain rfl := Option.some.inj found
      obtain ⟨u, isNew, represents⟩ :=
        ingested.new.ofAll d member (ingested.ofBlock d member).moves
      rw [← Transfer.dedupeKey_of_origin represents.origin]
      exact absorbed.recorded u isNew
    · obtain ⟨id, known⟩ := recorded.covered k e (kept ▸ found)
      exact ⟨id, absorbed.keysKept _ id known⟩
  case live =>
    intro id t found pending
    rcases absorbed.cases id t found with
      ⟨old, -⟩ | ⟨u, -, confirmed⟩ | ⟨u, isNew, rfl, -⟩
    · obtain ⟨e, isLive, rest⟩ := recorded.live id t old pending
      exact ⟨e, ingested.events_kept noRange isLive, rest⟩
    · rw [(Transfer.confirmedAs_of_due confirmed).status] at pending
      cases pending
    · obtain ⟨e, member, represents⟩ := ingested.new.ofEvents u isNew
      obtain ⟨-, origin, token, -, -⟩ :=
        getD_confirmDue? i.depth start.target.height h.now u
      have isOf := ingested.ofBlock e member
      refine ⟨e, ingested.events_new noRange member, isOf.chain.trans ofChain,
        origin.trans represents.origin, ?_⟩
      rw [Transfer.chain, token, represents.token]
      exact isOf.tokenChain.trans ofChain
  case reverted_iff =>
    intro id t found
    rcases absorbed.cases id t found with
      ⟨old, -⟩ | ⟨u, old, confirmed⟩ | ⟨u, isNew, rfl, unknown⟩
    · exact recorded.reverted_iff id t old
    · have change := Transfer.confirmedAs_of_due confirmed
      apply iff_of_false ?_ (change.not_taken recorded old)
      rw [change.status]
      simp
    · obtain ⟨e, -, represents⟩ := ingested.new.ofEvents u isNew
      obtain ⟨-, -, -, -, status⟩ := getD_confirmDue? i.depth start.target.height h.now u
      apply iff_of_false
      · rw [represents.pending] at status
        rcases status with status | status <;> simp [status]
      · intro isTaken
        obtain ⟨id', known⟩ := recorded.takenKnown _ isTaken
        rw [known] at unknown
        cases unknown
  case takenKnown =>
    intro key isTaken
    obtain ⟨id, known⟩ := recorded.takenKnown key isTaken
    exact ⟨id, absorbed.keysKept key id known⟩
  case orphaned =>
    rw [sameOrphans]
    exact recorded.orphaned
  case isIssued =>
    intro id t found
    rcases absorbed.cases id t found with ⟨old, -⟩ | ⟨u, old, -⟩ | ⟨u, isNew, rfl, -⟩
    · exact grows (recorded.isIssued id t old)
    · exact grows (recorded.isIssued id u old)
    · rw [← (absorbed.keyed.stored id _ found).1,
        (getD_confirmDue? i.depth start.target.height h.now u).1]
      exact (ingested.new.unissued u isNew).2

end Block

/-! ## Reorganisations -/

section Revert

variable {i : Ingest} {lease : Lease} {range : RevertedRange} {l after : Ledger}

/-- What a reorganisation makes of the transfers and events. -/
structure Reverted (chain : ChainId) (range : RevertedRange) (l after : Ledger) :
    Prop where
  keyed : after.Keyed
  keysKept : after.recorded = l.recorded
  /-- A transfer is as before, or was pending in the range and is reverted. -/
  cases : ∀ id t, after.transfers.get? id = some t →
    (l.transfers.get? id = some t ∧ t.revertIn? range = none) ∨
    ∃ u, l.transfers.get? id = some u ∧ u.revertIn? range = some t
  events : ∀ k, after.events.get? k =
    (l.events.get? k).filter fun e => !(e.chain == chain && range.contains e.blockHeight)
  orphans : after.orphans = l.orphans ++
    l.events.values.filter fun e => e.chain == chain && range.contains e.blockHeight

theorem reverted_of_commit (keyed : l.Keyed) (leaseChain : lease.chain = i.chain)
    (rangeChain : range.chain = i.chain)
    (accepted : l.commit (i.revertBatch lease range l) = .ok after) :
    Reverted i.chain range l after := by
  have committed := Ledger.committed_of_commit accepted
  have faithful := Transfer.faithful_revertIn? range
  have among : ∀ u ∈ l.transfersInRange i.chain range.fromHeight range.toHeight,
      u ∈ l.transfers.values := fun u member => (List.mem_filter.1 member).1
  have amended := Ledger.amended_get? keyed faithful among .pending
  have middle := Ledger.keyed_amended keyed faithful among .pending
  have keys := Ledger.updates_recorded l ((l.transfersInRange i.chain range.fromHeight
    range.toHeight).filterMap (·.revertIn? range)) .pending
  have takenBack :
      l.takenBack (i.revertBatch lease range l) = l.revertRange i.chain range := by
    rw [← leaseChain]
    rfl
  constructor
  case keyed =>
    constructor
    · rw [committed.transfers, committed.recorded]
      exact middle.stored
    · rw [committed.transfers, committed.recorded]
      exact middle.known
  case keysKept => exact committed.recorded.trans keys
  case cases =>
    intro id t found
    rw [committed.transfers] at found
    rcases amended id with ⟨u, t', -, old, changed, here⟩ | ⟨unchanged, same⟩
    · obtain rfl := Option.some.inj (here.symm.trans found)
      exact Or.inr ⟨u, old, changed⟩
    · have old := same.symm.trans found
      refine Or.inl ⟨old, ?_⟩
      cases changed : t.revertIn? range with
      | none => rfl
      | some t' =>
          -- It would have been among those that the reorganisation looked at.
          obtain ⟨⟨concerned, -⟩, -⟩ := Transfer.revertIn?_eq_some.1 changed
          have looked :
              t ∈ l.transfersInRange i.chain range.fromHeight range.toHeight := by
            apply List.mem_filter.2
            refine ⟨Table.mem_values_iff.2 ⟨id, old⟩, ?_⟩
            unfold Transfer.inRange at concerned
            split at concerned
            · rename_i height atHeight
              simpa [atHeight, rangeChain, RevertedRange.contains] using concerned
            · cases concerned
          rw [unchanged t looked (keyed.stored id t old).1] at changed
          cases changed
  case events =>
    intro k
    rw [committed.events, takenBack]
    exact Table.get?_filter _ _ _
  case orphans =>
    rw [committed.orphans, takenBack]
    rfl

/-- A stored transfer is still there, as it was or reverted. -/
theorem Reverted.present {chain : ChainId} (reverted : Reverted chain range l after)
    (keyed : l.Keyed) {id : TransferId} {u : Transfer}
    (found : l.transfers.get? id = some u) :
    ∃ t, after.transfers.get? id = some t ∧ (t = u ∨ u.revertIn? range = some t) := by
  have known := (keyed.stored id u found).2
  obtain ⟨t, there, -⟩ := reverted.keyed.known _ id (by rwa [reverted.keysKept])
  refine ⟨t, there, ?_⟩
  rcases reverted.cases id t there with ⟨old, -⟩ | ⟨v, old, changed⟩
  · exact Or.inl (Option.some.inj (old.symm.trans found))
  · obtain rfl := Option.some.inj (old.symm.trans found)
    exact Or.inr changed

theorem Ledger.mem_takenBy {key : String} : key ∈ l.takenBy range ↔
    ∃ id u t, l.transfers.get? id = some u ∧ u.revertIn? range = some t ∧
      u.dedupeKey = key := by
  simp only [Ledger.takenBy, List.mem_map, List.mem_filter, Table.mem_values_iff,
    Option.isSome_iff_exists]
  constructor
  · rintro ⟨u, ⟨⟨id, found⟩, t, changed⟩, same⟩
    exact ⟨id, u, t, found, changed, same⟩
  · rintro ⟨id, u, t, found, changed, same⟩
    exact ⟨u, ⟨⟨id, found⟩, t, changed⟩, same⟩

/-- Whether a pending transfer is taken back is a matter of the height of its event. -/
theorem Transfer.revertIn?_of_origin {t : Transfer} {e : ChainEvent}
    (pending : t.status = .pending) (tokenChain : t.chain = range.chain)
    (origin : t.origin = .blockchain e.origin) :
    (∃ t', t.revertIn? range = some t') ↔ range.contains e.blockHeight = true := by
  simp [revertIn?_eq_some, inRange, originHeight, origin, ChainEvent.origin,
    pending, tokenChain]

/-- What is still pending was pending before, in a block outside of the range. -/
theorem Reverted.pending {chain : ChainId} {issued : List Ulid} {taken : List String}
    (reverted : Reverted chain range l after) (recorded : l.Recorded chain issued taken)
    (rangeChain : range.chain = chain) {id : TransferId} {t : Transfer}
    (found : after.transfers.get? id = some t) (pending : t.status = .pending) :
    l.transfers.get? id = some t ∧ ∀ origin, t.origin = .blockchain origin →
      range.contains origin.blockHeight = false := by
  rcases reverted.cases id t found with ⟨old, untouched⟩ | ⟨u, -, changed⟩
  · refine ⟨old, fun origin isOrigin => ?_⟩
    obtain ⟨e, -, -, eventOrigin, tokenChain⟩ := recorded.live id t old pending
    have outside :=
      mt (Transfer.revertIn?_of_origin pending (tokenChain.trans rangeChain.symm)
      eventOrigin).2
    rw [untouched] at outside
    rw [eventOrigin] at isOrigin
    cases isOrigin
    exact Bool.eq_false_iff.2 (outside (by simp))
  · obtain ⟨-, rfl⟩ := Transfer.revertIn?_eq_some.1 changed
    cases pending

/-- No event is new after a reorganisation. -/
theorem Reverted.events_old {chain : ChainId} (reverted : Reverted chain range l after)
    {k : EventKey} {e : ChainEvent} (found : after.events.get? k = some e) :
    l.events.get? k = some e := by
  rw [reverted.events, Option.filter_eq_some_iff] at found
  exact found.1

/-- A reorganisation keeps events and transfers together. -/
theorem Ledger.Recorded.revert {issued : List Ulid} {taken : List String}
    (recorded : l.Recorded i.chain issued taken) (rangeChain : range.chain = i.chain)
    (reverted : Reverted i.chain range l after) :
    after.Recorded i.chain issued (taken ++ l.takenBy range) := by
  constructor
  case toKeyed => exact reverted.keyed
  case eventsKeyed =>
    intro k e found
    exact recorded.eventsKeyed k e (reverted.events_old found)
  case covered =>
    intro k e found
    rw [reverted.keysKept]
    exact recorded.covered k e (reverted.events_old found)
  case live =>
    intro id t found pending
    obtain ⟨old, outside⟩ := reverted.pending recorded rangeChain found pending
    obtain ⟨e, isLive, ofChain, origin, tokenChain⟩ := recorded.live id t old pending
    have stays : range.contains e.blockHeight = false := outside _ origin
    refine ⟨e, ?_, ofChain, origin, tokenChain⟩
    rw [reverted.events, isLive]
    simp [stays]
  case reverted_iff =>
    intro id t found
    rcases reverted.cases id t found with ⟨old, untouched⟩ | ⟨u, old, changed⟩
    · have notNow : t.dedupeKey ∉ l.takenBy range := by
        rw [mem_takenBy]
        rintro ⟨id', u, t', found', changed, same⟩
        obtain ⟨-, rfl⟩ := recorded.unique found' old same
        rw [untouched] at changed
        cases changed
      rw [recorded.reverted_iff id t old, List.mem_append]
      simp [notNow]
    · have sameKey := (Transfer.faithful_revertIn? range).key u t changed
      have isTaken : t.dedupeKey ∈ l.takenBy range :=
        mem_takenBy.2 ⟨id, u, t, old, changed, sameKey.symm⟩
      obtain ⟨-, rfl⟩ := Transfer.revertIn?_eq_some.1 changed
      exact iff_of_true rfl (List.mem_append_right _ isTaken)
  case takenKnown =>
    intro key isTaken
    rw [reverted.keysKept]
    rcases List.mem_append.1 isTaken with before | now
    · exact recorded.takenKnown key before
    · obtain ⟨id, u, t, found, -, rfl⟩ := mem_takenBy.1 now
      exact ⟨id, (recorded.stored id u found).2⟩
  case orphaned =>
    intro key isTaken
    rw [reverted.orphans]
    rcases List.mem_append.1 isTaken with before | now
    · obtain ⟨o, member, same⟩ := recorded.orphaned key before
      exact ⟨o, List.mem_append_left _ member, same⟩
    · obtain ⟨id, u, t, found, changed, rfl⟩ := mem_takenBy.1 now
      have pending := (Transfer.revertIn?_eq_some.1 changed).1.2
      obtain ⟨e, isLive, ofChain, origin, tokenChain⟩ := recorded.live id u found pending
      have inside :=
        (Transfer.revertIn?_of_origin pending (tokenChain.trans rangeChain.symm)
        origin).1 ⟨t, changed⟩
      refine ⟨e, ?_, (Transfer.dedupeKey_of_origin origin).symm⟩
      apply List.mem_append_right
      apply List.mem_filter.2
      constructor
      · exact Table.mem_values_iff.2 ⟨e.key, isLive⟩
      · rw [Bool.and_eq_true, beq_iff_eq]
        exact ⟨ofChain, inside⟩
  case isIssued =>
    intro id t found
    rcases reverted.cases id t found with ⟨old, -⟩ | ⟨u, old, -⟩
    · exact recorded.isIssued id t old
    · exact recorded.isIssued id u old

end Revert

end Paywatch
