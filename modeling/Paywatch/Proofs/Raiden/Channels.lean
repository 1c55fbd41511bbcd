import Paywatch.Proofs.Ledger.Consumers
import Paywatch.Raiden.Payment

/-!
# Transfers through channels

What a ledger holds of payment channels: the transfers that went through one, and the
dedupe keys under which they are recorded.  Their keys are unlike all others, so writes
of transfers from elsewhere leave both as they are.
-/

namespace Paywatch

namespace Transfer

/-- The transfer went through a payment channel. -/
def IsChannel (t : Transfer) : Prop := ∃ o, t.origin = .raiden o

/-- Only a transfer through a channel has the key of one. -/
theorem IsChannel.of_key {t u : Transfer} (channel : t.IsChannel)
    (same : u.dedupeKey = t.dedupeKey) : u.IsChannel := by
  obtain ⟨o, origin⟩ := channel
  have letters := congrArg (·.toList.head?) same
  cases other : u.origin with
  | raiden o' => exact ⟨o', other⟩
  | internal memo => simp [dedupeKey, origin, other, String.toList_append] at letters
  | blockchain o' => simp [dedupeKey, origin, other, String.toList_append] at letters

end Transfer

namespace Payment

/-- The transfer is one that the payment is recorded by. -/
def Yields (p : Payment) (t : Transfer) : Prop := ∃ stamp, p.transfer stamp = .ok t

variable {p : Payment} {t u : Transfer} {stamp : Stamp}

theorem origin_of_transfer (made : p.transfer stamp = .ok t) :
    t.id = ⟨stamp.ulid⟩ ∧ t.origin = .raiden p.origin := by
  unfold transfer at made
  split at made
  · cases made
  · split at made <;>
    · cases made
      exact ⟨rfl, rfl⟩

theorem Yields.isChannel (yields : p.Yields t) : t.IsChannel := by
  obtain ⟨stamp, made⟩ := yields
  exact ⟨p.origin, (origin_of_transfer made).2⟩

/-- A payment of nothing is never recorded. -/
theorem Yields.not_zero (yields : p.Yields t) : p.amount.isZero = false := by
  obtain ⟨stamp, made⟩ := yields
  unfold transfer at made
  split at made
  · cases made
  · exact Bool.eq_false_iff.2 ‹_›

/-- Whenever a payment is recorded, it is recorded under one key. -/
theorem Yields.same_key (yields : p.Yields t) (again : p.Yields u) :
    t.dedupeKey = u.dedupeKey := by
  obtain ⟨stamp, made⟩ := yields
  obtain ⟨stamp', made'⟩ := again
  simp only [Transfer.dedupeKey, (origin_of_transfer made).2,
    (origin_of_transfer made').2]

end Payment

namespace Ledger

/-- The ledgers hold the same transfers through channels, under the same keys. -/
structure SameChannels (l l' : Ledger) : Prop where
  transfers : ∀ id t, t.IsChannel →
    (l'.transfers.get? id = some t ↔ l.transfers.get? id = some t)
  recorded : ∀ t : Transfer, t.IsChannel →
    l'.recorded.get? t.dedupeKey = l.recorded.get? t.dedupeKey

namespace SameChannels

variable {l l' l'' : Ledger}

theorem of_eq (transfers : l'.transfers = l.transfers)
    (recorded : l'.recorded = l.recorded) : SameChannels l l' :=
  ⟨fun _ _ _ => by rw [transfers], fun _ _ => by rw [recorded]⟩

theorem refl (l : Ledger) : SameChannels l l := of_eq rfl rfl

theorem trans (first : SameChannels l l') (second : SameChannels l' l'') :
    SameChannels l l'' where
  transfers id t channel :=
    (second.transfers id t channel).trans (first.transfers id t channel)
  recorded t channel := (second.recorded t channel).trans (first.recorded t channel)

/-- No transfer through a channel has the identifier. -/
theorem none_at (same : SameChannels l l') {id : TransferId}
    (none : ∀ t, l.transfers.get? id = some t → ¬ t.IsChannel) :
    ∀ t, l'.transfers.get? id = some t → ¬ t.IsChannel :=
  fun t found channel => none t ((same.transfers id t channel).1 found) channel

end SameChannels

/-- The write is of a transfer through no channel, in the place of none
that went through one. -/
structure SparesChannels (l : Ledger) (w : TransferWrite) : Prop where
  other : ¬ w.transfer.IsChannel
  replaced : ∀ t, l.transfers.get? w.transfer.id = some t → ¬ t.IsChannel

variable {l : Ledger}

theorem SparesChannels.write {w : TransferWrite} (spares : l.SparesChannels w) :
    SameChannels l (l.writeTransfer w) where
  transfers id t channel := by
    by_cases passed : l.passesOver w = true
    · rw [writeTransfer_of_passesOver passed]
    · rw [get?_writeTransfer passed]
      split
      · rename_i here
        constructor
        · intro same
          exact absurd (Option.some.inj same ▸ channel) spares.other
        · intro found
          exact absurd channel (spares.replaced t (here ▸ found))
      · exact Iff.rfl
  recorded t channel := by
    cases w with
    | update u expected => rfl
    | insert u =>
        rw [writeTransfer]
        split
        · rfl
        · exact (Table.get?_insert _ _ _ _).trans
            (if_neg fun same => spares.other (channel.of_key same))

theorem sameChannels_writes {ws : List TransferWrite}
    (spares : ∀ w ∈ ws, l.SparesChannels w) :
    SameChannels l (ws.foldl writeTransfer l) := by
  induction ws generalizing l with
  | nil => exact .refl l
  | cons w rest ih =>
      rw [List.forall_mem_cons] at spares
      have first := spares.1.write
      refine first.trans (ih fun v member => ?_)
      exact ⟨(spares.2 v member).other, first.none_at (spares.2 v member).replaced⟩

/-- A call leaves the keys that its writes record, and no others. -/
theorem recorded_perform (l : Ledger) (c : Call) :
    (l.perform c).2.recorded = ((c.written l).foldl writeTransfer l).recorded := by
  cases c with
  | commit b => exact (booked_commit l b).recorded
  | commitPlan writes p => exact (booked_commitPlan l writes p).recorded
  | insertRoute r => rfl
  | insertOrder o => rfl
  | expireOrder id =>
      simp only [perform]
      cases expired : l.expireOrder id with
      | error e => rfl
      | ok result =>
          simp only
          rw [expireOrder_frame expired]
          rfl
  | _ =>
      rw [perform_frame l rfl]
      rfl

/-- A call that writes no transfer through a channel leaves those that are
stored as they are. -/
theorem sameChannels_perform {c : Call} (spares : ∀ w ∈ c.written l, l.SparesChannels w) :
    SameChannels l (l.perform c).2 :=
  (sameChannels_writes spares).trans (.of_eq (transfers_perform l c)
    (recorded_perform l c))

theorem attempt_accepted {result : Except LedgerError Ledger}
    (accepted : (l.attempt result).1 = .ok ()) : result = .ok (l.attempt result).2 := by
  cases result with
  | ok after => rfl
  | error e => cases accepted

/-- A transfer that was accepted under an unknown key is stored, and
recorded under the key. -/
theorem commitPlan_insert {t : Transfer} {plan : Plan} {after : Ledger}
    (accepted : l.commitPlan [.insert t] plan = .ok after)
    (unknown : l.recorded.get? t.dedupeKey = none) :
    after.transfers = l.transfers.insert t.id t ∧
      after.recorded = l.recorded.insert t.dedupeKey t.id := by
  have booked := booked_of_commitPlan accepted
  have fresh : ¬ l.recorded.contains t.dedupeKey = true := by
    simp [Table.contains, unknown]
  have written : [TransferWrite.insert t].foldl writeTransfer l = { l with
      recorded := l.recorded.insert t.dedupeKey t.id
      transfers := l.transfers.insert t.id t } := by
    rw [List.foldl_cons, List.foldl_nil, writeTransfer, if_neg fresh]
  exact ⟨by rw [booked.transfers, written], by rw [booked.recorded, written]⟩

end Ledger

end Paywatch
