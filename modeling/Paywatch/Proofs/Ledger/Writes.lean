import Paywatch.Proofs.Ledger.Commit

/-!
# What a commit writes

The transfers and the events of a ledger after the writes of a batch.  A batch first
replaces stored transfers, each by one with the same identifier and the same dedupe key,
and then inserts new ones.  `Keyed` says that transfers and dedupe keys belong together
one to one; both kinds of writes keep it.
-/

namespace Paywatch.Ledger

/-- Every transfer is stored under its identifier, and its dedupe key leads to it. -/
structure Keyed (l : Ledger) : Prop where
  stored : ∀ id t, l.transfers.get? id = some t →
    t.id = id ∧ l.recorded.get? t.dedupeKey = some id
  known : ∀ key id, l.recorded.get? key = some id →
    ∃ t, l.transfers.get? id = some t ∧ t.dedupeKey = key

/-- Under one dedupe key there is one transfer. -/
theorem Keyed.unique {l : Ledger} (keyed : Keyed l) {id id' : TransferId}
    {t t' : Transfer} (found : l.transfers.get? id = some t)
    (found' : l.transfers.get? id' = some t') (same : t.dedupeKey = t'.dedupeKey) :
    id = id' ∧ t = t' := by
  have here := (keyed.stored id t found).2
  have here' := (keyed.stored id' t' found').2
  rw [same, here'] at here
  cases here
  rw [found] at found'
  exact ⟨rfl, Option.some.inj found'⟩

theorem mem_transfers_iff {l : Ledger} (keyed : Keyed l) {t : Transfer} :
    t ∈ l.transfers.values ↔ l.transfers.get? t.id = some t := by
  rw [Table.mem_values_iff]
  constructor
  · rintro ⟨id, found⟩
    rwa [(keyed.stored id t found).1]
  · intro found
    exact ⟨t.id, found⟩

/-! ## Replacing -/

/-- After the replacements, a transfer is the one that replaced it or, if
none did, as before. -/
theorem updates_get? (l : Ledger) (ts : List Transfer) (expected : TransferStatus)
    (id : TransferId) :
    (∃ t ∈ ts, t.id = id ∧
      ((ts.map (.update · expected)).foldl writeTransfer l).transfers.get? id = some t) ∨
    (∀ t ∈ ts, t.id ≠ id) ∧
      ((ts.map (.update · expected)).foldl writeTransfer l).transfers.get? id =
        l.transfers.get? id := by
  induction ts generalizing l with
  | nil => exact Or.inr ⟨by simp, rfl⟩
  | cons t rest ih =>
      rw [List.map_cons, List.foldl_cons]
      rcases ih (l.writeTransfer (.update t expected)) with
        ⟨u, member, sameId, found⟩ | ⟨others, same⟩
      · exact Or.inl ⟨u, List.mem_cons_of_mem _ member, sameId, found⟩
      · rw [same, writeTransfer, Table.get?_insert]
        by_cases here : t.id = id
        · exact Or.inl ⟨t, List.mem_cons_self, here, by rw [if_pos here]⟩
        · refine Or.inr ⟨?_, by rw [if_neg here]⟩
          rw [List.forall_mem_cons]
          exact ⟨here, others⟩

theorem updates_recorded (l : Ledger) (ts : List Transfer) (expected : TransferStatus) :
    ((ts.map (.update · expected)).foldl writeTransfer l).recorded = l.recorded := by
  induction ts generalizing l with
  | nil => rfl
  | cons t rest ih =>
      rw [List.map_cons, List.foldl_cons, ih]
      rfl

/-- A change of stored transfers that keeps what they are known by. -/
structure Faithful (f : Transfer → Option Transfer) : Prop where
  id : ∀ u t, f u = some t → t.id = u.id
  key : ∀ u t, f u = some t → t.dedupeKey = u.dedupeKey

variable {l : Ledger} {stored : List Transfer} {f : Transfer → Option Transfer}

/-- Replacing what a change changes: every stored transfer is changed or as before. -/
theorem amended_get? (keyed : Keyed l) (faithful : Faithful f)
    (among : ∀ u ∈ stored, u ∈ l.transfers.values) (expected : TransferStatus)
    (id : TransferId) :
    (∃ u t, u ∈ stored ∧ l.transfers.get? id = some u ∧ f u = some t ∧
      (((stored.filterMap f).map (.update · expected)).foldl writeTransfer
        l).transfers.get? id = some t) ∨
    (∀ u ∈ stored, u.id = id → f u = none) ∧
      (((stored.filterMap f).map (.update · expected)).foldl writeTransfer
        l).transfers.get? id = l.transfers.get? id := by
  rcases updates_get? l (stored.filterMap f) expected id with
    ⟨t, member, sameId, found⟩ | ⟨others, same⟩
  · obtain ⟨u, isStored, changed⟩ := List.mem_filterMap.1 member
    have before := (mem_transfers_iff keyed).1 (among u isStored)
    rw [← faithful.id u t changed, sameId] at before
    exact Or.inl ⟨u, t, isStored, before, changed, found⟩
  · refine Or.inr ⟨fun u isStored sameId => ?_, same⟩
    cases changed : f u with
    | none => rfl
    | some t =>
        have other := others t (List.mem_filterMap.2 ⟨u, isStored, changed⟩)
        exact absurd ((faithful.id u t changed).trans sameId) other

theorem keyed_amended (keyed : Keyed l) (faithful : Faithful f)
    (among : ∀ u ∈ stored, u ∈ l.transfers.values) (expected : TransferStatus) :
    Keyed (((stored.filterMap f).map (.update · expected)).foldl writeTransfer l) where
  stored := by
    intro id t found
    rw [updates_recorded]
    rcases amended_get? keyed faithful among expected id with
      ⟨u, t', -, before, changed, after⟩ | ⟨-, same⟩
    · obtain rfl := Option.some.inj (after.symm.trans found)
      rw [faithful.id u t' changed, faithful.key u t' changed]
      exact keyed.stored id u before
    · exact keyed.stored id t (same.symm.trans found)
  known := by
    intro key id found
    rw [updates_recorded] at found
    obtain ⟨u, before, sameKey⟩ := keyed.known key id found
    rcases amended_get? keyed faithful among expected id with
      ⟨u', t, -, before', changed, after⟩ | ⟨-, same⟩
    · obtain rfl := Option.some.inj (before.symm.trans before')
      exact ⟨t, after, (faithful.key u t changed).trans sameKey⟩
    · exact ⟨u, same.trans before, sameKey⟩

/-! ## Inserting -/

/-- New transfers were inserted: nothing stored has changed, and every new one is
stored or was known before. -/
structure Inserted (l : Ledger) (ts : List Transfer) (after : Ledger) : Prop where
  keyed : Keyed after
  kept : ∀ id t, l.transfers.get? id = some t → after.transfers.get? id = some t
  keysKept : ∀ key id, l.recorded.get? key = some id → after.recorded.get? key = some id
  origin : ∀ id t, after.transfers.get? id = some t → l.transfers.get? id = some t ∨
    t ∈ ts ∧ l.recorded.get? t.dedupeKey = none
  recorded : ∀ t ∈ ts, ∃ id, after.recorded.get? t.dedupeKey = some id

/-- A transfer with a new identifier and an unknown dedupe key is stored under both. -/
theorem Keyed.insert (keyed : Keyed l) {t : Transfer}
    (fresh : l.transfers.get? t.id = none)
    (unknown : l.recorded.get? t.dedupeKey = none) :
    Keyed
      { l with
        recorded := l.recorded.insert t.dedupeKey t.id
        transfers := l.transfers.insert t.id t } where
  stored := by
    intro id u found
    simp only [Table.get?_insert] at found ⊢
    split at found
    · rename_i here
      cases found
      exact ⟨here, by rw [if_pos rfl, here]⟩
    · obtain ⟨sameId, recorded⟩ := keyed.stored id u found
      refine ⟨sameId, ?_⟩
      rw [if_neg]
      · exact recorded
      · intro same
        rw [← same, unknown] at recorded
        cases recorded
  known := by
    intro key id found
    simp only [Table.get?_insert] at found
    split at found
    · rename_i here
      cases found
      exact ⟨t, by simp [Table.get?_insert], here⟩
    · obtain ⟨u, before, sameKey⟩ := keyed.known key id found
      exact ⟨u, Table.get?_insert_of_fresh fresh before, sameKey⟩

theorem inserted_one (keyed : Keyed l) {t : Transfer}
    (fresh : l.transfers.get? t.id = none) :
    Inserted l [t] (l.writeTransfer (.insert t)) := by
  simp only [writeTransfer]
  cases known : l.recorded.get? t.dedupeKey with
  | some id =>
      simp only [Table.contains, known, Option.isSome_some, if_true]
      constructor
      case keyed => exact keyed
      case kept => exact fun _ _ found => found
      case keysKept => exact fun _ _ found => found
      case origin => exact fun _ _ found => Or.inl found
      case recorded =>
        intro u member
        rw [List.mem_singleton.1 member]
        exact ⟨id, known⟩
  | none =>
      simp only [Table.contains, known, Option.isSome_none, Bool.false_eq_true, if_false]
      constructor
      case keyed => exact keyed.insert fresh known
      case kept => exact fun _ _ => Table.get?_insert_of_fresh fresh
      case keysKept => exact fun _ _ => Table.get?_insert_of_fresh known
      case origin =>
        intro id u found
        simp only [Table.get?_insert] at found
        split at found
        · cases found
          exact Or.inr ⟨List.mem_singleton.2 rfl, known⟩
        · exact Or.inl found
      case recorded =>
        intro u member
        rw [List.mem_singleton.1 member]
        exact ⟨t.id, by simp [Table.get?_insert]⟩

theorem inserted_all (keyed : Keyed l) {ts : List Transfer}
    (distinct : (ts.map (·.id)).Nodup) (fresh : ∀ t ∈ ts, l.transfers.get? t.id = none) :
    Inserted l ts ((ts.map .insert).foldl writeTransfer l) := by
  induction ts generalizing l with
  | nil =>
      exact ⟨keyed, fun _ _ found => found, fun _ _ found => found,
        fun _ _ found => Or.inl found, by simp⟩
  | cons t rest ih =>
      rw [List.forall_mem_cons] at fresh
      rw [List.map_cons, List.nodup_cons] at distinct
      rw [List.map_cons, List.foldl_cons]
      have one := inserted_one keyed fresh.1
      have stillFresh : ∀ u ∈ rest,
          (l.writeTransfer (.insert t)).transfers.get? u.id = none := by
        intro u member
        cases found : (l.writeTransfer (.insert t)).transfers.get? u.id with
        | none => rfl
        | some v =>
            have sameId := (one.keyed.stored u.id v found).1
            rcases one.origin u.id v found with old | ⟨new, -⟩
            · rw [fresh.2 u member] at old
              cases old
            · rw [List.mem_singleton.1 new] at sameId
              exact absurd (List.mem_map.2 ⟨u, member, sameId.symm⟩) distinct.1
      have all := ih one.keyed distinct.2 stillFresh
      refine ⟨all.keyed, fun id u found => all.kept id u (one.kept id u found),
        fun key id found => all.keysKept key id (one.keysKept key id found), ?_, ?_⟩
      · intro id u found
        rcases all.origin id u found with found | ⟨new, unknown⟩
        · rcases one.origin id u found with old | ⟨new, unknown⟩
          · exact Or.inl old
          · rw [List.mem_singleton] at new
            exact Or.inr ⟨List.mem_cons.2 (Or.inl new), unknown⟩
        · refine Or.inr ⟨List.mem_cons_of_mem _ new, ?_⟩
          cases known : l.recorded.get? u.dedupeKey with
          | none => rfl
          | some id =>
              rw [one.keysKept _ _ known] at unknown
              cases unknown
      · intro u member
        rcases List.mem_cons.1 member with rfl | later
        · obtain ⟨id, known⟩ := one.recorded u List.mem_cons_self
          exact ⟨id, all.keysKept _ _ known⟩
        · exact all.recorded u later

/-! ## Events -/

/-- After events with different new keys were recorded, each is found under its key, and
everything else is as before. -/
theorem events_get? {es : List ChainEvent} (distinct : (es.map (·.key)).Nodup)
    (unknown : ∀ e ∈ es, l.events.get? e.key = none) (k : EventKey) :
    (∃ e ∈ es, e.key = k ∧ (es.foldl writeEvent l).events.get? k = some e) ∨
      (∀ e ∈ es, e.key ≠ k) ∧
        (es.foldl writeEvent l).events.get? k = l.events.get? k := by
  induction es generalizing l with
  | nil => exact Or.inr ⟨by simp, rfl⟩
  | cons e rest ih =>
      rw [List.forall_mem_cons] at unknown
      rw [List.map_cons, List.nodup_cons] at distinct
      rw [List.foldl_cons]
      have one : ∀ j, (l.writeEvent e).events.get? j =
          if e.key = j then some e else l.events.get? j := by
        intro j
        rw [writeEvent, Table.get?_insertNew]
        by_cases here : e.key = j
        · rw [if_pos here, if_pos ⟨here, here ▸ unknown.1⟩]
        · rw [if_neg here, if_neg fun both => here both.1]
      have stillUnknown : ∀ d ∈ rest, (l.writeEvent e).events.get? d.key = none := by
        intro d member
        rw [one, if_neg]
        · exact unknown.2 d member
        · intro same
          exact distinct.1 (List.mem_map.2 ⟨d, member, same.symm⟩)
      rcases ih distinct.2 stillUnknown with ⟨d, member, sameKey, found⟩ | ⟨others, same⟩
      · exact Or.inl ⟨d, List.mem_cons_of_mem _ member, sameKey, found⟩
      · rw [same, one]
        by_cases here : e.key = k
        · exact Or.inl ⟨e, List.mem_cons_self, here, by rw [if_pos here]⟩
        · refine Or.inr ⟨?_, by rw [if_neg here]⟩
          rw [List.forall_mem_cons]
          exact ⟨here, others⟩

end Paywatch.Ledger
