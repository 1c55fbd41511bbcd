import Mathlib.Algebra.Group.Nat.Defs
import Mathlib.Data.List.Nodup
import Paywatch.Proofs.Event.Extract
import Paywatch.Proofs.Order.Ranking

/-!
# Extraction is faithful

Which logs and transactions of a block count is said here entry by entry.  The events
of a block are what the counted entries tell:  none is missing, none is there twice,
and the order in which a node lists its logs and transactions, or how often it
repeats them, decides nothing.
-/

namespace Paywatch

/-- A log that counts:  it is on the block, was not dropped, and tells of a kind that is
watched at its contract. -/
structure Log.Tracked (log : Log) (b : Block) (w : Watchlist) (target : Target)
    (kind : EventKind) : Prop where
  kept : log.removed = false
  here : Text.sameIgnoringAsciiCase log.blockHash b.hash = true
  contract : ∃ address, Address.ofText log.address = .ok address ∧
    w.contract? address = some target
  topic : ∃ topic, log.topics.head? = some topic ∧ EventKind.ofTopic topic = some kind
  watched : target.watches kind = true

/-- What a log tells, if it counts and can be read. -/
def Log.Tells (log : Log) (b : Block) (w : Watchlist) (e : ChainEvent) : Prop :=
  ∃ target kind payload, log.Tracked b w target kind ∧ log.decode kind = .ok payload ∧
    e = Extraction.eventOf b target log.txHash log.index payload

/-- A transaction that moves coins. -/
structure Tx.Moves (tx : Tx) (sender receiver : Address) (value : Amount) : Prop where
  sender : ∃ text, tx.sender = some text ∧ Address.ofText text = .ok sender
  receiver : ∃ text, tx.receiver = some text ∧ Address.ofText text = .ok receiver
  read : Amount.ofQuantity tx.value = .ok value
  positive : value.isZero = false

/-- What a transaction tells, if it moves coins to an account that is watched. -/
def Tx.Tells (tx : Tx) (b : Block) (w : Watchlist) (e : ChainEvent) : Prop :=
  ∃ target sender receiver value, tx.Moves sender receiver value ∧
    w.account? receiver = some target ∧
    target.watches .nativeTransfer = true ∧
      e = Extraction.eventOf b target tx.hash (Tx.logIndex tx.index)
        (.nativeTransfer sender receiver value)

theorem Log.Tells.logIndex {log : Log} {b : Block} {w : Watchlist} {e : ChainEvent}
    (told : log.Tells b w e) : e.logIndex = log.index := by
  obtain ⟨_, _, _, _, _, rfl⟩ := told
  rfl

theorem Tx.Tells.logIndex {tx : Tx} {b : Block} {w : Watchlist} {e : ChainEvent}
    (told : tx.Tells b w e) : e.logIndex = Tx.logIndex tx.index := by
  obtain ⟨_, _, _, _, _, _, _, rfl⟩ := told
  rfl

namespace Tx

theorem decode_eq_some {tx : Tx} {payload : Payload} :
    tx.decode = .ok (some payload) ↔
      ∃ sender receiver value, tx.Moves sender receiver value ∧
        payload = .nativeTransfer sender receiver value := by
  constructor
  · intro read
    unfold decode at read
    split at read
    · cases read
    · rename_i receiverText toSome
      obtain ⟨value, valueRead, read⟩ := bind_eq_ok.1 read
      split at read
      · cases read
      · rename_i positive
        split at read
        · cases read
        · rename_i senderText fromSome
          simp only [bind_eq_ok] at read
          obtain ⟨sender, senderRead, receiver, receiverRead, result⟩ := read
          cases result
          exact ⟨sender, receiver, value,
            ⟨⟨senderText, fromSome, mapError_eq_ok.1 senderRead⟩,
            ⟨receiverText, toSome, mapError_eq_ok.1 receiverRead⟩,
            mapError_eq_ok.1 valueRead, by simpa using positive⟩, rfl⟩
  · rintro ⟨sender, receiver, value,
      ⟨⟨senderText, fromSome, senderRead⟩, ⟨receiverText, toSome, receiverRead⟩,
        valueRead, positive⟩,
      rfl⟩
    simp only [decode, toSome, fromSome, valueRead, senderRead, receiverRead, positive,
      mapError_eq_ok, bind_eq_ok, Bool.false_eq_true, if_false, Except.ok.injEq,
      exists_eq_left', pure, Except.pure]

/-- Transfers of coins stand behind all logs of their block, in their own order. -/
theorem toNat_logIndex {index : UInt64} (low : index < 0x8000000000000000) :
    (logIndex index).toNat = 2 ^ 63 + index.toNat := by
  have small : index.toNat < 2 ^ 63 := UInt64.lt_iff_toNat_lt.1 low
  rw [logIndex, UInt64.toNat_or, Nat.or_comm]
  exact (Nat.two_pow_add_eq_or_of_lt small 1).symm

theorem logIndex_injective {i j : UInt64} (low : i < 0x8000000000000000)
    (low' : j < 0x8000000000000000) (same : logIndex i = logIndex j) : i = j := by
  have sameNat := congrArg UInt64.toNat same
  rw [toNat_logIndex low, toNat_logIndex low'] at sameNat
  exact UInt64.toNat_inj.1 (Nat.add_left_cancel sameNat)

end Tx

namespace Extraction

variable {b : Block} {w : Watchlist} {logs logs' : List Log} {txs txs' : List Tx}
    {e : ChainEvent}

theorem watched?_eq_some {log : Log} {target : Target} {kind : EventKind} :
    watched? b w log = some (target, kind) ↔ log.Tracked b w target kind := by
  constructor
  · intro found
    unfold watched? at found
    split at found
    · cases found
    · rename_i counts
      simp only [Bool.or_eq_true, Bool.not_eq_true', not_or, Bool.not_eq_true,
        Bool.not_eq_false] at counts
      split at found
      · cases found
      · rename_i address addressRead
        simp only [Option.bind_eq_bind, Option.bind_eq_some_iff,
          Option.ite_none_right_eq_some, Option.some.injEq, Prod.mk.injEq] at found
        obtain ⟨target', listed, topic, first, kind', ofKind, watches, rfl, rfl⟩ := found
        exact ⟨counts.1, counts.2, ⟨address, addressRead, listed⟩,
          ⟨topic, first, ofKind⟩, watches⟩
  · rintro ⟨kept, here, ⟨address, addressRead, listed⟩, ⟨topic, first, ofKind⟩, watches⟩
    simp only [watched?, kept, here, addressRead, listed, first, ofKind, watches,
      Bool.not_true, Bool.or_self, Bool.false_eq_true, if_false, if_true,
      Option.bind_eq_bind, Option.bind_some]

theorem ofLog_eq_event {log : Log} : ofLog b w log = .event e ↔ log.Tells b w e := by
  constructor
  · intro read
    unfold ofLog at read
    split at read
    · cases read
    · rename_i target kind found
      split at read
      · rename_i payload decoded
        cases read
        exact ⟨target, kind, payload, watched?_eq_some.1 found, decoded, rfl⟩
      · cases read
  · rintro ⟨target, kind, payload, tracked, decoded, rfl⟩
    simp only [ofLog, watched?_eq_some.2 tracked, decoded]

theorem ofTx_eq_event {tx : Tx} : ofTx b w tx = .event e ↔ tx.Tells b w e := by
  constructor
  · intro read
    unfold ofTx at read
    split at read
    · cases read
    · rename_i payload decoded
      obtain ⟨sender, receiver, value, moves, rfl⟩ := Tx.decode_eq_some.1 decoded
      simp only at read
      split at read
      · rename_i target listed
        split at read
        · rename_i watches
          cases read
          exact ⟨target, sender, receiver, value, moves, listed, watches, rfl⟩
        · cases read
      · cases read
    · cases read
  · rintro ⟨target, sender, receiver, value, moves, listed, watches, rfl⟩
    simp only [ofTx, Tx.decode_eq_some.2 ⟨sender, receiver, value, moves, rfl⟩, listed,
      watches, if_true]

theorem mem_outcomes :
    Outcome.event e ∈ logs.map (ofLog b w) ++ txs.map (ofTx b w) ↔
      (∃ log ∈ logs, log.Tells b w e) ∨ ∃ tx ∈ txs, tx.Tells b w e := by
  simp only [List.mem_append, List.mem_map, ofLog_eq_event, ofTx_eq_event]

/-- Adding outcomes leaves no event without one of its key. -/
theorem key_mem_foldl_add (x : Extraction) (outcomes : List Outcome)
    (given : e ∈ x.events ∨ Outcome.event e ∈ outcomes) :
    e.key ∈ (outcomes.foldl add x).events.map (·.key) := by
  induction outcomes generalizing x e with
  | nil =>
      rcases given with old | none
      · exact List.mem_map_of_mem old
      · cases none
  | cons o rest ih =>
      have stays : ∀ d ∈ x.events, d ∈ (x.add o).events := by
        intro d member
        cases o with
        | skip => exact member
        | failure => exact member
        | event e' =>
            simp only [add]
            split
            · exact member
            · exact List.mem_append_left _ member
      rcases given with old | new
      · exact ih _ (Or.inl (stays e old))
      · rcases List.mem_cons.1 new with rfl | later
        · by_cases known : x.events.any (·.key == e.key) = true
          · -- an event of this key is there, and it stays
            obtain ⟨d, member, same⟩ := List.any_eq_true.1 known
            rw [← beq_iff_eq.1 same]
            exact ih _ (Or.inl (stays d member))
          · refine ih _ (Or.inl ?_)
            simp only [add, if_neg known]
            exact List.mem_append_right _ List.mem_cons_self
        · exact ih _ (Or.inr later)

theorem mem_ofBlock (member : e ∈ (ofBlock b logs txs w).events) :
    (∃ log ∈ logs, log.Tells b w e) ∨ ∃ tx ∈ txs, tx.Tells b w e := by
  rcases (foldl_add ⟨[], 0⟩ _ (by simp)).2 e (mem_sortBy.1 member) with none | read
  · cases none
  · exact mem_outcomes.1 read

theorem key_mem_ofBlock
    (told : (∃ log ∈ logs, log.Tells b w e) ∨ ∃ tx ∈ txs, tx.Tells b w e) :
    e.key ∈ (ofBlock b logs txs w).events.map (·.key) :=
  ((perm_sortBy _ _).map _).mem_iff.2
    (key_mem_foldl_add _ _ (Or.inr (mem_outcomes.2 told)))

/-- Events are ranked by their place in the block. -/
theorem ranks_byIndex :
    Ranks (fun e f : ChainEvent => decide (e.logIndex < f.logIndex)) fun e =>
      e.logIndex.toNat := by
  intro e f
  rw [decide_eq_true_iff, UInt64.lt_iff_toNat_lt]

end Extraction

section Places

variable {b : Block} {w : Watchlist} {logs logs' : List Log} {txs txs' : List Tx}
    {e e' : ChainEvent}

/-! ## Places of entries -/

theorem Log.Tells.unique {log : Log} (told : log.Tells b w e) (told' : log.Tells b w e') :
    e = e' := by
  have read := Extraction.ofLog_eq_event.2 told
  rw [Extraction.ofLog_eq_event.2 told'] at read
  cases read
  rfl

theorem Tx.Tells.unique {tx : Tx} (told : tx.Tells b w e) (told' : tx.Tells b w e') :
    e = e' := by
  have read := Extraction.ofTx_eq_event.2 told
  rw [Extraction.ofTx_eq_event.2 told'] at read
  cases read
  rfl

end Places

namespace Extraction

variable {b : Block} {w : Watchlist} {logs logs' : List Log} {txs txs' : List Tx}
    {e e' : ChainEvent}

/-- The places of the logs lie below those of the transfers of coins. -/
structure Low (logs : List Log) (txs : List Tx) : Prop where
  logs : ∀ log ∈ logs, log.index < 0x8000000000000000
  txs : ∀ tx ∈ txs, tx.index < 0x8000000000000000

/-- An entry of a block is known by its index. -/
structure Distinct (logs : List Log) (txs : List Tx) : Prop where
  logs : ∀ log ∈ logs, ∀ log' ∈ logs, log.index = log'.index → log = log'
  txs : ∀ tx ∈ txs, ∀ tx' ∈ txs, tx.index = tx'.index → tx = tx'

theorem Low.lt_of_log (low : Low logs txs) {log : Log} (listed : log ∈ logs)
    (told : log.Tells b w e) : e.logIndex.toNat < 2 ^ 63 := by
  rw [told.logIndex]
  exact UInt64.lt_iff_toNat_lt.1 (low.logs log listed)

theorem Low.le_of_tx (low : Low logs txs) {tx : Tx} (listed : tx ∈ txs)
    (told : tx.Tells b w e) : 2 ^ 63 ≤ e.logIndex.toNat := by
  rw [told.logIndex, Tx.toNat_logIndex (low.txs tx listed)]
  exact Nat.le_add_right _ _

/-- Events that stand at one place are told by one entry, so they are one event. -/
theorem eq_of_logIndex_eq (low : Low logs txs) (distinct : Distinct logs txs)
    (told : (∃ log ∈ logs, log.Tells b w e) ∨ ∃ tx ∈ txs, tx.Tells b w e)
    (told' : (∃ log ∈ logs, log.Tells b w e') ∨ ∃ tx ∈ txs, tx.Tells b w e')
    (same : e.logIndex = e'.logIndex) : e = e' := by
  rcases told with ⟨log, listed, told⟩ | ⟨tx, listed, told⟩ <;>
    rcases told' with ⟨log', listed', told'⟩ | ⟨tx', listed', told'⟩
  · have one : log = log' := by
      refine distinct.logs log listed log' listed' ?_
      rw [← told.logIndex, ← told'.logIndex, same]
    rw [← one] at told'
    exact told.unique told'
  · have below := low.lt_of_log listed told
    have above := low.le_of_tx listed' told'
    rw [same] at below
    omega
  · have above := low.le_of_tx listed told
    have below := low.lt_of_log listed' told'
    rw [same] at above
    omega
  · have one : tx = tx' := by
      refine distinct.txs tx listed tx' listed' (Tx.logIndex_injective (low.txs tx listed)
        (low.txs tx' listed') ?_)
      rw [← told.logIndex, ← told'.logIndex, same]
    rw [← one] at told'
    exact told.unique told'

/-! ## The events of a block -/

/-- Which events are those of a block with these logs and transactions:  first
what the logs tell and then what the transactions tell, each by its place, none
twice and none missing. -/
structure Faithful (b : Block) (w : Watchlist) (logs : List Log) (txs : List Tx)
    (events : List ChainEvent) : Prop where
  once : (events.map (·.key)).Nodup
  inOrder : events.Pairwise fun e f => e.logIndex ≤ f.logIndex
  sound : ∃ ofLogs ofTxs, events = ofLogs ++ ofTxs ∧
    (∀ e ∈ ofLogs, ∃ log ∈ logs, log.Tells b w e) ∧
    ∀ e ∈ ofTxs, ∃ tx ∈ txs, tx.Tells b w e
  logsFound : ∀ log ∈ logs, ∀ e, log.Tells b w e →
    ⟨b.chain, Text.lower log.txHash, log.index⟩ ∈ events.map (·.key)
  txsFound : ∀ tx ∈ txs, ∀ e, tx.Tells b w e →
    ⟨b.chain, Text.lower tx.hash, Tx.logIndex tx.index⟩ ∈ events.map (·.key)

theorem inOrder_ofBlock (b : Block) (logs : List Log) (txs : List Tx) (w : Watchlist) :
    (ofBlock b logs txs w).events.Pairwise fun e f => e.logIndex ≤ f.logIndex :=
  ranks_byIndex.pairwise_sortBy.imp fun lower => UInt64.le_iff_toNat_le.2 lower

/-- Where nothing of the second sort comes before something of the first,
a list is cut in two. -/
theorem exists_cut {α : Type} {r : α → α → Prop} {P Q : α → Prop} {xs : List α}
    (ordered : xs.Pairwise r) (either : ∀ x ∈ xs, P x ∨ Q x)
    (behind : ∀ x y, Q x → P y → ¬r x y) :
    ∃ ys zs, xs = ys ++ zs ∧ (∀ y ∈ ys, P y) ∧ ∀ z ∈ zs, Q z := by
  induction xs with
  | nil => exact ⟨[], [], rfl, by simp, by simp⟩
  | cons x rest ih =>
      rw [List.pairwise_cons] at ordered
      rw [List.forall_mem_cons] at either
      rcases either.1 with first | second
      · obtain ⟨ys, zs, rfl, allFirst, allSecond⟩ := ih ordered.2 either.2
        exact ⟨x :: ys, zs, rfl, List.forall_mem_cons.2 ⟨first, allFirst⟩, allSecond⟩
      · refine ⟨[], x :: rest, rfl, by simp, List.forall_mem_cons.2 ⟨second, ?_⟩⟩
        intro y member
        exact (either.2 y member).resolve_left fun first =>
          behind x y second first (ordered.1 y member)

theorem faithful_ofBlock (low : Low logs txs) :
    Faithful b w logs txs (ofBlock b logs txs w).events where
  once := nodup_ofBlock b logs txs w
  inOrder := inOrder_ofBlock b logs txs w
  sound := by
    apply exists_cut (inOrder_ofBlock b logs txs w) fun e member => mem_ofBlock member
    rintro e e' ⟨tx, listed, told⟩ ⟨log, listed', told'⟩ lower
    have above := low.le_of_tx listed told
    have below := low.lt_of_log listed' told'
    have lower := UInt64.le_iff_toNat_le.1 lower
    omega
  logsFound := by
    intro log listed e told
    have found : e.key ∈ (ofBlock b logs txs w).events.map (·.key) :=
      key_mem_ofBlock (Or.inl ⟨log, listed, told⟩)
    obtain ⟨_, _, _, _, _, rfl⟩ := told
    exact found
  txsFound := by
    intro tx listed e told
    have found : e.key ∈ (ofBlock b logs txs w).events.map (·.key) :=
      key_mem_ofBlock (Or.inr ⟨tx, listed, told⟩)
    obtain ⟨_, _, _, _, _, _, _, rfl⟩ := told
    exact found

/-- Where an entry is known by its index, the events of a block are just
what its entries tell. -/
theorem mem_ofBlock_iff (low : Low logs txs) (distinct : Distinct logs txs) :
    e ∈ (ofBlock b logs txs w).events ↔ (∃ log ∈ logs, log.Tells b w e) ∨
      ∃ tx ∈ txs, tx.Tells b w e := by
  constructor
  · exact mem_ofBlock
  · intro told
    obtain ⟨d, member, sameKey⟩ := List.mem_map.1 (key_mem_ofBlock told)
    rw [← eq_of_logIndex_eq low distinct (mem_ofBlock member) told
      (congrArg EventKey.logIndex sameKey)]
    exact member

/-- How the entries are ordered and how often they are repeated decides nothing. -/
theorem ofBlock_eq_of_mem_iff (low : Low logs txs) (distinct : Distinct logs txs)
    (sameLogs : ∀ log, log ∈ logs' ↔ log ∈ logs) (sameTxs : ∀ tx, tx ∈ txs' ↔ tx ∈ txs) :
    (ofBlock b logs' txs' w).events = (ofBlock b logs txs w).events := by
  have low' : Low logs' txs' :=
    ⟨fun log listed => low.logs log ((sameLogs log).1 listed),
      fun tx listed => low.txs tx ((sameTxs tx).1 listed)⟩
  have distinct' : Distinct logs' txs' := by
    constructor
    · intro log listed log' listed'
      exact distinct.logs log ((sameLogs log).1 listed) log' ((sameLogs log').1 listed')
    · intro tx listed tx' listed'
      exact distinct.txs tx ((sameTxs tx).1 listed) tx' ((sameTxs tx').1 listed')
  have perm : (ofBlock b logs' txs' w).events.Perm (ofBlock b logs txs w).events := by
    rw [List.perm_ext_iff_of_nodup ((nodup_ofBlock b logs' txs' w).of_map _)
      ((nodup_ofBlock b logs txs w).of_map _)]
    intro e
    simp only [mem_ofBlock_iff low distinct, mem_ofBlock_iff low' distinct',
      sameLogs, sameTxs]
  apply perm.eq_of_pairwise ?_ (inOrder_ofBlock b logs' txs' w)
    (inOrder_ofBlock b logs txs w)
  intro e e' member member' lower higher
  exact eq_of_logIndex_eq low distinct (mem_ofBlock (perm.mem_iff.1 member))
    (mem_ofBlock member') (UInt64.le_antisymm lower higher)

/-- What a block is found to tell is what its entries tell:  sorted, each under one key,
with nothing added and nothing left out.  Where an entry is known by its index, a node
may list the entries in any order and repeat them. -/
theorem extraction_faithful (b : Block) (w : Watchlist) (logs : List Log) (txs : List Tx)
    (low : Low logs txs) :
    Faithful b w logs txs (ofBlock b logs txs w).events ∧
      (Distinct logs txs → ∀ logs' txs', (∀ log, log ∈ logs' ↔ log ∈ logs) →
        (∀ tx, tx ∈ txs' ↔ tx ∈ txs) →
        (ofBlock b logs' txs' w).events = (ofBlock b logs txs w).events) :=
  ⟨faithful_ofBlock low, fun distinct _ _ sameLogs sameTxs =>
    ofBlock_eq_of_mem_iff low distinct sameLogs sameTxs⟩

/-- A chain on which one token is watched, and the coins of one account. -/
def sampleWatchlist : Watchlist where
  contracts := [⟨⟨1⟩, .zero, .erc20, [.erc20Transfer], .erc20 ⟨1⟩ .zero, none⟩]
  accounts := [⟨⟨1⟩, .zero, .native, [.nativeTransfer], .native ⟨1⟩, none⟩]

/-- A payment of the token, as a node writes its log. -/
def sampleLog (index : UInt64) : Log :=
  ⟨Address.zero.text,
    ["0xDDF252AD1be2c89b69c2b068fc378daa952ba7f163c4a11628f55a4df523b3ef",
      Address.zero.topic,
    Address.zero.topic], Address.zero.topic, "0xE0", index, "0xA2", false⟩

/-- A payment of coins. -/
def sampleTx : Tx := ⟨"0xf0", 0, some Address.zero.text, some Address.zero.text, "0x5"⟩

theorem extraction_faithful_twice_listed :
    (ofBlock ⟨⟨1⟩, 2, "0xa2", "0x01", 0⟩ [sampleLog 4, sampleLog 1] [sampleTx]
        sampleWatchlist).events.length = 3 ∧
      Low [sampleLog 4, sampleLog 1] [sampleTx] ∧
      Distinct [sampleLog 4, sampleLog 1] [sampleTx] ∧
      (ofBlock ⟨⟨1⟩, 2, "0xa2", "0x01", 0⟩ [sampleLog 1, sampleLog 4, sampleLog 1]
          [sampleTx, sampleTx] sampleWatchlist).events =
        (ofBlock ⟨⟨1⟩, 2, "0xa2", "0x01", 0⟩ [sampleLog 4, sampleLog 1] [sampleTx]
          sampleWatchlist).events := by
  have low : Low [sampleLog 4, sampleLog 1] [sampleTx] := ⟨by decide, by decide⟩
  have distinct : Distinct [sampleLog 4, sampleLog 1] [sampleTx] := ⟨by decide, by decide⟩
  refine ⟨by decide +kernel, low, distinct, ?_⟩
  exact (extraction_faithful _ _ _ _ low).2 distinct _ _ (by simp [or_comm]) (by simp)

end Extraction

end Paywatch
