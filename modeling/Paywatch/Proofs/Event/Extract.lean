import Paywatch.Event.Extract
import Paywatch.Proofs.Basic
import Paywatch.Transfer.Classify

/-!
# What extraction finds

The events that are read from a block belong to that block, each under a key of its own,
and every one of them is a movement of value.  The last is a matter of the catalog: a
target watches only what its kind of contract can emit.
-/

namespace Paywatch

/-- The token of a target is on its chain, and it watches what its kind can emit. -/
structure Target.Consistent (t : Target) : Prop where
  tokenChain : t.token.chain = t.chain
  emits : ∀ kind ∈ t.events, kind ∈ t.kind.events

theorem TargetEntry.target_consistent {entry : TargetEntry} {t : Target}
    (described : entry.target = .ok t) : t.Consistent := by
  obtain ⟨chain, address, kind, events, token, label⟩ := entry
  simp only [TargetEntry.target] at described
  generalize (if events.isEmpty then kind.events else events) = listed at described
  cases kind <;> cases token
  case tokenNetwork.none => cases described
  all_goals
    simp only [pure_bind] at described
    split at described
    · cases described
    · rename_i none
      cases described
      refine ⟨rfl, ?_⟩
      intro kind member
      have allowed := List.find?_eq_none.1 none kind member
      simpa using allowed

namespace Catalog

/-- Every target of the catalog is consistent. -/
def Consistent (c : Catalog) : Prop := ∀ t ∈ c.targets, t.Consistent

theorem mem_of_addAll {taken added all : List Target} (ok : addAll taken added = .ok all)
    {t : Target} (member : t ∈ all) : t ∈ taken ∨ t ∈ added := by
  induction added generalizing taken with
  | nil =>
      cases ok
      exact Or.inl member
  | cons u rest ih =>
      rw [addAll] at ok
      split at ok
      · cases ok
      · rcases ih ok with old | new
        · rcases List.mem_append.1 old with old | new
          · exact Or.inl old
          · exact Or.inr (List.mem_cons.2 (Or.inl (List.mem_singleton.1 new)))
        · exact Or.inr (List.mem_cons_of_mem _ new)

theorem exists_of_mapM {ε α β : Type} {f : α → Except ε β} {xs : List α} {ys : List β}
    (ok : xs.mapM f = .ok ys) {y : β} (member : y ∈ ys) : ∃ x ∈ xs, f x = .ok y := by
  induction xs generalizing ys with
  | nil =>
      cases ok
      cases member
  | cons x rest ih =>
      rw [List.mapM_cons] at ok
      simp only [bind_eq_ok] at ok
      obtain ⟨z, here, zs, there, result⟩ := ok
      cases result
      rcases List.mem_cons.1 member with rfl | later
      · exact ⟨x, List.mem_cons_self, here⟩
      · obtain ⟨x', member', same⟩ := ih there later
        exact ⟨x', List.mem_cons_of_mem _ member', same⟩

theorem consistent_of_ofEntries {entries : List TargetEntry} {c : Catalog}
    (listed : ofEntries entries = .ok c) : c.Consistent := by
  simp only [ofEntries, ofTargets, bind_eq_ok] at listed
  obtain ⟨targets, described, all, added, result⟩ := listed
  cases result
  intro t member
  rcases mem_of_addAll added member with none | here
  · cases none
  · obtain ⟨entry, -, same⟩ := exists_of_mapM described here
    exact TargetEntry.target_consistent same

end Catalog

/-- A log is read as an event of the kind that was asked for. -/
theorem Log.kind_of_decode {kind : EventKind} {log : Log} {payload : Payload}
    (read : log.decode kind = .ok payload) : payload.kind = kind := by
  unfold Log.decode at read
  split at read
  · cases read
  · split at read
    · split at read
      · simp only [bind_eq_ok] at read
        obtain ⟨_, _, _, _, result⟩ := read
        cases result
        rfl
      · simp only [bind_eq_ok] at read
        obtain ⟨_, _, _, _, result⟩ := read
        cases result
        rfl
      · simp only [bind_eq_ok] at read
        obtain ⟨_, _, _, _, _, _, result⟩ := read
        cases result
        cases kind <;> first | rfl | contradiction
    · cases read

/-- The event was read from a block and is a movement of value. -/
structure ChainEvent.IsOf (e : ChainEvent) (b : Block) : Prop where
  chain : e.chain = b.chain
  height : e.blockHeight = b.height
  hash : e.blockHash = b.hash
  tokenChain : e.token.chain = b.chain
  moves : e.legs?.isSome

namespace Extraction

variable {b : Block} {c : Catalog}

/-- An event of a target on the chain of the block, of a kind that the target can emit. -/
theorem isOf_eventOf {t : Target} {payload : Payload} (consistent : t.Consistent)
    (here : t.chain = b.chain) (emits : payload.kind ∈ t.kind.events) (txHash : String)
    (logIndex : UInt64) : (eventOf b t txHash logIndex payload).IsOf b := by
  refine ⟨rfl, rfl, rfl, consistent.tokenChain.trans here, ?_⟩
  simp only [eventOf, ChainEvent.legs?]
  cases kind : t.kind <;> cases payload <;>
    simp_all [ContractKind.events, Payload.kind]

theorem isOf_ofLog (consistent : c.Consistent) {log : Log} {e : ChainEvent}
    (read : ofLog b (c.watchlist b.chain) log = .event e) : e.IsOf b := by
  unfold ofLog at read
  split at read
  · cases read
  · rename_i target kind watched
    split at read
    · rename_i payload decoded
      cases read
      unfold watched? at watched
      split at watched
      · cases watched
      · split at watched
        · cases watched
        · rename_i address _
          simp only [Option.bind_eq_bind, Option.bind_eq_some_iff] at watched
          obtain ⟨target', listed, _, _, kind', _, watched⟩ := watched
          split at watched
          · rename_i watches
            obtain ⟨rfl, rfl⟩ := Prod.mk.inj (Option.some.inj watched)
            have member := List.mem_of_find?_eq_some listed
            simp only [Catalog.watchlist, List.mem_filter, beq_iff_eq] at member
            obtain ⟨⟨inCatalog, here⟩, -⟩ := member
            refine isOf_eventOf (consistent _ inCatalog) here ?_ _ _
            rw [Log.kind_of_decode decoded]
            exact (consistent _ inCatalog).emits _ (List.contains_iff_mem.1 watches)
          · cases watched
    · cases read

theorem isOf_ofTx (consistent : c.Consistent) {tx : Tx} {e : ChainEvent}
    (read : ofTx b (c.watchlist b.chain) tx = .event e) : e.IsOf b := by
  unfold ofTx at read
  split at read
  · cases read
  · split at read
    · split at read
      · rename_i target listed
        split at read
        · rename_i watches
          cases read
          have member := List.mem_of_find?_eq_some listed
          simp only [Catalog.watchlist, List.mem_filter, beq_iff_eq] at member
          obtain ⟨⟨inCatalog, here⟩, -⟩ := member
          have emits := (consistent _ inCatalog).emits _ (List.contains_iff_mem.1 watches)
          refine isOf_eventOf (consistent _ inCatalog) here ?_ _ _
          exact emits
        · cases read
      · cases read
    · cases read
  · cases read

/-- What adding outcomes one by one finds: events of the outcomes, no key twice. -/
theorem foldl_add (x : Extraction) (outcomes : List Outcome)
    (once : (x.events.map (·.key)).Nodup) :
    ((outcomes.foldl add x).events.map (·.key)).Nodup ∧
      ∀ e ∈ (outcomes.foldl add x).events, e ∈ x.events ∨ .event e ∈ outcomes := by
  induction outcomes generalizing x with
  | nil => exact ⟨once, fun e member => Or.inl member⟩
  | cons o rest ih =>
      have onceAfter : ((x.add o).events.map (·.key)).Nodup ∧
          ∀ e ∈ (x.add o).events, e ∈ x.events ∨ o = .event e := by
        cases o with
        | skip => exact ⟨once, fun e member => Or.inl member⟩
        | failure => exact ⟨once, fun e member => Or.inl member⟩
        | event e =>
            simp only [add]
            split
            · exact ⟨once, fun d member => Or.inl member⟩
            · rename_i fresh
              constructor
              · rw [List.map_append, List.map_singleton, List.nodup_append]
                refine ⟨once, by simp, ?_⟩
                intro key known key' new same
                obtain ⟨d, member, rfl⟩ := List.mem_map.1 known
                obtain rfl := List.mem_singleton.1 new
                exact fresh (List.any_eq_true.2 ⟨d, member, beq_iff_eq.2 same⟩)
              · intro d member
                rcases List.mem_append.1 member with old | new
                · exact Or.inl old
                · exact Or.inr (by rw [List.mem_singleton.1 new])
      obtain ⟨onceLast, found⟩ := ih (x.add o) onceAfter.1
      refine ⟨onceLast, ?_⟩
      intro e member
      rcases found e member with old | new
      · rcases onceAfter.2 e old with old | rfl
        · exact Or.inl old
        · exact Or.inr List.mem_cons_self
      · exact Or.inr (List.mem_cons_of_mem _ new)

/-- The events of a block have different keys. -/
theorem nodup_ofBlock (b : Block) (logs : List Log) (txs : List Tx) (w : Watchlist) :
    ((ofBlock b logs txs w).events.map (·.key)).Nodup := by
  have once :=
    (foldl_add ⟨[], 0⟩ (logs.map (ofLog b w) ++ txs.map (ofTx b w)) (by simp)).1
  exact ((perm_sortBy _ _).map _).nodup_iff.2 once

theorem isOf_ofBlock (consistent : c.Consistent) (logs : List Log) (txs : List Tx) :
    ∀ e ∈ (ofBlock b logs txs (c.watchlist b.chain)).events, e.IsOf b := by
  intro e member
  have found := (foldl_add ⟨[], 0⟩ _ (by simp)).2 e (mem_sortBy.1 member)
  rcases found with none | read
  · cases none
  · rcases List.mem_append.1 read with ofLogs | ofTxs
    · obtain ⟨log, -, read⟩ := List.mem_map.1 ofLogs
      exact isOf_ofLog consistent read
    · obtain ⟨tx, -, read⟩ := List.mem_map.1 ofTxs
      exact isOf_ofTx consistent read

theorem chain_of_ofLog {w : Watchlist} {log : Log} {e : ChainEvent}
    (read : ofLog b w log = .event e) : e.chain = b.chain := by
  unfold ofLog at read
  split at read
  · cases read
  · split at read
    · cases read
      rfl
    · cases read

theorem chain_of_ofTx {w : Watchlist} {tx : Tx} {e : ChainEvent}
    (read : ofTx b w tx = .event e) : e.chain = b.chain := by
  unfold ofTx at read
  split at read
  · cases read
  · split at read
    · split at read
      · split at read
        · cases read
          rfl
        · cases read
      · cases read
    · cases read
  · cases read

/-- Whatever is watched, the events of a block are on its chain. -/
theorem chain_of_ofBlock (logs : List Log) (txs : List Tx) (w : Watchlist) :
    ∀ e ∈ (ofBlock b logs txs w).events, e.chain = b.chain := by
  intro e member
  rcases (foldl_add ⟨[], 0⟩ _ (by simp)).2 e (mem_sortBy.1 member) with none | read
  · cases none
  · rcases List.mem_append.1 read with ofLogs | ofTxs
    · obtain ⟨log, -, read⟩ := List.mem_map.1 ofLogs
      exact chain_of_ofLog read
    · obtain ⟨tx, -, read⟩ := List.mem_map.1 ofTxs
      exact chain_of_ofTx read

end Extraction

end Paywatch
