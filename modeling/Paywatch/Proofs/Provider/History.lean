import Mathlib.Data.List.Induction
import Mathlib.Data.List.Nodup
import Paywatch.Proofs.Basic
import Paywatch.Provider.Registry

/-!
# What was done to a registry

A registry after operations one after the other.  Beside it stands a roll of the
providers that is kept from the operations alone: who was registered for which chain,
and how the calls to each of them ended.  The registry holds everyone on the roll under
the identifier that was given out, lists the identifiers of a chain in the order of the
roll, and counts what the roll says.  Identifiers are words, so a registry names
`UInt32.size` providers before one name is given out again; until then each provider is
the one that the roll tells of.
-/

namespace Paywatch

def CallOutcome.succeeded : CallOutcome → Bool
  | success _ => true
  | failure => false

/-- A provider on the roll of a registry. -/
structure Enrolment where
  id : ProviderId
  chain : ChainId
  endpoint : String
  /-- Whether the calls to it succeeded, the newest first. -/
  calls : List Bool
deriving DecidableEq

namespace Enrolment

/-- A call to the provider with this identifier has ended. -/
def told (e : Enrolment) (id : ProviderId) (outcome : CallOutcome) : Enrolment :=
  if e.id = id then { e with calls := outcome.succeeded :: e.calls } else e

/-- How many calls have failed since the last one that did not. -/
def streak (e : Enrolment) : Nat := (e.calls.takeWhile (!·)).length

@[simp] theorem id_told (e : Enrolment) (id : ProviderId) (outcome : CallOutcome) :
    (e.told id outcome).id = e.id := by
  unfold told
  split <;> rfl

@[simp] theorem chain_told (e : Enrolment) (id : ProviderId) (outcome : CallOutcome) :
    (e.told id outcome).chain = e.chain := by
  unfold told
  split <;> rfl

@[simp] theorem endpoint_told (e : Enrolment) (id : ProviderId) (outcome : CallOutcome) :
    (e.told id outcome).endpoint = e.endpoint := by
  unfold told
  split <;> rfl

/-- A call to someone who is not on the roll changes nothing there. -/
theorem map_told_of_absent {on : List Enrolment} {id : ProviderId}
    (absent : id ∉ on.map (·.id)) (outcome : CallOutcome) :
    on.map (·.told id outcome) = on := by
  have same : ∀ e ∈ on, e.told id outcome = e := by
    intro e member
    rw [told, if_neg]
    exact fun here => absent (here ▸ List.mem_map_of_mem member)
  rw [List.map_congr_left same, List.map_id']

end Enrolment

namespace Provider

/-- What is known of a provider after a call to it. -/
def told (p : Provider) (outcome : CallOutcome) (windowSize moment : Nat) : Provider :=
  match outcome with
  | .success head =>
    let p := p.record true windowSize moment
    { p with lastHead := head.or p.lastHead }
  | .failure => p.record false windowSize moment

/-- The provider is the one that the roll tells of. -/
structure Matches (p : Provider) (e : Enrolment) : Prop where
  id : p.id = e.id
  chain : p.chain = e.chain
  endpoint : p.endpoint = e.endpoint
  lastOk : p.lastOk = e.calls.head?
  failures : p.failures = min e.streak (UInt32.size - 1)
  /-- Successes in a row and failures in a row exclude each other. -/
  counts : p.successes = 0 ∨ p.failures = 0

end Provider

namespace Provider

theorem id_told (p : Provider) (outcome : CallOutcome) (size moment : Nat) :
    (p.told outcome size moment).id = p.id := by
  cases outcome <;> rfl

theorem Matches.told {p : Provider} {e : Enrolment} (isIt : p.Matches e)
    (outcome : CallOutcome) (size moment : Nat) :
    (p.told outcome size moment).Matches (e.told e.id outcome) := by
  rw [Enrolment.told, if_pos rfl]
  cases outcome with
  | success head =>
      exact ⟨isIt.id, isIt.chain, isIt.endpoint, rfl, (Nat.zero_min _).symm, Or.inr rfl⟩
  | failure =>
      have oneMore :
          Enrolment.streak { e with calls := false :: e.calls } = e.streak + 1 := rfl
      refine ⟨isIt.id, isIt.chain, isIt.endpoint, rfl, ?_, Or.inl rfl⟩
      show countUp p.failures =
        min (Enrolment.streak { e with calls := false :: e.calls }) (UInt32.size - 1)
      rw [oneMore, isIt.failures, countUp]
      omega

/-- To judge a provider leaves it as it is, takes it back, or takes it out; the
latter two are announced. -/
theorem reevaluateOne_eq (best : Height) (policy : HealthPolicy) (p : Provider) :
    p.evaluate best policy = p.health ∧ Registry.reevaluateOne best policy p = (p, none) ∨
      (p.health = .degraded ∧ p.evaluate best policy = .healthy) ∧
        Registry.reevaluateOne best policy p =
        ({ p with health := .healthy, successes := 0 },
          some (.providerOnline p.chain p.endpoint)) ∨
      (p.health = .healthy ∧ p.evaluate best policy = .degraded) ∧
        Registry.reevaluateOne best policy p =
        ({ p with health := .degraded }, some (.providerOffline p.chain p.endpoint)) := by
  unfold Registry.reevaluateOne
  cases next : p.evaluate best policy <;> cases now : p.health <;> simp

/-- The provider with the health that follows from what is known. -/
def judged (p : Provider) (best : Height) (policy : HealthPolicy) : Provider :=
  (Registry.reevaluateOne best policy p).1

@[simp] theorem id_judged (p : Provider) (best : Height) (policy : HealthPolicy) :
    (p.judged best policy).id = p.id := by
  unfold judged
  rcases reevaluateOne_eq best policy p with ⟨-, same⟩ | ⟨-, up⟩ | ⟨-, down⟩ <;> simp [*]

theorem Matches.judged {p : Provider} {e : Enrolment} (isIt : p.Matches e) (best : Height)
    (policy : HealthPolicy) : (p.judged best policy).Matches e := by
  unfold Provider.judged
  rcases reevaluateOne_eq best policy p with ⟨-, same⟩ | ⟨-, up⟩ | ⟨-, down⟩
  · rw [same]
    exact isIt
  · rw [up]
    exact ⟨isIt.id, isIt.chain, isIt.endpoint, isIt.lastOk, isIt.failures, Or.inl rfl⟩
  · rw [down]
    exact ⟨isIt.id, isIt.chain, isIt.endpoint, isIt.lastOk, isIt.failures, isIt.counts⟩

end Provider

namespace Registry

/-- What can be done to a registry. -/
inductive Operation where
  | configure (chain : ChainId) (policy : HealthPolicy) (scaling : Bool)
  | register (chain : ChainId) (endpoint : String)
  | report (id : ProviderId) (outcome : CallOutcome)
  | reportSync (id : ProviderId) (synced : Bool)
  | reportFees (id : ProviderId) (sample : FeeSample)
  /-- The providers of a chain are listed; this moves its turns on. -/
  | list (chain : ChainId)
deriving DecidableEq

/-- The registry after an operation, and what it announces. -/
def perform (r : Registry) : Operation → Registry × List Notice
  | .configure chain policy scaling => (r.configure chain policy scaling, [])
  | .register chain endpoint => ((r.register chain endpoint).2, [])
  | .report id outcome => r.report id outcome
  | .reportSync id synced => r.reportSync id synced
  | .reportFees id sample => ((r.reportFees id sample).2, [])
  | .list chain => ((r.candidates chain).2, [])

/-- The registry after operations one after the other. -/
def after (ops : List Operation) : Registry :=
  ops.foldl (fun r op => (r.perform op).1) empty

/-- What a registry announces in the course of operations, in order. -/
def announcedFrom (r : Registry) : List Operation → List Notice
  | [] => []
  | op :: rest => (r.perform op).2 ++ (r.perform op).1.announcedFrom rest

/-- What was announced by operations on a new registry. -/
def announced (ops : List Operation) : List Notice := empty.announcedFrom ops

/-- The identifier that the provider in this place of the roll is given. -/
def nthId (n : Nat) : ProviderId := ⟨UInt32.ofNat (n + 1)⟩

theorem nthId_succ (n : Nat) : nthId (n + 1) = ⟨(nthId n).number + 1⟩ := by
  simp [nthId, UInt32.ofNat_add]

/-- The roll after an operation. -/
def enrol (roll : List Enrolment) : Operation → List Enrolment
  | .register chain endpoint => roll ++ [⟨nthId roll.length, chain, endpoint, []⟩]
  | .report id outcome => roll.map (·.told id outcome)
  | _ => roll

/-- The roll of the providers, from the operations alone. -/
def roll (ops : List Operation) : List Enrolment := ops.foldl enrol []

/-- Who was registered for a chain, in the order of registration. -/
def enrolled (ops : List Operation) (chain : ChainId) : List Enrolment :=
  (roll ops).filter (·.chain = chain)

variable {r : Registry} {ops : List Operation} {chain : ChainId} {id : ProviderId}
    {p : Provider}
  {on : List Enrolment}

@[simp] theorem after_snoc (ops : List Operation) (op : Operation) :
    after (ops ++ [op]) = ((after ops).perform op).1 := by
  simp [after]

@[simp] theorem roll_snoc (ops : List Operation) (op : Operation) :
    roll (ops ++ [op]) = enrol (roll ops) op := by
  simp [roll]

theorem announcedFrom_snoc (r : Registry) (ops : List Operation) (op : Operation) :
    r.announcedFrom (ops ++ [op]) =
      r.announcedFrom ops ++
        ((ops.foldl (fun r op => (r.perform op).1) r).perform op).2 := by
  induction ops generalizing r with
  | nil => simp [announcedFrom]
  | cons first rest ih => simp [announcedFrom, ih]

@[simp] theorem announced_snoc (ops : List Operation) (op : Operation) :
    announced (ops ++ [op]) = announced ops ++ ((after ops).perform op).2 :=
  announcedFrom_snoc empty ops op

/-! ## What an operation enters -/

/-- Identifiers and providers are the same; what may differ are turns, prices, policies
and the count of reports. -/
structure Alike (r s : Registry) : Prop where
  nextId : s.nextId = r.nextId
  providers : ∀ id, s.providers.get? id = r.providers.get? id
  members : ∀ chain, (s.group chain).members = (r.group chain).members

theorem Alike.refl (r : Registry) : r.Alike r := ⟨rfl, fun _ => rfl, fun _ => rfl⟩

theorem group_insert (r : Registry) (chain other : ChainId) (g : ProviderGroup) :
    ({ r with groups := r.groups.insert chain g }).group other = if chain = other then g
      else r.group other := by
  unfold group
  rw [Table.get?_insert]
  split <;> rfl

theorem alike_insert (r : Registry) (chain : ChainId) {g : ProviderGroup}
    (same : g.members = (r.group chain).members) :
    r.Alike { r with groups := r.groups.insert chain g } := by
  refine ⟨rfl, fun _ => rfl, fun other => ?_⟩
  rw [group_insert]
  split
  · rename_i here
    rw [same, here]
  · rfl

theorem alike_configure (r : Registry) (chain : ChainId) (policy : HealthPolicy)
    (scaling : Bool) : r.Alike (r.configure chain policy scaling) :=
  r.alike_insert chain rfl

theorem alike_candidates (r : Registry) (chain : ChainId) :
    r.Alike (r.candidates chain).2 := by
  unfold candidates listHealthy
  cases found : r.groups.get? chain with
  | none => exact .refl r
  | some g => exact r.alike_insert chain (by simp [group, found])

/-- What is known of one provider is entered. -/
def entered (r : Registry) (id : ProviderId) (f : Provider → Provider) : Registry :=
  { r with providers := r.providers.modify id f }

theorem get?_entered (r : Registry) (id : ProviderId) (f : Provider → Provider)
    (j : ProviderId) :
    (r.entered id f).providers.get? j = if id = j then (r.providers.get? j).map f
      else r.providers.get? j :=
  Table.get?_modify r.providers id f j

theorem alike_entered_id (r : Registry) (id : ProviderId) :
    (r.entered id fun p => p).Alike r := by
  refine ⟨rfl, fun j => ?_, fun _ => rfl⟩
  rw [get?_entered]
  simp

/-- The registry before any provider is judged: what an operation tells is entered. -/
def noted (r : Registry) : Operation → Registry
  | .report id outcome =>
    match r.providers.get? id with
    | none => r
    | some p =>
      { r.entered id (·.told outcome (r.group p.chain).policy.windowSize r.reports) with
        reports := r.reports + 1 }
  | .reportSync id synced =>
    match r.providers.get? id with
    | none => r
    | some p =>
        if r.isScaling p.chain then r else r.entered id ({ · with synced := some synced })
  | op => (r.perform op).1

/-- The chain whose providers an operation has judged anew. -/
def judged? (r : Registry) : Operation → Option ChainId
  | .report id _ => (r.providers.get? id).map (·.chain)
  | .reportSync id _ => ((r.providers.get? id).map (·.chain)).filter (!r.isScaling ·)
  | _ => none

/-- An operation enters what it tells, and has the providers of a chain judged or not. -/
theorem perform_eq (r : Registry) (op : Operation) :
    r.perform op = match r.judged? op with
      | none => (r.noted op, [])
      | some chain => (r.noted op).reevaluate chain := by
  cases op with
  | report id outcome =>
      cases found : r.providers.get? id with
      | none => simp [perform, report, judged?, noted, found]
      | some p =>
          cases outcome <;>
            simp [perform, report, judged?, noted, found, entered, Table.modify,
              Provider.told, Provider.record]
  | reportSync id synced =>
      cases found : r.providers.get? id with
      | none => simp [perform, reportSync, judged?, noted, found]
      | some p =>
          cases scaling : r.isScaling p.chain <;>
            simp [perform, reportSync, judged?, noted, found, scaling, entered,
              Table.modify, Option.filter]
  | _ => rfl

/-- What an operation may enter, and the chain whose providers are then judged. -/
inductive Notes (r : Registry) : Operation → Registry → Option ChainId → Prop
  | registered (chain : ChainId) (endpoint : String) :
      Notes r (.register chain endpoint) (r.register chain endpoint).2 none
  | told {id : ProviderId} {p : Provider} {s : Registry} {outcome : CallOutcome}
      (size moment : Nat) (found : r.providers.get? id = some p)
        (alike : (r.entered id (·.told outcome size moment)).Alike s) :
      Notes r (.report id outcome) s (some p.chain)
  | synced {id : ProviderId} {p : Provider} {synced : Bool}
      (found : r.providers.get? id = some p) :
      Notes r (.reportSync id synced) (r.entered id ({ · with synced := some synced }))
        (some p.chain)
  | priced {op : Operation} {s : Registry} (id : ProviderId)
      (fee : Provider → Option Amount)
      (alike : (r.entered id fun p => { p with gasFee := fee p }).Alike s)
      (fresh : ∀ chain endpoint, op ≠ .register chain endpoint)
      (unknown : ∀ id outcome, op = .report id outcome → r.providers.get? id = none) :
      Notes r op s none

/-- An operation that leaves the providers as they are. -/
theorem Notes.nothing {op : Operation} {s : Registry} (alike : r.Alike s)
    (fresh : ∀ chain endpoint, op ≠ .register chain endpoint)
    (unknown : ∀ id outcome, op = .report id outcome → r.providers.get? id = none) :
    Notes r op s none := by
  refine .priced ⟨0⟩ (·.gasFee) ⟨alike.nextId, ?_, alike.members⟩ fresh unknown
  intro id
  rw [alike.providers, (r.alike_entered_id ⟨0⟩).providers]

theorem notes (r : Registry) (op : Operation) :
    Notes r op (r.noted op) (r.judged? op) := by
  cases op with
  | configure chain policy scaling =>
      exact .nothing (r.alike_configure chain policy scaling) (by simp) (by simp)
  | register chain endpoint => exact .registered chain endpoint
  | report id outcome =>
      cases found : r.providers.get? id with
      | none =>
          simp only [noted, judged?, found, Option.map_none]
          exact .nothing (.refl r) (by simp) (by rintro _ _ ⟨⟩; exact found)
      | some p =>
          simp only [noted, judged?, found, Option.map_some]
          exact .told _ _ found ⟨rfl, fun _ => rfl, fun _ => rfl⟩
  | reportSync id synced =>
      cases found : r.providers.get? id with
      | none =>
          simp only [noted, judged?, found, Option.map_none, Option.filter_none]
          exact .nothing (.refl r) (by simp) (by simp)
      | some p =>
          cases scaling : r.isScaling p.chain with
          | false =>
              simp only [noted, judged?, found, scaling, Option.map_some, Option.filter,
                Bool.not_false, if_true]
              exact .synced found
          | true =>
              simp only [noted, judged?, found, scaling, Option.map_some, Option.filter,
                Bool.not_true, if_true]
              exact .nothing (.refl r) (by simp) (by simp)
  | reportFees id sample =>
      cases found : r.providers.get? id with
      | none =>
          have same : r.noted (.reportFees id sample) = r := by
            simp [noted, perform, reportFees, found]
          rw [same]
          exact .nothing (.refl r) (by simp) (by simp)
      | some p =>
          refine .priced id
            (fun p => ((r.group p.chain).gas.estimate sample).1.or p.gasFee) ?_
            (by simp) (by simp)
          simp only [noted, perform, reportFees, found]
          refine ⟨rfl, ?_, ?_⟩
          · simp [entered, Table.modify, found]
          · let gas := ((r.group p.chain).gas.estimate sample).2
            exact (r.alike_insert p.chain (g := { r.group p.chain with gas }) rfl).members
  | list chain => exact .nothing (r.alike_candidates chain) (by simp) (by simp)

/-! ## Judging -/

/-- The best head by which the providers of a chain are judged. -/
def best (r : Registry) (chain : ChainId) : Height := (r.bestHead? chain).getD 0

/-- Every provider is kept under its own identifier. -/
def Keyed (r : Registry) : Prop := ∀ id p, r.providers.get? id = some p → p.id = id

theorem mem_members (keyed : r.Keyed) :
    p ∈ r.members chain ↔ p.id ∈ (r.group chain).members ∧
      r.providers.get? p.id = some p := by
  unfold members
  rw [List.mem_filterMap]
  constructor
  · rintro ⟨id, member, found⟩
    obtain rfl := keyed id p found
    exact ⟨member, found⟩
  · rintro ⟨member, found⟩
    exact ⟨p.id, member, found⟩

/-- After providers were written one after the other, those that were
written are as wanted. -/
theorem get?_foldl_insert (wanted : ProviderId → Option Provider)
    {written : List (Provider × Option Notice)} {t : Table ProviderId Provider}
    (agree : ∀ x ∈ written, wanted x.1.id = some x.1) (id : ProviderId) :
    (written.foldl (fun t (p, _) => t.insert p.id p) t).get? id =
      if id ∈ written.map (·.1.id) then wanted id else t.get? id := by
  induction written generalizing t with
  | nil => simp
  | cons x rest ih =>
      rw [List.forall_mem_cons] at agree
      rw [List.foldl_cons, ih agree.2, List.map_cons, Table.get?_insert]
      by_cases here : x.1.id = id
      · subst here
        simp [agree.1]
      · have elsewhere : id ∈ x.1.id :: rest.map (·.1.id) ↔ id ∈ rest.map (·.1.id) := by
          simp [Ne.symm here]
        simp only [if_neg here, elsewhere]

/-- The providers of a chain as they are judged, and what is announced of each. -/
def judgements (r : Registry) (chain : ChainId) : List (Provider × Option Notice) :=
  (r.members chain).map (reevaluateOne (r.best chain) (r.group chain).policy)

theorem reevaluate_eq (r : Registry) (chain : ChainId) : r.reevaluate chain =
    ({ r with
        providers :=
          (r.judgements chain).foldl (fun t (p, _) => t.insert p.id p) r.providers },
      (r.judgements chain).filterMap (·.2)) := rfl

theorem get?_reevaluate (keyed : r.Keyed) (chain : ChainId) (id : ProviderId) :
    (r.reevaluate chain).1.providers.get? id = (r.providers.get? id).map fun p =>
      if p.id ∈ (r.group chain).members then p.judged (r.best chain)
        (r.group chain).policy else p := by
  let wanted (id : ProviderId) :=
    (r.providers.get? id).map (·.judged (r.best chain) (r.group chain).policy)
  have agree : ∀ x ∈ r.judgements chain, wanted x.1.id = some x.1 := by
    intro x member
    obtain ⟨p, among, rfl⟩ := List.mem_map.1 member
    have sameId : (reevaluateOne (r.best chain) (r.group chain).policy p).1.id = p.id :=
      Provider.id_judged ..
    simp only [wanted, sameId, ((mem_members keyed).1 among).2]
    rfl
  have written : ∀ p, r.providers.get? id = some p →
      (id ∈ (r.judgements chain).map (·.1.id) ↔ p.id ∈ (r.group chain).members) := by
    intro p found
    obtain rfl := keyed id p found
    have ids : (r.judgements chain).map (·.1.id) = (r.members chain).map (·.id) := by
      unfold judgements
      rw [List.map_map]
      exact List.map_congr_left fun p _ => Provider.id_judged ..
    rw [ids, List.mem_map]
    constructor
    · rintro ⟨s, among, sameId⟩
      exact sameId ▸ ((mem_members keyed).1 among).1
    · exact fun member => ⟨p, (mem_members keyed).2 ⟨member, found⟩, rfl⟩
  rw [reevaluate_eq, get?_foldl_insert wanted agree]
  cases found : r.providers.get? id with
  | none => simp [wanted, found]
  | some p =>
      simp only [wanted, found, written p found, Option.map_some]
      split <;> rfl

/-! ## The registry and its roll -/

/-- The registry has given an identifier to everyone on the roll, and
lists them in its order. -/
structure Keeps (r : Registry) (on : List Enrolment) : Prop where
  nextId : ⟨r.nextId⟩ = nthId on.length
  members : ∀ chain, (r.group chain).members = (on.filter (·.chain = chain)).map (·.id)
  keyed : r.Keyed
  held : ∀ id, (r.providers.get? id).isSome ↔ id ∈ on.map (·.id)

theorem keeps_empty : empty.Keeps [] where
  nextId := by simp [empty, nthId]
  members := fun _ => rfl
  keyed := by simp [Keyed, empty]
  held := by simp [empty]

theorem Keeps.alike (keeps : r.Keeps on) {s : Registry} (alike : r.Alike s) :
    s.Keeps on where
  nextId := alike.nextId ▸ keeps.nextId
  members := fun chain => (alike.members chain).trans (keeps.members chain)
  keyed := fun id p found => keeps.keyed id p (alike.providers id ▸ found)
  held := fun id => by rw [alike.providers, keeps.held]

theorem Keeps.entered (keeps : r.Keeps on) (id : ProviderId) {f : Provider → Provider}
    (sameId : ∀ p, (f p).id = p.id) : (r.entered id f).Keeps on where
  nextId := keeps.nextId
  members := keeps.members
  keyed := by
    intro j p found
    rw [get?_entered] at found
    split at found
    · obtain ⟨q, held, rfl⟩ := Option.map_eq_some_iff.1 found
      rw [sameId]
      exact keeps.keyed j q held
    · exact keeps.keyed j p found
  held := by
    intro j
    rw [get?_entered, ← keeps.held j]
    split <;> simp

theorem Keeps.reevaluate (keeps : r.Keeps on) (chain : ChainId) :
    (r.reevaluate chain).1.Keeps on where
  nextId := keeps.nextId
  members := keeps.members
  keyed := by
    intro id p found
    rw [get?_reevaluate keeps.keyed] at found
    obtain ⟨q, held, rfl⟩ := Option.map_eq_some_iff.1 found
    rw [← keeps.keyed id q held]
    split
    · exact Provider.id_judged ..
    · rfl
  held := by
    intro id
    rw [get?_reevaluate keeps.keyed, Option.isSome_map, keeps.held]

theorem group_register (r : Registry) (chain : ChainId) (endpoint : String)
    (other : ChainId) :
    ((r.register chain endpoint).2.group other).members =
      if chain = other then (r.group other).members ++ [⟨r.nextId⟩]
        else (r.group other).members := by
  simp only [register, group, Table.get?_insert]
  split
  · rename_i here
    rw [here]
    rfl
  · rfl

theorem get?_register (r : Registry) (chain : ChainId) (endpoint : String)
    (id : ProviderId) :
    (r.register chain endpoint).2.providers.get? id =
      if ⟨r.nextId⟩ = id then some { id := ⟨r.nextId⟩, chain, endpoint }
        else r.providers.get? id :=
  Table.get?_insert ..

theorem Keeps.register (keeps : r.Keeps on) (chain : ChainId) (endpoint : String) :
    (r.register chain endpoint).2.Keeps (on ++ [⟨nthId on.length, chain, endpoint, []⟩])
      where
  nextId := by
    rw [List.length_append, List.length_singleton, nthId_succ, ← keeps.nextId]
    rfl
  members := by
    intro other
    rw [group_register, keeps.members, keeps.nextId]
    by_cases here : chain = other <;> simp [here]
  keyed := by
    intro id p found
    rw [get?_register] at found
    split at found
    · rename_i here
      cases found
      exact here
    · exact keeps.keyed id p found
  held := by
    intro id
    rw [get?_register, keeps.nextId]
    by_cases here : nthId on.length = id
    · simp [here]
    · rw [if_neg here, keeps.held]
      simp [Ne.symm here]

theorem told_roll (on : List Enrolment) (id : ProviderId) (outcome : CallOutcome)
    (chain : ChainId) :
    ((on.map (·.told id outcome)).filter (·.chain = chain)).map (·.id) =
      (on.filter (·.chain = chain)).map (·.id) := by
  simp [List.filter_map, Function.comp_def]

theorem Keeps.told (keeps : r.Keeps on) (id : ProviderId) (outcome : CallOutcome) :
    r.Keeps (on.map (·.told id outcome)) where
  nextId := by rw [List.length_map, keeps.nextId]
  members := fun chain => by rw [told_roll, keeps.members]
  keyed := keeps.keyed
  held := by
    intro j
    rw [keeps.held, List.map_map]
    simp [Function.comp_def]

theorem Keeps.noted (keeps : r.Keeps on) (op : Operation) :
    (r.noted op).Keeps (enrol on op) := by
  have notes := r.notes op
  generalize r.noted op = s, r.judged? op = judged at notes ⊢
  cases notes with
  | registered chain endpoint => exact keeps.register chain endpoint
  | @told id p s outcome size moment found alike =>
      have entered :=
        (keeps.entered id fun p => p.id_told outcome size moment).alike alike
      exact entered.told id outcome
  | @synced id p synced found => exact keeps.entered id fun _ => rfl
  | priced id fee alike fresh unknown =>
      have sameId : ∀ p : Provider, { p with gasFee := fee p }.id = p.id := fun _ => rfl
      have entered := (keeps.entered id sameId).alike alike
      cases op with
      | register chain endpoint => exact absurd rfl (fresh chain endpoint)
      | report id outcome => exact entered.told id outcome
      | _ => exact entered

theorem Keeps.perform (keeps : r.Keeps on) (op : Operation) :
    (r.perform op).1.Keeps (enrol on op) := by
  rw [perform_eq]
  split
  · exact keeps.noted op
  · exact (keeps.noted op).reevaluate _

/-- However a registry came about, it keeps its roll. -/
theorem keeps_after (ops : List Operation) : (after ops).Keeps (roll ops) := by
  induction ops using List.reverseRecOn with
  | nil => exact keeps_empty
  | append_singleton ops op ih =>
      rw [after_snoc, roll_snoc]
      exact ih.perform op

/-! ## What the registry knows of everyone on the roll -/

/-- The registry knows everyone on the roll as the one that the roll tells of. -/
def Knows (r : Registry) (on : List Enrolment) : Prop :=
  ∀ e ∈ on, ∃ p, r.providers.get? e.id = some p ∧ p.Matches e

theorem Knows.alike (knows : r.Knows on) {s : Registry} (alike : r.Alike s) :
    s.Knows on := by
  intro e member
  rw [alike.providers]
  exact knows e member

theorem Knows.entered (knows : r.Knows on) (id : ProviderId) {f : Provider → Provider}
    (same : ∀ p e, p.Matches e → (f p).Matches e) : (r.entered id f).Knows on := by
  intro e member
  obtain ⟨p, found, isIt⟩ := knows e member
  rw [get?_entered]
  split
  · exact ⟨f p, by rw [found, Option.map_some], same p e isIt⟩
  · exact ⟨p, found, isIt⟩

theorem Knows.reevaluate (knows : r.Knows on) (keyed : r.Keyed) (chain : ChainId) :
    (r.reevaluate chain).1.Knows on := by
  intro e member
  obtain ⟨p, found, isIt⟩ := knows e member
  rw [get?_reevaluate keyed, found, Option.map_some]
  split
  · exact ⟨_, rfl, isIt.judged _ _⟩
  · exact ⟨p, rfl, isIt⟩

theorem Knows.told (knows : r.Knows on) (id : ProviderId) (outcome : CallOutcome)
    (size moment : Nat) :
    (r.entered id (·.told outcome size moment)).Knows (on.map (·.told id outcome)) := by
  intro e member
  obtain ⟨e, before, rfl⟩ := List.mem_map.1 member
  obtain ⟨p, found, isIt⟩ := knows e before
  rw [get?_entered, Enrolment.id_told]
  split
  · rename_i here
    exact ⟨_, by rw [found, Option.map_some], here ▸ isIt.told outcome size moment⟩
  · rename_i elsewhere
    rw [Enrolment.told, if_neg (Ne.symm elsewhere)]
    exact ⟨p, found, isIt⟩

/-- A new provider takes the place of no other one as long as its identifier is new. -/
theorem Knows.register (knows : r.Knows on) (keeps : r.Keeps on) (chain : ChainId)
    (endpoint : String) (new : nthId on.length ∉ on.map (·.id)) :
    (r.register chain endpoint).2.Knows
      (on ++ [⟨nthId on.length, chain, endpoint, []⟩]) := by
  intro e member
  rw [get?_register, keeps.nextId]
  rcases List.mem_append.1 member with old | last
  · have other : nthId on.length ≠ e.id :=
      fun same => new (same ▸ List.mem_map_of_mem old)
    rw [if_neg other]
    exact knows e old
  · obtain rfl := List.mem_singleton.1 last
    exact ⟨_, if_pos rfl, ⟨rfl, rfl, rfl, rfl, rfl, Or.inl rfl⟩⟩

theorem Knows.noted (knows : r.Knows on) (keeps : r.Keeps on) (op : Operation)
    (new : ∀ chain endpoint, op = .register chain endpoint →
      nthId on.length ∉ on.map (·.id)) :
    (r.noted op).Knows (enrol on op) := by
  have notes := r.notes op
  generalize r.noted op = s, r.judged? op = judged at notes ⊢
  cases notes with
  | registered chain endpoint =>
      exact knows.register keeps chain endpoint (new chain endpoint rfl)
  | told size moment found alike => exact (knows.told _ _ size moment).alike alike
  | synced found =>
      exact knows.entered _ fun p e isIt =>
        ⟨isIt.id, isIt.chain, isIt.endpoint, isIt.lastOk, isIt.failures, isIt.counts⟩
  | priced id fee alike fresh unknown =>
      have same : ∀ (p : Provider) e, p.Matches e →
        { p with gasFee := fee p }.Matches e :=
        fun p e isIt =>
          ⟨isIt.id, isIt.chain, isIt.endpoint, isIt.lastOk, isIt.failures, isIt.counts⟩
      have entered := (knows.entered id same).alike alike
      cases op with
      | register chain endpoint => exact absurd rfl (fresh chain endpoint)
      | report id outcome =>
          have absent : id ∉ on.map (·.id) := by
            rw [← keeps.held, unknown id outcome rfl]
            simp
          rw [enrol, Enrolment.map_told_of_absent absent outcome]
          exact entered
      | _ => exact entered

theorem Knows.perform (knows : r.Knows on) (keeps : r.Keeps on) (op : Operation)
    (new : ∀ chain endpoint, op = .register chain endpoint →
      nthId on.length ∉ on.map (·.id)) :
    (r.perform op).1.Knows (enrol on op) := by
  rw [perform_eq]
  split
  · exact knows.noted keeps op new
  · exact (knows.noted keeps op new).reevaluate (keeps.noted op).keyed _

theorem ids_enrol (on : List Enrolment) (op : Operation) :
    (enrol on op).map (·.id) = on.map (·.id) ∨
      (∃ chain endpoint, op = .register chain endpoint) ∧
        (enrol on op).map (·.id) = on.map (·.id) ++ [nthId on.length] := by
  cases op with
  | register chain endpoint => exact Or.inr ⟨⟨chain, endpoint, rfl⟩, by simp [enrol]⟩
  | report id outcome => exact Or.inl (by simp [enrol, Function.comp_def])
  | _ => exact Or.inl rfl

/-- Identifiers are given out in order. -/
theorem ids_roll (ops : List Operation) :
    (roll ops).map (·.id) = (List.range (roll ops).length).map nthId := by
  induction ops using List.reverseRecOn with
  | nil => rfl
  | append_singleton ops op ih =>
      rw [roll_snoc]
      rcases ids_enrol (roll ops) op with same | ⟨-, more⟩
      · have length : (enrol (roll ops) op).length = (roll ops).length := by
          simpa using congrArg List.length same
        rw [same, ih, length]
      · have length : (enrol (roll ops) op).length = (roll ops).length + 1 := by
          simpa using congrArg List.length more
        rw [more, ih, length, List.range_succ, List.map_append]
        rfl

theorem nthId_inj {m n : Nat} (small : m < UInt32.size) (small' : n < UInt32.size)
    (same : nthId m = nthId n) : m = n := by
  have numbers : (m + 1) % UInt32.size = (n + 1) % UInt32.size := by
    simpa [nthId] using congrArg (fun id : ProviderId => id.number.toNat) same
  have size : UInt32.size = 4294967296 := rfl
  rw [size] at numbers small small'
  omega

/-- Nobody on the roll shares an identifier as long as there are enough of them. -/
theorem nodup_roll (named : (roll ops).length ≤ UInt32.size) :
    ((roll ops).map (·.id)).Nodup := by
  rw [ids_roll]
  refine List.Nodup.map_on ?_ List.nodup_range
  intro m among n among' same
  rw [List.mem_range] at among among'
  exact nthId_inj (by omega) (by omega) same

theorem length_enrol (on : List Enrolment) (op : Operation) :
    on.length ≤ (enrol on op).length := by
  cases op <;> simp [enrol]

/-- A further provider gets an identifier that nobody has, as long as there are enough. -/
theorem fresh_of_named {op : Operation}
    (named : (roll (ops ++ [op])).length ≤ UInt32.size) (chain : ChainId)
    (endpoint : String) (registers : op = .register chain endpoint) :
    nthId (roll ops).length ∉ (roll ops).map (·.id) := by
  have distinct := nodup_roll named
  rw [roll_snoc, registers, enrol, List.map_append, List.nodup_append] at distinct
  exact fun taken => distinct.2.2 _ taken _ List.mem_cons_self rfl

/-- As long as there are enough identifiers, a registry knows everyone on its roll. -/
theorem knows_after (named : (roll ops).length ≤ UInt32.size) :
    (after ops).Knows (roll ops) := by
  induction ops using List.reverseRecOn with
  | nil => nofun
  | append_singleton ops op ih =>
      have fresh := fresh_of_named named
      rw [roll_snoc] at named ⊢
      rw [after_snoc]
      exact (ih (Nat.le_trans (length_enrol _ op) named)).perform
        (keeps_after ops) op fresh

/-! ## The providers of a chain -/

/-- The identifiers of a chain's providers are those on the roll. -/
theorem Keeps.ids_members (keeps : r.Keeps on) (chain : ChainId) :
    (r.members chain).map (·.id) = (on.filter (·.chain = chain)).map (·.id) := by
  have each :
      ∀ id ∈ (r.group chain).members, (r.providers.get? id).map (·.id) = some id := by
    intro id member
    rw [keeps.members] at member
    have there := (keeps.held id).2 ((List.filter_sublist.map _).subset member)
    obtain ⟨p, found⟩ := Option.isSome_iff_exists.1 there
    rw [found, Option.map_some, keeps.keyed id p found]
  unfold Registry.members
  rw [List.map_filterMap, List.filterMap_congr each, List.filterMap_some, keeps.members]

/-- Who is listed for a chain is on the roll for it. -/
theorem Knows.matches_of_mem (knows : r.Knows on) (keeps : r.Keeps on)
    (member : p ∈ r.members chain) : ∃ e ∈ on.filter (·.chain = chain), p.Matches e := by
  obtain ⟨listed, found⟩ := (mem_members keeps.keyed).1 member
  rw [keeps.members] at listed
  obtain ⟨e, enrolled, sameId⟩ := List.mem_map.1 listed
  obtain ⟨q, there, isIt⟩ := knows e (List.mem_filter.1 enrolled).1
  rw [sameId, found] at there
  cases there
  exact ⟨e, enrolled, isIt⟩

theorem Knows.chain_of_mem (knows : r.Knows on) (keeps : r.Keeps on)
    (member : p ∈ r.members chain) : p.chain = chain := by
  obtain ⟨e, enrolled, isIt⟩ := knows.matches_of_mem keeps member
  rw [isIt.chain]
  simpa using (List.mem_filter.1 enrolled).2

theorem members_alike {s : Registry} (alike : r.Alike s) (chain : ChainId) :
    s.members chain = r.members chain := by
  unfold members
  rw [alike.members, List.filterMap_congr fun id _ => alike.providers id]

theorem members_entered (keyed : r.Keyed) (id : ProviderId) (f : Provider → Provider)
    (chain : ChainId) :
    (r.entered id f).members chain = (r.members chain).map fun p => if p.id = id then f p
      else p := by
  have each : ∀ j, (r.entered id f).providers.get? j =
      (r.providers.get? j).map fun p => if p.id = id then f p else p := by
    intro j
    rw [get?_entered]
    cases found : r.providers.get? j with
    | none => simp
    | some p =>
        obtain rfl := keyed j p found
        by_cases here : p.id = id
        · simp [here]
        · simp [here, Ne.symm here]
  unfold members
  rw [List.map_filterMap, List.filterMap_congr fun j _ => each j]
  rfl

theorem members_register (keeps : r.Keeps on) (chain : ChainId) (endpoint : String)
    (new : nthId on.length ∉ on.map (·.id)) (other : ChainId) :
    (r.register chain endpoint).2.members other =
      if chain = other then r.members other ++
        [{ id := nthId on.length, chain, endpoint }] else r.members other := by
  have before : ∀ id ∈ (r.group other).members,
      (r.register chain endpoint).2.providers.get? id = r.providers.get? id := by
    intro id member
    rw [get?_register, keeps.nextId, if_neg]
    rintro rfl
    rw [keeps.members] at member
    exact new ((List.filter_sublist.map _).subset member)
  unfold members
  rw [group_register, keeps.nextId]
  split
  · rw [List.filterMap_append, List.filterMap_congr before]
    simp [get?_register, keeps.nextId]
  · rw [List.filterMap_congr before]

theorem members_reevaluate (keeps : r.Keeps on) (knows : r.Knows on)
    (chain other : ChainId) :
    (r.reevaluate chain).1.members other = (r.members other).map fun p =>
      if chain = other then p.judged (r.best chain) (r.group chain).policy else p := by
  have all : (r.reevaluate chain).1.members other = (r.members other).map fun p =>
      if p.id ∈ (r.group chain).members then p.judged (r.best chain)
        (r.group chain).policy else p := by
    unfold members
    rw [List.map_filterMap, List.filterMap_congr fun id _ =>
      get?_reevaluate keeps.keyed chain id]
    rfl
  rw [all]
  refine List.map_congr_left fun p member => ?_
  obtain ⟨listed, found⟩ := (mem_members keeps.keyed).1 member
  have home := knows.chain_of_mem keeps member
  have same : p.id ∈ (r.group chain).members ↔ chain = other := by
    constructor
    · intro there
      rw [← home]
      exact (knows.chain_of_mem keeps ((mem_members keeps.keyed).2 ⟨there, found⟩)).symm
    · rintro rfl
      exact listed
  simp only [same]

end Registry

end Paywatch
