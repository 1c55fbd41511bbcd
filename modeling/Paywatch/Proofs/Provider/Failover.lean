import Paywatch.Proofs.Flow.Surroundings
import Paywatch.Proofs.Provider.History
import Paywatch.Provider.Failover

/-!
# Who is asked

The candidates of a chain are everyone who was registered for it, healthy ones first,
and among these those whose last call did not fail first.  A question goes down this
list until somebody answers: what is reported on the way is a failure for everyone who
did not answer and a success for the one who did, and nothing for the rest.
-/

namespace Paywatch

/-- Healthy providers whose last call did not fail come first, then the other healthy
ones, then degraded ones. -/
def Provider.rank (p : Provider) : Nat :=
  match p.health with
  | .healthy => if p.lastOk = some false then 1 else 0
  | .degraded => 2

namespace Registry

variable {r : Registry} {ops : List Operation} {chain : ChainId} {p : Provider}

/-! ## The list of candidates -/

theorem perm_rotate {α : Type} (xs : List α) (n : Nat) : (rotate xs n).Perm xs := by
  unfold rotate
  exact List.perm_append_comm.trans (.of_eq (List.take_append_drop n xs))

/-- The healthy providers are listed in two parts, by how their last call ended. -/
theorem listHealthy_eq (r : Registry) (chain : ChainId) : ∃ fresh stale,
    (r.listHealthy chain).1 = fresh ++ stale ∧
      fresh.Perm (((r.members chain).filter (·.health == .healthy)).filter
        (·.lastOk != some false)) ∧
      stale.Perm (((r.members chain).filter (·.health == .healthy)).filter
        (·.lastOk == some false)) := by
  unfold listHealthy
  cases found : r.groups.get? chain with
  | none =>
      have nobody : r.members chain = [] := by simp [members, group, found]
      exact ⟨[], [], rfl, by simp [nobody], by simp [nobody]⟩
  | some g => exact ⟨_, _, rfl, perm_rotate _ _, perm_sortBy _ _⟩

/-- The candidates are listed in three parts, by how their last call ended and
whether they are healthy. -/
theorem candidates_eq (r : Registry) (chain : ChainId) : ∃ fresh stale degraded,
    (r.candidates chain).1 = fresh ++ stale ++ degraded ∧
      (fresh ++ stale ++ degraded).Perm (r.members chain) ∧
      (∀ p ∈ fresh, p.rank = 0) ∧ (∀ p ∈ stale, p.rank = 1) ∧
        ∀ p ∈ degraded, p.rank = 2 := by
  obtain ⟨fresh, stale, healthy, freshOnes, staleOnes⟩ := r.listHealthy_eq chain
  let failing := (r.members chain).filter (·.health == .degraded)
  let degraded := sortBy (fun p q => earlier p.lastFailure q.lastFailure) failing
  have degradedOnes : degraded.Perm failing := perm_sortBy ..
  refine ⟨fresh, stale, degraded, ?_, ?_, ?_, ?_, ?_⟩
  · rw [← healthy]
    rfl
  · have split :
      ((r.members chain).filter (·.health == .healthy) ++ failing).Perm
        (r.members chain) := by
      have others : failing = (r.members chain).filter fun p =>
        !(p.health == .healthy) := by
        refine List.filter_congr fun p _ => ?_
        cases p.health <;> rfl
      rw [others]
      exact List.filter_append_perm ..
    have ones :
        (fresh ++ stale).Perm ((r.members chain).filter (·.health == .healthy)) := by
      refine (freshOnes.append staleOnes).trans ?_
      refine List.perm_append_comm.trans ?_
      exact List.filter_append_perm ..
    exact (ones.append degradedOnes).trans split
  · intro p member
    have isFresh := freshOnes.mem_iff.1 member
    simp only [List.mem_filter, beq_iff_eq, bne_iff_ne] at isFresh
    simp [Provider.rank, isFresh]
  · intro p member
    have isStale := staleOnes.mem_iff.1 member
    simp only [List.mem_filter, beq_iff_eq] at isStale
    simp [Provider.rank, isStale]
  · intro p member
    have isDegraded := degradedOnes.mem_iff.1 member
    simp only [failing, List.mem_filter, beq_iff_eq] at isDegraded
    simp [Provider.rank, isDegraded]

theorem pairwise_rank_candidates (r : Registry) (chain : ChainId) :
    (r.candidates chain).1.Pairwise fun p q => p.rank ≤ q.rank := by
  obtain ⟨fresh, stale, degraded, list, -, first, second, third⟩ := r.candidates_eq chain
  have among : ∀ (ps : List Provider) (n : Nat), (∀ p ∈ ps, p.rank = n) →
      ps.Pairwise fun p q => p.rank ≤ q.rank := by
    intro ps n all
    refine List.pairwise_of_forall_mem_list fun p member q member' => ?_
    exact Nat.le_of_eq ((all p member).trans (all q member').symm)
  rw [list, List.pairwise_append, List.pairwise_append]
  refine ⟨⟨among _ 0 first, among _ 1 second, ?_⟩, among _ 2 third, ?_⟩
  · intro p member q member'
    rw [first p member, second q member']
    exact Nat.zero_le _
  · intro p member q member'
    rw [third q member']
    rcases List.mem_append.1 member with isFresh | isStale
    · rw [first p isFresh]
      exact Nat.zero_le _
    · rw [second p isStale]
      exact Nat.le_succ _

/-- What the list of candidates is to be after operations on a registry. -/
structure Lists (ops : List Operation) (chain : ChainId) (listed : List Provider) :
    Prop where
  /-- Everyone who was registered for the chain is in it, as often as registered. -/
  everyone : (listed.map (·.id)).Perm ((enrolled ops chain).map (·.id))
  /-- Nobody is in it twice; identifiers are words of 32 bits. -/
  once : (roll ops).length ≤ UInt32.size → (listed.map (·.id)).Nodup
  held : ∀ p ∈ listed, (after ops).providers.get? p.id = some p
  healthyFirst : listed.Pairwise fun p q => q.health = .healthy → p.health = .healthy
  unfailedFirst : listed.Pairwise fun p q => p.health = .healthy → q.health = .healthy →
    q.lastOk ≠ some false → p.lastOk ≠ some false
  /-- How the last call to a provider ended is what was reported last. -/
  lastCall : (roll ops).length ≤ UInt32.size →
    ∀ p ∈ listed, ∃ e ∈ enrolled ops chain, e.id = p.id ∧ p.lastOk = e.calls.head?

theorem lists_candidates (ops : List Operation) (chain : ChainId) :
    Lists ops chain ((after ops).candidates chain).1 := by
  have keeps := keeps_after ops
  obtain ⟨fresh, stale, degraded, list, perm, -⟩ := (after ops).candidates_eq chain
  rw [← list] at perm
  have everyone := (perm.map Provider.id).trans (.of_eq (keeps.ids_members chain))
  have member : ∀ p ∈ ((after ops).candidates chain).1,
      p.id ∈ ((after ops).group chain).members ∧
      (after ops).providers.get? p.id = some p :=
    fun p listed => (mem_members keeps.keyed).1 (perm.mem_iff.1 listed)
  refine ⟨everyone, ?_, fun p listed => (member p listed).2, ?_, ?_, ?_⟩
  · intro named
    rw [everyone.nodup_iff]
    exact (nodup_roll named).sublist (List.filter_sublist.map _)
  · refine (pairwise_rank_candidates (after ops) chain).imp fun {p q} order healthy => ?_
    cases health : p.health with
    | healthy => rfl
    | degraded =>
        simp only [Provider.rank, health, healthy] at order
        split at order <;> omega
  · refine (pairwise_rank_candidates (after ops) chain).imp
      fun {p q} order healthy healthy' unfailed failed => ?_
    simp only [Provider.rank, healthy, healthy', if_pos failed, if_neg unfailed] at order
    omega
  · intro named p listed
    have there := (member p listed).1
    rw [keeps.members] at there
    obtain ⟨e, enrolled, sameId⟩ := List.mem_map.1 there
    obtain ⟨s, found, isIt⟩ := knows_after named e (List.mem_filter.1 enrolled).1
    rw [sameId, (member p listed).2] at found
    cases found
    exact ⟨e, enrolled, sameId, isIt.lastOk⟩

end Registry

namespace Failover

open Registry

variable {chain : ChainId} {q : Query}

/-- A registry whose providers are asked: who was asked, and what was done
to it on the way. -/
structure Switchboard where
  registry : Registry
  asked : List ProviderId
  done : List Operation

namespace Switchboard

def does (s : Switchboard) (op : Operation) : Switchboard :=
  { s with registry := (s.registry.perform op).1, done := s.done ++ [op] }

/-- Answers a call: lists and reports go to the registry, and the providers answer as
they do.  Other calls are answered in any way. -/
def perform (answers : ProviderId → (q : Query) → q.Reply)
    (otherwise : (c : Call) → c.Reply) :
    (c : Call) → Switchboard → c.Reply × Switchboard
  | .candidates chain, s =>
      ((s.registry.candidates chain).1.map (·.id), s.does (.list chain))
  | .ask id q, s => (answers id q, { s with asked := s.asked ++ [id] })
  | .report id outcome, s => ((), s.does (.report id outcome))
  | c, s => (otherwise c, s)

end Switchboard

variable {answers : ProviderId → (q : Query) → q.Reply}

/-- What a provider tells: an answer without the block that was asked for is none. -/
def tells (answers : ProviderId → (q : Query) → q.Reply) (q : Query) (id : ProviderId) :
    Except ProviderError q.Found :=
  (answers id q).bind q.found

/-- The provider gives no answer. -/
def Fails (answers : ProviderId → (q : Query) → q.Reply) (q : Query) (id : ProviderId) :
    Prop :=
  ∃ reason, tells answers q id = .error reason

/-- What the last one of these providers complained of, if all of them fail. -/
def complaint (answers : ProviderId → (q : Query) → q.Reply) (q : Query) (before : String)
    (ids : List ProviderId) : String :=
  ids.foldl (fun last id => match tells answers q id with
    | .error reason => reason.message
    | .ok _ => last) before

/-- How a question ends that goes down a list of providers: with what result, who is
asked, and what is reported. -/
inductive Ends (answers : ProviderId → (q : Query) → q.Reply) (q : Query)
    (chain : ChainId) (attempts : Nat) (last : String) (listed : List ProviderId) :
    Except ProviderError q.Found → List ProviderId → List Operation → Prop
  | answered (failed rest : List ProviderId) {p : ProviderId} {a : q.Found}
      (order : listed = failed ++ p :: rest)
      (none : ∀ f ∈ failed, Fails answers q f) (here : tells answers q p = .ok a) :
      Ends answers q chain attempts last listed (.ok a) (failed ++ [p])
        (failed.map (.report · .failure) ++ [.report p (.success (q.observedHead a))])
  | unavailable (none : ∀ p ∈ listed, Fails answers q p) :
      Ends answers q chain attempts last listed
        (.error (.unavailable chain attempts (complaint answers q last listed))) listed
        (listed.map (.report · .failure))

theorem Ends.cons {attempts : Nat} {last : String} {id : ProviderId}
    {rest asked : List ProviderId} {reason : ProviderError}
    {result : Except ProviderError q.Found} {reports : List Operation}
    (fails : tells answers q id = .error reason)
    (ends : Ends answers q chain attempts reason.message rest result asked reports) :
    Ends answers q chain attempts last (id :: rest) result (id :: asked)
      (.report id .failure :: reports) := by
  cases ends with
  | answered failed later order none here =>
      refine .answered (id :: failed) later (by rw [order]; rfl) ?_ here
      exact List.forall_mem_cons.2 ⟨⟨reason, fails⟩, none⟩
  | unavailable none =>
      have complained :
          complaint answers q reason.message rest =
            complaint answers q last (id :: rest) := by
        simp [complaint, fails]
      rw [complained]
      exact .unavailable (List.forall_mem_cons.2 ⟨⟨reason, fails⟩, none⟩)

/-- The surroundings after some were asked and some operations were done. -/
def Switchboard.goneOn (s : Switchboard) (asked : List ProviderId)
    (reports : List Operation) : Switchboard :=
  ⟨reports.foldl (fun r op => (r.perform op).1) s.registry, s.asked ++ asked,
    s.done ++ reports⟩

/-- Who answers ends the matter. -/
theorem run_askEach_of_ok {otherwise : (c : Call) → c.Reply} {id : ProviderId}
    {a : q.Found} (told : tells answers q id = .ok a) (attempts : Nat) (last : String)
    (rest : List ProviderId) (s : Switchboard) :
    (askEach chain q attempts last (id :: rest)).run
      (Switchboard.perform answers otherwise) s =
      (.ok a, s.goneOn [id] [.report id (.success (q.observedHead a))]) := by
  have answer : (answers id q).bind q.found = .ok a := told
  simp only [askEach, bind, Flow.bind, Flow.ask, Flow.run, Switchboard.perform, answer]
  rfl

/-- Who does not answer leaves the matter to the others. -/
theorem run_askEach_of_error {otherwise : (c : Call) → c.Reply} {id : ProviderId}
    {reason : ProviderError} (told : tells answers q id = .error reason) (attempts : Nat)
    (last : String) (rest : List ProviderId) (s : Switchboard) :
    (askEach chain q attempts last (id :: rest)).run
        (Switchboard.perform answers otherwise) s =
      (askEach chain q attempts reason.message rest).run
        (Switchboard.perform answers otherwise)
        (s.goneOn [id] [.report id .failure]) := by
  have failure : (answers id q).bind q.found = .error reason := told
  simp only [askEach, bind, Flow.bind, Flow.ask, Flow.run, Switchboard.perform, failure]
  rfl

/-- The question goes down the list, and leaves the registry as the reports make it. -/
theorem run_askEach (answers : ProviderId → (q : Query) → q.Reply)
    (otherwise : (c : Call) → c.Reply) (chain : ChainId) (q : Query) (attempts : Nat)
    (last : String) (ids : List ProviderId) (s : Switchboard) :
    ∃ result asked reports, Ends answers q chain attempts last ids result asked reports ∧
      (askEach chain q attempts last ids).run (Switchboard.perform answers otherwise) s =
        (result, s.goneOn asked reports) := by
  induction ids generalizing last s with
  | nil =>
      exact ⟨_, _, _,
        .unavailable nofun,
        by simp [askEach, Flow.run, pure, Switchboard.goneOn, complaint]⟩
  | cons id rest ih =>
      cases told : tells answers q id with
      | ok a =>
          exact ⟨_, _, _, .answered [] rest rfl nofun told,
            run_askEach_of_ok told attempts last rest s⟩
      | error reason =>
          obtain ⟨result, asked, reports, ends, ran⟩ :=
            ih reason.message (s.goneOn [id] [.report id .failure])
          refine ⟨result, _, _, ends.cons told, ?_⟩
          rw [run_askEach_of_error told, ran]
          simp [Switchboard.goneOn]

/-- Exactly if nobody on the list answers, the chain is unavailable. -/
theorem Ends.unavailable_iff {attempts : Nat} {last : String}
    {listed asked : List ProviderId} {result : Except ProviderError q.Found}
    {reports : List Operation}
    (ends : Ends answers q chain attempts last listed result asked reports) :
    (∃ last, result = .error (.unavailable chain attempts last)) ↔
      ∀ p ∈ listed, Fails answers q p := by
  cases ends with
  | answered failed later order none here =>
      constructor
      · rintro ⟨_, ⟨⟩⟩
      · intro all
        obtain ⟨reason, fails⟩ :=
          all _ (by rw [order]; exact List.mem_append_right _ List.mem_cons_self)
        rw [here] at fails
        cases fails
  | unavailable none => exact ⟨fun _ => none, fun _ => ⟨_, rfl⟩⟩

/-- Whatever was done to the registry before, and however the providers answer: everyone
who was registered for the chain is a candidate once, in order of health; the question
goes down this list to the first answer, which is the result; one outcome is reported of
everyone down to there and none of the rest; and the chain is unavailable, after as many
attempts as providers were registered, exactly if none of them answers. -/
theorem asks_in_order (ops : List Operation) (chain : ChainId) (q : Query)
    (answers : ProviderId → (q : Query) → q.Reply) (otherwise : (c : Call) → c.Reply) :
    let listed := ((after ops).candidates chain).1
    let ran := (ask chain q).run (Switchboard.perform answers otherwise)
      ⟨after ops, [], []⟩
    Lists ops chain listed ∧
      (∃ reports,
        Ends answers q chain (enrolled ops chain).length "no providers registered"
          (listed.map (·.id)) ran.1 ran.2.asked reports ∧
        ran.2.done = .list chain :: reports ∧
          ran.2.registry = after (ops ++ .list chain :: reports)) ∧
      ((∃ last, ran.1 = .error (.unavailable chain (enrolled ops chain).length last)) ↔
        ∀ e ∈ enrolled ops chain, Fails answers q e.id) := by
  intro listed ran
  have lists : Lists ops chain listed := lists_candidates ops chain
  have length : (listed.map (·.id)).length = (enrolled ops chain).length := by
    rw [lists.everyone.length_eq, List.length_map]
  obtain ⟨result, asked, reports, ends, run⟩ :=
    run_askEach answers otherwise chain q (enrolled ops chain).length
    "no providers registered" (listed.map (·.id))
      (Switchboard.does ⟨after ops, [], []⟩ (.list chain))
  have ended : ran =
      (result, (Switchboard.does ⟨after ops, [], []⟩ (.list chain)).goneOn asked
        reports) := by
    rw [← run, ← length]
    rfl
  rw [ended]
  refine ⟨lists, ⟨reports, ends, rfl, ?_⟩, ?_⟩
  · simp [Switchboard.goneOn, Switchboard.does, after]
  · rw [ends.unavailable_iff]
    have ids : ∀ id, id ∈ listed.map (·.id) ↔ id ∈ (enrolled ops chain).map (·.id) :=
      fun id => lists.everyone.mem_iff
    simp only [ids]
    exact List.forall_mem_map

/-- Only the third of the providers answers, the others are too late. -/
def sampleAnswers (id : ProviderId) : (q : Query) → q.Reply
  | .head => if id = nthId 2 then .ok 7 else .error (.timeout 50)
  | .block _ => .ok none
  | .logs _ _ => .ok []
  | .transactions _ => .ok []
  | .synced => .ok true
  | .fees => .ok {}

/-- Other calls are answered as if there were nothing else. -/
def sampleOtherwise (c : Call) : c.Reply :=
  (Surroundings.perform .empty ⟨[]⟩ c ⟨.empty, []⟩).1

/-- Three providers, the first of which has failed before. -/
def sampleOperations : List Operation :=
  [.register ⟨1⟩ "a", .register ⟨1⟩ "b", .register ⟨1⟩ "c", .report (nthId 0) .failure]

theorem asks_in_order_sample :
    let ran := (ask ⟨1⟩ .head).run (Switchboard.perform sampleAnswers sampleOtherwise)
      ⟨after sampleOperations, [], []⟩
    ran.1 = .ok 7 ∧ ran.2.asked = [nthId 1, nthId 2] ∧
      ran.2.done =
        [.list ⟨1⟩, .report (nthId 1) .failure, .report (nthId 2) (.success (some 7))] ∧
      ¬ ∀ e ∈ enrolled sampleOperations ⟨1⟩, Fails sampleAnswers .head e.id := by
  intro ran
  have answered : ran.1 = .ok 7 := rfl
  obtain ⟨-, -, unavailable⟩ :=
    asks_in_order sampleOperations ⟨1⟩ .head sampleAnswers sampleOtherwise
  refine ⟨answered, rfl, rfl, ?_⟩
  rw [← unavailable]
  rintro ⟨last, failed⟩
  exact absurd (answered.symm.trans failed) nofun

end Failover

end Paywatch
