import Mathlib.Data.List.Chain
import Paywatch.Proofs.Provider.History

/-!
# The health of providers

What an operation does to the providers of one chain is a turn: something is entered
that health does not depend on, a provider joins, or something is entered and then all
of them are judged by the best of their heads.  To judge changes no head, so judging
again by the same heads changes nothing; that the providers of a chain are settled in
this sense is kept by every turn.  What is announced in a turn are the changes of
health, so the announcements about one provider tell the course of its health.
-/

namespace Paywatch

/-- Thresholds of at least one; they are words of 32 bits. -/
structure HealthPolicy.Sensible (policy : HealthPolicy) : Prop where
  failing : 1 ≤ policy.failureThreshold
  word : policy.failureThreshold < UInt32.size
  recovering : 1 ≤ policy.recoveryThreshold

namespace Provider

variable {p : Provider} {top : Height} {policy : HealthPolicy}

/-- Nothing speaks against the provider. -/
structure Sound (p : Provider) (top : Height) (policy : HealthPolicy) : Prop where
  failures : p.failures < policy.failureThreshold
  lags : p.lags top policy.maxHeadLag = false
  synced : p.synced ≠ some false

/-- A healthy provider stays healthy exactly if it is sound. -/
theorem evaluate_of_healthy (health : p.health = .healthy) :
    p.evaluate top policy = .healthy ↔ p.Sound top policy := by
  have reasons :
      (policy.failureThreshold ≤ p.failures || p.lags top policy.maxHeadLag ||
        p.synced == some false) = true ↔
      ¬ p.Sound top policy := by
    constructor
    · intro reason sound
      simp [Nat.not_le.2 sound.failures, sound.lags, sound.synced] at reason
    · intro unsound
      by_contra none
      simp only [Bool.or_eq_true, decide_eq_true_eq, beq_iff_eq, not_or, Nat.not_le,
        Bool.not_eq_true] at none
      exact unsound ⟨none.1.1, none.1.2, none.2⟩
  simp only [evaluate, health, reasons]
  split <;> simp_all

/-- A degraded provider recovers exactly after successes in a row, if it keeps
up and may be synced. -/
theorem evaluate_of_degraded (health : p.health = .degraded) :
    p.evaluate top policy = .healthy ↔
      policy.recoveryThreshold ≤ p.successes ∧ p.lags top policy.maxHeadLag = false ∧
        p.synced ≠ some false := by
  simp only [evaluate, health]
  split <;> simp_all

/-- After judging, judging again by the same head changes nothing. -/
theorem evaluate_judged (sensible : policy.Sensible)
    (counts : p.successes = 0 ∨ p.failures = 0) :
    (p.judged top policy).evaluate top policy = (p.judged top policy).health := by
  have failing := sensible.failing
  have recovering := sensible.recovering
  -- After successes in a row there are no failures in a row.
  have noFailures : policy.recoveryThreshold ≤ p.successes → p.failures = 0 := by omega
  unfold judged
  rcases Provider.reevaluateOne_eq top policy p with
    ⟨stays, same⟩ | ⟨⟨health, up⟩, judged⟩ | ⟨⟨health, down⟩, judged⟩
  · rw [same]
    exact stays
  · obtain ⟨successes, keepsUp, synced⟩ := (evaluate_of_degraded health).1 up
    have sound : Sound { p with health := .healthy, successes := 0 } top policy :=
      ⟨by rw [noFailures successes]; exact failing, keepsUp, synced⟩
    rw [judged]
    exact (evaluate_of_healthy rfl).2 sound
  · -- Whatever took the provider out stands in the way of recovery.
    have unsound : ¬ p.Sound top policy := by
      rw [← evaluate_of_healthy health, down]
      simp
    rw [judged]
    cases again : evaluate { p with health := .degraded } top policy with
    | degraded => rfl
    | healthy =>
        obtain ⟨successes, keepsUp, synced⟩ := (evaluate_of_degraded rfl).1 again
        exact absurd ⟨by rw [noFailures successes]; exact failing, keepsUp, synced⟩
          unsound

@[simp] theorem endpoint_judged (p : Provider) (top : Height) (policy : HealthPolicy) :
    (p.judged top policy).endpoint = p.endpoint := by
  unfold judged
  rcases reevaluateOne_eq top policy p with ⟨-, same⟩ | ⟨-, up⟩ | ⟨-, down⟩ <;> simp [*]

@[simp] theorem lastHead_judged (p : Provider) (top : Height) (policy : HealthPolicy) :
    (p.judged top policy).lastHead = p.lastHead := by
  unfold judged
  rcases reevaluateOne_eq top policy p with ⟨-, same⟩ | ⟨-, up⟩ | ⟨-, down⟩ <;> simp [*]

end Provider

namespace Registry

variable {r : Registry} {ops : List Operation} {chain : ChainId} {policy : HealthPolicy}
  {ps : List Provider} {p : Provider} {on : List Enrolment}

/-! ## The best head -/

/-- The highest of the heads that providers have reported. -/
def highest? (ps : List Provider) : Option Height :=
  ps.foldl (fun best p =>
    match best, p.lastHead with
    | some b, some h => some (if b < h then h else b)
    | none, h => h
    | b, none => b) none

theorem highest?_snoc (ps : List Provider) (p : Provider) : highest? (ps ++ [p]) =
    match highest? ps, p.lastHead with
    | some b, some h => some (if b < h then h else b)
    | none, h => h
    | b, none => b := by
  simp only [highest?, List.foldl_append, List.foldl_cons, List.foldl_nil]

/-- Only the heads matter. -/
theorem highest?_map {f : Provider → Provider} (heads : ∀ p, (f p).lastHead = p.lastHead)
    (ps : List Provider) : highest? (ps.map f) = highest? ps := by
  induction ps using List.reverseRecOn with
  | nil => rfl
  | append_singleton ps p ih =>
      rw [List.map_append, List.map_singleton, highest?_snoc, highest?_snoc, ih, heads]

/-- No head is higher than the highest. -/
theorem le_highest {head : Height} (member : p ∈ ps) (reported : p.lastHead = some head) :
    head.toNat ≤ ((highest? ps).getD 0).toNat := by
  induction ps using List.reverseRecOn with
  | nil => cases member
  | append_singleton ps q ih =>
      rw [highest?_snoc]
      rcases List.mem_append.1 member with before | last
      · have below := ih before
        cases best : highest? ps with
        | none =>
            rw [best] at below
            cases q.lastHead <;> simp_all
        | some b =>
            rw [best, Option.getD_some] at below
            cases q.lastHead with
            | none => exact below
            | some h =>
                simp only [Option.getD_some]
                split
                · rename_i higher
                  exact Nat.le_trans below
                    (Nat.le_of_lt (UInt64.lt_iff_toNat_lt.1 higher))
                · exact below
      · obtain rfl := List.mem_singleton.1 last
        rw [reported]
        cases highest? ps with
        | none => exact Nat.le_refl _
        | some b =>
            simp only [Option.getD_some]
            split
            · exact Nat.le_refl _
            · rename_i notHigher
              exact Nat.not_lt.1 fun higher => notHigher (UInt64.lt_iff_toNat_lt.2 higher)

/-- The providers of a chain after each was judged by the best of their heads. -/
def judgeAll (policy : HealthPolicy) (ps : List Provider) : List Provider :=
  ps.map (·.judged ((highest? ps).getD 0) policy)

/-- What is announced when the providers of a chain are judged. -/
def verdicts (policy : HealthPolicy) (ps : List Provider) : List Notice :=
  ps.filterMap fun p => (reevaluateOne ((highest? ps).getD 0) policy p).2

/-! ## Turns -/

/-- What a notice tells of the health of a provider of the chain, known by
its endpoint. -/
def change? (chain : ChainId) (endpoint : String) : Notice → Option Health
  | .providerOnline c e => if c = chain ∧ e = endpoint then some .healthy else none
  | .providerOffline c e => if c = chain ∧ e = endpoint then some .degraded else none
  | _ => none

/-- The course of a provider's health, as it was announced. -/
def course (chain : ChainId) (endpoint : String) (notices : List Notice) : List Health :=
  notices.filterMap (change? chain endpoint)

theorem course_append (chain : ChainId) (endpoint : String) (before later : List Notice) :
    course chain endpoint (before ++ later) = course chain endpoint before ++
      course chain endpoint later :=
  List.filterMap_append

/-- What an operation can do to the providers of a chain, and what it announces. -/
inductive Turn (chain : ChainId) (policy : HealthPolicy) (before : List Provider) :
    List Provider → List Notice → Prop
  | entered {f : Provider → Provider} {notices : List Notice}
      (same : ∀ p, ∃ gasFee, f p = { p with gasFee })
      (elsewhere : ∀ endpoint, course chain endpoint notices = []) :
      Turn chain policy before (before.map f) notices
  | joined (id : ProviderId) (endpoint : String) :
      Turn chain policy before (before ++ [{ id := id, chain, endpoint }]) []
  | judged {f : Provider → Provider}
      (same : ∀ p, (f p).health = p.health ∧ (f p).endpoint = p.endpoint)
      (home : ∀ p ∈ before, (f p).chain = chain)
      (counts : ∀ p ∈ before, (f p).successes = 0 ∨ (f p).failures = 0) :
      Turn chain policy before (judgeAll policy (before.map f))
        (verdicts policy (before.map f))

/-- Nothing happens on the chain. -/
theorem Turn.nothing {notices : List Notice}
    (elsewhere : ∀ endpoint, course chain endpoint notices = []) :
    Turn chain policy ps ps notices := by
  have turn : Turn chain policy ps (ps.map id) notices :=
    .entered (fun p => ⟨p.gasFee, rfl⟩) elsewhere
  rwa [List.map_id] at turn

theorem course_verdicts_elsewhere {other : ChainId} (home : ∀ p ∈ ps, p.chain = other)
    (elsewhere : other ≠ chain) (policy : HealthPolicy) (endpoint : String) :
    course chain endpoint (verdicts policy ps) = [] := by
  unfold course verdicts
  rw [List.filterMap_filterMap, List.filterMap_eq_nil_iff]
  intro p member
  have there := home p member
  rcases Provider.reevaluateOne_eq ((highest? ps).getD 0) policy p with
    ⟨-, same⟩ | ⟨-, up⟩ | ⟨-, down⟩ <;>
    simp [*, change?]

theorem reevaluate_of_chain (keeps : r.Keeps on) (knows : r.Knows on) (chain : ChainId) :
    (r.reevaluate chain).1.members chain =
      judgeAll (r.group chain).policy (r.members chain) := by
  rw [members_reevaluate keeps knows]
  simp only [if_true]
  rfl

theorem notices_reevaluate (r : Registry) (chain : ChainId) :
    (r.reevaluate chain).2 = verdicts (r.group chain).policy (r.members chain) := by
  rw [reevaluate_eq, judgements, List.filterMap_map]
  rfl

theorem policy_insert (r : Registry) (chain other : ChainId) {g : ProviderGroup}
    (same : g.policy = (r.group chain).policy) :
    (({ r with groups := r.groups.insert chain g } : Registry).group other).policy =
      (r.group other).policy := by
  rw [group_insert]
  split
  · rename_i here
    rw [same, here]
  · rfl

/-- The policy of a chain is what it was configured to be. -/
theorem policy_noted (r : Registry) (op : Operation) (chain : ChainId)
    (stays : ∀ policy scaling, op ≠ .configure chain policy scaling) :
    ((r.noted op).group chain).policy = (r.group chain).policy := by
  cases op with
  | configure other policy scaling =>
      have elsewhere : other ≠ chain := by
        rintro rfl
        exact stays policy scaling rfl
      simp only [noted, perform, configure]
      rw [group_insert, if_neg elsewhere]
  | register other endpoint => exact r.policy_insert other chain rfl
  | report id outcome =>
      simp only [noted]
      split <;> rfl
  | reportSync id synced =>
      simp only [noted]
      split
      · rfl
      · split <;> rfl
  | reportFees id sample =>
      simp only [noted, perform, reportFees]
      split
      · rfl
      · exact r.policy_insert _ chain rfl
  | list other =>
      simp only [noted, perform, candidates, listHealthy]
      cases found : r.groups.get? other with
      | none => rfl
      | some g => exact r.policy_insert other chain (by simp [group, found])

/-- What is entered about a provider has the providers of its chain judged,
and nobody elsewhere. -/
theorem turn_judged {s : Registry} {id : ProviderId} {f : Provider → Provider}
    {after : List Enrolment} (keeps : r.Keeps on) (knows : r.Knows on)
    (found : r.providers.get? id = some p)
    (same : ∀ p, (f p).health = p.health ∧ (f p).endpoint = p.endpoint)
    (alike : (r.entered id f).Alike s) (noted : s.Keeps after) (known : s.Knows after)
    (policy : (s.group chain).policy = (r.group chain).policy) :
    Turn chain (r.group chain).policy (r.members chain)
      ((s.reevaluate p.chain).1.members chain) (s.reevaluate p.chain).2 := by
  let g (q : Provider) := if q.id = id then f q else q
  have members : s.members chain = (r.members chain).map g := by
    rw [members_alike alike, members_entered keeps.keyed]
  by_cases here : p.chain = chain
  · rw [here, reevaluate_of_chain noted known, notices_reevaluate, members, policy]
    refine .judged ?_ ?_ ?_
    · intro q
      by_cases isIt : q.id = id
      · simp only [g, if_pos isIt, same, and_self]
      · simp only [g, if_neg isIt, and_self]
    · intro q member
      exact known.chain_of_mem noted (members ▸ List.mem_map_of_mem member)
    · intro q member
      obtain ⟨e, -, isIt⟩ :=
        known.matches_of_mem noted (members ▸ List.mem_map_of_mem member :
          g q ∈ s.members chain)
      exact isIt.counts
  · have others : s.members chain = r.members chain := by
      rw [members]
      refine (List.map_congr_left fun q member => ?_).trans (List.map_id _)
      refine if_neg fun isIt => here ?_
      obtain ⟨-, there⟩ := (mem_members keeps.keyed).1 member
      rw [isIt, found] at there
      cases there
      exact knows.chain_of_mem keeps member
    rw [members_reevaluate noted known, notices_reevaluate]
    simp only [if_neg here, List.map_id', others]
    exact .nothing fun endpoint =>
      course_verdicts_elsewhere (fun q member => known.chain_of_mem noted member)
        here _ endpoint

/-- Every operation is a turn on every chain. -/
theorem turn_perform (keeps : r.Keeps on) (knows : r.Knows on) (op : Operation)
    (new : ∀ chain endpoint, op = .register chain endpoint →
      nthId on.length ∉ on.map (·.id))
    (chain : ChainId) :
    Turn chain (r.group chain).policy (r.members chain) ((r.perform op).1.members chain)
      (r.perform op).2 := by
  have noted := keeps.noted op
  have known := knows.noted keeps op new
  have policy := r.policy_noted op chain
  have notes := r.notes op
  rw [perform_eq]
  generalize r.noted op = s, r.judged? op = judged at notes noted known policy ⊢
  cases notes with
  | registered joins endpoint =>
      rw [members_register keeps joins endpoint (new joins endpoint rfl)]
      split
      · rename_i here
        subst here
        exact .joined _ _
      · exact .nothing fun _ => rfl
  | @told id p s outcome size moment found alike =>
      refine turn_judged keeps knows found (fun p => ?_) alike noted known (policy nofun)
      cases outcome <;> exact ⟨rfl, rfl⟩
  | @synced id p synced found =>
      have same : ∀ q : Provider, { q with synced := some synced }.health = q.health ∧
          { q with synced := some synced }.endpoint = q.endpoint := fun _ => ⟨rfl, rfl⟩
      exact turn_judged keeps knows found same (.refl _) noted known (policy nofun)
  | priced id fee alike fresh unknown =>
      rw [members_alike alike, members_entered keeps.keyed]
      refine .entered (fun p => ?_) fun _ => rfl
      split
      · exact ⟨_, rfl⟩
      · exact ⟨p.gasFee, rfl⟩

/-! ## Settled chains -/

/-- To judge the providers of a chain changes nothing. -/
def Settled (policy : HealthPolicy) (ps : List Provider) : Prop :=
  ∀ p ∈ ps, p.evaluate ((highest? ps).getD 0) policy = p.health

theorem Settled.judgeAll (sensible : policy.Sensible)
    (counts : ∀ p ∈ ps, p.successes = 0 ∨ p.failures = 0) :
    Settled policy (judgeAll policy ps) := by
  intro q member
  obtain ⟨p, before, rfl⟩ := List.mem_map.1 member
  have sameHeads : highest? (Registry.judgeAll policy ps) = highest? ps :=
    highest?_map (fun p => p.lastHead_judged _ _) ps
  rw [sameHeads]
  exact Provider.evaluate_judged sensible (counts p before)

theorem Turn.settled {after : List Provider} {notices : List Notice}
    (turn : Turn chain policy ps after notices) (sensible : policy.Sensible)
    (settled : Settled policy ps) : Settled policy after := by
  cases turn with
  | @entered f _ same elsewhere =>
      intro q member
      obtain ⟨p, before, rfl⟩ := List.mem_map.1 member
      have sameHeads : highest? (ps.map f) = highest? ps := by
        refine highest?_map (fun p => ?_) ps
        obtain ⟨fee, priced⟩ := same p
        rw [priced]
      obtain ⟨fee, priced⟩ := same p
      rw [sameHeads, priced]
      exact settled p before
  | joined id endpoint =>
      have sameHeads :
          highest? (ps ++ [{ id := id, chain, endpoint }]) = highest? ps := by
        rw [highest?_snoc]
        cases highest? ps <;> rfl
      intro q member
      rw [sameHeads]
      rcases List.mem_append.1 member with before | last
      · exact settled q before
      · obtain rfl := List.mem_singleton.1 last
        exact (Provider.evaluate_of_healthy rfl).2 ⟨sensible.failing, rfl, nofun⟩
  | @judged f same home counts =>
      refine Settled.judgeAll sensible fun q member => ?_
      obtain ⟨p, before, rfl⟩ := List.mem_map.1 member
      exact counts p before

/-! ## The course of health -/

/-- The health of the provider with an endpoint; who is not there counts as healthy. -/
def standing (ps : List Provider) (endpoint : String) : Health :=
  ((ps.find? (·.endpoint = endpoint)).map (·.health)).getD .healthy

theorem standing_cons (p : Provider) (ps : List Provider) (endpoint : String) :
    standing (p :: ps) endpoint = if p.endpoint = endpoint then p.health
      else standing ps endpoint := by
  unfold standing
  rw [List.find?_cons]
  by_cases here : p.endpoint = endpoint <;> simp [here]

theorem standing_of_absent {endpoint : String} (absent : endpoint ∉ ps.map (·.endpoint)) :
    standing ps endpoint = .healthy := by
  induction ps with
  | nil => rfl
  | cons p rest ih =>
      rw [List.map_cons, List.mem_cons, not_or] at absent
      rw [standing_cons, if_neg (Ne.symm absent.1), ih absent.2]

theorem standing_map {f : Provider → Provider}
    (same : ∀ p, (f p).health = p.health ∧ (f p).endpoint = p.endpoint)
    (ps : List Provider) (endpoint : String) :
    standing (ps.map f) endpoint = standing ps endpoint := by
  induction ps with
  | nil => rfl
  | cons p rest ih =>
      rw [List.map_cons, standing_cons, standing_cons, ih, (same p).1, (same p).2]

/-- A provider that joins counts as it did before. -/
theorem standing_snoc (ps : List Provider) (id : ProviderId) (chain : ChainId)
    (joins endpoint : String) :
    standing (ps ++ [{ id := id, chain, endpoint := joins }]) endpoint =
      standing ps endpoint := by
  induction ps with
  | nil =>
      rw [List.nil_append, standing_cons]
      split <;> rfl
  | cons p rest ih => rw [List.cons_append, standing_cons, standing_cons, ih]

/-- What is announced of a provider is its new health, if that is another. -/
theorem course_judgements (home : ∀ p ∈ ps, p.chain = chain)
    (distinct : (ps.map (·.endpoint)).Nodup) (top : Height) (policy : HealthPolicy)
    (endpoint : String) :
    course chain endpoint (ps.filterMap fun p => (reevaluateOne top policy p).2) =
      if standing (ps.map (·.judged top policy)) endpoint = standing ps endpoint then []
      else [standing (ps.map (·.judged top policy)) endpoint] := by
  induction ps with
  | nil => rfl
  | cons p rest ih =>
      rw [List.forall_mem_cons] at home
      rw [List.map_cons, List.nodup_cons] at distinct
      have later := ih home.2 distinct.2
      rw [List.map_cons, standing_cons, standing_cons, Provider.endpoint_judged]
      split
      · rename_i here
        subst here
        -- Nobody else has this endpoint.
        have absent : p.endpoint ∉ (rest.map (·.judged top policy)).map (·.endpoint) := by
          simpa [Function.comp_def] using distinct.1
        rw [standing_of_absent distinct.1, standing_of_absent absent, if_pos rfl] at later
        unfold course at later ⊢
        unfold Provider.judged
        rw [List.filterMap_cons]
        rcases Provider.reevaluateOne_eq top policy p with
          ⟨-, same⟩ | ⟨⟨health, -⟩, up⟩ | ⟨⟨health, -⟩, down⟩
        · simp [same, later]
        · simp [up, health, change?, home.1, later]
        · simp [down, health, change?, home.1, later]
      · rename_i elsewhere
        rw [← later]
        rcases Provider.reevaluateOne_eq top policy p with
          ⟨-, same⟩ | ⟨-, up⟩ | ⟨-, down⟩ <;>
          simp [*, course, change?]

theorem Turn.tells {after : List Provider} {notices : List Notice}
    (turn : Turn chain policy ps after notices)
    (distinct : (after.map (·.endpoint)).Nodup) (endpoint : String) :
    course chain endpoint notices =
      if standing after endpoint = standing ps endpoint then []
        else [standing after endpoint] := by
  cases turn with
  | @entered f _ same elsewhere =>
      have unchanged : standing (ps.map f) endpoint = standing ps endpoint := by
        refine standing_map (fun p => ?_) ps endpoint
        obtain ⟨fee, priced⟩ := same p
        rw [priced]
        exact ⟨rfl, rfl⟩
      rw [if_pos unchanged, elsewhere]
  | joined id joins =>
      rw [if_pos (standing_snoc ps id chain joins endpoint)]
      rfl
  | @judged f same home counts =>
      have sameEndpoints :
          (judgeAll policy (ps.map f)).map (·.endpoint) =
            (ps.map f).map (·.endpoint) := by
        simp [judgeAll]
      have allHome : ∀ q ∈ ps.map f, q.chain = chain := List.forall_mem_map.2 home
      rw [sameEndpoints] at distinct
      rw [← standing_map same ps]
      exact course_judgements allHome distinct _ policy endpoint

/-- The endpoints of a chain's providers are those on the roll. -/
theorem Knows.endpoints_members (knows : r.Knows on) (keeps : r.Keeps on)
    (chain : ChainId) :
    (r.members chain).map (·.endpoint) =
      (on.filter (·.chain = chain)).map (·.endpoint) := by
  have each :
      ∀ e ∈ on.filter (·.chain = chain), (r.providers.get? e.id).map (·.endpoint) =
        some e.endpoint := by
    intro e enrolled
    obtain ⟨p, found, isIt⟩ := knows e (List.mem_filter.1 enrolled).1
    rw [found, Option.map_some, isIt.endpoint]
  unfold members
  rw [keeps.members, List.filterMap_map, List.map_filterMap, ← List.filterMap_eq_map]
  exact List.filterMap_congr each

theorem sublist_endpoints_enrol (on : List Enrolment) (op : Operation) (chain : ChainId) :
    ((on.filter (·.chain = chain)).map (·.endpoint)).Sublist
      (((enrol on op).filter (·.chain = chain)).map (·.endpoint)) := by
  cases op with
  | register joins endpoint =>
      rw [enrol, List.filter_append, List.map_append]
      exact List.sublist_append_left _ _
  | report id outcome => simp [enrol, List.filter_map, Function.comp_def]
  | _ => exact .refl _

/-- The announcements about a provider of the chain, one after the other, are changes of
its health, from healthy on to what it is now. -/
theorem course_announced (named : (roll ops).length ≤ UInt32.size)
    (distinct : ((enrolled ops chain).map (·.endpoint)).Nodup) (endpoint : String) :
    (.healthy :: course chain endpoint (announced ops)).IsChain (· ≠ ·) ∧
      (.healthy :: course chain endpoint (announced ops)).getLast? =
        some (standing ((after ops).members chain) endpoint) := by
  induction ops using List.reverseRecOn with
  | nil => exact ⟨List.isChain_singleton _, rfl⟩
  | append_singleton ops op ih =>
      have room : (roll ops).length ≤ UInt32.size := by
        rw [roll_snoc] at named
        exact Nat.le_trans (length_enrol _ op) named
      have distinctBefore : ((enrolled ops chain).map (·.endpoint)).Nodup := by
        unfold enrolled at distinct
        rw [roll_snoc] at distinct
        exact distinct.sublist (sublist_endpoints_enrol _ op chain)
      obtain ⟨alternates, last⟩ := ih room distinctBefore
      have keeps := keeps_after ops
      have turn := turn_perform keeps (knows_after room) op (fresh_of_named named) chain
      have distinctMembers :
          (((after (ops ++ [op])).members chain).map (·.endpoint)).Nodup := by
        rw [(knows_after named).endpoints_members (keeps_after _)]
        exact distinct
      rw [after_snoc] at distinctMembers ⊢
      rw [announced_snoc, course_append, turn.tells distinctMembers endpoint]
      split
      · rename_i same
        rw [List.append_nil, same]
        exact ⟨alternates, last⟩
      · rename_i changed
        rw [← List.cons_append]
        refine ⟨List.isChain_append.2 ⟨alternates, List.isChain_singleton _, ?_⟩,
          List.getLast?_concat⟩
        rw [last]
        rintro _ ⟨⟩ _ ⟨⟩
        exact Ne.symm changed

/-! ## Sound and stable health -/

theorem policy_perform (r : Registry) (op : Operation) (chain : ChainId)
    (stays : ∀ policy scaling, op ≠ .configure chain policy scaling) :
    ((r.perform op).1.group chain).policy = (r.group chain).policy := by
  rw [perform_eq]
  split <;> exact r.policy_noted op chain stays

/-- A chain stays settled under the policy that it was configured with. -/
theorem settled_after {before : List Operation} (later : List Operation)
    (sensible : policy.Sensible)
    (once : ∀ policy scaling, .configure chain policy scaling ∉ later)
    (configured : ((after before).group chain).policy = policy)
    (settled : Settled policy ((after before).members chain))
    (named : (roll (before ++ later)).length ≤ UInt32.size) :
    ((after (before ++ later)).group chain).policy = policy ∧
      Settled policy ((after (before ++ later)).members chain) := by
  induction later using List.reverseRecOn with
  | nil =>
      rw [List.append_nil]
      exact ⟨configured, settled⟩
  | append_singleton later op ih =>
      rw [← List.append_assoc] at named ⊢
      have room : (roll (before ++ later)).length ≤ UInt32.size := by
        rw [roll_snoc] at named
        exact Nat.le_trans (length_enrol _ op) named
      obtain ⟨kept, settledThere⟩ :=
        ih (fun policy scaling member =>
          once policy scaling (List.mem_append_left _ member)) room
      have turn :=
        turn_perform (keeps_after _) (knows_after room) op (fresh_of_named named) chain
      rw [kept] at turn
      rw [after_snoc]
      refine ⟨?_, turn.settled sensible settledThere⟩
      rw [policy_perform, kept]
      rintro policy scaling rfl
      exact once policy scaling (List.mem_append_right _ List.mem_cons_self)

/-- On a settled chain, to judge the providers anew changes nobody and
announces nothing. -/
theorem reevaluate_of_settled (keeps : r.Keeps on)
    (settled : Settled (r.group chain).policy (r.members chain)) :
    (r.reevaluate chain).2 = [] ∧
      ∀ id, (r.reevaluate chain).1.providers.get? id = r.providers.get? id := by
  have same :
      ∀ p ∈ r.members chain, reevaluateOne (r.best chain) (r.group chain).policy p =
        (p, none) := by
    intro p member
    have stays := settled p member
    unfold reevaluateOne
    exact if_pos stays
  constructor
  · rw [notices_reevaluate, verdicts, List.filterMap_eq_nil_iff]
    intro p member
    exact congrArg Prod.snd (same p member)
  · intro id
    rw [get?_reevaluate keeps.keyed]
    cases found : r.providers.get? id with
    | none => rfl
    | some p =>
        rw [Option.map_some]
        split
        · rename_i listed
          obtain rfl := keeps.keyed id p found
          have member := (mem_members keeps.keyed).2 ⟨listed, found⟩
          rw [Provider.judged, same p member]
        · rfl

/-- Nobody is on the roll for a chain that nobody was registered for. -/
theorem enrolled_eq_nil (unregistered : ∀ endpoint, .register chain endpoint ∉ ops) :
    enrolled ops chain = [] := by
  induction ops using List.reverseRecOn with
  | nil => rfl
  | append_singleton ops op ih =>
      have before :=
        ih fun endpoint member => unregistered endpoint (List.mem_append_left _ member)
      unfold enrolled at before ⊢
      rw [roll_snoc]
      cases op with
      | register joins endpoint =>
          have elsewhere : joins ≠ chain := by
            rintro rfl
            exact unregistered endpoint (List.mem_append_right _ List.mem_cons_self)
          simp [enrol, List.filter_append, before, elsewhere]
      | report id outcome =>
          have noIds := told_roll (roll ops) id outcome chain
          rw [before, List.map_nil, List.map_eq_nil_iff] at noIds
          exact noIds
      | _ => exact before

theorem standing_of_mem (distinct : (ps.map (·.endpoint)).Nodup) (member : p ∈ ps) :
    standing ps p.endpoint = p.health := by
  induction ps with
  | nil => cases member
  | cons first rest ih =>
      rw [List.map_cons, List.nodup_cons] at distinct
      rw [standing_cons]
      rcases List.mem_cons.1 member with rfl | later
      · exact if_pos rfl
      · rw [if_neg, ih distinct.2 later]
        intro same
        exact distinct.1 (same ▸ List.mem_map_of_mem later)

/-- What the health of the providers of a chain is like after operations on a registry. -/
structure Stable (ops : List Operation) (chain : ChainId) (policy : HealthPolicy) :
    Prop where
  /-- The registry knows everyone who was registered for the chain. -/
  known : (after ops).Knows (enrolled ops chain)
  /-- Who is healthy has not failed too often in a row, is not known to be unsynced, and
  lags behind no provider of the chain by more than allowed. -/
  sound : ∀ e ∈ enrolled ops chain, ∀ p, (after ops).providers.get? e.id = some p →
    p.health = .healthy →
    e.streak < policy.failureThreshold ∧ p.synced ≠ some false ∧
      ∀ s ∈ (after ops).members chain, ∀ head top, p.lastHead = some head →
      s.lastHead = some top →
        top.toNat - head.toNat ≤ policy.maxHeadLag.toNat
  /-- To judge all of them once more changes nothing. -/
  settled : ((after ops).reevaluate chain).2 = [] ∧
    ∀ id, ((after ops).reevaluate chain).1.providers.get? id =
      (after ops).providers.get? id
  /-- If their endpoints are distinct, everyone was announced as degraded and healthy in
  turn, degraded first, and is as announced last. -/
  alternates : ((enrolled ops chain).map (·.endpoint)).Nodup →
    ∀ e ∈ enrolled ops chain, ∀ p, (after ops).providers.get? e.id = some p →
      (course chain e.endpoint (announced ops)).IsChain (· ≠ ·) ∧
        (∀ first ∈ (course chain e.endpoint (announced ops)).head?, first = .degraded) ∧
        p.health = (course chain e.endpoint (announced ops)).getLast?.getD .healthy

/-- A provider that the registry knows for the chain is listed there. -/
theorem Keeps.mem_members (keeps : r.Keeps on) {e : Enrolment}
    (enrolled : e ∈ on.filter (·.chain = chain))
    (found : r.providers.get? e.id = some p) : p ∈ r.members chain := by
  have sameId := keeps.keyed e.id p found
  refine (Registry.mem_members keeps.keyed).2 ⟨?_, by rw [sameId, found]⟩
  rw [keeps.members, sameId]
  exact List.mem_map_of_mem enrolled

theorem sound_of_settled (sensible : policy.Sensible)
    (settled : Settled policy (r.members chain)) {e : Enrolment} (isIt : p.Matches e)
    (member : p ∈ r.members chain) (health : p.health = .healthy) :
    e.streak < policy.failureThreshold ∧ p.synced ≠ some false ∧
      ∀ s ∈ r.members chain, ∀ head top, p.lastHead = some head → s.lastHead = some top →
        top.toNat - head.toNat ≤ policy.maxHeadLag.toNat := by
  have stays := settled p member
  rw [health] at stays
  have sound := (Provider.evaluate_of_healthy health).1 stays
  refine ⟨?_, sound.synced, ?_⟩
  · have failures := sound.failures
    have word := sensible.word
    rw [isIt.failures] at failures
    omega
  · intro s among head top reported reported'
    have highest := le_highest among reported'
    have keepsUp := sound.lags
    simp only [Provider.lags, reported, Option.any_some, decide_eq_false_iff_not,
      Nat.not_lt] at keepsUp
    omega

/-- A chain has no members before somebody is registered for it. -/
theorem members_eq_nil (unregistered : ∀ endpoint, .register chain endpoint ∉ ops) :
    (after ops).members chain = [] := by
  have ids := (keeps_after ops).ids_members chain
  rw [← enrolled, enrolled_eq_nil unregistered] at ids
  exact List.map_eq_nil_iff.1 ids

/-- On a chain that was configured before its providers were registered, health is sound
and stable after whatever operations. -/
theorem stable_after {before later : List Operation} {scaling : Bool}
    (sensible : policy.Sensible)
    (unregistered : ∀ endpoint, .register chain endpoint ∉ before)
    (once : ∀ policy scaling, .configure chain policy scaling ∉ later)
    (named : (roll (before ++ .configure chain policy scaling :: later)).length ≤
      UInt32.size) :
    Stable (before ++ .configure chain policy scaling :: later) chain policy := by
  have split : before ++ .configure chain policy scaling :: later =
      (before ++ [.configure chain policy scaling]) ++ later := by simp
  rw [split] at named ⊢
  have configured :
      ((after (before ++ [.configure chain policy scaling])).group chain).policy =
        policy := by
    rw [after_snoc, perform, configure, group_insert, if_pos rfl]
  have nobody :
      (after (before ++ [.configure chain policy scaling])).members chain = [] :=
    members_eq_nil fun endpoint member => unregistered endpoint (by simpa using member)
  have settledThere :
      Settled policy
        ((after (before ++ [.configure chain policy scaling])).members chain) := by
    rw [nobody]
    exact List.forall_mem_nil _
  obtain ⟨kept, settled⟩ :=
    settled_after later sensible once configured settledThere named
  generalize before ++ [.configure chain policy scaling] ++ later = ops at *
  have keeps := keeps_after ops
  have knows := knows_after named
  have known : (after ops).Knows (enrolled ops chain) :=
    fun e enrolled => knows e (List.mem_filter.1 enrolled).1
  have matched : ∀ e ∈ enrolled ops chain, ∀ p, (after ops).providers.get? e.id = some p →
      p.Matches e ∧ p ∈ (after ops).members chain := by
    intro e enrolled p found
    obtain ⟨q, found', isIt⟩ := known e enrolled
    rw [found] at found'
    cases found'
    exact ⟨isIt, keeps.mem_members enrolled found⟩
  refine ⟨known, ?_, ?_, ?_⟩
  · intro e enrolled p found health
    obtain ⟨isIt, member⟩ := matched e enrolled p found
    exact sound_of_settled sensible settled isIt member health
  · exact reevaluate_of_settled keeps (kept ▸ settled)
  · intro distinct e enrolled p found
    obtain ⟨isIt, member⟩ := matched e enrolled p found
    obtain ⟨alternates, last⟩ := course_announced named distinct e.endpoint
    have distinctMembers : (((after ops).members chain).map (·.endpoint)).Nodup := by
      rw [knows.endpoints_members keeps]
      exact distinct
    rw [← isIt.endpoint, standing_of_mem distinctMembers member,
      List.getLast?_cons] at last
    rw [← isIt.endpoint] at alternates ⊢
    refine ⟨alternates.tail, ?_, (Option.some.inj last).symm⟩
    intro first isFirst
    cases first with
    | healthy => exact absurd rfl ((List.isChain_cons.1 alternates).1 _ isFirst)
    | degraded => rfl

/-- Two failures in a row degrade, one success is enough to recover, and five
blocks of lag are allowed. -/
def samplePolicy : HealthPolicy :=
  { failureThreshold := 2, recoveryThreshold := 1, maxHeadLag := 5 }

/-- The second provider lags and catches up; then the first one fails twice. -/
def sampleLater : List Operation :=
  [.register ⟨1⟩ "a", .register ⟨1⟩ "b", .report (nthId 1) (.success (some 100)),
    .report (nthId 2) (.success (some 10)), .report (nthId 2) (.success (some 99)),
    .report (nthId 1) .failure, .report (nthId 1) .failure]

def sampleHistory : List Operation :=
  [.register ⟨2⟩ "c"] ++ .configure ⟨1⟩ samplePolicy false :: sampleLater

theorem stable_after_sample :
    announced sampleHistory =
      [.providerOffline ⟨1⟩ "b", .providerOnline ⟨1⟩ "b", .providerOffline ⟨1⟩ "a"] ∧
      Stable sampleHistory ⟨1⟩ samplePolicy := by
  have sensible : samplePolicy.Sensible := ⟨by decide, by decide, by decide⟩
  have named : (roll sampleHistory).length ≤ UInt32.size := by decide
  exact ⟨by decide, stable_after sensible (by simp) (by simp [sampleLater]) named⟩

end Registry

end Paywatch
