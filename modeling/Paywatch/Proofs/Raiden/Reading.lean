import Paywatch.Proofs.Matching.Bureau
import Paywatch.Proofs.Matching.Undisturbed
import Paywatch.Proofs.Raiden.ExactlyOnce

/-!
# Reading without others

A poller reads the histories of its tokens one after the other while nobody else is at
work.  What its node lists for each token, or why it fails to, and which transfers the
ledger refuses are settled beforehand.  Then nothing is left to chance:  an entry is
passed if there is nothing to record, or if its key is known or not refused, and the
first failure ends the reading.
-/

namespace Paywatch

namespace Ledger

/-- Under every recorded key there is a transfer. -/
def KeysLead (l : Ledger) : Prop :=
  ∀ key id, l.recorded.get? key = some id → ∃ t, l.transfers.get? id = some t

variable {l : Ledger}

theorem keysLead_empty : KeysLead .empty := by simp [KeysLead, empty]

theorem KeysLead.congr (lead : l.KeysLead) {after : Ledger}
    (transfers : after.transfers = l.transfers) (recorded : after.recorded = l.recorded) :
    after.KeysLead := by
  rwa [KeysLead, transfers, recorded]

/-- A write puts a transfer under every key that it records, and removes none. -/
theorem KeysLead.write (lead : l.KeysLead) (w : TransferWrite) :
    (l.writeTransfer w).KeysLead := by
  by_cases passed : l.passesOver w = true
  · rwa [writeTransfer_of_passesOver passed]
  have stored : ∀ {id}, (∃ t, l.transfers.get? id = some t) →
      ∃ t, (l.writeTransfer w).transfers.get? id = some t := by
    rintro id ⟨t, found⟩
    rw [get?_writeTransfer passed]
    split
    · exact ⟨_, rfl⟩
    · exact ⟨t, found⟩
  intro key id known
  cases w with
  | update t expected => exact stored (lead key id known)
  | insert t =>
      have effective : ¬ l.recorded.contains t.dedupeKey = true := passed
      rw [writeTransfer, if_neg effective, Table.get?_insert] at known
      split at known
      · obtain rfl := Option.some.inj known
        rw [get?_writeTransfer passed]
        exact ⟨t, if_pos rfl⟩
      · exact stored (lead key id known)

theorem KeysLead.writes (lead : l.KeysLead) (ws : List TransferWrite) :
    (ws.foldl writeTransfer l).KeysLead := by
  induction ws generalizing l with
  | nil => exact lead
  | cons w rest ih => exact ih (lead.write w)

theorem KeysLead.perform (lead : l.KeysLead) (c : Call) : (l.perform c).2.KeysLead :=
  (lead.writes (c.written l)).congr (transfers_perform l c) (recorded_perform l c)

/-- Only a key that is not recorded leads to no transfer. -/
theorem KeysLead.transferByKey_eq_none (lead : l.KeysLead) {key : String} :
    l.transferByKey key = none ↔ l.recorded.get? key = none := by
  unfold transferByKey
  cases known : l.recorded.get? key with
  | none => simp
  | some id =>
      obtain ⟨t, found⟩ := lead key id known
      simp [found]

end Ledger

namespace Bureau

/-- Whatever tasks do at a ledger, there is a transfer under every recorded key. -/
theorem keysLead_run {w : Bureau} (run : Run start w) : w.ledger.KeysLead := by
  induction run with
  | refl => exact Ledger.keysLead_empty
  | tail _ step ih =>
      cases step with
      | turn k c next reply after running permitted =>
          cases c with
          | ledger c =>
              obtain ⟨-, rfl⟩ := permitted
              exact ih.perform c
          | stamp =>
              obtain ⟨-, rfl⟩ := permitted
              exact ih
          | _ =>
              obtain rfl := permitted
              exact ih
      | aside c => exact ih.perform c
      | _ => exact ih

/-- What a poller finds that begins to work with the ledger. -/
def desk (w : Bureau) : Desk := ⟨w.ledger, w.surroundings.issued, []⟩

end Bureau

/-! ## Circumstances -/

/-- How things are for a poller:  what its node lists for a token from a place on, or
why it lists nothing, and why a transfer is refused that is recorded under a key. -/
structure Circumstances where
  feed : Address → Nat → Except FeedError (List PaymentEvent)
  refuses : String → Option LedgerError

namespace Circumstances

/-- Why these writes are refused, if they are. -/
def refusal (c : Circumstances) (writes : List TransferWrite) : Option LedgerError :=
  writes.findSome? fun w => c.refuses w.transfer.dedupeKey

theorem refusal_insert (c : Circumstances) (t : Transfer) :
    c.refusal [.insert t] = c.refuses t.dedupeKey := by
  cases refused :
      c.refuses t.dedupeKey <;> simp [refusal, TransferWrite.transfer, refused]

/-- The rule for the calls of a poller when nobody else is at work. -/
def Answers (c : Circumstances) : Answering Desk
  | s, .ledger (.commitPlan writes plan), reply, after =>
    match c.refusal writes with
    | some e => reply = .error e ∧ after = s
    | none =>
      reply = (s.ledger.perform (.commitPlan writes plan)).1 ∧
        after = { s with ledger := (s.ledger.perform (.commitPlan writes plan)).2 }
  | s, .ledger call, reply, after =>
    reply = (s.ledger.perform call).1 ∧
      after = { s with ledger := (s.ledger.perform call).2 }
  | s, .stamp, stamp, after =>
    stamp.ulid ∉ s.issued ∧ after = { s with issued := stamp.ulid :: s.issued }
  | s, .payments _ token place, reply, after =>
    reply = c.feed token place ∧ after = { s with asked := s.asked ++ [(token, place)] }
  | s, _, _, after => after = s

end Circumstances

namespace Desk

/-- A transfer is found under the key. -/
def Knows (s : Desk) (key : String) : Prop := ∃ t, s.ledger.transferByKey key = some t

/-- The ledger is as it was. -/
structure Still (s after : Desk) : Prop where
  ledger : after.ledger = s.ledger
  issued : s.issued ⊆ after.issued

/-- The ledger is in order, and no transfer settled a route whose
identifier was not given out. -/
structure Sane (s : Desk) : Prop where
  ordered : s.ledger.Ordered
  keysLead : s.ledger.KeysLead
  claimed : ∀ id, s.ledger.isClaimed id = true → id.ulid ∈ s.issued

variable {c : Circumstances} {s mid after : Desk}

theorem Still.refl (s : Desk) : Still s s := ⟨rfl, List.Subset.refl _⟩

theorem Still.trans (first : Still s mid) (second : Still mid after) : Still s after :=
  ⟨second.ledger.trans first.ledger, List.Subset.trans first.issued second.issued⟩

theorem Still.knows_iff (still : Still s after) {key : String} :
    after.Knows key ↔ s.Knows key := by
  rw [Knows, Knows, still.ledger]

theorem Sane.still (sane : s.Sane) (still : Still s after) : after.Sane := by
  obtain ⟨ordered, keysLead, claimed⟩ := sane
  exact ⟨still.ledger ▸ ordered, still.ledger ▸ keysLead,
    fun id isClaimed => still.issued (claimed id (still.ledger ▸ isClaimed))⟩

theorem Sane.not_knows_iff (sane : s.Sane) {key : String} :
    ¬ s.Knows key ↔ s.ledger.recorded.get? key = none := by
  rw [← sane.keysLead.transferByKey_eq_none, Option.eq_none_iff_forall_ne_some,
    Knows, not_exists]

theorem sane_desk {w : Bureau} (run : Bureau.Run .start w) : w.desk.Sane := by
  obtain ⟨holder, tidy⟩ := Bureau.tidy_run run
  exact ⟨tidy.orderly.ordered, Bureau.keysLead_run run, tidy.orderly.claimed⟩

/-- Questions and refused commits leave the ledger as it is. -/
theorem idle_answers (c : Circumstances) : Idle c.Answers Still where
  refl := Still.refl
  trans _ _ _ := Still.trans
  mute := by
    intro s call reply after mute answer
    cases call with
    | ledger call =>
        have same : (s.ledger.perform call).2 = s.ledger :=
          Ledger.perform_asks s.ledger mute
        cases call with
        | commitPlan writes plan => cases mute
        | _ =>
            obtain ⟨-, rfl⟩ := answer
            exact ⟨same, List.Subset.refl _⟩
    | stamp =>
        obtain ⟨-, rfl⟩ := answer
        exact ⟨rfl, List.subset_cons_self _ _⟩
    | payments url token place =>
        obtain ⟨-, rfl⟩ := answer
        exact ⟨rfl, List.Subset.refl _⟩
    | publish n => exact mute.elim
    | _ =>
        obtain rfl := answer
        exact Still.refl after
  commit := by
    rintro s batch e after ⟨refused, rfl⟩
    exact ⟨Ledger.attempt_refused refused.symm, List.Subset.refl _⟩
  commitPlan := by
    intro s writes plan e after answer
    simp only [Circumstances.Answers] at answer
    split at answer
    · obtain ⟨-, rfl⟩ := answer
      exact Still.refl after
    · obtain ⟨refused, rfl⟩ := answer
      exact ⟨Ledger.attempt_refused refused.symm, List.Subset.refl _⟩

theorem still_publish {n : Notice} {reply : Unit}
    (answer : c.Answers s (.publish n) reply after) : Still s after := by
  obtain rfl : after = s := answer
  exact Still.refl after

theorem guarantees_publishAll (c : Circumstances) (ns : List Notice) (s : Desk) :
    (Flow.publishAll ns).Guarantees c.Answers (fun _ _ => True)
      (fun _ after => Still s after) s := by
  have announces : (Flow.publishAll ns).Only fun call => ∃ n, call = .publish n :=
    Flow.only_publishAll (fun n => ⟨n, rfl⟩) ns
  refine announces.guarantees (fun _ _ _ => trivial) Still.refl (fun _ _ _ => .trans) ?_
  rintro s _ _ after ⟨n, rfl⟩ answer
  exact still_publish answer

theorem guarantees_stamp (c : Circumstances) (d : Draft) (s : Desk) :
    d.stamp.Guarantees c.Answers (fun _ _ => True)
      (fun plan after => plan.claims = d.claims ∧ Still s after) s := by
  refine Flow.guarantees_bind.2 ?_
  exact ((DepositDraft.only_record _).mute.guarantees (fun _ _ _ => trivial) Still.refl
    (fun _ _ _ => .trans) (idle_answers c).mute).imp fun _ _ still => ⟨rfl, still⟩

/-- Only the node is asked for payments. -/
theorem asked_answers {call : Call} {reply : call.Reply} (unasking : Poller.Unasking call)
    (answer : c.Answers s call reply after) : after.asked = s.asked := by
  cases call with
  | payments url token place => exact unasking.elim
  | ledger call =>
      cases call with
      | commitPlan writes plan =>
          simp only [Circumstances.Answers] at answer
          split at answer <;>
          · obtain ⟨-, rfl⟩ := answer
            rfl
      | _ =>
          obtain ⟨-, rfl⟩ := answer
          rfl
  | stamp =>
      obtain ⟨-, rfl⟩ := answer
      rfl
  | _ =>
      obtain rfl := answer
      rfl

/-- The transfer was recorded. -/
structure Gains (s : Desk) (t : Transfer) (after : Desk) : Prop where
  sane : after.Sane
  transfers : after.ledger.transfers = s.ledger.transfers.insert t.id t
  recorded : after.ledger.recorded = s.ledger.recorded.insert t.dedupeKey t.id

variable {t : Transfer}

theorem Gains.still (gains : s.Gains t mid) (still : Still mid after) : s.Gains t after :=
  ⟨gains.sane.still still, by rw [still.ledger, gains.transfers],
    by rw [still.ledger, gains.recorded]⟩

theorem Still.gains (still : Still s mid) (gains : mid.Gains t after) : s.Gains t after :=
  ⟨gains.sane, by rw [gains.transfers, still.ledger],
    by rw [gains.recorded, still.ledger]⟩

/-- What comes to be known is the key of the transfer. -/
theorem Gains.knows_iff (gains : s.Gains t after) (sane : s.Sane) {key : String} :
    after.Knows key ↔ s.Knows key ∨ key = t.dedupeKey := by
  rw [← not_iff_not, not_or, gains.sane.not_knows_iff, sane.not_knows_iff, gains.recorded,
    Table.get?_insert]
  by_cases here : t.dedupeKey = key
  · simp [here]
  · simp [here, Ne.symm here]

/-- A plan that settles nothing but a new transfer is accepted, and leaves
the ledger in order. -/
theorem Sane.gains (sane : s.Sane) {plan : Plan} (unknown : ¬ s.Knows t.dedupeKey)
    (given : t.id.ulid ∈ s.issued) (own : ∀ k ∈ plan.claims, k.transferId = t.id)
    (accepted : (s.ledger.perform (.commitPlan [.insert t] plan)).1 = .ok ()) :
    s.Gains t { s with
      ledger := (s.ledger.perform (.commitPlan [.insert t] plan)).2 } := by
  have committed := Ledger.attempt_accepted accepted
  obtain ⟨transfers, recorded⟩ :=
    Ledger.commitPlan_insert committed (sane.not_knows_iff.1 unknown)
  have noRoute : ∀ r, Ledger.Call.commitPlan [.insert t] plan = .insertRoute r →
    r.IsNew := fun _ => nofun
  refine ⟨⟨sane.ordered.perform noRoute, sane.keysLead.perform _, ?_⟩,
    transfers, recorded⟩
  intro id claimed
  rcases Ledger.isClaimed_perform noRoute claimed with old | ⟨k, settled, rfl⟩
  · exact sane.claimed id old
  · rw [Ledger.Call.settled, committed] at settled
    rw [own k settled]
    exact given

end Desk

/-! ## One payment -/

namespace MatchingRules

variable {c : Circumstances} {rules : MatchingRules} {chain : ChainId} {t : Transfer}
    {s after : Desk}

/-- A new transfer that is not refused is recorded at the first attempt. -/
theorem guarantees_settle (sane : s.Sane) (given : t.id.ulid ∈ s.issued)
    (unclaimed : s.ledger.isClaimed t.id = false) (unknown : ¬ s.Knows t.dedupeKey)
    (accepts : c.refuses t.dedupeKey = none) :
    (rules.settle chain [t] []).Guarantees c.Answers (fun _ _ => True)
      (fun result after => (∃ plan, result = .ok plan) ∧ s.Gains t after) s := by
  have once : (rules.settleOnce chain [t] []).Guarantees c.Answers (fun _ _ => True)
      (fun result after => (∃ plan, result = .done plan) ∧ s.Gains t after) s := by
    rw [settleOnce_eq]
    refine Flow.guarantees_ledger_bind.2 ⟨trivial, ?_⟩
    rintro _ _ ⟨rfl, rfl⟩
    have different : Different [t] := List.nodup_singleton t.id
    obtain ⟨draft, planned, onOpen⟩ :=
      sane.ordered.plan rules chain (MatchKey.ofTransfers [t]) different
    simp only [List.append_nil, Ledger.perform, planned]
    refine Flow.guarantees_bind.2
      ((Desk.guarantees_stamp c (draft.withoutDepositsOf []) s).imp ?_)
    rintro plan mid ⟨claims, still⟩
    replace claims : plan.claims = draft.claims := claims
    refine Attempt.guarantees_conclude
      ((Flow.guarantees_ask (c := .ledger (.commitPlan [.insert t] plan))).2
        ⟨trivial, ?_⟩)
    rw [← claims] at onOpen
    have own : ∀ k ∈ plan.claims, k.transferId = t.id := by
      intro k member
      obtain ⟨u, among, -, same⟩ := settles_of_plan planned k (claims ▸ member)
      rwa [List.mem_singleton.1 among] at same
    have accepted : (mid.ledger.perform (.commitPlan [.insert t] plan)).1 = .ok () := by
      refine Ledger.commitPlan_of_checks [t] fun k member => ?_
      rw [still.ledger]
      exact sane.ordered.checkClaim_of_onOpen (onOpen k member) (own k member ▸ unclaimed)
    have gains := (sane.still still).gains (mt still.knows_iff.1 unknown)
      (still.issued given) own accepted
    intro reply after answer
    simp only [Circumstances.Answers, c.refusal_insert t, accepts] at answer
    obtain ⟨rfl, rfl⟩ := answer
    rw [accepted]
    exact (Desk.guarantees_publishAll c plan.notices _).imp
      fun _ after quiet => ⟨⟨plan, rfl⟩, still.gains (gains.still quiet)⟩
  refine Flow.guarantees_bind.2 (once.imp ?_)
  rintro _ after ⟨⟨plan, rfl⟩, gains⟩
  exact ⟨⟨plan, rfl⟩, gains⟩

/-- A new transfer that is refused is not recorded. -/
theorem leads_settle_of_refused {e : LedgerError}
    (refuses : c.refuses t.dedupeKey = some e) {result : Except SettleError Plan}
    (leads : (rules.settle chain [t] []).Leads c.Answers s result after) :
    (∃ e, result = .error e) ∧ Desk.Still s after := by
  rcases leads_settle (Desk.idle_answers c) (fun _ _ _ _ => Desk.still_publish) leads with
    failed | ⟨plan, before, since, -, -, answer, -⟩
  · exact failed
  · simp only [List.map_cons, List.map_nil, Circumstances.Answers, c.refusal_insert t,
      refuses] at answer
    cases answer.1

end MatchingRules

namespace Payment

/-- What becomes of a payment that is offered for recording when nobody
else is at work. -/
inductive Handled (c : Circumstances) (p : Payment) (s after : Desk) :
    Except RaidenError (Option Transfer) → Prop
  /-- There is nothing to record. -/
  | nothing (zero : p.amount.isZero = true) (still : Desk.Still s after) :
    Handled c p s after (.error (.payment .zeroAmount))
  /-- Its key is known. -/
  | known (t : Transfer) (yields : p.Yields t) (knows : s.Knows t.dedupeKey)
      (still : Desk.Still s after) :
    Handled c p s after (.ok none)
  /-- Its key is unknown and not refused. -/
  | recorded (t : Transfer) (yields : p.Yields t) (accepts : c.refuses t.dedupeKey = none)
    (gains : s.Gains t after) : Handled c p s after (.ok (some t))
  /-- Its key is unknown and refused. -/
  | refused (t : Transfer) (e : SettleError) (yields : p.Yields t)
      (unknown : ¬ s.Knows t.dedupeKey)
    (refuses : c.refuses t.dedupeKey ≠ none) (still : Desk.Still s after) :
    Handled c p s after (.error (.settle e))

theorem handled_of_ingest {c : Circumstances} {rules : MatchingRules} {p : Payment}
    {s after : Desk} {result : Except RaidenError (Option Transfer)} (sane : s.Sane)
    (leads : (p.ingest rules).Leads c.Answers s result after) :
    p.Handled c s after result := by
  unfold ingest at leads
  obtain ⟨stamp, stamped, stamps, leads⟩ := Flow.leads_bind.1 leads
  obtain ⟨new, rfl⟩ := Flow.leads_ask.1 stamps
  have still : Desk.Still s { s with issued := stamp.ulid :: s.issued } :=
    ⟨rfl, List.subset_cons_self _ _⟩
  cases made : p.transfer stamp with
  | error e =>
      rw [made] at leads
      obtain ⟨rfl, rfl⟩ := leads
      obtain ⟨rfl, zero⟩ := zero_of_transfer made
      exact .nothing zero still
  | ok t =>
      rw [made] at leads
      have yields : p.Yields t := ⟨stamp, made⟩
      obtain ⟨found, there, asks, leads⟩ := Flow.leads_bind.1 leads
      obtain ⟨rfl, rfl⟩ := Flow.leads_ask.1 asks
      cases found : s.ledger.transferByKey t.dedupeKey with
      | some u =>
          simp only [Ledger.perform, found] at leads
          obtain ⟨rfl, rfl⟩ := leads
          exact .known t yields ⟨u, found⟩ still
      | none =>
          have unknown : ¬ s.Knows t.dedupeKey := by
            rintro ⟨u, known⟩
            rw [found] at known
            cases known
          simp only [Ledger.perform, found] at leads
          obtain ⟨settled, last, settles, leads⟩ := Flow.leads_bind.1 leads
          cases refuses : c.refuses t.dedupeKey with
          | some e =>
              obtain ⟨⟨e', rfl⟩, quiet⟩ :=
                MatchingRules.leads_settle_of_refused refuses settles
              obtain ⟨rfl, rfl⟩ := leads
              exact .refused t e' yields unknown (by simp [refuses]) (still.trans quiet)
          | none =>
              have ulid : t.id.ulid = stamp.ulid := by rw [(origin_of_transfer made).1]
              have given : t.id.ulid ∈ stamp.ulid :: s.issued := ulid ▸ List.mem_cons_self
              have unclaimed : s.ledger.isClaimed t.id = false :=
                Bool.eq_false_iff.2 fun claimed => new (ulid ▸ sane.claimed t.id claimed)
              obtain ⟨⟨plan, rfl⟩, gains⟩ :=
                (MatchingRules.guarantees_settle (sane.still still) given unclaimed
                  (mt still.knows_iff.1 unknown) refuses).reaches settles
              obtain ⟨rfl, rfl⟩ := leads
              exact .recorded t yields refuses (still.gains gains)

end Payment

/-! ## One history -/

namespace Poller

variable {c : Circumstances} {p q : Poller} {token : Address} {s mid after : Desk}

/-- The entry of the history of a token is a payment that is recorded under this key. -/
def Files (p : Poller) (token : Address) (e : PaymentEvent) (key : String) : Prop :=
  ∃ payment t, Payment.ofEvent p.chain p.node (.erc20 p.chain token) e =
    .ok (some payment) ∧
    payment.Yields t ∧ t.dedupeKey = key

theorem files_iff {e : PaymentEvent} {payment : Payment} {t : Transfer} {key : String}
    (read : Payment.ofEvent p.chain p.node (.erc20 p.chain token) e = .ok (some payment))
    (yields : payment.Yields t) : p.Files token e key ↔ key = t.dedupeKey := by
  constructor
  · rintro ⟨payment', t', read', yields', rfl⟩
    rw [read] at read'
    cases read'
    exact yields'.same_key yields
  · rintro rfl
    exact ⟨payment, t, read, yields, rfl⟩

/-- The entries were passed, so that now their keys are known. -/
structure Passes (c : Circumstances) (p : Poller) (token : Address)
    (events : List PaymentEvent) (s after : Desk) : Prop where
  sane : after.Sane
  knows : ∀ key, after.Knows key ↔ s.Knows key ∨ ∃ e ∈ events, p.Files token e key
  accepts : ∀ e ∈ events, ∀ key, p.Files token e key → s.Knows key ∨ c.refuses key = none

namespace Passes

variable {e : PaymentEvent} {events more : List PaymentEvent}

theorem nil (sane : s.Sane) : p.Passes c token [] s s := ⟨sane, by simp, by simp⟩

theorem append (first : p.Passes c token events s mid)
    (second : p.Passes c token more mid after) :
    p.Passes c token (events ++ more) s after where
  sane := second.sane
  knows key := by
    rw [second.knows, first.knows, or_assoc]
    simp only [List.mem_append, or_and_right, exists_or]
  accepts e member key files := by
    rcases List.mem_append.1 member with early | late
    · exact first.accepts e early key files
    · rcases second.accepts e late key files with known | accepts
      · rcases (first.knows key).1 known with old | ⟨d, among, filed⟩
        · exact Or.inl old
        · exact first.accepts d among key filed
      · exact Or.inr accepts

theorem of_later (still : Desk.Still s mid) (passes : p.Passes c token events mid after) :
    p.Passes c token events s after where
  sane := passes.sane
  knows key := by rw [passes.knows, still.knows_iff]
  accepts e member key files := by
    rw [← still.knows_iff]
    exact passes.accepts e member key files

/-- An entry is passed if its key is known, or if there is none. -/
theorem of_still (sane : s.Sane) (still : Desk.Still s after)
    (known : ∀ key, p.Files token e key → s.Knows key) :
    p.Passes c token [e] s after where
  sane := sane.still still
  knows key := by
    simp only [still.knows_iff, List.mem_singleton, exists_eq_left]
    exact ⟨Or.inl, fun knows => knows.elim id (known key)⟩
  accepts := by
    intro d member key files
    rw [List.mem_singleton.1 member] at files
    exact Or.inl (known key files)

/-- An entry that is no payment, or a payment of nothing, is passed. -/
theorem of_unpaid {outcome : Except PaymentError (Option Payment)} (sane : s.Sane)
    (read : Payment.ofEvent p.chain p.node (.erc20 p.chain token) e = outcome)
    (zero : ∀ payment, outcome = .ok (some payment) → payment.amount.isZero = true)
    (still : Desk.Still s after) : p.Passes c token [e] s after := by
  refine .of_still sane still ?_
  rintro key ⟨payment, t, read', yields, -⟩
  have none := zero payment (read.symm.trans read')
  rw [yields.not_zero] at none
  cases none

/-- An entry is passed if its payment was recorded. -/
theorem of_gains {t : Transfer} (sane : s.Sane) (gains : s.Gains t after)
    (accepts : c.refuses t.dedupeKey = none)
    (files : ∀ key, p.Files token e key ↔ key = t.dedupeKey) :
    p.Passes c token [e] s after where
  sane := gains.sane
  knows key := by
    simp only [gains.knows_iff sane, List.mem_singleton, exists_eq_left, files]
  accepts := by
    intro d member key filed
    rw [List.mem_singleton.1 member, files] at filed
    exact Or.inr (filed ▸ accepts)

end Passes

/-- The entries are passed one by one, up to the first whose key is
unknown and refused. -/
theorem passes_of_ingestEach (sane : s.Sane) {done recorded : Nat}
    {events : List PaymentEvent} {result : Except (Nat × RaidenError) Nat}
    (leads : (p.ingestEach token done recorded events).Leads c.Answers s result after) :
    (∃ total, result = .ok total ∧ p.Passes c token events s after) ∨
      ∃ k e key err, events[k]? = some e ∧ result = .error (done + k, .settle err) ∧
        p.Passes c token (events.take k) s after ∧ p.Files token e key ∧
          ¬ after.Knows key ∧
        c.refuses key ≠ none := by
  induction events generalizing done recorded s with
  | nil =>
      obtain ⟨rfl, rfl⟩ := leads
      exact Or.inl ⟨recorded, rfl, .nil sane⟩
  | cons e rest ih =>
      -- What the rest of the entries comes to, once this one is passed.
      have goOn : ∀ {recorded mid}, p.Passes c token [e] s mid →
          (p.ingestEach token (done + 1) recorded rest).Leads c.Answers mid result after →
          (∃ total, result = .ok total ∧ p.Passes c token (e :: rest) s after) ∨
          ∃ k d key err, (e :: rest)[k]? = some d ∧
          result = .error (done + k, .settle err) ∧
            p.Passes c token ((e :: rest).take k) s after ∧ p.Files token d key ∧
            ¬ after.Knows key ∧
            c.refuses key ≠ none := by
        intro recorded mid first leads
        rcases ih first.sane leads with
          ⟨total, rfl, passes⟩ | ⟨k, d, key, err, found, rfl, passes, last⟩
        · exact Or.inl ⟨total, rfl, first.append passes⟩
        · refine Or.inr ⟨k + 1, d, key, err, found, ?_, first.append passes, last⟩
          rw [show done + 1 + k = done + (k + 1) by omega]
      rw [ingestEach] at leads
      split at leads
      · rename_i err read
        exact goOn (.of_unpaid sane read (by simp) (.refl s)) leads
      · rename_i read
        exact goOn (.of_unpaid sane read (by simp) (.refl s)) leads
      · rename_i payment read
        obtain ⟨outcome, mid, ingests, leads⟩ := Flow.leads_bind.1 leads
        cases Payment.handled_of_ingest sane ingests with
        | nothing zero still =>
            refine goOn (.of_unpaid sane read ?_ still) leads
            intro payment' same
            cases same
            exact zero
        | known t yields knows still =>
            refine goOn (.of_still sane still fun key files => ?_) leads
            rwa [(files_iff read yields).1 files]
        | recorded t yields accepts gains =>
            exact goOn (.of_gains sane gains accepts fun key => files_iff read yields)
              leads
        | refused t err yields unknown refuses still =>
            obtain ⟨rfl, rfl⟩ := leads
            refine Or.inr ⟨0, e, t.dedupeKey, err, rfl, rfl, ?_,
              (files_iff read yields).2 rfl, ?_, refuses⟩
            · exact .of_later still (.nil (sane.still still))
            · rwa [still.knows_iff]

/-! ## All histories -/

/-- What one token comes to:  its entries are passed, or the reading ends with a failure
of the feed or of a settlement. -/
inductive Visit (c : Circumstances) (p : Poller) (s : Desk) (token : Address) :
    Option RaidenError → Poller → Desk → Prop
  | passed (events : List PaymentEvent) (after : Desk)
      (fed : c.feed token (p.offset token) = .ok events)
    (passes : p.Passes c token events s after)
    (asked : after.asked = s.asked ++ [(token, p.offset token)]) :
    Visit c p s token none (p.movedTo token (p.offset token + events.length)) after
  | unfed (e : FeedError) (after : Desk) (fed : c.feed token (p.offset token) = .error e)
    (still : Desk.Still s after)
    (asked : after.asked = s.asked ++ [(token, p.offset token)]) :
    Visit c p s token (some (.feed e)) p after
  | refused (events : List PaymentEvent) (k : Nat) (e : PaymentEvent) (key : String)
    (err : SettleError) (after : Desk) (fed : c.feed token (p.offset token) = .ok events)
    (entry : events[k]? = some e)
    (passes : p.Passes c token (events.take k) s after) (files : p.Files token e key)
    (unknown : ¬ after.Knows key) (refuses : c.refuses key ≠ none)
    (asked : after.asked = s.asked ++ [(token, p.offset token)]) :
    Visit c p s token (some (.settle err)) (p.movedTo token (p.offset token + k)) after

/-- A reading goes from token to token, until one fails. -/
inductive Reading (c : Circumstances) :
    Poller → Desk → List Address → Poller → Except RaidenError Nat →
    Desk → Prop
  | finished (p : Poller) (s : Desk) (total : Nat) : Reading c p s [] p (.ok total) s
  | past {p mid q : Poller} {s there after : Desk} {token : Address} {rest : List Address}
    {result : Except RaidenError Nat} (visit : p.Visit c s token none mid there)
    (reading : Reading c mid there rest q result after) :
    Reading c p s (token :: rest) q result after
  | broken {p q : Poller} {s after : Desk} {token : Address} {rest : List Address}
      {e : RaidenError}
    (visit : p.Visit c s token (some e) q after) :
    Reading c p s (token :: rest) q (.error e) after

theorem reading_of_pollTokens (sane : s.Sane) {tokens : List Address} {recorded : Nat}
    {result : Except RaidenError Nat}
    (leads : (p.pollTokens recorded tokens).Leads c.Answers s (q, result) after) :
    Reading c p s tokens q result after := by
  induction tokens generalizing p recorded s with
  | nil =>
      obtain ⟨same, rfl⟩ := leads
      cases same
      exact .finished q after recorded
  | cons token rest ih =>
      rw [pollTokens] at leads
      obtain ⟨reply, there, asks, leads⟩ := Flow.leads_bind.1 leads
      obtain ⟨fed, rfl⟩ := Flow.leads_ask.1 asks
      cases reply with
      | error e =>
          obtain ⟨same, rfl⟩ := leads
          cases same
          exact .broken (.unfed e _ fed.symm ⟨rfl, List.Subset.refl _⟩ rfl)
      | ok events =>
          obtain ⟨outcome, last, ingests, leads⟩ := Flow.leads_bind.1 leads
          have asked := (only_ingestEach _ _ _ _ _).kept Desk.asked
            (fun _ _ _ _ => Desk.asked_answers) ingests
          have asking :
              Desk.Still s { s with asked := s.asked ++ [(token, p.offset token)] } :=
            ⟨rfl, List.Subset.refl _⟩
          rcases passes_of_ingestEach (sane.still asking) ingests with
            ⟨total, rfl, passes⟩ | ⟨k, e, key, err, entry, rfl, passes, files,
              unknown, refuses⟩
          · exact .past (.passed events last fed.symm (.of_later asking passes) asked)
              (ih passes.sane leads)
          · obtain ⟨same, rfl⟩ := leads
            cases same
            rw [Nat.zero_add]
            exact .broken
              (.refused events k e key err _ fed.symm entry (.of_later asking passes)
                files unknown
              refuses asked)

end Poller

end Paywatch
