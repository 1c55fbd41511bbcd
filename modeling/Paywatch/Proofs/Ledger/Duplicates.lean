import Paywatch.Proofs.Raiden.Recording
import Paywatch.Proofs.Transfer.Movements

/-!
# Transfers that are recorded already

A new transfer is passed over if its dedupe key is recorded, and a payment is not
settled if a transfer is found under its key.  Whatever was done with the ledger
before, the key was recorded for a transfer that was new then.  As far as dedupe keys
tell, that one is the same movement:  no transfer is lost for another one that
differs in what the keys hold.
-/

namespace Paywatch

namespace Ledger

/-- The transfer that is recorded as new when a write has its turn. -/
def enters (l : Ledger) : TransferWrite → List Transfer
  | .insert t => if l.recorded.contains t.dedupeKey then [] else [t]
  | .update .. => []

/-- The transfers of some writes that are recorded as new, each when its turn comes. -/
def entered (l : Ledger) : List TransferWrite → List Transfer
  | [] => []
  | w :: rest => l.enters w ++ (l.writeTransfer w).entered rest

/-- Every key is recorded for one of these transfers. -/
def Known (ts : List Transfer) (l : Ledger) : Prop :=
  ∀ key id, l.recorded.get? key = some id → ∃ t ∈ ts, t.dedupeKey = key

variable {ts : List Transfer} {l : Ledger}

theorem Known.congr (known : Known ts l) {after : Ledger}
    (recorded : after.recorded = l.recorded) : Known ts after := by
  unfold Known
  rw [recorded]
  exact known

theorem Known.write (known : Known ts l) (w : TransferWrite) :
    Known (ts ++ l.enters w) (l.writeTransfer w) := by
  intro key id found
  have before : l.recorded.get? key = some id →
    ∃ t ∈ ts ++ l.enters w, t.dedupeKey = key := by
    intro there
    obtain ⟨t, member, sameKey⟩ := known key id there
    exact ⟨t, List.mem_append_left _ member, sameKey⟩
  cases w with
  | update t expected => exact before found
  | insert t =>
      rw [writeTransfer] at found
      split at found
      · exact before found
      · rename_i unknown
        rw [Table.get?_insert] at found
        split at found
        · rename_i here
          have new : t ∈ l.enters (.insert t) := by simp [enters, unknown]
          exact ⟨t, List.mem_append_right _ new, here⟩
        · exact before found

theorem Known.writes (known : Known ts l) (ws : List TransferWrite) :
    Known (ts ++ l.entered ws) (ws.foldl writeTransfer l) := by
  induction ws generalizing ts l with
  | nil => simpa [entered] using known
  | cons w rest ih =>
      rw [entered, ← List.append_assoc, List.foldl_cons]
      exact ih (known.write w)

theorem Known.perform (known : Known ts l) (c : Call) :
    Known (ts ++ l.entered (c.written l)) (l.perform c).2 :=
  (known.writes (c.written l)).congr (recorded_perform l c)

end Ledger

/-- A ledger, and all transfers that were ever recorded in it as new. -/
structure Archive where
  ledger : Ledger
  entered : List Transfer

namespace Archive

open Ledger (Known)

def start : Archive := ⟨.empty, []⟩

def perform (a : Archive) (c : Ledger.Call) : Archive :=
  ⟨(a.ledger.perform c).2, a.entered ++ a.ledger.entered (c.written a.ledger)⟩

/-- Anyone calls the ledger in any way, or time goes on. -/
inductive Step : Archive → Archive → Prop
  | call (a : Archive) (c : Ledger.Call) : Step a (a.perform c)
  | wait (a : Archive) (ticks : Nat) : Step a { a with ledger := a.ledger.wait ticks }

abbrev Run := Relation.ReflTransGen Step

/-- The rule for one who works with the ledger among others:  anything may be done
before each of its calls, its calls to the ledger are answered there, and all else
is answered in any way. -/
def Shared : Answering Archive := fun a c reply after =>
  ∃ before, Run a before ∧
    match c, reply with
    | .ledger c, reply => reply = (before.ledger.perform c).1 ∧ after = before.perform c
    | _, _ => after = before

variable {a b after : Archive}

theorem known_step (known : Known a.entered a.ledger) (step : Step a b) :
    Known b.entered b.ledger := by
  cases step with
  | call c => exact known.perform c
  | wait ticks => exact known.congr rfl

theorem known_run (known : Known a.entered a.ledger) (run : Run a b) :
    Known b.entered b.ledger := by
  induction run with
  | refl => exact known
  | tail _ step ih => exact known_step ih step

theorem known_start : Known start.entered start.ledger := by
  rintro key id ⟨⟩

/-- A payment that is said to be recorded before:  its transfer has the
key of one that was. -/
theorem known_of_ingest {rules : MatchingRules} {p : Payment}
    (known : Known a.entered a.ledger)
    (leads : (p.ingest rules).Leads Shared a (.ok none) after) :
    ∃ t, p.Yields t ∧ ∃ u ∈ after.entered, u.dedupeKey = t.dedupeKey := by
  unfold Payment.ingest at leads
  obtain ⟨stamp, stamped, stamps, leads⟩ := Flow.leads_bind.1 leads
  obtain ⟨before, others, rfl⟩ := Flow.leads_ask.1 stamps
  have known := known_run known others
  cases made : p.transfer stamp with
  | error e =>
      rw [made] at leads
      cases leads.1
  | ok t =>
      rw [made] at leads
      obtain ⟨found, asked, asks, leads⟩ := Flow.leads_bind.1 leads
      obtain ⟨asking, others, rfl, rfl⟩ := Flow.leads_ask.1 asks
      have known := known_run known others
      cases found : asking.ledger.transferByKey t.dedupeKey with
      | none =>
          simp only [Ledger.perform, found] at leads
          obtain ⟨settled, last, -, leads⟩ := Flow.leads_bind.1 leads
          cases settled <;> cases leads.1
      | some u =>
          simp only [Ledger.perform, found] at leads
          obtain ⟨-, rfl⟩ := leads
          obtain ⟨id, recorded, -⟩ := Option.bind_eq_some_iff.1 found
          obtain ⟨v, member, sameKey⟩ := known _ id recorded
          exact ⟨t, ⟨stamp, made⟩, v, List.mem_append_left _ member, sameKey⟩

/-- Dedupe keys tell movements apart, but for payments through channels that differ in
chain, token or below the millisecond alone:  those are one movement in full only if they
agree in these as well.  Only the same movement is passed over as recorded.  In any
ledger, whatever was done with it, a new transfer that is passed over when its turn comes
had been recorded before, or by an earlier write of its batch;  and a payment that is said
to be recorded had been, whatever others do meanwhile. -/
theorem passed_over_as_same_movement {a : Archive} (run : Run start a) :
    (∀ t u : Transfer, t.Plain →
      (t.dedupeKey = u.dedupeKey ↔ t.SameMovement u) ∧
        (t.dedupeKey = u.dedupeKey → (t.OneMovement u ↔ t.AgreeBeyondKeys u))) ∧
    (∀ (before : List TransferWrite) (t : Transfer), t.Plain →
      (before.foldl Ledger.writeTransfer a.ledger).passesOver (.insert t) = true →
        ∃ u ∈ a.entered ++ a.ledger.entered before, t.SameMovement u) ∧
    (∀ (after : Archive) (rules : MatchingRules) (p : Payment),
      (p.ingest rules).Leads Shared a (.ok none) after →
        ∃ t, p.Yields t ∧ ∃ u ∈ after.entered, t.SameMovement u) := by
  refine ⟨?_, ?_, ?_⟩
  · intro t u plain
    exact ⟨Transfer.dedupeKey_eq_iff plain,
      fun same => (Transfer.sameMovement_of_dedupeKey plain same).oneMovement_iff⟩
  · intro before t plain passed
    obtain ⟨id, recorded⟩ :=
      Option.isSome_iff_exists.1 (show (Table.get? _ _).isSome = true from passed)
    obtain ⟨u, member, sameKey⟩ :=
      (known_run known_start run).writes before t.dedupeKey id recorded
    exact ⟨u, member, Transfer.sameMovement_of_dedupeKey plain sameKey.symm⟩
  · intro after rules p leads
    obtain ⟨t, yields, u, member, sameKey⟩ :=
      known_of_ingest (known_run known_start run) leads
    obtain ⟨o, channel⟩ := yields.isChannel
    have plain : t.Plain := fun o' onChain => by rw [channel] at onChain; cases onChain
    exact ⟨t, yields, u, member, Transfer.sameMovement_of_dedupeKey plain sameKey.symm⟩

/-- Where a transfer is found under the key of a payment, the payment is
said to be recorded. -/
theorem leads_ingest_of_found {rules : MatchingRules} {p : Payment} {stamp : Stamp}
    {t u : Transfer} (made : p.transfer stamp = .ok t)
    (found : a.ledger.transferByKey t.dedupeKey = some u) :
    (p.ingest rules).Leads Shared a (.ok none)
      (a.perform (.transferByKey t.dedupeKey)) := by
  refine Flow.leads_bind.2 ⟨stamp, a, Flow.leads_ask.2 ⟨a, .refl, rfl⟩, ?_⟩
  rw [made]
  refine Flow.leads_bind.2 ⟨some u, _, Flow.leads_ask.2 ⟨a, .refl, found.symm, rfl⟩, ?_⟩
  exact ⟨rfl, rfl⟩

/-- A payment of sixty units that one node reports with one identifier and at one time. -/
def samplePayment (chain : ChainId) (token : Token) : Payment :=
  ⟨chain, .zero, token, 7, ⟨60, by decide⟩, .zero, .received, default⟩

/-- The transfer of a payment that was given this number. -/
def sampleTransfer (p : Payment) (n : Nat) : Transfer :=
  .ofChannel ⟨.make 0 n, default⟩ p.origin p.token p.partner p.node p.amount

def coins : Payment := samplePayment ⟨1⟩ (.native ⟨1⟩)

def tokens : Payment := samplePayment ⟨2⟩ (.erc20 ⟨2⟩ .zero)

/-- The payment in coins was recorded. -/
def paid : Archive :=
  start.perform (.commitPlan [.insert (sampleTransfer coins 1)] ⟨[], []⟩)

theorem run_paid : Run start paid := .single (.call start _)

theorem found_paid :
    paid.ledger.transferByKey (sampleTransfer tokens 2).dedupeKey =
      some (sampleTransfer coins 1) := by
  decide +kernel

theorem passed_over_as_same_movement_sample :
    Run start paid ∧
      (sampleTransfer tokens 2).SameMovement (sampleTransfer coins 1) ∧
      (∃ u ∈ paid.entered ++ paid.ledger.entered [],
        (sampleTransfer tokens 2).SameMovement u) ∧
      ∃ t, tokens.Yields t ∧
        ∃ u ∈ (paid.perform (.transferByKey (sampleTransfer tokens 2).dedupeKey)).entered,
        t.SameMovement u := by
  obtain ⟨keys, writes, ingests⟩ := passed_over_as_same_movement run_paid
  have plain : (sampleTransfer tokens 2).Plain := nofun
  refine ⟨run_paid, (keys _ _ plain).1.1 (by decide +kernel), ?_, ?_⟩
  · exact writes [] _ plain (by decide +kernel)
  · exact ingests _ {} tokens
      (leads_ingest_of_found (t := sampleTransfer tokens 2) rfl found_paid)

/-- Payments of different tokens on different chains may have one key.  Then the one
that comes later is said to be recorded, and is not. -/
theorem payment_may_be_lost_to_other :
    ∃ t u, coins.Yields t ∧ tokens.Yields u ∧ t.dedupeKey = u.dedupeKey ∧
      ¬ t.OneMovement u ∧ coins.chain ≠ tokens.chain ∧ coins.token ≠ tokens.token ∧
      Run start paid ∧ paid.entered = [t] ∧
        ∃ after, (tokens.ingest {}).Leads Shared paid (.ok none) after := by
  have apart : ¬ (sampleTransfer coins 1).OneMovement (sampleTransfer tokens 2) :=
    fun one => absurd one.1 (by decide)
  exact ⟨sampleTransfer coins 1, sampleTransfer tokens 2, ⟨_, rfl⟩, ⟨_, rfl⟩,
    by decide +kernel, apart, by decide, by decide, run_paid, by decide +kernel, _,
    leads_ingest_of_found rfl found_paid⟩

end Archive

end Paywatch
