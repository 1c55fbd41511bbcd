import Paywatch.Proofs.Ingest.Proposal
import Paywatch.Proofs.Raiden.Channels
import Paywatch.Raiden.Poller

/-!
# Recording one payment

A poller works beside others who use the ledger, on a node that gives its history piece
by piece or fails to, and with commits that may be refused for any reason.  What others
do leaves the transfers through channels alone.  A payment that is offered for
recording is then recorded once:  unless it was before, one commit stores its transfer,
and a failure stores nothing.
-/

namespace Paywatch

/-- A Raiden node and all the payments that it will have listed for each token. -/
structure Histories where
  chain : ChainId
  node : Address
  entries : Address → List PaymentEvent

namespace Histories

/-- The entry at this place of the history of a token is a payment, and not of nothing. -/
def Pays (h : Histories) (token : Address) (place : Nat) (p : Payment) : Prop :=
  ∃ e, (h.entries token)[place]? = some e ∧
    Payment.ofEvent h.chain h.node (.erc20 h.chain token) e = .ok (some p) ∧
    p.amount.isZero = false

/-- Payments at different places, whatever their tokens, are recorded
under different keys. -/
def Distinct (h : Histories) : Prop :=
  ∀ token place p t token' place' p' t', h.Pays token place p → p.Yields t →
    h.Pays token' place' p' → p'.Yields t' → t.dedupeKey = t'.dedupeKey →
    token = token' ∧ place = place'

theorem Pays.unique {h : Histories} {token : Address} {place : Nat} {p p' : Payment}
    (pays : h.Pays token place p) (pays' : h.Pays token place p') : p = p' := by
  obtain ⟨e, found, read, -⟩ := pays
  obtain ⟨e', found', read', -⟩ := pays'
  rw [found] at found'
  cases found'
  rw [read] at read'
  exact Option.some.inj (Except.ok.inj read')

end Histories

/-- What a poller works with. -/
structure Desk where
  ledger : Ledger
  /-- The identifiers that were given out. -/
  issued : List Ulid
  /-- The places in its histories that the node was asked for, the last one last. -/
  asked : List (Address × Nat)

namespace Desk

/-- The rule for the calls of a poller alone.  The ledger may refuse a plan for any
reason, and stays as it was then.  The node fails, or gives what it has told so far of a
history, from the place on that it was asked for. -/
def Permits (h : Histories) (s : Desk) : (c : Call) → c.Reply → Desk → Prop
  | .ledger (.commitPlan writes plan), reply, after =>
    (reply = (s.ledger.perform (.commitPlan writes plan)).1 ∧
      after = { s with ledger := (s.ledger.perform (.commitPlan writes plan)).2 }) ∨
    (∃ e, reply = .error e) ∧ after = s
  | .ledger c, reply, after =>
    reply = (s.ledger.perform c).1 ∧ after = { s with ledger := (s.ledger.perform c).2 }
  | .stamp, stamp, after =>
    stamp.ulid ∉ s.issued ∧ after = { s with issued := stamp.ulid :: s.issued }
  | .payments _ token place, reply, after =>
    (∀ events, reply = .ok events →
      ∃ told, events = ((h.entries token).take told).drop place) ∧
      after = { s with asked := s.asked ++ [(token, place)] }
  | _, _, after => after = s

/-- What others do beside the poller:  they are given identifiers, and make calls that
write no transfers through channels. -/
inductive Others : Desk → Desk → Prop
  | stamp (s : Desk) (ulid : Ulid) : Others s { s with issued := ulid :: s.issued }
  | call (s : Desk) (c : Ledger.Call)
    (spares : ∀ w ∈ c.written s.ledger, s.ledger.SparesChannels w) :
    Others s { s with ledger := (s.ledger.perform c).2 }
  | wait (s : Desk) (nanos : Nat) :
    Others s { s with ledger := { s.ledger with now := s.ledger.now + nanos } }

/-- The rule for the calls of a poller among others, who may do anything
of theirs before each. -/
def Shared (h : Histories) : Answering Desk := fun s c reply after =>
  ∃ before, Relation.ReflTransGen Others s before ∧ before.Permits h c reply after

/-- The transfers through channels are as they were. -/
structure Calm (s after : Desk) : Prop where
  channels : Ledger.SameChannels s.ledger after.ledger
  issued : s.issued ⊆ after.issued

variable {h : Histories} {s mid after : Desk}

theorem Calm.refl (s : Desk) : Calm s s := ⟨.refl _, List.Subset.refl _⟩

theorem Calm.trans (first : Calm s mid) (second : Calm mid after) : Calm s after :=
  ⟨first.channels.trans second.channels, List.Subset.trans first.issued second.issued⟩

theorem Others.calm (others : Others s after) : Calm s after := by
  cases others with
  | stamp ulid => exact ⟨.refl _, List.subset_cons_self _ _⟩
  | call c spares => exact ⟨Ledger.sameChannels_perform spares, List.Subset.refl _⟩
  | wait nanos => exact ⟨.of_eq rfl rfl, List.Subset.refl _⟩

theorem calm_of_others (others : Relation.ReflTransGen Others s after) :
    Calm s after := by
  induction others with
  | refl => exact Calm.refl s
  | tail _ step ih => exact ih.trans step.calm

/-- A call to the ledger that changes nothing there. -/
theorem calm_of_same {c : Ledger.Call} (same : (s.ledger.perform c).2 = s.ledger) :
    Calm s { s with ledger := (s.ledger.perform c).2 } :=
  ⟨.of_eq (by rw [same]) (by rw [same]), List.Subset.refl _⟩

theorem Permits.calm {c : Call} {reply : c.Reply} (mute : c.Mute)
    (permits : s.Permits h c reply after) : Calm s after := by
  cases c with
  | ledger c =>
      have same : (s.ledger.perform c).2 = s.ledger := Ledger.perform_asks s.ledger mute
      cases c with
      | commitPlan writes plan => cases mute
      | _ =>
          obtain ⟨-, rfl⟩ := permits
          exact calm_of_same same
  | stamp =>
      obtain ⟨-, rfl⟩ := permits
      exact ⟨.refl _, List.subset_cons_self _ _⟩
  | payments url token place =>
      obtain ⟨-, rfl⟩ := permits
      exact ⟨.refl _, List.Subset.refl _⟩
  | publish n => exact mute.elim
  | _ =>
      obtain rfl := permits
      exact Calm.refl after

theorem Permits.calm_of_refused {writes : List TransferWrite} {plan : Plan}
    {e : LedgerError}
    (permits : s.Permits h (.ledger (.commitPlan writes plan)) (.error e) after) :
    Calm s after := by
  rcases permits with ⟨refused, rfl⟩ | ⟨-, rfl⟩
  · exact calm_of_same (Ledger.attempt_refused refused.symm)
  · exact Calm.refl after

/-- Others and refused plans leave the transfers through channels alone,
and so do questions. -/
theorem idle_shared (h : Histories) : Idle (Shared h) Calm where
  refl := Calm.refl
  trans _ _ _ := Calm.trans
  mute := by
    rintro s c reply after mute ⟨before, others, permits⟩
    exact (calm_of_others others).trans (permits.calm mute)
  commit := by
    rintro s batch e after ⟨before, others, refused, rfl⟩
    exact (calm_of_others others).trans
      (calm_of_same (Ledger.attempt_refused refused.symm))
  commitPlan := by
    rintro s writes plan e after ⟨before, others, permits⟩
    exact (calm_of_others others).trans permits.calm_of_refused

theorem calm_publish {n : Notice} {reply : Unit}
    (answer : Shared h s (.publish n) reply after) : Calm s after := by
  obtain ⟨before, others, rfl⟩ := answer
  exact calm_of_others others

end Desk

/-! ## Recording -/

namespace Payment

/-- What becomes of a payment that is offered for recording. -/
inductive Offered (p : Payment) (s after : Desk) :
    Except RaidenError (Option Transfer) → Prop
  /-- There is nothing to record. -/
  | nothing (zero : p.amount.isZero = true) (calm : Desk.Calm s after) :
    Offered p s after (.error (.payment .zeroAmount))
  /-- A transfer is found under its key. -/
  | known (t u : Transfer) (there : Desk) (yields : p.Yields t)
    (first : Desk.Calm s there) (found : there.ledger.transferByKey t.dedupeKey = some u)
    (last : Desk.Calm there after) :
    Offered p s after (.ok none)
  /-- No transfer is found under its key, and its transfer, whose identifier
  is new, is committed. -/
  | recorded (t : Transfer) (fresh there before since : Desk) (plan : Plan)
    (yields : p.Yields t) (start : Desk.Calm s fresh) (new : t.id.ulid ∉ fresh.issued)
    (stamped : Desk.Calm fresh there) (given : t.id.ulid ∈ there.issued)
    (none : there.ledger.transferByKey t.dedupeKey = none)
    (waits : Desk.Calm there before)
    (accepted : before.ledger.commitPlan [.insert t] plan = .ok since.ledger)
    (issued : since.issued = before.issued) (last : Desk.Calm since after) :
    Offered p s after (.ok (some t))
  /-- No transfer is found under its key, and no commit is accepted. -/
  | failed (t : Transfer) (there : Desk) (e : SettleError) (yields : p.Yields t)
    (first : Desk.Calm s there) (none : there.ledger.transferByKey t.dedupeKey = none)
    (last : Desk.Calm there after) : Offered p s after (.error (.settle e))

theorem zero_of_transfer {p : Payment} {stamp : Stamp} {e : PaymentError}
    (failed : p.transfer stamp = .error e) :
    e = .zeroAmount ∧ p.amount.isZero = true := by
  unfold transfer at failed
  split at failed
  · cases failed
    exact ⟨rfl, ‹_›⟩
  · split at failed <;> cases failed

theorem leads_ingest {h : Histories} {rules : MatchingRules} {p : Payment}
    {s after : Desk} {result : Except RaidenError (Option Transfer)}
    (leads : (p.ingest rules).Leads (Desk.Shared h) s result after) :
    p.Offered s after result := by
  unfold ingest at leads
  obtain ⟨stamp, s₁, stamps, leads⟩ := Flow.leads_bind.1 leads
  obtain ⟨fresh, others, new, rfl⟩ := Flow.leads_ask.1 stamps
  have start := Desk.calm_of_others others
  have stamped : Desk.Calm fresh { fresh with issued := stamp.ulid :: fresh.issued } :=
    ⟨.refl _, List.subset_cons_self _ _⟩
  cases made : p.transfer stamp with
  | error e =>
      rw [made] at leads
      obtain ⟨rfl, rfl⟩ := leads
      obtain ⟨rfl, zero⟩ := zero_of_transfer made
      exact .nothing zero (start.trans stamped)
  | ok t =>
      rw [made] at leads
      obtain ⟨found, there, asks, leads⟩ := Flow.leads_bind.1 leads
      obtain ⟨asking, others, rfl, rfl⟩ := Flow.leads_ask.1 asks
      have asked := stamped.trans (Desk.calm_of_others others)
      have yields : p.Yields t := ⟨stamp, made⟩
      have given : t.id.ulid ∈ asking.issued := by
        rw [(origin_of_transfer made).1]
        exact (Desk.calm_of_others others).issued List.mem_cons_self
      cases found : asking.ledger.transferByKey t.dedupeKey with
      | some u =>
          simp only [Ledger.perform, found] at leads
          obtain ⟨rfl, rfl⟩ := leads
          exact .known t u asking yields (start.trans asked) found (.refl _)
      | none =>
          simp only [Ledger.perform, found] at leads
          obtain ⟨settled, last, settles, leads⟩ := Flow.leads_bind.1 leads
          rcases MatchingRules.leads_settle (Desk.idle_shared h)
            (fun _ _ _ _ => Desk.calm_publish) settles
            with ⟨⟨e, rfl⟩, calm⟩ | ⟨plan, before, since, rfl, waits, answer, announced⟩
          · obtain ⟨rfl, rfl⟩ := leads
            exact .failed t asking e yields (start.trans asked) found calm
          · obtain ⟨rfl, rfl⟩ := leads
            obtain ⟨committing, others, permits⟩ := answer
            rcases permits with ⟨accepted, rfl⟩ | ⟨⟨e, refused⟩, -⟩
            · have unissued : t.id.ulid ∉ fresh.issued := by
                rw [(origin_of_transfer made).1]
                exact new
              exact .recorded t fresh asking committing
                { committing with
                  ledger := (committing.ledger.perform (.commitPlan [.insert t] plan)).2 }
                plan yields start unissued asked given found
                (waits.trans (Desk.calm_of_others others))
                  (Ledger.attempt_accepted accepted.symm) rfl
                announced
            · cases refused

end Payment

end Paywatch
