import Paywatch.Proofs.Raiden.Recording

/-!
# Every payment is recorded exactly once

Whatever fails on the way, and however often a poller begins anew:  the transfers
through channels that are stored are those of the payments that it is done with, one of
each.  A poller that loses its place finds the payments again and passes over them,
because their keys are recorded, and one that cannot settle a payment comes back to it.
-/

namespace Paywatch

namespace Histories

/-- So many entries of each history are done with, for one token at least `place`. -/
def upto (reached : Address → Nat) (token : Address) (place : Nat) : Address → Nat :=
  fun a =>
  if a = token then max (reached a) place else reached a

theorem lt_upto_succ {reached : Address → Nat} {token a : Address} {n place : Nat} :
    n < upto reached token (place + 1) a ↔ n < upto reached token place a ∨
      a = token ∧ n = place ∧
      reached a ≤ place := by
  unfold upto
  split
  · simp only [*, true_and]
    omega
  · simp [*]

/-- The transfers through channels are those of the payments that are done with. -/
structure Kept (h : Histories) (reached : Address → Nat) (s : Desk) : Prop where
  issued : ∀ id t, s.ledger.transfers.get? id = some t → t.IsChannel → id.ulid ∈ s.issued
  known : ∀ (t : Transfer) id, t.IsChannel →
    s.ledger.recorded.get? t.dedupeKey = some id →
    ∃ u, s.ledger.transfers.get? id = some u ∧ u.dedupeKey = t.dedupeKey
  keyed : ∀ id t, s.ledger.transfers.get? id = some t → t.IsChannel →
    s.ledger.recorded.get? t.dedupeKey = some id
  paid : ∀ id t, s.ledger.transfers.get? id = some t → t.IsChannel →
    ∃ token place p, place < reached token ∧ h.Pays token place p ∧ p.Yields t
  stored : ∀ token place p, place < reached token → h.Pays token place p →
    ∃ id t, s.ledger.transfers.get? id = some t ∧ p.Yields t

namespace Kept

variable {h : Histories} {reached : Address → Nat} {s after : Desk} {token : Address}
    {place : Nat}
variable {p : Payment} {t u : Transfer}

theorem calm (kept : h.Kept reached s) (calm : Desk.Calm s after) :
    h.Kept reached after where
  issued id t found channel :=
    calm.issued
      (kept.issued id t ((calm.channels.transfers id t channel).1 found) channel)
  known t id channel recorded := by
    rw [calm.channels.recorded t channel] at recorded
    obtain ⟨u, found, same⟩ := kept.known t id channel recorded
    exact ⟨u, (calm.channels.transfers id u (channel.of_key same)).2 found, same⟩
  keyed id t found channel := by
    rw [calm.channels.recorded t channel]
    exact kept.keyed id t ((calm.channels.transfers id t channel).1 found) channel
  paid id t found channel :=
    kept.paid id t ((calm.channels.transfers id t channel).1 found) channel
  stored token place p done pays := by
    obtain ⟨id, t, found, yields⟩ := kept.stored token place p done pays
    exact ⟨id, t, (calm.channels.transfers id t yields.isChannel).2 found, yields⟩

/-- A transfer through a channel is found under its key, or the key is not recorded. -/
theorem transferByKey_eq (kept : h.Kept reached s) (channel : t.IsChannel) :
    (s.ledger.transferByKey t.dedupeKey = none ∧
      s.ledger.recorded.get? t.dedupeKey = none) ∨
      ∃ id u, s.ledger.transferByKey t.dedupeKey = some u ∧
        s.ledger.transfers.get? id = some u ∧ u.dedupeKey = t.dedupeKey := by
  unfold Ledger.transferByKey
  cases recorded : s.ledger.recorded.get? t.dedupeKey with
  | none => exact Or.inl ⟨rfl, rfl⟩
  | some id =>
      obtain ⟨u, found, same⟩ := kept.known t id channel recorded
      exact Or.inr ⟨id, u, found, found, same⟩

/-- A payment whose key leads to no transfer is not stored. -/
theorem unpaid (kept : h.Kept reached s) (yields : p.Yields t)
    (none : s.ledger.transferByKey t.dedupeKey = none) :
    ∀ id u, s.ledger.transfers.get? id = some u → ¬ p.Yields u := by
  intro id u found again
  have recorded := kept.keyed id u found again.isChannel
  rw [again.same_key yields] at recorded
  rw [Ledger.transferByKey, recorded, Option.bind_some, found] at none
  cases none

/-- One entry more is done with if it is no payment, or its transfer is stored. -/
theorem next (kept : h.Kept (upto reached token place) s)
    (done : ∀ p, h.Pays token place p → ∃ id t, s.ledger.transfers.get? id = some t ∧
      p.Yields t) :
    h.Kept (upto reached token (place + 1)) s where
  issued := kept.issued
  known := kept.known
  keyed := kept.keyed
  paid id t found channel := by
    obtain ⟨a, n, p, below, pays⟩ := kept.paid id t found channel
    exact ⟨a, n, p, lt_upto_succ.2 (Or.inl below), pays⟩
  stored a n p below pays := by
    rcases lt_upto_succ.1 below with below | ⟨rfl, rfl, -⟩
    · exact kept.stored a n p below pays
    · exact done p pays

/-- A payment whose key is recorded is stored. -/
theorem of_known (kept : h.Kept reached s) (distinct : h.Distinct)
    (pays : h.Pays token place p) (yields : p.Yields t)
    (found : s.ledger.transferByKey t.dedupeKey = some u) :
    ∃ id t, s.ledger.transfers.get? id = some t ∧ p.Yields t := by
  rcases kept.transferByKey_eq yields.isChannel with
    ⟨none, -⟩ | ⟨id, u', found', there, same⟩
  · rw [none] at found
    cases found
  · obtain ⟨a, n, p', -, pays', yields'⟩ :=
      kept.paid id u' there (yields.isChannel.of_key same)
    obtain ⟨rfl, rfl⟩ := distinct _ _ _ _ _ _ _ _ pays yields pays' yields' same.symm
    exact ⟨id, u', there, pays.unique pays' ▸ yields'⟩

/-- A payment whose transfer is accepted is stored. -/
theorem insert (kept : h.Kept (upto reached token place) s) (pays : h.Pays token place p)
    (yields : p.Yields t) (unknown : s.ledger.recorded.get? t.dedupeKey = none)
    (free : ∀ u, s.ledger.transfers.get? t.id = some u → ¬ u.IsChannel)
    (given : t.id.ulid ∈ s.issued) (issued : after.issued = s.issued)
    (transfers : after.ledger.transfers = s.ledger.transfers.insert t.id t)
    (recorded : after.ledger.recorded = s.ledger.recorded.insert t.dedupeKey t.id) :
    h.Kept (upto reached token (place + 1)) after := by
  have transfer : ∀ {id u}, after.ledger.transfers.get? id = some u →
      (id = t.id ∧ u = t) ∨ s.ledger.transfers.get? id = some u := by
    intro id u found
    rw [transfers, Table.get?_insert] at found
    split at found
    · rename_i here
      exact Or.inl ⟨here.symm, (Option.some.inj found).symm⟩
    · exact Or.inr found
  have there : ∀ {id u}, u.IsChannel → s.ledger.transfers.get? id = some u →
      after.ledger.transfers.get? id = some u := by
    intro id u channel found
    rw [transfers, Table.get?_insert, if_neg]
    · exact found
    · rintro rfl
      exact free u found channel
  have here : after.ledger.transfers.get? t.id = some t := by
    rw [transfers, Table.get?_insert, if_pos rfl]
  constructor
  case issued =>
    intro id u found channel
    rw [issued]
    rcases transfer found with ⟨rfl, rfl⟩ | found
    · exact given
    · exact kept.issued id u found channel
  case known =>
    intro u id channel known
    rw [recorded, Table.get?_insert] at known
    split at known
    · rename_i same
      cases known
      exact ⟨t, here, same⟩
    · obtain ⟨v, found, same⟩ := kept.known u id channel known
      exact ⟨v, there (channel.of_key same) found, same⟩
  case keyed =>
    intro id u found channel
    rw [recorded, Table.get?_insert]
    rcases transfer found with ⟨rfl, rfl⟩ | found
    · exact if_pos rfl
    · have known := kept.keyed id u found channel
      rw [if_neg]
      · exact known
      · intro same
        rw [← same, unknown] at known
        cases known
  case paid =>
    intro id u found channel
    rcases transfer found with ⟨rfl, rfl⟩ | found
    · by_cases done : place < upto reached token place token
      · exact ⟨token, place, p, lt_upto_succ.2 (Or.inl done), pays, yields⟩
      · refine ⟨token, place, p, lt_upto_succ.2 (Or.inr ⟨rfl, rfl, ?_⟩), pays, yields⟩
        simp only [upto, if_true] at done
        omega
    · obtain ⟨a, n, p', below, pays'⟩ := kept.paid id u found channel
      exact ⟨a, n, p', lt_upto_succ.2 (Or.inl below), pays'⟩
  case stored =>
    intro a n p' below pays'
    rcases lt_upto_succ.1 below with below | ⟨rfl, rfl, -⟩
    · obtain ⟨id, u, found, yields'⟩ := kept.stored a n p' below pays'
      exact ⟨id, u, there yields'.isChannel found, yields'⟩
    · exact ⟨t.id, t, here, pays.unique pays' ▸ yields⟩

/-- A payment that was offered without a failure is done with. -/
theorem offered (kept : h.Kept (upto reached token place) s) (distinct : h.Distinct)
    (pays : h.Pays token place p) {result : Option Transfer}
    (offered : p.Offered s after (.ok result)) :
    h.Kept (upto reached token (place + 1)) after := by
  cases offered with
  | known t u there yields first found last =>
      refine Kept.calm ?_ last
      have kept := kept.calm first
      refine kept.next fun p' pays' => ?_
      obtain rfl := pays.unique pays'
      exact kept.of_known distinct pays yields found
  | recorded t fresh there before since plan yields start new stamped given none waits
      accepted issued last =>
      have kept := kept.calm start
      have free : ∀ u, fresh.ledger.transfers.get? t.id = some u → ¬ u.IsChannel :=
        fun u found channel => new (kept.issued t.id u found channel)
      have kept := kept.calm stamped
      have unknown : there.ledger.recorded.get? t.dedupeKey = .none := by
        rcases kept.transferByKey_eq yields.isChannel with
          ⟨-, unknown⟩ | ⟨id, u, found, -⟩
        · exact unknown
        · rw [none] at found
          cases found
      rw [← waits.channels.recorded t yields.isChannel] at unknown
      obtain ⟨transfers, recorded⟩ := Ledger.commitPlan_insert accepted unknown
      refine Kept.calm ?_ last
      exact (kept.calm waits).insert pays yields unknown
        (waits.channels.none_at (stamped.channels.none_at free))
          (waits.issued given) issued transfers
        recorded

end Kept

/-- The payment at this place could not be settled:  that was tried last, and
nothing of it is stored. -/
def FailsAt (h : Histories) (rules : MatchingRules) (token : Address) (place : Nat)
    (e : SettleError) (after : Desk) : Prop :=
  ∃ p s, h.Pays token place p ∧
    (p.ingest rules).Leads (Desk.Shared h) s (.error (.settle e)) after ∧
    ∀ id t, after.ledger.transfers.get? id = some t → ¬ p.Yields t

end Histories

namespace Poller

variable {h : Histories} {p q : Poller} {reached : Address → Nat} {s after : Desk}

/-- The poller reads the histories. -/
def Reads (p : Poller) (h : Histories) : Prop := p.chain = h.chain ∧ p.node = h.node

/-- Entries are taken one by one.  Either all of them are done with, or those before one
that could not be settled. -/
theorem leads_ingestEach (reads : p.Reads h) (distinct : h.Distinct) {token : Address}
    {start done recorded : Nat} {events : List PaymentEvent}
    {result : Except (Nat × RaidenError) Nat}
    (slice : ∀ k e, events[k]? = some e → (h.entries token)[start + done + k]? = some e)
    (kept : h.Kept (Histories.upto reached token (start + done)) s)
    (leads : (p.ingestEach token done recorded events).Leads (Desk.Shared h) s
      result after) :
    (∃ total, result = .ok total ∧
        h.Kept (Histories.upto reached token (start + done + events.length)) after) ∨
      ∃ k e, result = .error (done + k, .settle e) ∧ k < events.length ∧
        h.Kept (Histories.upto reached token (start + done + k)) after ∧
        h.FailsAt p.rules token (start + done + k) e after := by
  obtain ⟨chain, node⟩ := reads
  induction events generalizing done recorded s with
  | nil =>
      obtain ⟨rfl, rfl⟩ := leads
      exact Or.inl ⟨recorded, rfl, kept⟩
  | cons e rest ih =>
      have entry : (h.entries token)[start + done]? = some e := slice 0 e rfl
      have tail : ∀ k d, rest[k]? = some d → (h.entries token)[start + (done + 1) + k]? =
        some d := by
        intro k d found
        rw [show start + (done + 1) + k = start + done + (k + 1) by omega]
        exact slice (k + 1) d found
      -- What the rest of the entries comes to, once this one is done with.
      have goOn :
          ∀ {recorded mid}, h.Kept (Histories.upto reached token (start + done + 1)) mid →
          (p.ingestEach token (done + 1) recorded rest).Leads (Desk.Shared h) mid
            result after →
          (∃ total, result = .ok total ∧
            h.Kept (Histories.upto reached token (start + done + (e :: rest).length))
              after) ∨
          ∃ k e', result = .error (done + k, .settle e') ∧ k < (e :: rest).length ∧
            h.Kept (Histories.upto reached token (start + done + k)) after ∧
            h.FailsAt p.rules token (start + done + k) e' after := by
        intro recorded mid kept leads
        rcases ih tail kept leads with
          ⟨total, rfl, kept⟩ | ⟨k, e', rfl, inside, kept, fails⟩
        · refine Or.inl ⟨total, rfl, ?_⟩
          have next :
              start + done + (rest.length + 1) = start + (done + 1) + rest.length := by
            omega
          rwa [List.length_cons, next]
        · refine Or.inr ⟨k + 1, e', ?_, ?_, ?_⟩
          · rw [show done + 1 + k = done + (k + 1) by omega]
          · rw [List.length_cons]
            omega
          · rw [show start + done + (k + 1) = start + (done + 1) + k by omega]
            exact ⟨kept, fails⟩
      have pass : (∀ p, ¬ h.Pays token (start + done) p) →
          h.Kept (Histories.upto reached token (start + done + 1)) s :=
        fun none => kept.next fun p pays => absurd pays (none p)
      have unlike :
          ∀ {outcome}, Payment.ofEvent p.chain p.node (.erc20 p.chain token) e = outcome →
          (∀ payment, outcome = .ok (some payment) → payment.amount.isZero = true) →
          ∀ p, ¬ h.Pays token (start + done) p := by
        rintro outcome read zero payment ⟨d, found, reads, some⟩
        rw [entry] at found
        cases found
        rw [← chain, ← node, read] at reads
        rw [zero payment reads] at some
        cases some
      rw [ingestEach] at leads
      split at leads
      · rename_i err read
        exact goOn (pass (unlike read fun _ => nofun)) leads
      · rename_i read
        exact goOn (pass (unlike read fun _ => nofun)) leads
      · rename_i payment read
        obtain ⟨outcome, mid, ingests, leads⟩ := Flow.leads_bind.1 leads
        have offered := Payment.leads_ingest ingests
        have pays : ∀ {t}, payment.Yields t → h.Pays token (start + done) payment := by
          intro t yields
          rw [chain, node] at read
          exact ⟨e, entry, read, yields.not_zero⟩
        cases offered with
        | nothing zero calm =>
            refine goOn ((pass (unlike read ?_)).calm calm) leads
            intro payment' same
            cases same
            exact zero
        | known t u there yields first found last =>
            exact goOn (kept.offered distinct (pays yields)
              (.known t u there yields first found last)) leads
        | recorded t fresh there before since plan yields start new stamped given
            none waits accepted issued last =>
            exact goOn (kept.offered distinct (pays yields)
              (.recorded t fresh there before since plan yields start new stamped
                given none waits accepted issued last)) leads
        | failed t there err yields first none last =>
            obtain ⟨rfl, rfl⟩ := leads
            have kept := kept.calm first
            refine Or.inr ⟨0, err, rfl, Nat.succ_pos _, kept.calm last, payment, s,
              pays yields, ingests, ?_⟩
            intro id u found again
            exact kept.unpaid yields none id u
              ((last.channels.transfers id u again.isChannel).1 found) again

/-! ## A whole reading -/

/-- The poller at another place in the history of a token. -/
def movedTo (p : Poller) (token : Address) (place : Nat) : Poller :=
  { p with offsets := p.offsets.insert token place }

theorem offset_movedTo (p : Poller) (token a : Address) (place : Nat) :
    (p.movedTo token place).offset a = if a = token then place else p.offset a := by
  unfold movedTo offset
  rw [Table.get?_insert]
  by_cases here : token = a
  · rw [if_pos here, if_pos here.symm]
    rfl
  · rw [if_neg here, if_neg (Ne.symm here)]

/-- A poller that moves on in one history moves back in none. -/
theorem offset_le_movedTo {token : Address} {place : Nat}
    (onward : p.offset token ≤ place) (a : Address) :
    p.offset a ≤ (p.movedTo token place).offset a := by
  rw [offset_movedTo]
  split
  · rename_i here
    exact here ▸ onward
  · exact Nat.le_refl _

/-- A poller is not ahead of what was reached. -/
theorem reached_now (below : ∀ a, p.offset a ≤ reached a) :
    (fun a => max (reached a) (p.offset a)) = reached := by
  funext a
  exact Nat.max_eq_left (below a)

theorem reached_movedTo (below : ∀ a, p.offset a ≤ reached a) (token : Address)
    (place : Nat) :
    (fun a => max (reached a) ((p.movedTo token place).offset a))
      = Histories.upto reached token place := by
  funext a
  rw [offset_movedTo]
  unfold Histories.upto
  split
  · rfl
  · exact Nat.max_eq_left (below a)

/-- What a reading leaves:  the payments before the places that it came to are done
with, and a settlement fails at the place where the next reading of its token begins. -/
structure Polled (h : Histories) (reached : Address → Nat) (p : Poller)
    (tokens : List Address) (q : Poller) (result : Except RaidenError Nat)
    (after : Desk) : Prop where
  same : q = { p with offsets := q.offsets }
  onward : ∀ a, p.offset a ≤ q.offset a
  kept : h.Kept (fun a => max (reached a) (q.offset a)) after
  fails : ∀ e, result = .error (.settle e) →
    ∃ token ∈ tokens, h.FailsAt p.rules token (q.offset token) e after

theorem leads_pollTokens (reads : p.Reads h) (distinct : h.Distinct)
    {tokens : List Address} {recorded : Nat} {result : Except RaidenError Nat}
    (kept : h.Kept reached s) (below : ∀ a, p.offset a ≤ reached a)
    (leads : (p.pollTokens recorded tokens).Leads (Desk.Shared h) s (q, result) after) :
    Polled h reached p tokens q result after := by
  induction tokens generalizing p recorded reached s with
  | nil =>
      obtain ⟨same, rfl⟩ := leads
      cases same
      exact ⟨rfl, fun _ => Nat.le_refl _, (reached_now below).symm ▸ kept, nofun⟩
  | cons token rest ih =>
      rw [pollTokens] at leads
      obtain ⟨fed, mid, asks, leads⟩ := Flow.leads_bind.1 leads
      have kept :=
        kept.calm ((Desk.idle_shared h).mute _
          (.payments p.url token (p.offset token)) _ _ trivial (Flow.leads_ask.1 asks))
      obtain ⟨before, -, told, -⟩ := Flow.leads_ask.1 asks
      cases fed with
      | error e =>
          obtain ⟨same, rfl⟩ := leads
          cases same
          exact ⟨rfl, fun _ => Nat.le_refl _, (reached_now below).symm ▸ kept, nofun⟩
      | ok events =>
          obtain ⟨count, rfl⟩ := told events rfl
          have slice :
              ∀ k e, (((h.entries token).take count).drop (p.offset token))[k]? = some e →
              (h.entries token)[p.offset token + 0 + k]? = some e := by
            intro k e found
            rw [List.getElem?_drop, List.getElem?_take] at found
            split at found
            · exact found
            · cases found
          have start : Histories.upto reached token (p.offset token + 0) = reached := by
            funext a
            unfold Histories.upto
            split
            · rename_i here
              exact Nat.max_eq_left (here ▸ below a)
            · rfl
          obtain ⟨outcome, last, ingests, leads⟩ := Flow.leads_bind.1 leads
          rcases leads_ingestEach reads distinct slice (start.symm ▸ kept) ingests with
            ⟨total, rfl, kept⟩ | ⟨k, e, rfl, inside, kept, fails⟩
          · -- The other tokens are read by a poller whose place for this one is moved.
            rw [Nat.add_zero, ← reached_movedTo below] at kept
            have polled :=
              ih (p := p.movedTo token _) reads kept (fun a => Nat.le_max_right _ _) leads
            refine ⟨polled.same, fun a => ?_, ?_, fun e failed => ?_⟩
            · exact Nat.le_trans (offset_le_movedTo (Nat.le_add_right _ _) a)
                (polled.onward a)
            · have kept := polled.kept
              simp only [Nat.max_assoc, Nat.max_eq_right (polled.onward _)] at kept
              exact kept
            · obtain ⟨other, among, fails⟩ := polled.fails e failed
              exact ⟨other, List.mem_cons_of_mem _ among, fails⟩
          · obtain ⟨same, rfl⟩ := leads
            cases same
            rw [Nat.add_zero] at kept fails
            rw [Nat.zero_add]
            refine ⟨rfl, offset_le_movedTo (Nat.le_add_right _ _), ?_, fun e' same => ?_⟩
            · exact reached_movedTo below token _ ▸ kept
            · cases same
              refine ⟨token, List.mem_cons_self, ?_⟩
              have here := offset_movedTo p token token (p.offset token + k)
              rw [if_pos rfl] at here
              exact here.symm ▸ fails

/-! ## Where a node is asked to begin -/

/-- A call that does not ask a node for payments. -/
def Unasking : Call → Prop
  | .payments .. => False
  | _ => True

theorem only_ingest (rules : MatchingRules) (payment : Payment) :
    (payment.ingest rules).Only Unasking := by
  have once :
      ∀ new stored, (rules.settleOnce payment.chain new stored).Only Unasking := by
    intro new stored
    rw [MatchingRules.settleOnce_eq]
    refine Flow.only_bind (Flow.only_ask.2 trivial) fun ctx => ?_
    split
    · exact Flow.only_pure _
    · refine Flow.only_bind (Draft.only_stamps trivial _) fun plan => ?_
      refine Flow.only_bind (Flow.only_ask.2 trivial) fun reply => ?_
      split
      · exact Flow.only_bind (Flow.only_publishAll (fun _ => trivial) _) fun _ =>
          Flow.only_pure _
      · exact Flow.only_pure _
  have tries : ∀ n new stored, (Attempt.upTo (.conflict Attempt.limit)
      (rules.settleOnce payment.chain new stored) n).Only Unasking := by
    intro n new stored
    induction n with
    | zero => exact Flow.only_pure _
    | succ n ih =>
        refine Flow.only_bind (once new stored) fun outcome => ?_
        cases outcome with
        | done plan => exact Flow.only_pure _
        | failed e => exact Flow.only_pure _
        | conflict => exact ih
  refine Flow.only_bind (Flow.only_ask.2 trivial) fun stamp => ?_
  split
  · exact Flow.only_pure _
  · refine Flow.only_bind (Flow.only_ask.2 trivial) fun found => ?_
    split
    · exact Flow.only_pure _
    · refine Flow.only_bind (tries _ _ _) fun settled => ?_
      split <;> exact Flow.only_pure _

theorem only_ingestEach (p : Poller) (token : Address) (done recorded : Nat)
    (events : List PaymentEvent) :
    (p.ingestEach token done recorded events).Only Unasking := by
  induction events generalizing done recorded with
  | nil => exact Flow.only_pure _
  | cons e rest ih =>
      rw [ingestEach]
      split
      · exact ih _ _
      · exact ih _ _
      · refine Flow.only_bind (only_ingest _ _) fun outcome => ?_
        split
        · exact ih _ _
        · exact ih _ _
        · exact ih _ _
        · exact Flow.only_pure _

end Poller

namespace Desk

theorem asked_of_others {s after : Desk} (others : Relation.ReflTransGen Others s after) :
    after.asked = s.asked := by
  induction others with
  | refl => rfl
  | tail _ step ih => cases step <;> exact ih

theorem asked_shared {h : Histories} {s after : Desk} {c : Call} {reply : c.Reply}
    (unasking : Poller.Unasking c) (answer : Shared h s c reply after) :
    after.asked = s.asked := by
  obtain ⟨before, others, permits⟩ := answer
  rw [← asked_of_others others]
  cases c with
  | payments url token place => exact unasking.elim
  | ledger c =>
      cases c with
      | commitPlan writes plan =>
          rcases permits with ⟨-, rfl⟩ | ⟨-, rfl⟩ <;> rfl
      | _ =>
          obtain ⟨-, rfl⟩ := permits
          rfl
  | stamp =>
      obtain ⟨-, rfl⟩ := permits
      rfl
  | _ =>
      obtain rfl := permits
      rfl

end Desk

namespace Poller

variable {h : Histories} {p q : Poller} {s after : Desk}

/-- The node is asked for the payments of a token where `p` stands first; a token that
it is not asked for keeps its place. -/
def Resumes (p q : Poller) (s after : Desk) : Prop :=
  ∃ new, after.asked = s.asked ++ new ∧ ∀ token,
    (new.find? (·.1 == token) = none ∧ q.offset token = p.offset token) ∨
      new.find? (·.1 == token) = some (token, p.offset token)

theorem Resumes.refl (p : Poller) (s : Desk) : Resumes p p s s :=
  ⟨[], (List.append_nil _).symm, fun _ => Or.inl ⟨rfl, rfl⟩⟩

theorem Resumes.trans {r : Poller} {mid : Desk} (first : Resumes p q s mid)
    (second : Resumes q r mid after) : Resumes p r s after := by
  obtain ⟨new, asked, places⟩ := first
  obtain ⟨newer, asked', places'⟩ := second
  refine ⟨new ++ newer, by rw [asked', asked, List.append_assoc], fun token => ?_⟩
  rw [List.find?_append]
  rcases places token with ⟨none, same⟩ | here
  · rw [none, Option.none_or, ← same]
    exact places' token
  · rw [here, Option.some_or]
    exact Or.inr rfl

theorem resumes_pollTokens {tokens : List Address} {recorded : Nat}
    {result : Except RaidenError Nat}
    (leads : (p.pollTokens recorded tokens).Leads (Desk.Shared h) s (q, result) after) :
    Resumes p q s after := by
  induction tokens generalizing p recorded s with
  | nil =>
      obtain ⟨same, rfl⟩ := leads
      cases same
      exact .refl q after
  | cons token rest ih =>
      rw [pollTokens] at leads
      obtain ⟨fed, mid, asks, leads⟩ := Flow.leads_bind.1 leads
      obtain ⟨before, others, -, rfl⟩ := Flow.leads_ask.1 asks
      have asked := Desk.asked_of_others others
      -- Of the tokens only this one is asked for, and only its place may change.
      have first :
          ∀ {place last}, last.asked = before.asked ++ [(token, p.offset token)] →
          Resumes p (p.movedTo token place) s last := by
        intro place last same
        refine ⟨[(token, p.offset token)], by rw [same, asked], fun a => ?_⟩
        by_cases here : token = a
        · subst here
          exact Or.inr (by simp)
        · refine Or.inl ⟨by simp [here], ?_⟩
          rw [offset_movedTo, if_neg (Ne.symm here)]
      cases fed with
      | error e =>
          obtain ⟨same, rfl⟩ := leads
          cases same
          refine ⟨[(token, q.offset token)], by rw [asked], fun a => ?_⟩
          by_cases here : token = a
          · subst here
            exact Or.inr (by simp)
          · exact Or.inl ⟨by simp [here], rfl⟩
      | ok events =>
          obtain ⟨outcome, last, ingests, leads⟩ := Flow.leads_bind.1 leads
          have kept := (only_ingestEach _ _ _ _ _).kept Desk.asked
            (fun _ _ _ _ => Desk.asked_shared) ingests
          cases outcome with
          | ok total => exact (first kept).trans (ih leads)
          | error failure =>
              obtain ⟨same, rfl⟩ := leads
              cases same
              exact first kept

end Poller

/-! ## Runs -/

/-- A poller at work, and how far it ever came in each history. -/
structure Shift where
  poller : Poller
  desk : Desk
  reached : Address → Nat

namespace Shift

/-- The poller reads what is new, or others do something in between. -/
inductive Works (h : Histories) : Shift → Shift → Prop
  | poll (w : Shift) (q : Poller) (result : Except RaidenError Nat) (after : Desk)
    (leads : w.poller.poll.Leads (Desk.Shared h) w.desk (q, result) after) :
    Works h w ⟨q, after, fun a => max (w.reached a) (q.offset a)⟩
  | others (w : Shift) (after : Desk) (others : Desk.Others w.desk after) :
    Works h w { w with desk := after }

/-- Besides, a poller may be replaced by one of the same node that has
lost all its places. -/
inductive Step (h : Histories) : Shift → Shift → Prop
  | works (w v : Shift) (works : Works h w v) : Step h w v
  | restart (w : Shift) (q : Poller) (reads : q.Reads h) (lost : q.offsets = .empty) :
    Step h w { w with poller := q }

/-- A poller that has read nothing begins with an empty ledger. -/
def start (p : Poller) (issued : List Ulid) : Shift :=
  ⟨p, ⟨.empty, issued, []⟩, fun _ => 0⟩

/-- What holds between the readings. -/
structure Orderly (h : Histories) (w : Shift) : Prop where
  reads : w.poller.Reads h
  below : ∀ a, w.poller.offset a ≤ w.reached a
  kept : h.Kept w.reached w.desk

variable {h : Histories} {w v : Shift}

theorem offset_of_lost {q : Poller} (lost : q.offsets = .empty) (a : Address) :
    q.offset a = 0 := by
  rw [Poller.offset, lost]
  rfl

theorem orderly_start {p : Poller} (reads : p.Reads h) (lost : p.offsets = .empty)
    (issued : List Ulid) : (start p issued).Orderly h where
  reads := reads
  below a := Nat.le_of_eq (offset_of_lost lost a)
  kept := ⟨fun _ _ => nofun, fun _ _ _ => nofun, fun _ _ => nofun, fun _ _ => nofun,
    fun _ _ _ below => absurd below (Nat.not_lt_zero _)⟩

theorem Orderly.polled (orderly : w.Orderly h) (distinct : h.Distinct) {q : Poller}
    {result : Except RaidenError Nat} {after : Desk}
    (leads : w.poller.poll.Leads (Desk.Shared h) w.desk (q, result) after) :
    Poller.Polled h w.reached w.poller w.poller.tokens q result after :=
  Poller.leads_pollTokens orderly.reads distinct orderly.kept orderly.below leads

theorem Orderly.step (orderly : w.Orderly h) (distinct : h.Distinct) (step : Step h w v) :
    v.Orderly h := by
  cases step with
  | restart q reads lost =>
      exact ⟨reads,
        fun a => by rw [offset_of_lost lost]; exact Nat.zero_le _, orderly.kept⟩
  | works _ works =>
      cases works with
      | others after others =>
          exact ⟨orderly.reads, orderly.below, orderly.kept.calm others.calm⟩
      | poll q result after leads =>
          have polled := orderly.polled distinct leads
          have reads : q.Reads h := by
            rw [polled.same]
            exact orderly.reads
          exact ⟨reads, fun a => Nat.le_max_right _ _, polled.kept⟩

theorem Orderly.run (orderly : w.Orderly h) (distinct : h.Distinct)
    (run : Relation.ReflTransGen (Step h) w v) : v.Orderly h := by
  induction run with
  | refl => exact orderly
  | tail _ step ih => exact ih.step distinct step

/-- Until a poller is replaced, it comes back to its places. -/
theorem resumes_run (run : Relation.ReflTransGen (Works h) w v) :
    Poller.Resumes w.poller v.poller w.desk v.desk := by
  induction run with
  | refl => exact .refl _ _
  | tail _ step ih =>
      cases step with
      | poll q result after leads => exact ih.trans (Poller.resumes_pollTokens leads)
      | others after others =>
          refine ih.trans ⟨[], ?_, fun _ => Or.inl ⟨rfl, rfl⟩⟩
          rw [List.append_nil]
          exact Desk.asked_of_others (.single others)

end Shift

/-- Of the payments before the places reached there is one transfer each, and every
transfer through a channel is that of one of them. -/
structure Ledger.OnePerPayment (l : Ledger) (h : Histories) (reached : Address → Nat) :
    Prop where
  one : ∀ token place p, place < reached token → h.Pays token place p →
    ∃! id, ∃ t, l.transfers.get? id = some t ∧ p.Yields t
  only : ∀ id t, l.transfers.get? id = some t → t.IsChannel →
    ∃! entry : Address × Nat, entry.2 < reached entry.1 ∧
    ∃ p, h.Pays entry.1 entry.2 p ∧ p.Yields t

theorem Histories.Kept.onePerPayment {h : Histories} {reached : Address → Nat} {s : Desk}
    (kept : h.Kept reached s) (distinct : h.Distinct) :
    s.ledger.OnePerPayment h reached where
  one token place p done pays := by
    obtain ⟨id, t, found, yields⟩ := kept.stored token place p done pays
    refine ⟨id, ⟨t, found, yields⟩, ?_⟩
    rintro id' ⟨t', found', yields'⟩
    have here := kept.keyed id t found yields.isChannel
    have there := kept.keyed id' t' found' yields'.isChannel
    rw [yields.same_key yields', there] at here
    exact Option.some.inj here
  only id t found channel := by
    obtain ⟨token, place, p, done, pays, yields⟩ := kept.paid id t found channel
    refine ⟨(token, place), ⟨done, p, pays, yields⟩, ?_⟩
    rintro ⟨token', place'⟩ ⟨-, p', pays', yields'⟩
    obtain ⟨rfl, rfl⟩ := distinct _ _ _ _ _ _ _ _ pays yields pays' yields' rfl
    rfl

/-- However often feeds fail, commits are refused and pollers begin anew, and
whatever others do:  after each reading the stored transfers through channels are
one of each payment that is done with, all payments before the places of the poller
are stored, and if a payment cannot be settled, the next reading of its token that
there is begins with it. -/
theorem payments_recorded_once {h : Histories} (distinct : h.Distinct) {p : Poller}
    (reads : p.Reads h) (lost : p.offsets = .empty) {issued : List Ulid} {w : Shift}
    (run : Relation.ReflTransGen (Shift.Step h) (.start p issued) w) :
    w.desk.ledger.OnePerPayment h w.reached ∧
      (∀ token place payment, place < w.poller.offset token → h.Pays token place payment →
        ∃ id t, w.desk.ledger.transfers.get? id = some t ∧ payment.Yields t) ∧
      ∀ q e after, w.poller.poll.Leads (Desk.Shared h) w.desk
        (q, .error (.settle e)) after →
        ∃ token ∈ w.poller.tokens, h.FailsAt w.poller.rules token
          (q.offset token) e after ∧
          ∀ v, Relation.ReflTransGen (Shift.Works h)
              ⟨q, after, fun a => max (w.reached a) (q.offset a)⟩ v →
            ∃ new, v.desk.asked = after.asked ++ new ∧
              ∀ entry, new.find? (·.1 == token) = some entry →
                entry = (token, q.offset token) := by
  have orderly := (Shift.orderly_start reads lost issued).run distinct run
  refine ⟨orderly.kept.onePerPayment distinct, ?_, ?_⟩
  · intro token place payment before pays
    exact orderly.kept.stored token place payment
      (Nat.lt_of_lt_of_le before (orderly.below token)) pays
  · intro q e after leads
    obtain ⟨token, among, fails⟩ := (orderly.polled distinct leads).fails e rfl
    refine ⟨token, among, fails, fun v later => ?_⟩
    obtain ⟨new, asked, places⟩ := Shift.resumes_run later
    refine ⟨new, asked, fun entry found => ?_⟩
    rcases places token with ⟨none, -⟩ | here
    · rw [none] at found
      cases found
    · rw [here] at found
      exact (Option.some.inj found).symm

/-! ## A poller to try -/

namespace Desk

/-- Answers a call of a poller:  the node gives all that it has, and plans
are refused or not. -/
def perform (h : Histories) (refuses : Bool) : (c : Call) → Desk → c.Reply × Desk
  | .ledger (.commitPlan writes plan), s =>
    if refuses then (.error (.corrupt "refused"), s)
    else
      ((s.ledger.perform (.commitPlan writes plan)).1,
        { s with ledger := (s.ledger.perform (.commitPlan writes plan)).2 })
  | .ledger c, s => ((s.ledger.perform c).1, { s with ledger := (s.ledger.perform c).2 })
  | .stamp, s =>
    (⟨.ofNat s.issued.length, default⟩, { s with
      issued := .ofNat s.issued.length :: s.issued })
  | .payments _ token place, s =>
    (.ok ((h.entries token).drop place), { s with asked := s.asked ++ [(token, place)] })
  | c, s => ((Surroundings.perform ⟨[]⟩ ⟨[]⟩ c ⟨s.ledger, s.issued⟩).1, s)

/-- An identifier that is asked for is new. -/
def keepsPromise (s : Desk) : Call → Bool
  | .stamp => !s.issued.contains (.ofNat s.issued.length)
  | _ => true

theorem shared_perform {h : Histories} {refuses : Bool} (s : Desk) (c : Call)
    (promise : s.keepsPromise c = true) :
    Shared h s c (perform h refuses c s).1 (perform h refuses c s).2 := by
  refine ⟨s, .refl, ?_⟩
  cases c with
  | stamp =>
      refine ⟨fun member => ?_, rfl⟩
      have known := List.contains_iff_mem.2 member
      simp only [keepsPromise, perform, Bool.not_eq_true'] at promise known
      rw [known] at promise
      cases promise
  | payments url token place =>
      refine ⟨fun events same => ⟨(h.entries token).length, ?_⟩, rfl⟩
      rw [List.take_length]
      exact (Except.ok.inj same).symm
  | ledger c =>
      cases c with
      | commitPlan writes plan =>
          cases refuses
          · exact Or.inl ⟨rfl, rfl⟩
          · exact Or.inr ⟨⟨_, rfl⟩, rfl⟩
      | _ => exact ⟨rfl, rfl⟩
  | _ => rfl

end Desk

namespace Shift

/-- What a reading comes to if plans are refused or not. -/
def ended (h : Histories) (refuses : Bool) (w : Shift) :
    (Poller × Except RaidenError Nat) × Desk :=
  w.poller.poll.run (Desk.perform h refuses) w.desk

/-- The reading is done. -/
def read (h : Histories) (refuses : Bool) (w : Shift) : Shift :=
  ⟨(w.ended h refuses).1.1, (w.ended h refuses).2,
    fun a => max (w.reached a) ((w.ended h refuses).1.1.offset a)⟩

/-- No identifier is given out twice in the reading. -/
def keepsPromises (h : Histories) (refuses : Bool) (w : Shift) : Bool :=
  w.poller.poll.passes (Desk.perform h refuses) Desk.keepsPromise w.desk

variable {h : Histories} {refuses : Bool} {w : Shift}

theorem leads_ended (promises : w.keepsPromises h refuses = true) :
    w.poller.poll.Leads (Desk.Shared h) w.desk (w.ended h refuses).1
      (w.ended h refuses).2 :=
  Flow.leads_of_run? Desk.shared_perform (if_pos promises)

theorem step_read (promises : w.keepsPromises h refuses = true) :
    Step h w (w.read h refuses) :=
  .works _ _ (.poll w _ (w.ended h refuses).1.2 _ (leads_ended promises))

end Shift

/-- A node with one payment of one token in its history. -/
def Histories.sample : Histories where
  chain := ⟨1⟩
  node := .zero
  entries token := if token = .zero then
      [⟨Payment.receivedName, 7, ⟨500, by decide⟩, some Address.zero.text, none,
        "2024-03-01T10:15:30.250", none⟩]
    else []

def Poller.sample : Poller := ⟨⟨1⟩, .zero, "", [.zero], 0, {}, .empty⟩

theorem Histories.distinct_sample : Histories.sample.Distinct := by
  have first : ∀ {token place p}, sample.Pays token place p → token = .zero ∧
    place = 0 := by
    rintro token place p ⟨e, found, -⟩
    by_cases here : token = .zero
    · refine ⟨here, ?_⟩
      simp only [sample, if_pos here] at found
      cases place with
      | zero => rfl
      | succ place => cases found
    · simp only [sample, if_neg here] at found
      cases found
  intro token place p t token' place' p' t' pays _ pays' _ _
  obtain ⟨rfl, rfl⟩ := first pays
  obtain ⟨rfl, rfl⟩ := first pays'
  exact ⟨rfl, rfl⟩

namespace Shift

/-- The plan of the first reading is refused. -/
def refused : Shift := (start .sample []).read .sample true

/-- The plan of the second reading is accepted. -/
def accepted : Shift := refused.read .sample false

/-- The poller is replaced, and reads again. -/
def sample : Shift := { accepted with poller := .sample }.read .sample false

theorem run_sample : Relation.ReflTransGen (Step .sample) (start .sample []) sample := by
  have first : Step .sample (start .sample []) refused := step_read (by decide +kernel)
  have second : Step .sample refused accepted := step_read (by decide +kernel)
  have lost : Step .sample accepted { accepted with poller := .sample } :=
    .restart _ _ ⟨rfl, rfl⟩ rfl
  have again : Step .sample { accepted with poller := .sample } sample :=
    step_read (by decide +kernel)
  exact (((Relation.ReflTransGen.single first).tail second).tail lost).tail again

end Shift

/-- The refused reading leaves its place, and in the end there is one
transfer of the payment. -/
theorem payments_recorded_once_sample :
    Histories.sample.Distinct ∧ Poller.sample.Reads .sample ∧
      Poller.sample.offsets = .empty ∧
      Relation.ReflTransGen (Shift.Step .sample) (.start .sample []) Shift.sample ∧
      (∃ token ∈ Poller.sample.tokens, ∃ e after,
        Histories.sample.FailsAt {} token 0 e after) ∧
      Shift.sample.desk.ledger.OnePerPayment .sample Shift.sample.reached ∧
      Shift.sample.desk.ledger.transfers.values.length = 1 := by
  have reads : Poller.sample.Reads .sample := ⟨rfl, rfl⟩
  have refused : ((Shift.start .sample []).ended .sample true).1.2 =
      .error (.settle (.ledger (.corrupt "refused"))) := by decide +kernel
  have leads : Poller.sample.poll.Leads (Desk.Shared .sample) ⟨.empty, [], []⟩
      ((Shift.start .sample []).ended .sample true).1
        ((Shift.start .sample []).ended .sample true).2 :=
    Shift.leads_ended (w := .start .sample []) (by decide +kernel)
  rw [← Prod.eta ((Shift.start .sample []).ended .sample true).1, refused] at leads
  have started := payments_recorded_once Histories.distinct_sample reads rfl
    (.refl (a := Shift.start .sample []))
  obtain ⟨token, among, fails, -⟩ := started.2.2 _ _ _ leads
  have place : ((Shift.start .sample []).ended .sample true).1.1.offset token = 0 := by
    rw [List.mem_singleton.1 among]
    decide +kernel
  refine ⟨Histories.distinct_sample, reads, rfl, Shift.run_sample,
    ⟨token, among, _, _, place ▸ fails⟩, ?_, by decide +kernel⟩
  exact (payments_recorded_once Histories.distinct_sample reads rfl Shift.run_sample).1

end Paywatch
