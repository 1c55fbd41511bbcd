import Paywatch.Ledger.Call
import Paywatch.Proofs.Ledger.Settlement

/-!
# Leases that were taken over

The ledger compares a lease with the one that it has on record for the chain, by
token.  Tokens are given out in increasing order, and what is on record for a chain
is the lease of that chain that was given out last.  So a lease gives no more rights
once another one of its chain was given out, however late its holder comes and
whatever happens in between.
-/

namespace Paywatch

namespace Ledger

variable {l after : Ledger} {lease : Lease}

/-- The lease is the one on record for its chain, whether or not it has run out. -/
def onRecord (l : Ledger) (lease : Lease) : Bool :=
  (l.leases.get? lease.chain).any (·.lease.token == lease.token)

theorem onRecord_of_holds (held : l.holds lease = true) : l.onRecord lease = true := by
  unfold holds at held
  unfold onRecord
  cases found : l.leases.get? lease.chain with
  | none => simp [found] at held
  | some record => simp_all

/-! ## A lease that is not on record -/

theorem commit_of_not_onRecord {b : Batch} (lost : ¬ l.onRecord b.lease = true) :
    l.commit b = .error (.leaseLost b.lease.chain) := by
  have refused : l.checkLease b.lease = .error (.leaseLost b.lease.chain) := by
    rw [checkLease, if_neg]
    exact fun held => lost (onRecord_of_holds held)
  rw [commit, refused]
  rfl

theorem renew_of_not_onRecord (lost : ¬ l.onRecord lease = true) (ttl : Nat) :
    l.renew lease ttl = .error (.leaseLost lease.chain) := by
  unfold onRecord at lost
  unfold renew
  cases found : l.leases.get? lease.chain with
  | none => rfl
  | some record =>
      have other : record.lease.token ≠ lease.token := by simpa [found] using lost
      simp [other]

theorem release_of_not_onRecord (lost : ¬ l.onRecord lease = true) :
    l.release lease = l := by
  unfold onRecord at lost
  unfold release
  cases found : l.leases.get? lease.chain with
  | none => rfl
  | some record =>
      have other : record.lease.token ≠ lease.token := by simpa [found] using lost
      simp [other]

/-- As long as a lease is held, nobody else gets one of its chain. -/
theorem acquire_of_holds (held : l.holds lease = true) (holder : String) (ttl : Nat) :
    l.acquire lease.chain holder ttl = (none, l) := by
  unfold holds at held
  rw [acquire, if_neg]
  cases found : l.leases.get? lease.chain with
  | none => simp [found] at held
  | some record =>
      simp only [found, Bool.and_eq_true, decide_eq_true_eq] at held
      simpa using held.2

/-! ## What becomes of the records -/

/-- Every lease on record was there before. -/
def KeepsLeases (l after : Ledger) : Prop :=
  after.tokensIssued = l.tokensIssued ∧
    ∀ chain record, after.leases.get? chain = some record →
    ∃ old, l.leases.get? chain = some old ∧ old.lease = record.lease

theorem keepsLeases_of_eq (tokens : after.tokensIssued = l.tokensIssued)
    (leases : after.leases = l.leases) : KeepsLeases l after := by
  refine ⟨tokens, fun chain record found => ⟨record, ?_, rfl⟩⟩
  rw [← leases, found]

theorem keepsLeases_commit {b : Batch} (accepted : l.commit b = .ok after) :
    KeepsLeases l after := by
  simp only [commit, bind_eq_ok] at accepted
  obtain ⟨_, -, _, -, _, -, moves, -, result⟩ := accepted
  have same : ∀ start : Ledger, start = l.takenBack b →
      let full :=
        (b.writes.foldl writeTransfer (b.events.foldl writeEvent start)).writePlan
        b.claims b.deposits
      full.tokensIssued = l.tokensIssued ∧ full.leases = l.leases := by
    rintro start rfl
    simp only [writePlan]
    rw [foldl_writeDeposit_frame, foldl_writeClaim_frame, foldl_writeTransfer_frame,
      foldl_writeEvent_frame, takenBack_frame]
    exact ⟨rfl, rfl⟩
  obtain ⟨tokens, leases⟩ := same _ rfl
  obtain rfl := Except.ok.inj result
  cases moves with
  | false => exact keepsLeases_of_eq tokens leases
  | true => exact keepsLeases_of_eq tokens leases

theorem keepsLeases_commitPlan {writes : List TransferWrite} {p : Plan}
    (accepted : l.commitPlan writes p = .ok after) : KeepsLeases l after := by
  simp only [commitPlan, bind_eq_ok] at accepted
  obtain ⟨_, -, _, -, result⟩ := accepted
  obtain rfl := Except.ok.inj result
  rw [writePlan, foldl_writeDeposit_frame, foldl_writeClaim_frame,
    foldl_writeTransfer_frame]
  exact keepsLeases_of_eq rfl rfl

/-- Whoever renews a lease keeps it on record. -/
theorem keepsLeases_renew {ttl : Nat} (renewed : l.renew lease ttl = .ok after) :
    KeepsLeases l after := by
  unfold renew at renewed
  cases found : l.leases.get? lease.chain with
  | none => simp [found] at renewed
  | some record =>
      simp only [found] at renewed
      split at renewed
      · obtain rfl := Except.ok.inj renewed
        refine ⟨rfl, fun chain new there => ?_⟩
        rw [Table.get?_insert] at there
        split at there
        · rename_i here
          subst here
          cases there
          exact ⟨record, found, rfl⟩
        · exact ⟨new, there, rfl⟩
      · cases renewed

theorem keepsLeases_release (l : Ledger) (lease : Lease) :
    KeepsLeases l (l.release lease) := by
  unfold release
  split
  · split
    · refine ⟨rfl, fun chain new there => ?_⟩
      rw [Table.get?_erase] at there
      split at there
      · cases there
      · exact ⟨new, there, rfl⟩
    · exact keepsLeases_of_eq rfl rfl
  · exact keepsLeases_of_eq rfl rfl

theorem keepsLeases_expireLease (l : Ledger) (chain : ChainId) :
    KeepsLeases l (l.expireLease chain) := by
  refine ⟨rfl, fun other new there => ?_⟩
  rw [expireLease, Table.get?_modify] at there
  split at there
  · obtain ⟨old, found, rfl⟩ := Option.map_eq_some_iff.1 there
    exact ⟨old, found, rfl⟩
  · exact ⟨new, there, rfl⟩

/-- The lease that a call is answered with. -/
def Call.granted? (l : Ledger) : Call → Option Lease
  | .acquire chain holder ttl => (l.acquire chain holder ttl).1
  | _ => none

/-- A call that gives out no lease puts none on record. -/
theorem keepsLeases_perform {c : Call} (nothing : c.granted? l = none) :
    KeepsLeases l (l.perform c).2 := by
  cases c with
  | acquire chain holder ttl =>
      simp only [Call.granted?, acquire] at nothing
      simp only [perform, acquire]
      split at nothing
      · cases nothing
      · rename_i held
        rw [if_neg held]
        exact keepsLeases_of_eq rfl rfl
  | renew lease ttl =>
      simp only [perform]
      cases renewed : l.renew lease ttl with
      | error e => exact keepsLeases_of_eq rfl rfl
      | ok after => exact keepsLeases_renew renewed
  | release lease => exact keepsLeases_release l lease
  | commit b =>
      simp only [perform]
      cases committed : l.commit b with
      | error e => exact keepsLeases_of_eq rfl rfl
      | ok after => exact keepsLeases_commit committed
  | commitPlan writes p =>
      simp only [perform]
      cases committed : l.commitPlan writes p with
      | error e => exact keepsLeases_of_eq rfl rfl
      | ok after => exact keepsLeases_commitPlan committed
  | expireOrder id =>
      simp only [perform]
      cases expired : l.expireOrder id with
      | error e => exact keepsLeases_of_eq rfl rfl
      | ok result =>
          simp only
          rw [expireOrder_frame expired]
          exact keepsLeases_of_eq rfl rfl
  | _ => exact keepsLeases_of_eq rfl rfl

/-- A lease that is given out has the next token, and is on record from then on. -/
theorem perform_of_granted {c : Call} (given : c.granted? l = some lease) :
    lease.token = l.tokensIssued + 1 ∧ (l.perform c).2.tokensIssued = l.tokensIssued + 1 ∧
      ∃ expiresAt, (l.perform c).2.leases =
        l.leases.insert lease.chain ⟨lease, expiresAt⟩ := by
  cases c with
  | acquire chain holder ttl =>
      simp only [Call.granted?, acquire, perform] at given ⊢
      split at given
      · rename_i free
        cases given
        rw [if_pos free]
        exact ⟨rfl, rfl, _, rfl⟩
      · cases given
  | _ => cases given

end Ledger

/-- A ledger, and the leases that it has given out, newest first. -/
structure Tenure where
  ledger : Ledger
  granted : List Lease

namespace Tenure

open Ledger

def empty : Tenure := ⟨.empty, []⟩

/-- Somebody makes a call, which may give out a lease. -/
def call (s : Tenure) (c : Call) : Tenure :=
  ⟨(s.ledger.perform c).2, (c.granted? s.ledger).toList ++ s.granted⟩

/-- Somebody makes a call, time goes on, or a lease ends before its time. -/
inductive Step : Tenure → Tenure → Prop where
  | call (s : Tenure) (c : Call) : Step s (s.call c)
  | wait (s : Tenure) (ticks : Nat) : Step s { s with ledger := s.ledger.wait ticks }
  | expire (s : Tenure) (chain : ChainId) :
      Step s { s with ledger := s.ledger.expireLease chain }

/-- Any calls of any workers, in any order and at any time. -/
abbrev Run : Tenure → Tenure → Prop := Relation.ReflTransGen Step

/-- The lease of a chain that was given out last. -/
def newest? (s : Tenure) (chain : ChainId) : Option Lease :=
  s.granted.find? (·.chain == chain)

/-- Tokens increase from lease to lease, and what is on record for a chain
is its newest lease. -/
structure Fenced (s : Tenure) : Prop where
  issued : ∀ a ∈ s.granted, a.token ≤ s.ledger.tokensIssued
  increasing : s.granted.Pairwise fun newer older => older.token < newer.token
  recorded : ∀ chain record, s.ledger.leases.get? chain = some record →
    s.newest? chain = some record.lease

variable {s after : Tenure}

theorem fenced_empty : Fenced empty where
  issued := by simp [empty]
  increasing := .nil
  recorded := by simp [empty, Ledger.empty]

theorem Fenced.kept {l : Ledger} (fenced : Fenced s) (keeps : KeepsLeases s.ledger l) :
    Fenced { s with ledger := l } where
  issued a member := keeps.1 ▸ fenced.issued a member
  increasing := fenced.increasing
  recorded chain record found := by
    obtain ⟨old, before, same⟩ := keeps.2 chain record found
    rw [← same]
    exact fenced.recorded chain old before

theorem Fenced.call (fenced : Fenced s) (c : Call) : Fenced (s.call c) := by
  unfold Tenure.call
  cases given : c.granted? s.ledger with
  | none => exact fenced.kept (keepsLeases_perform given)
  | some lease =>
      obtain ⟨token, tokens, expiresAt, leases⟩ := perform_of_granted given
      constructor
      case issued =>
        rw [Option.toList_some, List.singleton_append, List.forall_mem_cons, tokens]
        exact ⟨Nat.le_of_eq token,
          fun a member => Nat.le_succ_of_le (fenced.issued a member)⟩
      case increasing =>
        refine List.pairwise_cons.2 ⟨fun a member => ?_, fenced.increasing⟩
        rw [token]
        exact Nat.lt_succ_of_le (fenced.issued a member)
      case recorded =>
        intro chain record found
        rw [leases, Table.get?_insert] at found
        rw [newest?, Option.toList_some, List.singleton_append, List.find?_cons]
        split at found
        · rename_i here
          cases found
          simp [here]
        · rename_i elsewhere
          rw [beq_eq_false_iff_ne.2 elsewhere]
          exact fenced.recorded chain record found

theorem Fenced.step (fenced : Fenced s) (step : Step s after) : Fenced after := by
  cases step with
  | call c => exact fenced.call c
  | wait ticks => exact fenced.kept (keepsLeases_of_eq rfl rfl)
  | expire chain => exact fenced.kept (keepsLeases_expireLease _ _)

theorem Fenced.run (fenced : Fenced s) (run : Run s after) : Fenced after := by
  induction run with
  | refl => exact fenced
  | tail _ step ih => exact ih.step step

/-- Leases that were given out stay given out, behind those that follow. -/
theorem granted_suffix (run : Run s after) : s.granted <:+ after.granted := by
  induction run with
  | refl => exact List.suffix_refl _
  | tail _ step ih =>
      refine ih.trans ?_
      cases step with
      | call c => exact List.suffix_append _ _
      | wait ticks => exact List.suffix_refl _
      | expire chain => exact List.suffix_refl _

/-- A lease is no longer on record once a newer one of its chain was given out. -/
theorem Fenced.not_onRecord {newer stale : Lease} {older : List Lease} (fenced : Fenced s)
    (given : newer :: older <:+ s.granted)
    (replaced : ∃ old ∈ older, old.token = stale.token)
    (sameChain : newer.chain = stale.chain) : ¬ s.ledger.onRecord stale = true := by
  intro there
  obtain ⟨old, member, sameToken⟩ := replaced
  obtain ⟨record, found, token⟩ := (Option.any_eq_true _ _).1 there
  have isNewest := fenced.recorded _ _ found
  obtain ⟨front, split⟩ := given
  have increasing := fenced.increasing
  rw [newest?, ← split, List.find?_append, List.find?_cons, sameChain,
    beq_self_eq_true] at isNewest
  rw [← split, List.pairwise_append, List.pairwise_cons] at increasing
  -- The lease on record stands in front of the replaced one, or is the
  -- one that replaced it.
  have among : record.lease = newer ∨ record.lease ∈ front := by
    cases isFront : front.find? (·.chain == stale.chain) with
    | none =>
        rw [isFront] at isNewest
        exact Or.inl (Option.some.inj isNewest).symm
    | some a =>
        rw [isFront] at isNewest
        obtain rfl : a = record.lease := Option.some.inj isNewest
        exact Or.inr (List.mem_of_find?_eq_some isFront)
  have below : old.token < record.lease.token := by
    rcases among with same | inFront
    · rw [same]
      exact increasing.2.1.1 old member
    · exact increasing.2.2 _ inFront old (List.mem_cons_of_mem _ member)
  rw [beq_iff_eq] at token
  omega

/-- Whatever is called in whatever order:  the leases given out differ in their tokens;
one that passes the check of a commit is the newest of its chain, so that at most one
token of a chain does, and as long as it does nobody gets another lease of the chain.
Once a chain was given to somebody else, no earlier lease of it can ever be used for a
commit or be renewed, and giving it back takes nothing from whoever holds the chain. -/
theorem leases_fenced (reached : Run empty s) :
    (s.granted.map (·.token)).Nodup ∧
    (∀ a, s.ledger.holds a = true →
      (∃ newest, s.newest? a.chain = some newest ∧ newest.token = a.token) ∧
      (∀ b, s.ledger.holds b = true → b.chain = a.chain → b.token = a.token) ∧
      ∀ holder ttl, s.ledger.acquire a.chain holder ttl = (none, s.ledger)) ∧
    ∀ old ∈ s.granted, ∀ holder ttl,
      (s.ledger.acquire old.chain holder ttl).1.isSome →
      ∀ later, Run (s.call (.acquire old.chain holder ttl)) later →
      ∀ stale, stale.chain = old.chain → stale.token = old.token →
        (∀ b, b.lease = stale → later.ledger.commit b = .error (.leaseLost stale.chain)) ∧
        (∀ ttl, later.ledger.renew stale ttl = .error (.leaseLost stale.chain)) ∧
        later.ledger.release stale = later.ledger := by
  have fenced := fenced_empty.run reached
  have newest : ∀ a, s.ledger.holds a = true →
      ∃ newest, s.newest? a.chain = some newest ∧ newest.token = a.token := by
    intro a held
    obtain ⟨record, found, token⟩ := (Option.any_eq_true _ _).1 (onRecord_of_holds held)
    exact ⟨record.lease, fenced.recorded _ _ found, beq_iff_eq.1 token⟩
  refine ⟨?_, fun a held => ⟨newest a held, ?_, acquire_of_holds held⟩, ?_⟩
  · exact List.pairwise_map.2 (fenced.increasing.imp fun below =>
      (Nat.ne_of_lt below).symm)
  · intro b heldToo sameChain
    obtain ⟨first, isFirst, token⟩ := newest a held
    obtain ⟨second, isSecond, token'⟩ := newest b heldToo
    rw [sameChain, isFirst] at isSecond
    cases isSecond
    exact token'.symm.trans token
  · intro old member holder ttl given later run stale sameChain sameToken
    obtain ⟨newer, isNewer⟩ := Option.isSome_iff_exists.1 given
    have granted :
        (s.call (.acquire old.chain holder ttl)).granted = newer :: s.granted := by
      simp only [Tenure.call, Call.granted?, isNewer, Option.toList_some,
        List.singleton_append]
    have newerChain : newer.chain = old.chain := by
      unfold acquire at isNewer
      split at isNewer <;> cases isNewer
      rfl
    have lost : ¬ later.ledger.onRecord stale = true :=
      ((fenced.call _).run run).not_onRecord (granted ▸ granted_suffix run)
        ⟨old, member, sameToken.symm⟩ (newerChain.trans sameChain.symm)
    refine ⟨?_, renew_of_not_onRecord lost, release_of_not_onRecord lost⟩
    rintro b rfl
    exact commit_of_not_onRecord lost

/-- The lease of the first worker, which has just run out. -/
def sampleLapsed : Tenure :=
  let first := empty.call (.acquire ⟨1⟩ "first" 10)
  { first with ledger := first.ledger.wait 10 }

/-- The second worker takes the chain over, and then the first one tries to renew. -/
def sampleOvertaken : Tenure :=
  (sampleLapsed.call (.acquire ⟨1⟩ "second" 10)).call (.renew ⟨⟨1⟩, 1, "first"⟩ 10)

/-- The second worker holds the chain, whatever the first one does with its lease. -/
theorem leases_fenced_overtaken :
    sampleOvertaken.ledger.holds ⟨⟨1⟩, 2, "second"⟩ = true ∧
    (∀ b, b.lease = ⟨⟨1⟩, 1, "first"⟩ →
      sampleOvertaken.ledger.commit b = .error (.leaseLost ⟨1⟩)) ∧
    (∀ ttl, sampleOvertaken.ledger.renew ⟨⟨1⟩, 1, "first"⟩ ttl =
      .error (.leaseLost ⟨1⟩)) ∧
    sampleOvertaken.ledger.release ⟨⟨1⟩, 1, "first"⟩ = sampleOvertaken.ledger := by
  have lapsed : Run empty sampleLapsed :=
    (Relation.ReflTransGen.single (.call _ _)).tail (.wait _ 10)
  refine ⟨by decide, ?_⟩
  exact (leases_fenced lapsed).2.2 ⟨⟨1⟩, 1, "first"⟩ (by decide) "second" 10 (by decide)
    sampleOvertaken (.single (.call _ _)) _ rfl rfl

end Tenure

end Paywatch
