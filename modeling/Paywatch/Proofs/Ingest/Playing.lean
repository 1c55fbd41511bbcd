import Paywatch.Proofs.Ingest.Pursuit
import Paywatch.Proofs.Ingest.Session

/-!
# Playing a pursuit

Nodes that answer from an archive of all blocks that ever were on any branch, and
acts of a worker that can be carried out one after the other.  What is played with
them is a run of the pursuit.
-/

namespace Paywatch

namespace Surroundings

/-- The reply of a node is in the archive.  There are no logs. -/
def Recalls (archive : Nodes) : (c : Call) → c.Reply → Prop
  | .node _ (.block _), reply => ∀ b, reply = .ok b → b ∈ archive.blocks.map Prod.fst
  | .node _ (.logs _ _), reply => ∀ logs, reply = .ok logs → logs = []
  | .node _ (.transactions hash), reply =>
      ∀ txs, reply = .ok txs → txs = archive.transactions hash
  | _, _ => True

/-- Calls are answered as in surroundings that only the flow changes, and nodes know
only what is in the archive. -/
def AnswersFrom (catalog : Catalog) (archive : Nodes) : Answering Surroundings :=
  fun s c reply after => s.Answers catalog c reply after ∧ Recalls archive c reply

/-- What these nodes answer is in the archive. -/
def recalls (archive n : Nodes) : Call → Bool
  | .node chain (.block height) =>
    (n.block? chain height).all fun b => (archive.blocks.map Prod.fst).contains b
  | .node _ (.transactions hash) => n.transactions hash == archive.transactions hash
  | _ => true

variable {catalog : Catalog} {archive n : Nodes}

theorem recalls_perform {s : Surroundings} {c : Call}
    (recalled : recalls archive n c = true) :
    Recalls archive c (perform catalog n c s).1 := by
  cases c with
  | node chain q =>
      cases q with
      | block height =>
          intro b ok
          simp only [recalls] at recalled
          simp only [perform, Nodes.answer] at ok
          cases found : n.block? chain height with
          | none =>
              rw [found] at ok
              cases ok
          | some b' =>
              rw [found] at ok recalled
              cases ok
              exact List.contains_iff_mem.1 recalled
      | logs hash contracts =>
          intro logs ok
          cases ok
          rfl
      | transactions hash =>
          intro txs ok
          cases ok
          exact beq_iff_eq.1 recalled
      | _ => trivial
  | _ => trivial

/-- The flow with these nodes, if its calls are answered as promised and
from the archive. -/
def play? (catalog : Catalog) (archive n : Nodes) {α : Type} (x : Flow α)
    (s : Surroundings) : Option (α × Surroundings) :=
  x.run? (perform catalog n) (fun s c => s.keepsPromise c && recalls archive n c) s

theorem leads_of_play? {α : Type} {x : Flow α} {s after : Surroundings} {a : α}
    (played : play? catalog archive n x s = some (a, after)) :
    x.Leads (AnswersFrom catalog archive) s a after := by
  refine Flow.leads_of_run? ?_ played
  intro s c passed
  rw [Bool.and_eq_true] at passed
  exact ⟨answers_perform passed.1, recalls_perform passed.2⟩

theorem alone_answersFrom : Alone catalog (AnswersFrom catalog archive) :=
  fun _ _ _ _ answer => answer.1

/-- Nodes may fail, so there is always an answer. -/
theorem responsive_answersFrom : Responsive (AnswersFrom catalog archive) := by
  intro s c other
  cases c with
  | node chain q =>
      refine ⟨.error (.blockNotFound 0), s, ?_, ?_⟩
      · cases q with
        | block height => exact ⟨nofun, rfl⟩
        | _ => rfl
      · cases q with
        | block height => exact nofun
        | logs hash contracts => exact nofun
        | transactions hash => exact nofun
        | _ => trivial
  | stamp => exact absurd rfl other
  | _ => exact ⟨_, _, answers_perform (n := archive) rfl, trivial⟩

/-- Only blocks of the archive are given. -/
theorem mem_archive_of_gives {chain : ChainId} {b : Block}
    (gives : Gives (AnswersFrom catalog archive) chain b) :
    b ∈ archive.blocks.map Prod.fst := by
  obtain ⟨s, height, after, -, recalled⟩ := gives
  exact recalled b rfl

/-- What is read of a block is in the archive. -/
theorem leads_extract {b : Block} {s after : Surroundings} {x : Extraction}
    (leads : (Ingest.extract b).Leads (AnswersFrom catalog archive) s (.ok x) after) :
    x = Extraction.ofBlock b []
      (if (catalog.watchlist b.chain).hasAccounts then archive.transactions b.hash
        else [])
      (catalog.watchlist b.chain) := by
  unfold Ingest.extract at leads
  obtain ⟨watchlist, s₁, asks, leads⟩ := Flow.leads_bind.1 leads
  obtain ⟨rfl, -⟩ := (Flow.leads_ask.1 asks).1
  extract_lets contracts withLogs at leads
  have last : ∀ logs {there}, (∀ l, logs = .ok l → l = []) →
      (withLogs logs).Leads (AnswersFrom catalog archive) there (.ok x) after →
      x = Extraction.ofBlock b []
        (if (catalog.watchlist b.chain).hasAccounts then archive.transactions b.hash
          else [])
        (catalog.watchlist b.chain) := by
    intro logs there none leads
    cases logs with
    | error e => cases leads.1
    | ok logs =>
        obtain rfl := none logs rfl
        dsimp -zeta only [withLogs] at leads
        extract_lets withTxs at leads
        split at leads
        · rename_i hasAccounts
          obtain ⟨txs, s₂, asks, leads⟩ := Flow.leads_bind.1 leads
          have recalled := (Flow.leads_ask.1 asks).2
          cases txs with
          | error e => cases leads.1
          | ok txs =>
              rw [if_pos hasAccounts, ← recalled txs rfl]
              exact Except.ok.inj leads.1
        · rename_i noAccounts
          rw [pure_bind] at leads
          rw [if_neg noAccounts]
          exact Except.ok.inj leads.1
  split at leads
  · rw [pure_bind] at leads
    exact last (.ok []) (fun l same => (Except.ok.inj same).symm) leads
  · obtain ⟨logs, s₂, asks, leads⟩ := Flow.leads_bind.1 leads
    exact last logs (Flow.leads_ask.1 asks).2 leads

end Surroundings

namespace Pursuit

/-- What a worker does next, and on which branch the nodes are. -/
inductive Act where
  | acquire (holder : String) (ttl : Nat)
  | restart
  | resume (n : Nodes)
  | rebase (n : Nodes) (height : Height)
  | ground (n : Nodes) (lease : Lease)
  | advance (n : Nodes) (target : Height)
  | apply (n : Nodes) (lease : Lease)
  | again (n : Nodes) (lease : Lease)

variable {i : Ingest} {catalog : Catalog} {archive : Nodes} {s after : Pursuit}

/-- What an errand leads to, if it succeeds. -/
def succeed? (i : Ingest) (catalog : Catalog) (archive n : Nodes) (lease : Lease)
    (errand : Errand) (s : Pursuit) : Option Surroundings :=
  if lease.chain = i.chain then
    match Surroundings.play? catalog archive n (errand.run i lease) s.surroundings with
    | some (.ok _, after) => some after
    | _ => none
  else none

theorem leads_of_succeed? {n : Nodes} {lease : Lease} {errand : Errand}
    {there : Surroundings}
    (succeeds : s.succeed? i catalog archive n lease errand = some there) :
    lease.chain = i.chain ∧ (errand.run i lease).Leads
      (Surroundings.AnswersFrom catalog archive) s.surroundings (.ok ()) there := by
  unfold succeed? at succeeds
  split at succeeds
  · rename_i leaseChain
    split at succeeds
    · rename_i played
      cases succeeds
      exact ⟨leaseChain, Surroundings.leads_of_play? played⟩
    · cases succeeds
  · cases succeeds

/-- The worker afterwards, if all went well. -/
def act (i : Ingest) (catalog : Catalog) (archive : Nodes) (s : Pursuit) :
    Act → Option Pursuit
  | .acquire holder ttl =>
    let acquired := (s.ledger.perform (.acquire i.chain holder ttl)).2
    some { s with surroundings := { s.surroundings with ledger := acquired } }
  | .restart =>
    some { s with stance := .idle, messages := [], settled := s.tracker.blank }
  | .resume n =>
    match s.stance, s.ledger.watermark i.chain with
    | .idle, some mark =>
      (Surroundings.play? catalog archive n (CatchUp.resume i s.tracker mark)
        s.surroundings).map fun (t, there) =>
          { s with
            tracker := t
            stance := .following
            surroundings := there
            settled := t }
    | _, _ => none
  | .rebase n height =>
    match s.stance with
    | .idle =>
      if (s.ledger.watermark i.chain).all fun mark => mark.height < height then
        match Surroundings.play? catalog archive n (s.tracker.fetchBlock height)
          s.surroundings with
        | some (.ok b, there) =>
          some
            { s with
              tracker := s.tracker.resetBase b
              stance := .based b
              surroundings := there }
        | _ => none
      else none
    | _ => none
  | .ground n lease =>
    match s.stance with
    | .based b =>
      (s.succeed? i catalog archive n lease (.base b)).map fun there =>
        { s with
          stance := .following
          surroundings := there
          settled := s.tracker
          last := none
          carried := s.carried ++ s.leftBehind i.chain }
    | _ => none
  | .advance n target =>
    match s.stance with
    | .following =>
      (Surroundings.play? catalog archive n (s.tracker.advance target true)
        s.surroundings).map fun (a, there) =>
          { s with
            tracker := a.tracker
            messages := s.messages ++ a.messages
            surroundings := there }
    | _ => none
  | .apply n lease =>
    match s.messages with
    | [] => none
    | m :: rest =>
      (s.succeed? i catalog archive n lease (.message m)).map fun there =>
        { s with
          messages := rest
          surroundings := there
          settled := s.settled.follow m
          last := some m }
  | .again n lease =>
    match s.last with
    | none => none
    | some m =>
      (s.succeed? i catalog archive n lease (.message m)).map fun there =>
        { s with surroundings := there }

theorem step_of_act {a : Act} (acted : act i catalog archive s a = some after) :
    Step i (Surroundings.AnswersFrom catalog archive) s after := by
  cases a with
  | acquire holder ttl =>
      cases acted
      exact .ask s (.ledger (.acquire i.chain holder ttl)) _ _ trivial
        ⟨⟨rfl, rfl⟩, trivial⟩
  | restart =>
      cases acted
      exact .restart s s.tracker (Or.inl rfl)
  | resume n =>
      simp only [act] at acted
      split at acted
      · rename_i mark idle isMark
        obtain ⟨⟨t, there⟩, played, rfl⟩ := Option.map_eq_some_iff.1 acted
        exact .resume s mark t there idle isMark (Surroundings.leads_of_play? played)
      · cases acted
  | rebase n height =>
      simp only [act] at acted
      split at acted
      · rename_i idle
        split at acted
        · rename_i above
          split at acted
          · rename_i b there played
            cases acted
            refine .rebase s height b there idle ?_ (Surroundings.leads_of_play? played)
            intro mark isMark
            rw [isMark] at above
            exact of_decide_eq_true above
          · cases acted
        · cases acted
      · cases acted
  | ground n lease =>
      simp only [act] at acted
      split at acted
      · rename_i b based
        obtain ⟨there, succeeds, rfl⟩ := Option.map_eq_some_iff.1 acted
        obtain ⟨leaseChain, leads⟩ := leads_of_succeed? succeeds
        exact .ground s b lease there based leaseChain leads
      · cases acted
  | advance n target =>
      simp only [act] at acted
      split at acted
      · rename_i following
        obtain ⟨⟨a, there⟩, played, rfl⟩ := Option.map_eq_some_iff.1 acted
        exact .advance s target true a there following
          (Surroundings.leads_of_play? played)
      · cases acted
  | apply n lease =>
      simp only [act] at acted
      split at acted
      · cases acted
      · rename_i m rest next
        obtain ⟨there, succeeds, rfl⟩ := Option.map_eq_some_iff.1 acted
        obtain ⟨leaseChain, leads⟩ := leads_of_succeed? succeeds
        exact .apply s m rest lease there next leaseChain leads
  | again n lease =>
      simp only [act] at acted
      split at acted
      · cases acted
      · rename_i m isLast
        obtain ⟨there, succeeds, rfl⟩ := Option.map_eq_some_iff.1 acted
        obtain ⟨leaseChain, leads⟩ := leads_of_succeed? succeeds
        exact .again s m lease there isLast leaseChain leads

/-- A played pursuit is a run. -/
theorem run_of_play {acts : List Act}
    (played : acts.foldlM (act i catalog archive) s = some after) :
    Run i (Surroundings.AnswersFrom catalog archive) s after := by
  apply reflTransGen_of_foldlM ?_ played
  intro there a next acted
  exact step_of_act acted

/-! ## A worker between two branches -/

/-- The branch without the payment, further on. -/
def farBranch : Nodes :=
  ⟨Session.otherBranch.blocks ++ [Session.sampleBlock 4 "0xb4" "0xb3" []]⟩

/-- All blocks of both branches. -/
def bothBranches : Nodes := ⟨Session.homeBranch.blocks ++ farBranch.blocks⟩

/-- What the sample answers are. -/
abbrev sampleAnswers : Answering Surroundings :=
  Surroundings.AnswersFrom Session.sampleCatalog bothBranches

/-- Carries out acts from the start. -/
def play (acts : List Act) : Option Pursuit :=
  acts.foldlM (act Session.sampleIngest Session.sampleCatalog bothBranches)
    (start Session.sampleIngest Session.sampleSettings)

/-- What is found after acts from the start is found after a run. -/
theorem exists_run_of_play {acts : List Act} {found : Pursuit → Bool}
    (played : (play acts).any found = true) :
    ∃ s, Run Session.sampleIngest sampleAnswers
      (start Session.sampleIngest Session.sampleSettings) s ∧ found s = true := by
  obtain ⟨s, reached, isFound⟩ := (Option.any_eq_true _ _).1 played
  exact ⟨s, run_of_play reached, isFound⟩

/-- The worker starts from the first block and comes to the block of the payment. -/
def outward : List Act :=
  [.acquire "worker" 10, .restart, .rebase Session.homeBranch 1,
    .ground Session.homeBranch Session.sampleLease, .advance Session.homeBranch 2,
    .apply Session.homeBranch Session.sampleLease,
    .again Session.homeBranch Session.sampleLease]

/-- The nodes go over to the other branch.  The worker takes the payment back, is
started again, and goes on from the first block of that branch. -/
def onward : List Act :=
  [.advance farBranch 3, .apply farBranch Session.sampleLease,
    .again farBranch Session.sampleLease, .apply farBranch Session.sampleLease, .restart,
    .resume farBranch, .advance farBranch 3, .apply farBranch Session.sampleLease]

end Pursuit

end Paywatch
