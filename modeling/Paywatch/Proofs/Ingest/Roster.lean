import Paywatch.Proofs.Ingest.Jobs
import Paywatch.Proofs.Ledger.Recordings

/-!
# Pipelines side by side

Each chain has a pipeline that works on one message at a time, and clerks settle among
them what is of no block.  All of them share one ledger and take turns at it, call by
call, so between a question and the commit that is made of its answer any of the others
may have committed.  They do not disturb each other:  what the pipeline of a chain
works on is only changed by itself.  So a reorganisation finds the ledger as it was
when it asked, and is exact.
-/

namespace Paywatch

/-! ## One call of a task among others -/

/-- Whom a task works for. -/
inductive Post where
  | pipeline (chain : ChainId) (j : Job)
  | clerk

namespace Post

/-- The chain on whose behalf the task commits. -/
def chain? : Post → Option ChainId
  | pipeline chain _ => some chain
  | clerk => none

/-- What the task may call. -/
def Allows (l : Ledger) (c : Call) : Post → Prop
  | pipeline chain j =>
      c.Plain ∨ ∃ batch, c = .ledger (.commit batch) ∧
        j.Commits chain (l.view chain) batch
  | clerk => c.OffChain

/-- What the task calls is allowed, also later on as long as the view of its
chain stays as it is. -/
def Keeps (l : Ledger) (x : Flow Unit) : Post → Prop
  | pipeline chain j => ∀ c there, x.Makes (Seeing chain) (l.view chain) c there →
      c.Plain ∨ ∃ batch, c = .ledger (.commit batch) ∧ j.Commits chain there batch
  | clerk => x.Only Call.OffChain

end Post

/-- The ledger after a call to whomever. -/
def Call.onLedger (l : Ledger) : Call → Ledger
  | .ledger c => (l.perform c).2
  | _ => l

/-- The events that a call records. -/
def Call.recording (l : Ledger) : Call → List ChainEvent
  | .ledger c => c.recording l
  | _ => []

/-- A watchlist is that of a catalog that can be described. -/
def Call.Described : (c : Call) → c.Reply → Prop
  | .watchlist chain, w => ∃ entries catalog, Catalog.ofEntries entries = .ok catalog ∧
      w = catalog.watchlist chain
  | _, _ => True

theorem Surroundings.Permits.ledger_eq {s after : Surroundings} {c : Call}
    {reply : c.Reply} (permitted : s.Permits c reply after) :
    after.ledger = c.onLedger s.ledger := by
  cases c with
  | ledger c =>
      rw [permitted.2]
      rfl
  | stamp =>
      rw [permitted.2]
      rfl
  | _ => exact congrArg Surroundings.ledger (show after = s from permitted)

namespace Ledger

variable {l after : Ledger} {chain : ChainId} {c : Paywatch.Call}

/-- A pipeline is answered by the ledger as it relies on. -/
theorem TransfersNamed.seeing {s after : Surroundings} {c : Paywatch.Call}
    {reply : c.Reply} (named : s.ledger.TransfersNamed)
    (permitted : s.Permits c reply after) (described : c.Described reply)
    (chain : ChainId) :
    Seeing chain (s.ledger.view chain) c reply (after.ledger.view chain) := by
  cases c with
  | ledger c =>
      obtain ⟨rfl, rfl⟩ := permitted
      cases c with
      | pendingTransfers d =>
          refine ⟨?_, rfl⟩
          rintro rfl t member
          exact named.waiting_of_pending member
      | transfersInRange d low high =>
          refine ⟨?_, rfl⟩
          rintro rfl
          exact named.tells d low high
      | commit b =>
          intro e refused
          exact congrArg (view · chain) (attempt_refused refused)
      | commitPlan writes p =>
          intro e refused
          exact congrArg (view · chain) (attempt_refused refused)
      | _ => exact (spares_perform s.ledger chain rfl).view
  | stamp =>
      obtain ⟨-, rfl⟩ := permitted
      rfl
  | watchlist d =>
      obtain rfl : after = s := permitted
      obtain ⟨entries, catalog, listed, same⟩ := described
      exact ⟨⟨catalog, Catalog.consistent_of_ofEntries listed, same⟩, rfl⟩
  | _ =>
      obtain rfl : after = s := permitted
      rfl

/-- Transfers are stored in their places, and each chain stands above all that it has. -/
structure WellPlaced (l : Ledger) : Prop where
  named : l.TransfersNamed
  rooted : ∀ chain, (l.place chain).Rooted
  retained : ∀ chain, (l.place chain).Retained
  level : ∀ chain, l.Level chain

theorem wellPlaced_empty : empty.WellPlaced where
  named := by simp [TransfersNamed, empty]
  rooted chain :=
    ⟨by simp [place, watermark, empty], by simp [place, empty], by simp [place, empty]⟩
  retained chain := by simp [Place.Retained, place, empty]
  level chain := ⟨by simp [empty], by simp [view, empty]⟩

/-- All chains are spared. -/
theorem WellPlaced.spared (placed : l.WellPlaced) (named : after.TransfersNamed)
    (spares : ∀ chain, Spares chain l after) : after.WellPlaced where
  named := named
  rooted chain := by
    rw [show after.place chain = l.place chain
      from congrArg View.place (spares chain).view]
    exact placed.rooted chain
  retained chain := by
    rw [show after.place chain = l.place chain
      from congrArg View.place (spares chain).view]
    exact placed.retained chain
  level chain := (placed.level chain).spared (spares chain)

/-- A batch moves its own chain, and spares all others. -/
theorem WellPlaced.commit {batch : Batch} (placed : l.WellPlaced)
    (accepted : l.commit batch = .ok after) (regular : batch.Regular)
    (level : after.Level batch.chain)
    (spares : ∀ chain, batch.chain ≠ chain → Spares chain l after) :
    after.WellPlaced := by
  have moved := place_commit accepted
  have elsewhere : ∀ chain, batch.chain ≠ chain → after.place chain = l.place chain :=
    fun chain other => congrArg View.place (spares chain other).view
  constructor
  · have named := placed.named.perform (.commit batch)
    rwa [show (l.perform (.commit batch)).2 = after
      by simp [perform, attempt, accepted]] at named
  · intro chain
    by_cases own : batch.chain = chain
    · subst own
      exact (placed.rooted _).commit regular moved
    · rw [elsewhere chain own]
      exact placed.rooted chain
  · intro chain
    by_cases own : batch.chain = chain
    · subst own
      exact (placed.retained _).commit regular moved
    · rw [elsewhere chain own]
      exact placed.retained chain
  · intro chain
    by_cases own : batch.chain = chain
    · exact own ▸ level
    · exact (placed.level chain).spared (spares chain own)

/-- A block of a chain is absorbed, or its reorganisation takes it back. -/
theorem WellPlaced.commits (placed : l.WellPlaced) {j : Job} {batch : Batch}
    (commits : j.Commits chain (l.view chain) batch)
    (accepted : l.commit batch = .ok after)
    (fresh : ∀ t, .insert t ∈ batch.writes → l.transfers.get? t.id = none) :
    after.WellPlaced ∧ ∀ other, chain ≠ other → Spares other l after := by
  cases j with
  | block i lease b base =>
      have absorbs : batch.Absorbs b chain (l.view chain) := commits
      obtain rfl := absorbs.ofChain
      have spares : ∀ other, batch.chain ≠ other → Spares other l after := by
        intro other different
        exact spares_commit accepted different
          (fun e member => (absorbs.events e member).1) absorbs.writes fresh
      have level := (placed.level _).absorb absorbs accepted
      exact ⟨placed.commit accepted absorbs.regular level spares, spares⟩
  | revert i lease range =>
      have reverts : batch.Reverts range chain (l.view chain) := commits
      obtain rfl := reverts.ofChain
      have takenBack :=
        takenBack_of_commit placed.named (placed.retained _) reverts accepted
      have level : after.Level batch.chain := by
        have level := takenBack.level (reverts.rangeChain ▸ placed.level _)
          (reverts.rangeChain ▸ reverts.follows)
        rwa [reverts.rangeChain] at level
      have spares : ∀ other, batch.chain ≠ other → Spares other l after := by
        intro other different
        exact spares_commit accepted different (by simp [reverts.noEvents])
          (reverts.concerns 0) fresh
      exact ⟨placed.commit accepted reverts.regular level spares, spares⟩
  | _ => exact commits.elim

/-- Whoever calls what he may, and inserts only what is not stored, leaves every chain
in its place, and spares all chains but his own. -/
theorem WellPlaced.turn (placed : l.WellPlaced) {post : Post} (allows : post.Allows l c)
    {held : Set Ulid} (careful : c.Careful held)
    (unstored : ∀ u ∈ held, l.transfers.get? ⟨u⟩ = none) :
    (c.onLedger l).WellPlaced ∧ ∀ chain, post.chain? ≠ some chain →
      Spares chain l (c.onLedger l) := by
  have spared : ∀ after : Ledger, after.TransfersNamed → (∀ chain, Spares chain l after) →
      after.WellPlaced ∧ ∀ chain, post.chain? ≠ some chain → Spares chain l after :=
    fun after named spares => ⟨placed.spared named spares, fun chain _ => spares chain⟩
  have untouched := spared l placed.named fun chain => .refl chain l
  have plainly : c.Plain → (c.onLedger l).WellPlaced ∧
      ∀ chain, post.chain? ≠ some chain → Spares chain l (c.onLedger l) := by
    intro plain
    cases c with
    | ledger c =>
        refine spared _ (placed.named.perform c) fun chain => spares_perform l chain ?_
        cases c with
        | commit b => exact plain.elim
        | commitPlan writes p => exact plain.elim
        | _ => rfl
    | _ => exact untouched
  cases post with
  | pipeline chain j =>
      rcases allows with plain | ⟨batch, rfl, commits⟩
      · exact plainly plain
      · simp only [Call.onLedger, Ledger.perform]
        cases accepted : l.commit batch with
        | error e => exact untouched
        | ok after =>
            obtain ⟨placedAfter, spares⟩ := placed.commits commits accepted
              fun t member => unstored _ (careful.held t member)
            exact ⟨placedAfter, fun other different => spares other fun same =>
              different (same ▸ rfl)⟩
  | clerk =>
      cases c with
      | ledger c =>
          cases c with
          | commit b => exact allows.elim
          | commitPlan writes p =>
              have named := placed.named.perform (.commitPlan writes p)
              simp only [Call.onLedger, Ledger.perform] at named ⊢
              cases accepted : l.commitPlan writes p with
              | error e => exact untouched
              | ok after =>
                  rw [accepted] at named
                  exact spared after named fun chain =>
                    spares_commitPlan chain accepted allows fun t member =>
                      unstored _ (careful.held t member)
          | _ => exact plainly trivial
      | _ => exact plainly trivial

end Ledger

/-! ## The roster -/

/-- A ledger, the tasks that were started and their posts, and every event
that was ever recorded. -/
structure Roster where
  surroundings : Surroundings
  tasks : List (Post × Flow Unit)
  recorded : List ChainEvent

namespace Roster

def ledger (w : Roster) : Ledger := w.surroundings.ledger

def start : Roster := ⟨⟨.empty, []⟩, [], []⟩

/-- The tasks without their posts. -/
def office (w : Roster) : Office := ⟨w.surroundings, w.tasks.map (·.2)⟩

/-- No task of the chain's pipeline is under way. -/
def Vacant (w : Roster) (chain : ChainId) : Prop :=
  ∀ j x, (.pipeline chain j, x) ∈ w.tasks → x = .done ()

inductive Step : Roster → Roster → Prop where
  /-- The pipeline of a chain turns to a message. -/
  | assign (w : Roster) (chain : ChainId) (j : Job) (vacant : w.Vacant chain)
      (fits : j.Fits chain (w.ledger.place chain)) :
      Step w { w with tasks := w.tasks ++ [(.pipeline chain j, j.flow)] }
  /-- A clerk starts.  The transfers that he brings have identifiers that
  nobody was given. -/
  | settle (w : Roster) (j : Job) (offChain : j.OffChain) (made : ∀ t ∈ j.brings, t.Made)
      (fresh : ∀ t ∈ j.brings, t.id.ulid ∉ w.surroundings.issued) :
      Step w
        { w with
          surroundings :=
            { w.surroundings with
              issued := j.brings.map (·.id.ulid) ++ w.surroundings.issued }
          tasks := w.tasks ++ [(.clerk, j.flow)] }
  /-- A task makes its next call. -/
  | turn (w : Roster) (k : Nat) (post : Post) (c : Call) (next : c.Reply → Flow Unit)
      (reply : c.Reply)
      (after : Surroundings) (running : w.tasks[k]? = some (post, .call c next))
      (permitted : w.surroundings.Permits c reply after) (described : c.Described reply) :
      Step w ⟨after, w.tasks.set k (post, next reply), w.recorded ++ c.recording w.ledger⟩
  /-- A task is stopped wherever it is. -/
  | stop (w : Roster) (k : Nat) (post : Post) (x : Flow Unit)
    (running : w.tasks[k]? = some (post, x)) :
      Step w { w with tasks := w.tasks.set k (post, .done ()) }
  /-- Somebody else makes a call that commits nothing. -/
  | other (w : Roster) (c : Ledger.Call) (plain : c.commits = false) :
      Step w { w with
        surroundings := { w.surroundings with ledger := (w.ledger.perform c).2 } }
  | wait (w : Roster) (ticks : Nat) :
      Step w { w with
        surroundings := { w.surroundings with ledger := w.ledger.wait ticks } }
  /-- The lease of a chain runs out. -/
  | expire (w : Roster) (chain : ChainId) :
      Step w { w with
        surroundings := { w.surroundings with ledger := w.ledger.expireLease chain } }

abbrev Run : Roster → Roster → Prop := Relation.ReflTransGen Step

/-- Of two tasks of one chain's pipeline, one has ended. -/
def Single (tasks : List (Post × Flow Unit)) : Prop :=
  ∀ (k l : Nat) (chain : ChainId) (i j : Job) (x y : Flow Unit), k ≠ l →
    tasks[k]? = some (.pipeline chain i, x) → tasks[l]? = some (.pipeline chain j, y) →
    x = .done () ∨ y = .done ()

/-- Identifiers are kept, every chain stands in its place with one pipeline at most, all
tasks keep to what they may do, and nothing that was recorded is lost. -/
structure InOrder (w : Roster) : Prop where
  tidy : ∃ holder, w.office.Tidy holder
  placed : w.ledger.WellPlaced
  single : Single w.tasks
  keeps : ∀ (k : Nat) (post : Post) (x : Flow Unit), w.tasks[k]? = some (post, x) →
    post.Keeps w.ledger x
  recorded : w.ledger.recordings.Perm w.recorded

variable {w after : Roster}

theorem inOrder_start : InOrder start where
  tidy := ⟨_, Office.tidy_start⟩
  placed := Ledger.wellPlaced_empty
  single := by simp [Single, start]
  keeps := by simp [start]
  recorded := by
    simp [start, ledger, Ledger.recordings, Ledger.empty, Table.values, Table.empty]

end Roster

namespace Post

variable {post : Post} {l after : Ledger}

theorem keeps_done (l : Ledger) (post : Post) : post.Keeps l (.done ()) := by
  cases post with
  | pipeline chain j => exact fun _ _ makes => makes.elim
  | clerk => trivial

theorem Keeps.allows {c : Call} {next : c.Reply → Flow Unit}
    (keeps : post.Keeps l (.call c next)) : post.Allows l c := by
  cases post with
  | pipeline chain j => exact keeps c _ (Or.inl ⟨rfl, rfl⟩)
  | clerk => exact keeps.1

/-- A job that fits is begun. -/
theorem keeps_of_fits {chain : ChainId} {j : Job} (fits : j.Fits chain (l.place chain)) :
    (pipeline chain j).Keeps l j.flow :=
  fun _ _ => Job.commits_of_makes (v := l.view chain) fits

/-- A task whose chain is spared keeps to what it may do. -/
theorem Keeps.spared {x : Flow Unit} (keeps : post.Keeps l x)
    (spares : ∀ chain, post.chain? = some chain → Ledger.Spares chain l after) :
    post.Keeps after x := by
  cases post with
  | pipeline chain j =>
      simp only [Keeps, (spares chain rfl).view]
      exact keeps
  | clerk => exact keeps

/-- So does the task whose turn it is. -/
theorem Keeps.next {c : Call} {next : c.Reply → Flow Unit} {s after : Surroundings}
    {reply : c.Reply} (keeps : post.Keeps s.ledger (.call c next))
    (named : s.ledger.TransfersNamed) (permitted : s.Permits c reply after)
    (described : c.Described reply) : post.Keeps after.ledger (next reply) := by
  cases post with
  | pipeline chain j =>
      intro d there makes
      exact keeps d there
        (Or.inr ⟨reply, _, named.seeing permitted described chain, makes⟩)
  | clerk => exact keeps.2 reply

end Post

theorem Ledger.recordings_onLedger (l : Ledger) (c : Paywatch.Call) :
    (c.onLedger l).recordings.Perm (l.recordings ++ c.recording l) := by
  cases c with
  | ledger c => exact l.recordings_perform c
  | _ => simp [Call.onLedger, Paywatch.Call.recording]

namespace Roster

variable {w after : Roster}

/-- A task goes on, or ends. -/
theorem Single.set {tasks : List (Post × Flow Unit)} {k : Nat} {post : Post}
    {x y : Flow Unit} (single : Single tasks) (running : tasks[k]? = some (post, x))
    (ends : x = .done () → y = .done ()) : Single (tasks.set k (post, y)) := by
  intro a b chain i j z z' different first second
  rcases getElem?_replaced first with ⟨rfl, same⟩ | ⟨-, old⟩ <;>
    rcases getElem?_replaced second with ⟨rfl, same'⟩ | ⟨-, old'⟩
  · exact absurd rfl different
  · cases same
    exact (single a b chain i j x z' different running old').imp_left ends
  · cases same'
    exact (single a b chain i j z x different old running).imp_right ends
  · exact single a b chain i j z z' different old old'

/-- A task is added. -/
theorem InOrder.added (inOrder : w.InOrder) {s : Surroundings} {post : Post}
    {x : Flow Unit} (same : s.ledger = w.ledger)
    (tidy : ∃ holder, Office.Tidy ⟨s, (w.tasks ++ [(post, x)]).map (·.2)⟩ holder)
    (vacant : ∀ chain, post.chain? = some chain → w.Vacant chain)
    (keeps : post.Keeps w.ledger x) :
    InOrder { w with surroundings := s, tasks := w.tasks ++ [(post, x)] } := by
  have ledgerSame :
      Roster.ledger { w with surroundings := s, tasks := w.tasks ++ [(post, x)] } =
        w.ledger := same
  constructor
  · exact tidy
  · rw [ledgerSame]
    exact inOrder.placed
  · intro k l chain i j y z different first second
    rcases getElem?_snoc.1 first with
      old | ⟨rfl, new⟩ <;> rcases getElem?_snoc.1 second with old' | ⟨rfl, new'⟩
    · exact inOrder.single k l chain i j y z different old old'
    · cases new'
      exact Or.inl (vacant chain rfl i y (List.mem_of_getElem? old))
    · cases new
      exact Or.inr (vacant chain rfl j z (List.mem_of_getElem? old'))
    · exact absurd rfl different
  · rw [ledgerSame]
    intro k post' y running
    rcases getElem?_snoc.1 running with old | ⟨-, new⟩
    · exact inOrder.keeps k post' y old
    · cases new
      exact keeps
  · rw [ledgerSame]
    exact inOrder.recorded

/-- The ledger changes, and all chains are spared. -/
theorem InOrder.spared (inOrder : w.InOrder) {l : Ledger}
    (records : Ledger.SameRecords w.ledger l)
    (places : ∀ chain, l.place chain = w.ledger.place chain) :
    InOrder { w with surroundings := { w.surroundings with ledger := l } } := by
  obtain ⟨holder, tidy⟩ := inOrder.tidy
  have spares : ∀ chain, Ledger.Spares chain w.ledger l :=
    fun chain => .of_place (places chain) records.transfers records.events
  constructor
  · exact (tidy.spared records.transfers).1
  · refine inOrder.placed.spared ?_ spares
    intro id t found
    exact inOrder.placed.named id t (records.transfers ▸ found)
  · exact inOrder.single
  · exact fun k post x running => (inOrder.keeps k post x running).spared fun chain _ =>
      spares chain
  · have same : l.recordings = w.ledger.recordings := by
      rw [Ledger.recordings, Ledger.recordings, records.events, records.orphans]
    exact same ▸ inOrder.recorded

/-- A task makes a call. -/
theorem InOrder.turned (inOrder : w.InOrder) {k : Nat} {post : Post} {c : Call}
    {next : c.Reply → Flow Unit} {reply : c.Reply} {s : Surroundings}
    (running : w.tasks[k]? = some (post, .call c next))
    (permitted : w.surroundings.Permits c reply s) (described : c.Described reply) :
    InOrder ⟨s, w.tasks.set k (post, next reply),
      w.recorded ++ c.recording w.ledger⟩ := by
  obtain ⟨holder, tidy⟩ := inOrder.tidy
  have atWork : w.office.tasks[k]? = some (.call c next) := by simp [office, running]
  have keeps := inOrder.keeps k post _ running
  have ledgerIs : s.ledger = c.onLedger w.ledger := permitted.ledger_eq
  obtain ⟨placed, spares⟩ :=
    inOrder.placed.turn keeps.allows (tidy.careful k _ atWork).first
    fun u held => (tidy.kept.held u k held).2
  rw [← ledgerIs] at placed spares
  constructor
  · have turned := (tidy.turned atWork permitted).1
    rwa [office, List.map_set]
  · exact placed
  · exact inOrder.single.set running nofun
  · intro j post' y found
    rcases getElem?_replaced found with ⟨rfl, same⟩ | ⟨other, old⟩
    · cases same
      exact keeps.next inOrder.placed.named permitted described
    · by_cases shared : ∃ chain, post.chain? = some chain ∧ post'.chain? = some chain
      · obtain ⟨chain, own, others⟩ := shared
        cases post with
        | clerk => cases own
        | pipeline _ i =>
            cases post' with
            | clerk => cases others
            | pipeline _ i' =>
                -- The other task of the chain has ended.
                cases own
                cases others
                rcases inOrder.single j k chain i' i y _ other old running with rfl | done
                · exact Post.keeps_done _ _
                · cases done
      · refine (inOrder.keeps j post' y old).spared fun chain isChain =>
          spares chain fun own => ?_
        exact shared ⟨chain, own, isChain⟩
  · show s.ledger.recordings.Perm _
    rw [ledgerIs]
    exact (w.ledger.recordings_onLedger c).trans (inOrder.recorded.append_right _)

/-- A task is stopped. -/
theorem InOrder.stopped (inOrder : w.InOrder) {k : Nat} {post : Post} {x : Flow Unit}
    (running : w.tasks[k]? = some (post, x)) :
    InOrder { w with tasks := w.tasks.set k (post, .done ()) } := by
  obtain ⟨holder, tidy⟩ := inOrder.tidy
  constructor
  · refine ⟨holder, tidy.kept, ?_, ?_⟩
    · simpa [office] using tidy.started
    · intro j y found
      simp only [office, List.map_set] at found
      rcases getElem?_replaced found with ⟨-, rfl⟩ | ⟨-, old⟩
      · exact Flow.careful_pure ()
      · exact tidy.careful j y old
  · exact inOrder.placed
  · exact inOrder.single.set running fun _ => rfl
  · intro j post' y found
    rcases getElem?_replaced found with ⟨rfl, same⟩ | ⟨-, old⟩
    · cases same
      exact Post.keeps_done _ _
    · exact inOrder.keeps j post' y old
  · exact inOrder.recorded

theorem inOrder_step (inOrder : w.InOrder) (step : Step w after) : after.InOrder := by
  cases step with
  | assign chain j vacant fits =>
      refine inOrder.added rfl ?_ ?_ (Post.keeps_of_fits fits)
      · obtain ⟨holder, tidy⟩ := inOrder.tidy
        have nothing : j.brings = [] := by
          cases j with
          | block => rfl
          | revert => rfl
          | _ => exact fits.elim
        have started := tidy.started_job j (by simp [nothing]) (by simp [nothing])
        simpa [nothing, office] using started
      · rintro _ ⟨⟩
        exact vacant
  | settle j offChain made fresh =>
      refine inOrder.added rfl ?_ (by rintro _ ⟨⟩) offChain.only
      obtain ⟨holder, tidy⟩ := inOrder.tidy
      simpa [office] using tidy.started_job j made fresh
  | turn k post c next reply s running permitted described =>
      exact inOrder.turned running permitted described
  | stop k post x running => exact inOrder.stopped running
  | other c plain =>
      refine inOrder.spared (Ledger.sameRecords_perform w.ledger plain) fun chain => ?_
      exact congrArg View.place (Ledger.spares_perform w.ledger chain plain).view
  | wait ticks => exact inOrder.spared ⟨rfl, rfl, rfl, rfl⟩ fun _ => rfl
  | expire chain => exact inOrder.spared ⟨rfl, rfl, rfl, rfl⟩ fun _ => rfl

theorem inOrder_run (run : Run start w) : w.InOrder := by
  induction run with
  | refl => exact inOrder_start
  | tail _ step ih => exact inOrder_step ih step

/-- Whatever pipelines and clerks do side by side, and whenever:  everything that
was recorded is live or an orphan, each recording once, and nothing of a chain that
is live or waits lies above its watermark.  A reorganisation that commits takes back
its range, all of it and nothing else, and afterwards nothing of its chain lies
above the fork point. -/
theorem revert_exact (run : Run start w) :
    w.ledger.recordings.Perm w.recorded ∧ (∀ chain, w.ledger.Level chain) ∧
      ∀ (k : Nat) (chain : ChainId) (i : Ingest) (lease : Lease) (range : RevertedRange)
        (batch : Batch) (next : Except LedgerError Unit → Flow Unit) (after : Ledger),
        w.tasks[k]? =
          some (.pipeline chain (.revert i lease range),
            .call (.ledger (.commit batch)) next) →
        w.ledger.commit batch = .ok after →
        range.chain = chain ∧ w.ledger.TakenBack range after ∧ after.Level chain := by
  have inOrder := inOrder_run run
  refine ⟨inOrder.recorded, inOrder.placed.level, ?_⟩
  intro k chain i lease range batch next after running accepted
  rcases (inOrder.keeps k _ _ running).allows with plain | ⟨batch', same, reverts⟩
  · exact plain.elim
  · cases same
    have reverts : batch.Reverts range chain (w.ledger.view chain) := reverts
    have takenBack :=
      Ledger.takenBack_of_commit inOrder.placed.named (inOrder.placed.retained chain)
        reverts accepted
    obtain rfl := reverts.rangeChain
    exact ⟨rfl, takenBack, takenBack.level (inOrder.placed.level _) reverts.follows⟩

/-! ## A reorganisation while others are at work -/

instance (range : RevertedRange) (p : Place) : Decidable (range.Follows p) :=
  decidable_of_iff (range.fromHeight.toNat = range.forkPoint.height.toNat + 1 ∧
      p.mark.all fun mark => mark.height = range.toHeight ∨ mark = range.forkPoint) (by
    simp only [Option.all_eq_true, decide_eq_true_eq]
    exact ⟨fun ⟨fromFork, fromMark⟩ => ⟨fromFork, fromMark⟩,
      fun follows => ⟨follows.fromFork, follows.fromMark⟩⟩)

instance (chain : ChainId) (p : Place) : (j : Job) → Decidable (j.Fits chain p)
  | .block i lease b _ => inferInstanceAs (Decidable
      (i.chain = chain ∧ lease.chain = chain ∧ b.chain = chain))
  | .revert i lease range => inferInstanceAs (Decidable
      (i.chain = chain ∧ lease.chain = chain ∧ range.chain = chain ∧ range.Follows p))
  | .settle .. | .payment .. | .booking .. => isFalse id

/-- What happens next in a roster that is played. -/
inductive Act where
  | acquire (chain : ChainId) (holder : String) (ttl : Nat)
  | assign (chain : ChainId) (j : Job)
  /-- A task makes its next call. -/
  | go (k : Nat)

/-- No task of the chain's pipeline has a call to make. -/
def isVacant (w : Roster) (chain : ChainId) : Bool :=
  w.tasks.all fun
    | (.pipeline c _, .call ..) => c != chain
    | _ => true

/-- The roster afterwards, with nodes and identifiers as they are for a
flow that runs alone. -/
def act (catalog : Catalog) (n : Nodes) (w : Roster) : Act → Option Roster
  | .acquire chain holder ttl =>
    let acquired := (w.ledger.perform (.acquire chain holder ttl)).2
    some { w with surroundings := { w.surroundings with ledger := acquired } }
  | .assign chain j =>
    if w.isVacant chain ∧ j.Fits chain (w.ledger.place chain) then
      some { w with tasks := w.tasks ++ [(.pipeline chain j, j.flow)] }
    else none
  | .go k =>
    match w.tasks[k]? with
    | some (post, .call c next) =>
      if w.surroundings.keepsPromise c then
        let (reply, after) := w.surroundings.perform catalog n c
        some ⟨after, w.tasks.set k (post, next reply), w.recorded ++ c.recording w.ledger⟩
      else none
    | _ => none

theorem vacant_of_isVacant {chain : ChainId} (isVacant : w.isVacant chain = true) :
    w.Vacant chain := by
  intro j x member
  have free := List.all_eq_true.1 isVacant _ member
  cases x with
  | done u => rfl
  | call c next => simp at free

theorem step_of_act {entries : List TargetEntry} {catalog : Catalog}
    (listed : Catalog.ofEntries entries = .ok catalog) {n : Nodes} {a : Act}
    (played : act catalog n w a = some after) : Step w after := by
  cases a with
  | acquire chain holder ttl =>
      cases played
      exact .other w _ rfl
  | assign chain j =>
      obtain ⟨⟨free, fits⟩, same⟩ := Option.ite_none_right_eq_some.1 played
      cases same
      exact .assign w chain j (vacant_of_isVacant free) fits
  | go k =>
      simp only [act] at played
      split at played
      · rename_i post c next running
        obtain ⟨promise, same⟩ := Option.ite_none_right_eq_some.1 played
        cases same
        refine .turn w k post c next _ _ running
          (Surroundings.answers_perform promise).permits ?_
        cases c with
        | watchlist chain => exact ⟨entries, catalog, listed, rfl⟩
        | _ => trivial
      · cases played

theorem run_of_play {n : Nodes} {acts : List Act}
    (played : acts.foldlM (act Session.sampleCatalog n) w = some after) :
    Run w after := by
  apply reflTransGen_of_foldlM ?_ played
  intro there a next acted
  exact step_of_act Session.listed_sampleCatalog acted

/-- A payment is ingested, and then its block is to be taken back. -/
def turningBack : List Act :=
  [.acquire ⟨1⟩ "worker" 10,
    .assign ⟨1⟩
      (.block Session.sampleIngest Session.sampleLease
        ⟨⟨1⟩, 2, "0xa2", "0x01", 0⟩ true)] ++
    .replicate 7 (.go 0) ++
    [.assign ⟨1⟩
      (.revert Session.sampleIngest Session.sampleLease ⟨⟨1⟩, 2, 2, ⟨1, "0x01"⟩⟩), .go 1]

/-- The second task is about to commit, and what it commits makes an orphan of an event
and reverts a transfer. -/
def isTurning (w : Roster) : Bool :=
  match w.tasks[1]? with
  | some (Post.pipeline _ (.revert ..), Flow.call (.ledger (.commit batch)) _) =>
    match w.ledger.commit batch with
    | .ok after =>
        !after.orphans.isEmpty && after.transfers.values.any (·.status == .reverted)
    | .error _ => false
  | _ => false

/-- The payment is reverted, and its event is an orphan. -/
theorem revert_exact_turning_back :
    ∃ w range after, Run start w ∧ w.ledger.TakenBack range after ∧
    after.Level range.chain ∧ after.orphans ≠ [] ∧
      ∃ t ∈ after.transfers.values, t.status = .reverted := by
  have played :
      (turningBack.foldlM (act Session.sampleCatalog Session.homeBranch) start).any
        isTurning = true := by
    decide +kernel
  obtain ⟨w, reached, turning⟩ := (Option.any_eq_true _ _).1 played
  have run := run_of_play reached
  unfold isTurning at turning
  split at turning
  · rename_i chain i lease range batch next running
    split at turning
    · rename_i after accepted
      obtain ⟨rfl, takenBack, level⟩ :=
        (revert_exact run).2.2 1 _ i lease range batch next after running accepted
      rw [Bool.and_eq_true, Bool.not_eq_true', List.isEmpty_eq_false_iff,
        List.any_eq_true] at turning
      obtain ⟨orphans, t, member, status⟩ := turning
      exact ⟨w, range, after, run, takenBack, level, orphans, t, member,
        beq_iff_eq.1 status⟩
    · cases turning
  · cases turning

end Roster

end Paywatch
