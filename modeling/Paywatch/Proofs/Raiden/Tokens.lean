import Paywatch.Proofs.Raiden.Reading

/-!
# Tokens beside each other

A reading asks for the payments of one token after the other, and the first failure ends
it.  What becomes of one token could therefore depend on another one in two ways:
through what is recorded, if their payments have keys in common, and because the reading
is broken off before.  Two readings that differ in nothing but what is listed for one
token, and in which of its payments are refused, show that there is no third way.  They
treat another token alike, unless one of them was broken off before it.
-/

namespace Paywatch

namespace Desk

/-- The places from which on the payments of the token were asked for. -/
def placesOf (s : Desk) (token : Address) : List Nat :=
  (s.asked.filter (·.1 == token)).map Prod.snd

variable {s after : Desk}

theorem placesOf_append {new : List (Address × Nat)}
    (asked : after.asked = s.asked ++ new) (token : Address) :
    after.placesOf token = s.placesOf token ++
      (new.filter (·.1 == token)).map Prod.snd := by
  rw [placesOf, asked, List.filter_append, List.map_append, placesOf]

end Desk

namespace Poller

variable {c c' : Circumstances} {p p' mid mid' q q' : Poller} {token a b : Address}
variable {s s' there there' after after' : Desk} {tokens rest : List Address}
variable {broke broke' : Option RaidenError} {result result' : Except RaidenError Nat}

/-! ## One reading -/

/-- Nothing can be read of a token from this place on, or a payment that is
listed there was refused. -/
def Fails (c : Circumstances) (p : Poller) (token : Address) (place : Nat)
    (after : Desk) : Prop :=
  (∃ e, c.feed token place = .error e) ∨
    ∃ events e key, c.feed token place = .ok events ∧ e ∈ events ∧ p.Files token e key ∧
      c.refuses key ≠ none ∧ ¬ after.Knows key

/-- How far a reading came with its tokens, where it asked for these places. -/
structure Came (c : Circumstances) (p : Poller) (s : Desk) (tokens : List Address)
    (q : Poller) (result : Except RaidenError Nat) (after : Desk)
    (asked : List (Address × Nat)) : Prop where
  order : asked.map Prod.fst <+: tokens
  whole : ∀ total, result = .ok total → asked.map Prod.fst = tokens
  /-- A reading is broken off by the token that was asked for last. -/
  broken : ∀ e, result = .error e → ∃ token place, asked.getLast? = some (token, place) ∧
    p.Fails c token place after
  /-- A token is asked for from its own place on, or keeps it. -/
  places : ∀ token, (asked.find? (·.1 == token) = none ∧
    q.offset token = p.offset token) ∨
    asked.find? (·.1 == token) = some (token, p.offset token)
  /-- Of every token that did not break the reading off all is done with
  that was listed. -/
  complete : ∀ token place, (token, place) ∈ asked →
    (∃ events, c.feed token place = .ok events ∧ place + events.length ≤ q.offset token) ∨
      (∃ e, result = .error e) ∧ asked.getLast? = some (token, place)
  /-- The payments that are done with are recorded. -/
  recorded : ∀ token place events k e key, (token, place) ∈ asked →
  c.feed token place = .ok events →
    events[k]? = some e → place + k < q.offset token → p.Files token e key →
    after.Knows key
  /-- What was known is known, and so is nothing else but what was listed. -/
  kept : ∀ key, s.Knows key → after.Knows key
  listed : ∀ key, after.Knows key → s.Knows key ∨
  ∃ token place events e, (token, place) ∈ asked ∧
    c.feed token place = .ok events ∧ e ∈ events ∧ p.Files token e key

theorem Visit.asked (visit : p.Visit c s token broke q after) :
    after.asked = s.asked ++ [(token, p.offset token)] := by
  cases visit <;> assumption

theorem Visit.files (visit : p.Visit c s token broke q after) : q.Files = p.Files := by
  cases visit <;> rfl

/-- Only the place of the token may change. -/
theorem Visit.offset_of_ne (visit : p.Visit c s token broke q after) (other : a ≠ token) :
    q.offset a = p.offset a := by
  cases visit with
  | unfed e after fed still asked => rfl
  | _ => rw [offset_movedTo, if_neg other]

theorem Visit.offset_le (visit : p.Visit c s token broke q after) (a : Address) :
    p.offset a ≤ q.offset a := by
  cases visit with
  | unfed e after fed still asked => exact Nat.le_refl _
  | _ => exact offset_le_movedTo (Nat.le_add_right _ _) a

/-- What is listed for the token is passed up to the first payment whose key is unknown
and refused, and that one breaks the reading off. -/
theorem Visit.of_fed (visit : p.Visit c s token broke q after)
    {events : List PaymentEvent} (fed : c.feed token (p.offset token) = .ok events) :
    ∃ k, q = p.movedTo token (p.offset token + k) ∧
      p.Passes c token (events.take k) s after ∧
      k ≤ events.length ∧ (broke.isSome = true ↔ k < events.length) ∧
        ∀ e, events[k]? = some e →
        ∃ key, p.Files token e key ∧ ¬ s.Knows key ∧ c.refuses key ≠ none := by
  cases visit with
  | passed events' after fed' passes asked =>
      rw [fed] at fed'
      cases fed'
      exact ⟨events.length,
        rfl, by rwa [List.take_length], Nat.le_refl _, by simp, by simp⟩
  | unfed e after fed' still asked =>
      rw [fed] at fed'
      cases fed'
  | refused events' k e key err after fed' entry passes files unknown refuses asked =>
      rw [fed] at fed'
      cases fed'
      have inside := (List.getElem?_eq_some_iff.1 entry).1
      refine ⟨k, rfl, passes, Nat.le_of_lt inside, iff_of_true rfl inside,
        fun d found => ?_⟩
      rw [entry] at found
      cases found
      exact ⟨key, files, fun known => unknown ((passes.knows key).2 (Or.inl known)),
        refuses⟩

theorem Visit.of_passed (visit : p.Visit c s token none q after) :
    ∃ events, c.feed token (p.offset token) = .ok events ∧
      q.offset token = p.offset token + events.length := by
  cases visit with
  | passed events after fed passes asked =>
      exact ⟨events, fed, by rw [offset_movedTo, if_pos rfl]⟩

theorem Visit.of_unfed (visit : p.Visit c s token broke q after) {e : FeedError}
    (fed : c.feed token (p.offset token) = .error e) :
    broke.isSome = true ∧ q = p ∧ Desk.Still s after := by
  cases visit with
  | unfed e' after fed' still asked => exact ⟨rfl, rfl, still⟩
  | passed events after fed' passes asked =>
      rw [fed] at fed'
      cases fed'
  | refused events k e key err after fed' entry passes files unknown refuses asked =>
      rw [fed] at fed'
      cases fed'

/-- What comes to be known are keys of entries that are listed for the token. -/
theorem Visit.knows (visit : p.Visit c s token broke q after) :
    ∃ events : List PaymentEvent,
      (∀ e ∈ events, ∃ listed, c.feed token (p.offset token) = .ok listed ∧ e ∈ listed) ∧
      ∀ key, after.Knows key ↔ s.Knows key ∨ ∃ e ∈ events, p.Files token e key := by
  cases visit with
  | passed events after fed passes asked =>
      exact ⟨events, fun e member => ⟨events, fed, member⟩, passes.knows⟩
  | unfed e after fed still asked =>
      exact ⟨[], by simp, fun key => by simp [still.knows_iff]⟩
  | refused events k e key err after fed entry passes files unknown refuses asked =>
      exact ⟨events.take k, fun e member => ⟨events, fed, List.mem_of_mem_take member⟩,
        passes.knows⟩

theorem Visit.keeps (visit : p.Visit c s token broke q after) {key : String}
    (known : s.Knows key) : after.Knows key := by
  obtain ⟨events, -, knows⟩ := visit.knows
  exact (knows key).2 (Or.inl known)

theorem Visit.listed (visit : p.Visit c s token broke q after) {key : String}
    (known : after.Knows key) :
    s.Knows key ∨ ∃ events e, c.feed token (p.offset token) = .ok events ∧ e ∈ events ∧
      p.Files token e key := by
  obtain ⟨events, listed, knows⟩ := visit.knows
  refine ((knows key).1 known).imp id ?_
  rintro ⟨e, member, files⟩
  obtain ⟨all, fed, among⟩ := listed e member
  exact ⟨all, e, fed, among, files⟩

theorem Visit.fails {e : RaidenError} (visit : p.Visit c s token (some e) q after) :
    p.Fails c token (p.offset token) after := by
  cases visit with
  | unfed e after fed still asked => exact Or.inl ⟨e, fed⟩
  | refused events k e key err after fed entry passes files unknown refuses asked =>
      exact Or.inr ⟨events, e, key, fed, List.mem_of_getElem? entry, files,
        refuses, unknown⟩

/-- The entries before the place that a token came to are recorded. -/
theorem Visit.recorded (visit : p.Visit c s token broke q after)
    {events : List PaymentEvent} (fed : c.feed token (p.offset token) = .ok events)
    {k : Nat} {e : PaymentEvent} {key : String} (entry : events[k]? = some e)
    (done : broke = none ∨ p.offset token + k < q.offset token)
    (files : p.Files token e key) : after.Knows key := by
  obtain ⟨n, rfl, passes, inside, isBroken, -⟩ := visit.of_fed fed
  rw [offset_movedTo, if_pos rfl] at done
  have before : k < n := by
    rcases done with rfl | done
    · have whole : ¬ n < events.length := fun short => nomatch isBroken.2 short
      have entryInside := (List.getElem?_eq_some_iff.1 entry).1
      omega
    · omega
  refine (passes.knows key).2 (Or.inr ⟨e, ?_, files⟩)
  exact List.mem_of_getElem? ((List.getElem?_take_of_lt before).trans entry)

theorem Reading.offset_le (reading : Reading c p s tokens q result after) (a : Address) :
    p.offset a ≤ q.offset a := by
  induction reading with
  | finished p s total => exact Nat.le_refl _
  | past visit reading ih => exact Nat.le_trans (visit.offset_le a) ih
  | broken visit => exact visit.offset_le a

/-- A reading that is broken off by a token has asked for nothing else. -/
theorem Visit.came {e : RaidenError} (visit : p.Visit c s token (some e) q after)
    (rest : List Address) :
    Came c p s (token :: rest) q (.error e) after [(token, p.offset token)] where
  order := by simp
  whole := fun _ => nofun
  broken := fun _ _ => ⟨token, _, rfl, visit.fails⟩
  places a := by
    by_cases here : a = token
    · exact Or.inr (by simp [here])
    · exact Or.inl ⟨by simp [Ne.symm here], visit.offset_of_ne here⟩
  complete a place member := by
    rw [List.mem_singleton.1 member]
    exact Or.inr ⟨⟨e, rfl⟩, rfl⟩
  recorded a place events k d key member fed entry done files := by
    cases List.mem_singleton.1 member
    exact visit.recorded fed entry (Or.inr done) files
  kept _ := visit.keeps
  listed key known := by
    refine (visit.listed known).imp id ?_
    rintro ⟨events, d, fed, member, files⟩
    exact ⟨token, _, events, d, List.mem_cons_self, fed, member, files⟩

/-- A token that is done with comes before the others. -/
theorem Came.cons (visit : p.Visit c s token none mid there)
    (onward : ∀ a, mid.offset a ≤ q.offset a) {asked : List (Address × Nat)}
    (came : Came c mid there rest q result after asked) :
    Came c p s (token :: rest) q result after ((token, p.offset token) :: asked) := by
  have last : ∀ {entry}, asked.getLast? = some entry →
      ((token, p.offset token) :: asked).getLast? = some entry := by
    intro entry found
    rw [List.getLast?_cons, found]
    rfl
  constructor
  case order => exact (List.prefix_cons_inj token).2 came.order
  case whole => exact fun total ok => congrArg (token :: ·) (came.whole total ok)
  case broken =>
    intro e failed
    obtain ⟨a, place, found, fails⟩ := came.broken e failed
    rw [Fails, visit.files] at fails
    exact ⟨a, place, last found, fails⟩
  case places =>
    intro a
    by_cases here : a = token
    · exact Or.inr (by simp [here])
    · rw [List.find?_cons_of_neg (by simpa using Ne.symm here), ← visit.offset_of_ne here]
      exact came.places a
  case complete =>
    intro a place member
    rcases List.mem_cons.1 member with here | later
    · cases here
      obtain ⟨events, fed, moved⟩ := visit.of_passed
      exact Or.inl ⟨events, fed, moved ▸ onward token⟩
    · exact (came.complete a place later).imp id fun ⟨failed, found⟩ =>
        ⟨failed, last found⟩
  case recorded =>
    intro a place events k d key member fed entry done files
    rcases List.mem_cons.1 member with here | later
    · cases here
      exact came.kept key (visit.recorded fed entry (Or.inl rfl) files)
    · exact came.recorded a place events k d key later fed entry done
        (visit.files ▸ files)
  case kept => exact fun key known => came.kept key (visit.keeps known)
  case listed =>
    intro key known
    rcases came.listed key known with
      known | ⟨a, place, events, e, member, fed, among, files⟩
    · refine (visit.listed known).imp id ?_
      rintro ⟨events, e, fed, member, files⟩
      exact ⟨token, _, events, e, List.mem_cons_self, fed, member, files⟩
    · exact Or.inr ⟨a, place, events, e, List.mem_cons_of_mem _ member, fed, among,
        visit.files ▸ files⟩

theorem Reading.came (reading : Reading c p s tokens q result after) :
    ∃ asked, after.asked = s.asked ++ asked ∧ Came c p s tokens q result after asked := by
  induction reading with
  | finished p s total =>
      refine ⟨[], (List.append_nil _).symm, ?_⟩
      exact ⟨List.prefix_refl _, fun _ _ => rfl, fun _ => nofun,
        fun _ => Or.inl ⟨rfl, rfl⟩, by simp, by simp,
        fun _ => id, fun _ => Or.inl⟩
  | broken visit => exact ⟨_, visit.asked, visit.came _⟩
  | past visit reading ih =>
      obtain ⟨asked, more, came⟩ := ih
      refine ⟨_, ?_, came.cons visit reading.offset_le⟩
      rw [more, visit.asked, List.append_assoc, List.singleton_append]

end Poller

/-! ## Two readings -/

namespace Circumstances

variable {c c' : Circumstances} {p : Poller} {a token : Address} {key : String}

/-- Somewhere a payment of the token is listed that is recorded under this key. -/
def Lists (c : Circumstances) (p : Poller) (token : Address) (key : String) : Prop :=
  ∃ place events e, c.feed token place = .ok events ∧ e ∈ events ∧ p.Files token e key

/-- In one of two circumstances a payment of the token is listed under this key. -/
def EitherLists (c c' : Circumstances) (p : Poller) (token : Address) (key : String) :
    Prop :=
  c.Lists p token key ∨ c'.Lists p token key

/-- The circumstances differ in nothing but what is listed for the token, and in which
of its payments are refused. -/
structure AlikeBut (c c' : Circumstances) (p : Poller) (token : Address) : Prop where
  feed : ∀ other place, other ≠ token → c'.feed other place = c.feed other place
  refuses : ∀ key, ¬ c.EitherLists c' p token key → c'.refuses key = c.refuses key

/-- The payments of the two tokens have no key in common. -/
def Apart (c c' : Circumstances) (p : Poller) (token other : Address) : Prop :=
  ∀ key, c.EitherLists c' p other key → ¬ c.EitherLists c' p token key

theorem eitherLists_comm : c.EitherLists c' p token key ↔ c'.EitherLists c p token key :=
  or_comm

theorem AlikeBut.symm (alike : c.AlikeBut c' p a) : c'.AlikeBut c p a where
  feed other place different := (alike.feed other place different).symm
  refuses key unlisted := (alike.refuses key (mt eitherLists_comm.1 unlisted)).symm

theorem apart_comm : c.Apart c' p a token ↔ c'.Apart c p a token := by
  simp only [Apart, EitherLists, or_comm]

end Circumstances

namespace Poller

variable {c c' : Circumstances} {base p p' mid mid' q q' : Poller} {token a b : Address}
variable {s s' there there' after after' : Desk} {tokens rest : List Address}
variable {broke broke' : Option RaidenError} {result result' : Except RaidenError Nat}

/-- A payment of the token is listed under this key, and no payment of any other one. -/
def Owns (c c' : Circumstances) (p : Poller) (token : Address) (key : String) : Prop :=
  c.EitherLists c' p token key ∧ ∀ other, other ≠ token → ¬ c.EitherLists c' p other key

/-- The two readings have asked for the payments of the token at the same places, have
come to the same place, and leave the same of its payments recorded. -/
structure TreatAlike (c c' : Circumstances) (p : Poller) (token : Address) (q q' : Poller)
    (after after' : Desk) : Prop where
  places : after'.placesOf token = after.placesOf token
  offset : q'.offset token = q.offset token
  knows : ∀ key, Owns c c' p token key → (after'.Knows key ↔ after.Knows key)

/-- The first of two readings was broken off by `a`, or by a token that has a
key in common with it, when `b` was still to come, and has asked for `b` less
often than the second one. -/
def BrokenOff (c c' : Circumstances) (p : Poller) (tokens : List Address) (a b : Address)
    (result : Except RaidenError Nat) (after after' : Desk) : Prop :=
  (∃ e, result = .error e) ∧ (after.placesOf b).length < (after'.placesOf b).length ∧
    ∃ token place, after.asked.getLast? = some (token, place) ∧
    (token = a ∨ ¬ c.Apart c' p a token) ∧
      ∃ front back, tokens = front ++ token :: back ∧ b ∈ back

/-- Two readings go the same way, but for what concerns `a`. -/
structure Aligned (c c' : Circumstances) (base : Poller) (a : Address) (p p' : Poller)
    (s s' : Desk) : Prop where
  files : p.Files = base.Files
  files' : p'.Files = base.Files
  offset : ∀ token, token ≠ a → p'.offset token = p.offset token
  places : ∀ token, token ≠ a → s'.placesOf token = s.placesOf token
  knows : ∀ key, ¬ c.EitherLists c' base a key → (s'.Knows key ↔ s.Knows key)

/-- A key comes to be known only if it is listed. -/
theorem Visit.knows_iff (visit : p.Visit c s token broke q after) {key : String}
    (unlisted : ¬ c.Lists p token key) : after.Knows key ↔ s.Knows key := by
  refine ⟨fun known => (visit.listed known).elim id ?_, visit.keeps⟩
  rintro ⟨events, e, fed, member, files⟩
  exact absurd ⟨_, events, e, fed, member, files⟩ unlisted

theorem Visit.placesOf (visit : p.Visit c s token broke q after) (a : Address) :
    after.placesOf a = s.placesOf a ++ if a = token then [p.offset token] else [] := by
  rw [Desk.placesOf_append visit.asked]
  by_cases here : a = token
  · simp [here]
  · simp [here, Ne.symm here]

theorem lists_iff (files : p.Files = base.Files) {key : String} :
    c.Lists p token key ↔ c.Lists base token key := by
  simp only [Circumstances.Lists, files]

namespace Aligned

theorem symm (aligned : Aligned c c' base a p p' s s') :
    Aligned c' c base a p' p s' s where
  files := aligned.files'
  files' := aligned.files
  offset token other := (aligned.offset token other).symm
  places token other := (aligned.places token other).symm
  knows key unlisted :=
    (aligned.knows key (mt Circumstances.eitherLists_comm.1 unlisted)).symm

/-- One token more has been visited by both readings. -/
theorem onward (aligned : Aligned c c' base a p p' s s')
    (visit : p.Visit c s token broke mid there)
    (visit' : p'.Visit c' s' token broke' mid' there')
    (offset : token ≠ a → mid'.offset token = mid.offset token)
    (knows : ∀ key, ¬ c.EitherLists c' base a key →
      (there'.Knows key ↔ there.Knows key)) :
    Aligned c c' base a mid mid' there there' where
  files := visit.files.trans aligned.files
  files' := visit'.files.trans aligned.files'
  offset other different := by
    by_cases here : other = token
    · exact here ▸ offset (here ▸ different)
    · rw [visit.offset_of_ne here, visit'.offset_of_ne here,
        aligned.offset other different]
  places other different := by
    rw [visit.placesOf, visit'.placesOf, aligned.places other different]
    by_cases here : other = token
    · rw [if_pos here, if_pos here, ← here, aligned.offset other different]
    · rw [if_neg here, if_neg here]
  knows := knows

/-- What is listed for `a` does not bring readings out of line. -/
theorem own (aligned : Aligned c c' base a p p' s s')
    (visit : p.Visit c s a broke mid there)
    (visit' : p'.Visit c' s' a broke' mid' there') :
    Aligned c c' base a mid mid' there there' := by
  refine aligned.onward visit visit' (fun other => absurd rfl other) fun key unlisted =>
    ?_
  obtain ⟨here, there⟩ := not_or.1 unlisted
  rw [visit.knows_iff (by rwa [lists_iff aligned.files]),
    visit'.knows_iff (by rwa [lists_iff aligned.files'])]
  exact aligned.knows key unlisted

/-- Neither do the same entries of another token. -/
theorem level (aligned : Aligned c c' base a p p' s s') (other : token ≠ a)
    (visit : p.Visit c s token broke mid there)
    (visit' : p'.Visit c' s' token broke' mid' there') {events : List PaymentEvent}
    {k : Nat} (here : mid = p.movedTo token (p.offset token + k))
    (here' : mid' = p'.movedTo token (p'.offset token + k))
    (passes : p.Passes c token events s there)
    (passes' : p'.Passes c' token events s' there') :
    Aligned c c' base a mid mid' there there' := by
  refine aligned.onward visit visit' (fun _ => ?_) fun key unlisted => ?_
  · rw [here, here', offset_movedTo, offset_movedTo, if_pos rfl, if_pos rfl,
      aligned.offset token other]
  · rw [passes.knows, passes'.knows, aligned.files, aligned.files',
      aligned.knows key unlisted]

/-- As long as no reading is broken off, they stay in line. -/
theorem passed (aligned : Aligned c c' base a p p' s s') (alike : c.AlikeBut c' base a)
    (visit : p.Visit c s token none mid there)
    (visit' : p'.Visit c' s' token none mid' there') :
    Aligned c c' base a mid mid' there there' := by
  by_cases other : token = a
  · subst other
    exact aligned.own visit visit'
  have fed : c'.feed token (p'.offset token) = c.feed token (p.offset token) := by
    rw [aligned.offset token other, alike.feed token _ other]
  cases told : c.feed token (p.offset token) with
  | error e => cases (visit.of_unfed told).1
  | ok events =>
      obtain ⟨k, here, passes, inside, isBroken, -⟩ := visit.of_fed told
      obtain ⟨k', here', passes', inside', isBroken', -⟩ := visit'.of_fed (fed.trans told)
      have whole : ¬ k < events.length := fun short => nomatch isBroken.2 short
      have whole' : ¬ k' < events.length := fun short => nomatch isBroken'.2 short
      obtain rfl : k' = k := by omega
      exact aligned.level other visit visit' here here' passes passes'

/-- The first reading passes as many entries as the second one, provided that
they have no key of `a`. -/
theorem as_far (aligned : Aligned c c' base a p p' s s') (alike : c.AlikeBut c' base a)
    {events : List PaymentEvent} {n k : Nat} (inside : n ≤ events.length)
    (passes : p'.Passes c' token (events.take n) s' there')
    (free : ∀ e ∈ events, ∀ key, base.Files token e key → ¬ c.EitherLists c' base a key)
    (stops : ∀ e, events[k]? = some e → ∃ key, p.Files token e key ∧ ¬ s.Knows key ∧
      c.refuses key ≠ none) :
    n ≤ k := by
  by_contra short
  have before : k < n := Nat.lt_of_not_le short
  have entry := List.getElem?_eq_getElem (Nat.lt_of_lt_of_le before inside)
  obtain ⟨key, files, unknown, refuses⟩ := stops _ entry
  have among := List.mem_of_getElem? ((List.getElem?_take_of_lt before).trans entry)
  rw [aligned.files] at files
  have unlisted := free _ (List.mem_of_mem_take among) key files
  rcases passes.accepts _ among key (aligned.files' ▸ files) with known | accepts
  · exact unknown ((aligned.knows key unlisted).1 known)
  · exact refuses ((alike.refuses key unlisted).symm.trans accepts)

/-- A token that has no key of `a` breaks off both readings or neither,
and they stay in line. -/
theorem apart (aligned : Aligned c c' base a p p' s s') (alike : c.AlikeBut c' base a)
    (other : token ≠ a) (free : c.Apart c' base a token)
    (visit : p.Visit c s token broke mid there)
    (visit' : p'.Visit c' s' token broke' mid' there') :
    broke'.isSome = broke.isSome ∧ Aligned c c' base a mid mid' there there' := by
  have fed : c'.feed token (p'.offset token) = c.feed token (p.offset token) := by
    rw [aligned.offset token other, alike.feed token _ other]
  cases told : c.feed token (p.offset token) with
  | error e =>
      obtain ⟨isBroken, rfl, still⟩ := visit.of_unfed told
      obtain ⟨isBroken', rfl, still'⟩ := visit'.of_unfed (fed.trans told)
      refine ⟨isBroken'.trans isBroken.symm,
        aligned.onward visit visit' (fun _ => aligned.offset token other) ?_⟩
      intro key unlisted
      rw [still.knows_iff, still'.knows_iff, aligned.knows key unlisted]
  | ok events =>
      obtain ⟨k, here, passes, inside, isBroken, stops⟩ := visit.of_fed told
      obtain ⟨k', here', passes', inside', isBroken', stops'⟩ :=
        visit'.of_fed (fed.trans told)
      have unlisted : ∀ e ∈ events, ∀ key, base.Files token e key →
        ¬ c.EitherLists c' base a key :=
        fun e member key files => free key (Or.inl ⟨_, events, e, told, member, files⟩)
      have far : k' ≤ k := aligned.as_far alike inside' passes' unlisted stops
      have far' : k ≤ k' := aligned.symm.as_far alike.symm inside passes
        (fun e member key files => mt Circumstances.eitherLists_comm.2
          (unlisted e member key files)) stops'
      obtain rfl := Nat.le_antisymm far far'
      refine ⟨?_, aligned.level other visit visit' here here' passes passes'⟩
      rw [Bool.eq_iff_iff, isBroken, isBroken']

end Aligned

theorem TreatAlike.symm (treat : TreatAlike c c' p token q q' after after') :
    TreatAlike c' c p token q' q after' after where
  places := treat.places.symm
  offset := treat.offset.symm
  knows key owns := by
    simp only [Owns, Circumstances.eitherLists_comm (c := c')] at owns
    exact (treat.knows key owns).symm

/-- In line with each other readings treat every token alike but `a`. -/
theorem Aligned.treatAlike (aligned : Aligned c c' base a p p' s s') (different : b ≠ a) :
    TreatAlike c c' base b p p' s s' where
  places := aligned.places b different
  offset := aligned.offset b different
  knows key owns := aligned.knows key (owns.2 a different.symm)

/-- Whatever becomes of another token does not matter. -/
theorem TreatAlike.visit (treat : TreatAlike c c' base b p p' s s')
    (files : p.Files = base.Files) (files' : p'.Files = base.Files) (other : b ≠ token)
    (visit : p.Visit c s token broke mid there)
    (visit' : p'.Visit c' s' token broke' mid' there') :
    TreatAlike c c' base b mid mid' there there' where
  places := by
    rw [visit.placesOf, visit'.placesOf, if_neg other, if_neg other, treat.places]
  offset := by rw [visit.offset_of_ne other, visit'.offset_of_ne other, treat.offset]
  knows key owns := by
    obtain ⟨here, here'⟩ := not_or.1 (owns.2 token other.symm)
    rw [visit.knows_iff (by rwa [lists_iff files]),
      visit'.knows_iff (by rwa [lists_iff files'])]
    exact treat.knows key owns

theorem BrokenOff.cons (isBroken : BrokenOff c c' base rest a b result after after')
    (token : Address) : BrokenOff c c' base (token :: rest) a b result after after' := by
  obtain ⟨failed, fewer, last, place, found, blame, front, back, rfl, behind⟩ := isBroken
  exact ⟨failed, fewer, last, place, found, blame, token :: front, back, rfl, behind⟩

/-- A reading that goes on alone either does not come to `b` any more, or the other one
was broken off before it. -/
theorem Aligned.parted (aligned : Aligned c c' base a p p' s s')
    (alike : c.AlikeBut c' base a) (different : b ≠ a) (apart : c.Apart c' base a b)
    (visit : p.Visit c s token none mid there)
    (reading : Reading c mid there rest q result after) {e : RaidenError}
    (visit' : p'.Visit c' s' token (some e) q' after') :
    TreatAlike c c' base b q q' after after' ∨
      BrokenOff c' c base (token :: rest) a b (.error e) after' after := by
  have other : b ≠ token := by
    rintro rfl
    cases (aligned.apart alike different apart visit visit').1
  have treat :=
    (aligned.treatAlike different).visit aligned.files aligned.files' other visit visit'
  obtain ⟨asked, more, came⟩ := reading.came
  have all := Desk.placesOf_append more b
  rcases came.places b with ⟨none, same⟩ | found
  · have unasked := List.find?_eq_none.1 none
    rw [List.filter_eq_nil_iff.2 unasked, List.map_nil, List.append_nil] at all
    refine Or.inl ⟨treat.places.trans all.symm, treat.offset.trans same.symm,
      fun key owns => ?_⟩
    rw [treat.knows key owns]
    refine ⟨came.kept key, fun known => (came.listed key known).elim id ?_⟩
    rintro ⟨last, place, events, d, member, fed, among, files⟩
    have isOther : last ≠ b := fun same => unasked _ member (by simp [same])
    rw [visit.files.trans aligned.files] at files
    exact absurd (Or.inl ⟨place, events, d, fed, among, files⟩) (owns.2 last isOther)
  · have among := List.mem_of_find?_eq_some found
    have positive : 0 < (asked.filter (·.1 == b)).length :=
      List.length_pos_of_mem (List.mem_filter.2 ⟨among, beq_self_eq_true b⟩)
    refine Or.inr ⟨⟨e, rfl⟩, ?_, token, p'.offset token, ?_, ?_, [], rest, rfl, ?_⟩
    · rw [all, treat.places, List.length_append, List.length_map]
      omega
    · rw [visit'.asked, List.getLast?_concat]
    · by_cases own : token = a
      · exact Or.inl own
      · refine Or.inr fun free => ?_
        cases (aligned.apart alike own (Circumstances.apart_comm.1 free) visit visit').1
    · exact came.order.subset (List.mem_map_of_mem among)

theorem treatAlike_or_brokenOff (aligned : Aligned c c' base a p p' s s')
    (alike : c.AlikeBut c' base a) (different : b ≠ a) (apart : c.Apart c' base a b)
    (reading : Reading c p s tokens q result after)
    (reading' : Reading c' p' s' tokens q' result' after') :
    TreatAlike c c' base b q q' after after' ∨
      BrokenOff c c' base tokens a b result after after' ∨
      BrokenOff c' c base tokens a b result' after' after := by
  induction reading generalizing p' s' with
  | finished p s total =>
      cases reading'
      exact Or.inl (aligned.treatAlike different)
  | past visit reading ih =>
      cases reading' with
      | past visit' reading' =>
          exact (ih (aligned.passed alike visit visit') reading').imp id
            (Or.imp (·.cons _) (·.cons _))
      | broken visit' =>
          exact (aligned.parted alike different apart visit reading visit').imp id Or.inr
  | @broken p q s after token rest e visit =>
      cases reading' with
      | past visit' reading' =>
          exact (aligned.symm.parted alike.symm different
            (Circumstances.apart_comm.1 apart) visit' reading'
            visit).imp TreatAlike.symm Or.inl
      | broken visit' =>
          refine Or.inl ?_
          by_cases here : b = token
          · subst here
            exact (aligned.apart alike different apart visit visit').2.treatAlike
              different
          · exact (aligned.treatAlike different).visit aligned.files aligned.files' here
              visit visit'

/-- Two readings of one ledger in circumstances that differ in nothing but what is
listed for `a`, or why nothing is, and in which of its payments are refused.  Each comes
to the tokens in order and is done with all that is listed for them, until one fails.
Another token without a key of `a` they treat alike, unless one of them was broken off
before it, by `a` or by a token that has a key of `a`. -/
theorem treatAlike_unless_brokenOff {w : Bureau} (run : Bureau.Run .start w)
    (alike : c.AlikeBut c' p a) (different : b ≠ a) (apart : c.Apart c' p a b)
    (leads : p.poll.Leads c.Answers w.desk (q, result) after)
    (leads' : p.poll.Leads c'.Answers w.desk (q', result') after') :
    (Came c p w.desk p.tokens q result after after.asked ∧
        Came c' p w.desk p.tokens q' result' after' after'.asked) ∧
      (TreatAlike c c' p b q q' after after' ∨
        BrokenOff c c' p p.tokens a b result after after' ∨
        BrokenOff c' c p p.tokens a b result' after' after) := by
  have sane := Desk.sane_desk run
  have reading := reading_of_pollTokens sane leads
  have reading' := reading_of_pollTokens sane leads'
  obtain ⟨asked, all, came⟩ := reading.came
  obtain ⟨asked', all', came'⟩ := reading'.came
  obtain rfl : after.asked = asked := all
  obtain rfl : after'.asked = asked' := all'
  have aligned : Aligned c c' p a p p w.desk w.desk :=
    ⟨rfl, rfl, fun _ _ => rfl, fun _ _ => rfl, fun _ _ => Iff.rfl⟩
  exact ⟨⟨came, came'⟩, treatAlike_or_brokenOff aligned alike different apart
    reading reading'⟩

end Poller

/-! ## Circumstances to try -/

namespace Circumstances

/-- Answers a call of a poller. -/
def perform (c : Circumstances) : (call : Call) → Desk → call.Reply × Desk
  | .ledger (.commitPlan writes plan), s =>
    match c.refusal writes with
    | some e => (.error e, s)
    | none =>
      ((s.ledger.perform (.commitPlan writes plan)).1,
        { s with ledger := (s.ledger.perform (.commitPlan writes plan)).2 })
  | .ledger call, s =>
      ((s.ledger.perform call).1, { s with ledger := (s.ledger.perform call).2 })
  | .stamp, s =>
    (⟨.ofNat s.issued.length, default⟩, { s with
      issued := .ofNat s.issued.length :: s.issued })
  | .payments _ token place, s =>
      (c.feed token place, { s with asked := s.asked ++ [(token, place)] })
  | call, s => ((Surroundings.perform ⟨[]⟩ ⟨[]⟩ call ⟨s.ledger, s.issued⟩).1, s)

theorem answers_perform (c : Circumstances) (s : Desk) (call : Call)
    (promise : s.keepsPromise call = true) :
    c.Answers s call (c.perform call s).1 (c.perform call s).2 := by
  cases call with
  | stamp =>
      refine ⟨fun member => ?_, rfl⟩
      have known := List.contains_iff_mem.2 member
      simp only [Desk.keepsPromise, perform, Bool.not_eq_true'] at promise known
      rw [known] at promise
      cases promise
  | payments url token place => exact ⟨rfl, rfl⟩
  | ledger call =>
      cases call with
      | commitPlan writes plan =>
          simp only [Answers, perform]
          cases c.refusal writes <;> exact ⟨rfl, rfl⟩
      | _ => exact ⟨rfl, rfl⟩
  | _ => rfl

/-- What a reading comes to. -/
def ended (c : Circumstances) (p : Poller) (s : Desk) :
    (Poller × Except RaidenError Nat) × Desk :=
  p.poll.run c.perform s

/-- No identifier is given out twice in the reading. -/
def keepsPromises (c : Circumstances) (p : Poller) (s : Desk) : Bool :=
  p.poll.passes c.perform Desk.keepsPromise s

theorem leads_ended {c : Circumstances} {p : Poller} {s : Desk}
    (promises : c.keepsPromises p s = true) :
    p.poll.Leads c.Answers s ((c.ended p s).1.1, (c.ended p s).1.2) (c.ended p s).2 :=
  Flow.leads_of_run? c.answers_perform (if_pos promises)

/-- A token besides that of the sample history. -/
def other : Address := ⟨List.replicate 40 '1', by decide, by decide⟩

/-- One payment of the sample history is listed, and this for the other token. -/
def listing (own : Except FeedError (List PaymentEvent)) : Circumstances where
  feed token place :=
    if token = other then own else .ok ((Histories.sample.entries token).drop place)
  refuses _ := none

/-- The poller reads the other token first. -/
def reader : Poller := { Poller.sample with tokens := [other, .zero] }

/-- An entry that is no payment. -/
def noPayment : PaymentEvent := ⟨"", 0, .zero, none, none, "", none⟩

variable {own own' : Except FeedError (List PaymentEvent)}

theorem alikeBut_listing (own own' : Except FeedError (List PaymentEvent)) :
    (listing own).AlikeBut (listing own') reader other where
  feed token place different := by simp [listing, different]
  refuses _ _ := rfl

/-- Nothing is listed that is a payment. -/
def Unpaid (own : Except FeedError (List PaymentEvent)) : Prop :=
  ∀ events, own = .ok events → ∀ e ∈ events, e = noPayment

/-- If no payments of the other token are listed, it has no keys. -/
theorem apart_listing (none : Unpaid own) (none' : Unpaid own') (token : Address) :
    (listing own).Apart (listing own') reader other token := by
  have unlisted : ∀ {own}, Unpaid own →
    ∀ key, ¬ (listing own).Lists reader other key := by
    rintro own none key ⟨place, events, e, fed, member, payment, t, read, -⟩
    simp only [listing, if_true] at fed
    rw [none events fed e member] at read
    cases read
  exact fun key _ => not_or.2 ⟨unlisted none key, unlisted none' key⟩

end Circumstances

namespace Poller

open Circumstances

/-- The other token lists nothing, or something that is no payment:  the payment is
recorded in either case. -/
theorem treatAlike_unless_brokenOff_sample : ∃ q q' result result' after after',
    Bureau.Run .start .start ∧
      (listing (.ok [])).AlikeBut (listing (.ok [noPayment])) reader other ∧
      Address.zero ≠ other ∧
        (listing (.ok [])).Apart (listing (.ok [noPayment])) reader other .zero ∧
      reader.poll.Leads (listing (.ok [])).Answers Bureau.start.desk (q, result) after ∧
      reader.poll.Leads (listing (.ok [noPayment])).Answers Bureau.start.desk
        (q', result') after' ∧
      TreatAlike (listing (.ok []))
        (listing (.ok [noPayment])) reader .zero q q' after after' ∧
      q.offset .zero = 1 ∧ after.ledger.transfers.values.length = 1 := by
  have alike := alikeBut_listing (.ok []) (.ok [noPayment])
  have apart :=
    apart_listing (by simp [Unpaid] : Unpaid (.ok []))
      (by simp [Unpaid] : Unpaid (.ok [noPayment]))
    .zero
  have leads :=
    leads_ended
      (by decide +kernel :
        (listing (.ok [])).keepsPromises reader Bureau.start.desk = true)
  have leads' :=
    leads_ended
      (by decide +kernel :
        (listing (.ok [noPayment])).keepsPromises reader Bureau.start.desk = true)
  have result : ((listing (.ok [])).ended reader Bureau.start.desk).1.2 = .ok 1 := by
    decide +kernel
  have result' :
      ((listing (.ok [noPayment])).ended reader Bureau.start.desk).1.2 = .ok 1 := by
        decide +kernel
  rw [result] at leads
  rw [result'] at leads'
  have different : Address.zero ≠ other := by decide
  refine ⟨_, _, _, _, _, _, .refl, alike, different, apart, leads, leads',
    ?_, by decide +kernel, by decide +kernel⟩
  rcases (treatAlike_unless_brokenOff .refl alike different apart leads leads').2 with
    treat | ⟨⟨e, failed⟩, -⟩ | ⟨⟨e, failed⟩, -⟩
  · exact treat
  · cases failed
  · cases failed

/-- If nothing can be read of the other token, the payment is not recorded. -/
theorem may_be_broken_off :
    ¬ ∀ (w : Bureau) (c c' : Circumstances) (p q q' : Poller) (a b : Address)
    (result result' : Except RaidenError Nat) (after after' : Desk), Bureau.Run .start w →
    c.AlikeBut c' p a → b ≠ a → c.Apart c' p a b →
      p.poll.Leads c.Answers w.desk (q, result) after →
    p.poll.Leads c'.Answers w.desk (q', result') after' →
      TreatAlike c c' p b q q' after after' := by
  intro treats
  have failing : Unpaid (.error (.status "" 500)) := fun _ => nofun
  have fine : Unpaid (.ok []) := by simp [Unpaid]
  have treat :=
    treats .start (listing (.error (.status "" 500)))
      (listing (.ok [])) reader _ _ other .zero _ _ _ _
    .refl (alikeBut_listing _ _) (by decide) (apart_listing failing fine .zero)
    (leads_ended (by decide +kernel)) (leads_ended (by decide +kernel))
  have place :
      ((listing (.error (.status "" 500))).ended reader Bureau.start.desk).1.1.offset
        .zero = 0 := by
    decide +kernel
  have place' : ((listing (.ok [])).ended reader Bureau.start.desk).1.1.offset .zero =
    1 := by decide +kernel
  have same := treat.offset
  rw [place, place'] at same
  cases same

end Poller

end Paywatch
