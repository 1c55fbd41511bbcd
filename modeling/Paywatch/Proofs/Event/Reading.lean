import Paywatch.Proofs.Event.Words

/-!
# Reading logs

A log of three topics says a payload where its addresses stand in its topics and its
amount in its data.  A log that was written for a payload is read as that payload.  What
else is read follows from how lenient the readers of addresses and of amounts are, so
the meaning of a log is taken over what it means to stand in a topic and in data.
-/

namespace Paywatch

namespace EventKind

/-- Only coins move without a log. -/
theorem topic_eq_none {kind : EventKind} :
    kind.topic = none ↔ kind = .nativeTransfer := by
  cases kind <;> simp [topic]

theorem ofTopic_topic {kind : EventKind} {topic0 : String}
    (own : kind.topic = some topic0) : ofTopic topic0 = some kind := by
  cases kind with
  | nativeTransfer => cases own
  | erc20Transfer =>
      cases own
      decide +kernel
  | channelDeposit =>
      cases own
      decide +kernel
  | channelWithdraw =>
      cases own
      decide +kernel

end EventKind

namespace Log

/-- What a log of three topics says, by how an address stands in a topic
and an amount in data. -/
inductive States (addressIn : Address → String → Prop) (amountIn : Amount → String → Prop)
    (log : Log) : Payload → Prop where
  | erc20Transfer {topic0 first second : String} {sender receiver : Address}
      {value : Amount}
      (topics : log.topics = [topic0, first, second]) (sent : addressIn sender first)
      (received : addressIn receiver second) (amount : amountIn value log.data) :
      States addressIn amountIn log (.erc20Transfer sender receiver value)
  | channelDeposit {topic0 channel second : String} {participant : Address}
      {total : Amount}
      (topics : log.topics = [topic0, channel, second])
      (joined : addressIn participant second)
      (amount : amountIn total log.data) :
      States addressIn amountIn log
        (.channelDeposit (Text.lower channel) participant total)
  | channelWithdraw {topic0 channel second : String} {participant : Address}
      {total : Amount}
      (topics : log.topics = [topic0, channel, second])
      (joined : addressIn participant second)
      (amount : amountIn total log.data) :
      States addressIn amountIn log
        (.channelWithdraw (Text.lower channel) participant total)

/-- A meaning stays where addresses and amounts stand in more topics and data. -/
theorem States.imp {addressIn addressIn' : Address → String → Prop}
    {amountIn amountIn' : Amount → String → Prop} {log : Log} {payload : Payload}
    (stated : log.States addressIn amountIn payload)
    (addresses : ∀ a topic, addressIn a topic → addressIn' a topic)
    (amounts : ∀ v, amountIn v log.data → amountIn' v log.data) :
    log.States addressIn' amountIn' payload := by
  cases stated with
  | erc20Transfer topics sent received amount =>
      exact .erc20Transfer topics (addresses _ _ sent) (addresses _ _ received)
        (amounts _ amount)
  | channelDeposit topics joined amount =>
      exact .channelDeposit topics (addresses _ _ joined) (amounts _ amount)
  | channelWithdraw topics joined amount =>
      exact .channelWithdraw topics (addresses _ _ joined) (amounts _ amount)

variable {log : Log} {kind : EventKind} {payload : Payload}

theorem topicAddress_eq_ok {topic : String} {a : Address} :
    topicAddress topic = .ok a ↔ a.StandsIn topic :=
  mapError_eq_ok.trans Address.ofTopic_eq_ok

section Readable

variable {topic0 first second : String} {a b : Address}

/-- Once the topics are read, only the amount can fail. -/
theorem decode_erc20Transfer (topics : log.topics = [topic0, first, second])
    (sent : a.StandsIn first) (received : b.StandsIn second) :
    log.decode .erc20Transfer = (firstWord log.data).map (.erc20Transfer a b) := by
  simp only [decode, topics, topicAddress_eq_ok.2 sent, topicAddress_eq_ok.2 received]
  cases firstWord log.data <;> rfl

theorem decode_channelDeposit (topics : log.topics = [topic0, first, second])
    (joined : a.StandsIn second) :
    log.decode .channelDeposit =
      (firstWord log.data).map (.channelDeposit (Text.lower first) a) := by
  simp only [decode, topics, topicAddress_eq_ok.2 joined]
  cases firstWord log.data <;> rfl

theorem decode_channelWithdraw (topics : log.topics = [topic0, first, second])
    (joined : a.StandsIn second) :
    log.decode .channelWithdraw =
      (firstWord log.data).map (.channelWithdraw (Text.lower first) a) := by
  simp only [decode, topics, topicAddress_eq_ok.2 joined]
  cases firstWord log.data <;> rfl

end Readable

/-- Whatever is read has three topics. -/
theorem topics_of_decode (read : log.decode kind = .ok payload) :
    ∃ topic0 first second, log.topics = [topic0, first, second] := by
  unfold decode at read
  split at read
  · cases read
  · split at read
    · rename_i topic0 first second topics
      exact ⟨topic0, first, second, topics⟩
    · cases read

/-- A log is read as what it states to the readers of topics and data. -/
theorem decode_eq_ok :
    log.decode kind = .ok payload ↔
      payload.kind = kind ∧
        log.States Address.StandsIn (fun v data => firstWord data = .ok v) payload := by
  constructor
  · intro read
    obtain ⟨topic0, first, second, topics⟩ := topics_of_decode read
    cases kind with
    | nativeTransfer => cases read
    | erc20Transfer =>
        simp only [decode, topics, bind_eq_ok, topicAddress_eq_ok] at read
        obtain ⟨sender, sent, receiver, received, value, amount, result⟩ := read
        cases result
        exact ⟨rfl, .erc20Transfer topics sent received amount⟩
    | channelDeposit =>
        simp only [decode, topics, bind_eq_ok, topicAddress_eq_ok] at read
        obtain ⟨participant, joined, total, amount, result⟩ := read
        cases result
        exact ⟨rfl, .channelDeposit topics joined amount⟩
    | channelWithdraw =>
        simp only [decode, topics, bind_eq_ok, topicAddress_eq_ok] at read
        obtain ⟨participant, joined, total, amount, result⟩ := read
        cases result
        exact ⟨rfl, .channelWithdraw topics joined amount⟩
  · rintro ⟨rfl, stated⟩
    cases stated with
    | erc20Transfer topics sent received amount =>
        rw [Payload.kind, decode_erc20Transfer topics sent received, amount, Except.map]
    | channelDeposit topics joined amount =>
        rw [Payload.kind, decode_channelDeposit topics joined, amount, Except.map]
    | channelWithdraw topics joined amount =>
        rw [Payload.kind, decode_channelWithdraw topics joined, amount, Except.map]

/-- Data as it is written for a number:  a mark, the word of the number in either letter
case, and anything behind. -/
structure Carries (log : Log) (n : Nat) (word : List Char) : Prop where
  small : n < 2 ^ 256
  digits : word.map Text.lowerAscii = Text.hexWidth 64 n
  data : ∃ rest, log.data = String.ofList ('0' :: 'x' :: (word ++ rest))

theorem Carries.firstWord_eq {n : Nat} {word : List Char} (carries : log.Carries n word) :
    firstWord log.data =
      match Amount.ofNat? n with
      | some v => .ok v
      | none => .error (.amountOverflow (String.ofList word)) := by
  obtain ⟨rest, data⟩ := carries.data
  have shape : log.data.toList = Text.pairs '0' 'x' 1 ++ (word ++ rest) := by
    rw [data, String.toList_ofList]
    rfl
  exact firstWord_of_isWord shape (Text.IsWord.of_hexWidth carries.small carries.digits)

/-- Reading undoes writing.  Every kind of logs is found by its topic.  A log with the
words of addresses in its topics and the word of a number in its data is read as exactly
these, and if the number is above 128 bits, it is refused whole. -/
theorem decode_of_carries :
    (∀ kind, EventKind.topic kind = none ↔ kind = .nativeTransfer) ∧
    (∀ kind topic0, EventKind.topic kind = some topic0 →
      EventKind.ofTopic topic0 = some kind) ∧
    ∀ (log : Log) (topic0 channel : String) (a b : Address) (n : Nat)
      (word : List Char), log.Carries n word →
      (∀ v : Amount, v.units = n →
        (log.topics = [topic0, a.topic, b.topic] →
          log.decode .erc20Transfer = .ok (.erc20Transfer a b v)) ∧
        (log.topics = [topic0, channel, a.topic] →
          log.decode .channelDeposit = .ok (.channelDeposit (Text.lower channel) a v) ∧
          log.decode .channelWithdraw =
            .ok (.channelWithdraw (Text.lower channel) a v))) ∧
      (2 ^ 128 ≤ n →
        (log.topics = [topic0, a.topic, b.topic] →
          log.decode .erc20Transfer = .error (.amountOverflow (String.ofList word))) ∧
        (log.topics = [topic0, channel, a.topic] →
          log.decode .channelDeposit = .error (.amountOverflow (String.ofList word)) ∧
          log.decode .channelWithdraw =
            .error (.amountOverflow (String.ofList word)))) := by
  refine ⟨fun kind => EventKind.topic_eq_none, fun kind topic0 => EventKind.ofTopic_topic,
    ?_⟩
  intro log topic0 channel a b n word carries
  refine ⟨?_, fun large => ?_⟩
  · rintro v rfl
    have amount : firstWord log.data = .ok v := by
      rw [carries.firstWord_eq, Amount.ofNat?_units]
    refine ⟨fun topics => ?_, fun topics => ⟨?_, ?_⟩⟩
    · rw [decode_erc20Transfer topics a.standsIn_topic b.standsIn_topic,
        amount, Except.map]
    · rw [decode_channelDeposit topics a.standsIn_topic, amount, Except.map]
    · rw [decode_channelWithdraw topics a.standsIn_topic, amount, Except.map]
  · have wide : ¬ n < 1 <<< 128 := Nat.not_lt.2 (Nat.le_trans (by decide) large)
    have refused :
        firstWord log.data = .error (.amountOverflow (String.ofList word)) := by
      rw [carries.firstWord_eq, Amount.ofNat?, dif_neg wide]
    refine ⟨fun topics => ?_, fun topics => ⟨?_, ?_⟩⟩
    · rw [decode_erc20Transfer topics a.standsIn_topic b.standsIn_topic,
        refused, Except.map]
    · rw [decode_channelDeposit topics a.standsIn_topic, refused, Except.map]
    · rw [decode_channelWithdraw topics a.standsIn_topic, refused, Except.map]

/-- A log of a token with these topics behind its kind and this data. -/
def sampleTransfer (first second data : String) : Log where
  address := Address.zero.text
  topics := [EventKind.erc20Transfer.topic.getD "", first, second]
  data := data
  txHash := "0xaa"
  index := 0
  blockHash := "0xbb"
  removed := false

theorem decode_of_carries_sample :
    let small := List.replicate 62 '0' ++ ['F', 'f']
    let large := List.replicate 31 '0' ++ '1' :: List.replicate 32 '0'
    let log := fun word : List Char =>
      sampleTransfer Address.zero.topic Address.zero.topic
        (String.ofList ('0' :: 'x' :: (word ++ ['?'])))
    (log small).decode .erc20Transfer =
      .ok (.erc20Transfer Address.zero Address.zero ⟨255, by decide⟩) ∧
      (log large).decode .erc20Transfer =
        .error (.amountOverflow (String.ofList large)) := by
  intro small large log
  have carriesSmall : (log small).Carries 255 small :=
    ⟨by decide, by decide +kernel, ['?'], rfl⟩
  have carriesLarge : (log large).Carries (2 ^ 128) large :=
    ⟨by decide, by decide +kernel, ['?'], rfl⟩
  constructor
  · exact ((decode_of_carries.2.2 _ _ "" .zero .zero 255 small carriesSmall).1
      ⟨255, by decide⟩ rfl).1 rfl
  · exact ((decode_of_carries.2.2 _ _ "" .zero .zero _ large carriesLarge).2
      (Nat.le_refl _)).1 rfl

/-- No plus sign stands among the 64 bytes that are read as the amount. -/
def Unsigned (data : String) : Prop :=
  ∀ word, Text.takeBytes? 64 (Quantity.digits data) = some word → '+' ∉ word

/-- What is read of a log is what it states.  Of an address the first twelve bytes of
its topic say nothing, and marks in front of a topic or of data say nothing;  the other
digits are the ones returned.  Whatever states nothing is refused. -/
theorem decode_exactly_stated (log : Log) (kind : EventKind) :
    (∀ payload, log.decode kind = .ok payload →
      payload.kind = kind ∧
        log.States Address.StandsIn
          (fun v data => Unsigned data → v.StandsIn data) payload) ∧
    (∀ payload, payload.kind = kind →
      log.States Address.StandsIn Amount.StandsIn payload →
      log.decode kind = .ok payload) ∧
    (Unsigned log.data →
      (∀ payload, payload.kind = kind →
        ¬ log.States Address.StandsIn Amount.StandsIn payload) →
      ∃ e, log.decode kind = .error e) := by
  have standsIn : Unsigned log.data → ∀ v, firstWord log.data = .ok v →
    v.StandsIn log.data :=
    fun unsigned v => (firstWord_eq_ok unsigned).1
  refine ⟨fun payload read => ?_, fun payload ofKind stated => ?_,
    fun unsigned silent => ?_⟩
  · obtain ⟨ofKind, stated⟩ := decode_eq_ok.1 read
    exact ⟨ofKind, stated.imp (fun _ _ stands => stands) fun v amount unsigned =>
      standsIn unsigned v amount⟩
  · refine decode_eq_ok.2 ⟨ofKind, stated.imp (fun _ _ stands => stands) ?_⟩
    rintro v ⟨marks, word, rest, shape, isWord⟩
    rw [firstWord_of_isWord shape isWord, Amount.ofNat?_units]
  · cases read : log.decode kind with
    | error e => exact ⟨e, rfl⟩
    | ok payload =>
        obtain ⟨ofKind, stated⟩ := decode_eq_ok.1 read
        exact absurd (stated.imp (fun _ _ stands => stands) (standsIn unsigned))
          (silent payload ofKind)

theorem decode_exactly_stated_sample :
    let data := "0x0x" ++ String.ofList (Text.hexWidth 64 5)
    let log := sampleTransfer Address.zero.topic ("0x" ++ Address.zero.topic) data
    let payload : Payload := .erc20Transfer Address.zero Address.zero ⟨5, by decide⟩
    log.decode .erc20Transfer = .ok payload ∧
      log.States Address.StandsIn (fun v data => Unsigned data → v.StandsIn data)
        payload := by
  intro data log payload
  obtain ⟨sound, complete, -⟩ := decode_exactly_stated log .erc20Transfer
  have received : Address.zero.StandsIn ("0x" ++ Address.zero.topic) :=
    ⟨2, List.replicate 24 '0',
      Address.zero.digits, by decide +kernel, by decide, by decide, by decide⟩
  have amount : Amount.StandsIn ⟨5, by decide⟩ data :=
    ⟨2, Text.hexWidth 64 5, [], by decide +kernel, by decide, by decide +kernel⟩
  have read :=
    complete payload rfl (.erc20Transfer rfl Address.zero.standsIn_topic received amount)
  exact ⟨read, (sound payload read).2⟩

/-- The digits behind at most one mark. -/
def behindMark (text : String) : List Char :=
  match text.toList with
  | '0' :: 'x' :: rest => rest
  | cs => cs

/-- A topic that an address fills:  twelve zero bytes in front of its digits,
behind at most one mark. -/
def Filled (a : Address) (topic : String) : Prop :=
  (behindMark topic).map Text.lowerAscii = List.replicate 24 '0' ++ a.digits

/-- Data that the word of an amount opens, behind at most one mark. -/
def Opened (v : Amount) (data : String) : Prop :=
  Text.IsWord v.units ((behindMark data).take 64)

instance (a : Address) (topic : String) : Decidable (Filled a topic) :=
  inferInstanceAs (Decidable (_ = _))

/-- The readers take more than what is written:  here a topic with other bytes in front
of the address, and a second mark in front of the other topic and of the data. -/
theorem decode_may_take_more :
    ¬ ∀ (log : Log) (kind : EventKind) (payload : Payload),
      log.decode kind = .ok payload →
      log.States Filled Opened payload := by
  intro strict
  let first := "0xdeadbeefdeadbeefdeadbeef0000000000000000000000000000000000000000"
  let second := "0x" ++ Address.zero.topic
  let data := "0x0x" ++ String.ofList (Text.hexWidth 64 5)
  have read : (sampleTransfer first second data).decode .erc20Transfer =
      .ok (.erc20Transfer Address.zero Address.zero ⟨5, by decide⟩) := by decide +kernel
  cases strict _ _ _ read with
  | erc20Transfer topics sent received amount =>
      obtain ⟨-, rfl, -⟩ : _ = _ ∧ first = _ ∧ _ := by simpa [sampleTransfer] using topics
      exact absurd sent (by decide +kernel)

end Log

end Paywatch
