import Paywatch.Proofs.Transfer.Movements

/-!
# Keys tell destinations

A match key is made of parts with colons between them:  a word for the kind of
destination, its chain, its address or its node, and the identifier if there is
one.  No part holds a colon, so each can be read back from the key, and two
destinations never share one.  A transfer has the key of the destination that it
pays into, and of no other.
-/

namespace Paywatch

namespace Destination

variable {d e : Destination}

/-- The first part of a key names the kind of the destination. -/
def keyName : Destination → String
  | blockchain .. => "chain"
  | raiden .. => "raiden"

/-- The other parts of a key, with colons between them. -/
def keyParts : Destination → List Char
  | blockchain chain address => chain.text.toList ++ ':' :: address.text.toList
  | raiden chain node identifier =>
    chain.text.toList ++
      ':' :: (node.text.toList ++ ':' :: (Text.decimalWord identifier).toList)

theorem toList_matchKey (d : Destination) :
    d.matchKey.text.toList = d.keyName.toList ++ ':' :: d.keyParts := by
  cases d with
  | blockchain chain address =>
      simp only [matchKey, MatchKey.blockchain, keyName, keyParts, String.toList_append,
        List.append_assoc]
      rfl
  | raiden chain node identifier =>
      simp only [matchKey, MatchKey.raiden, keyName, keyParts, String.toList_append,
        List.append_assoc]
      rfl

theorem colon_not_mem_keyName (d : Destination) : ':' ∉ d.keyName.toList := by
  unfold keyName
  split <;> decide

/-- Destinations with one key are one destination. -/
theorem matchKey_injective (same : d.matchKey.text = e.matchKey.text) : d = e := by
  have chars : d.matchKey.text.toList = e.matchKey.text.toList := by rw [same]
  rw [toList_matchKey, toList_matchKey] at chars
  obtain ⟨names, parts⟩ :=
    Text.colon_cancel d.colon_not_mem_keyName e.colon_not_mem_keyName chars
  cases d with
  | blockchain chain address =>
      cases e with
      | blockchain chain' address' =>
          simp only [keyParts] at parts
          obtain ⟨rfl, addresses⟩ := ChainId.text_cancel parts
          rw [Address.text_injective (String.toList_injective addresses)]
      | raiden chain' node' identifier' =>
          simp only [keyName] at names
          exact absurd names (by decide)
  | raiden chain node identifier =>
      cases e with
      | blockchain chain' address' =>
          simp only [keyName] at names
          exact absurd names (by decide)
      | raiden chain' node' identifier' =>
          simp only [keyParts] at parts
          obtain ⟨rfl, rest⟩ := ChainId.text_cancel parts
          obtain ⟨rfl, identifiers⟩ := Address.text_cancel rest
          rw [Text.decimalWord_injective (String.toList_injective identifiers)]

end Destination

/-- A transfer pays into a destination:  one on a chain is received there at the address
of the destination, and one through a channel by the own node that reported it, which is
the node of the destination, under its identifier. -/
def Transfer.PaysInto (t : Transfer) : Destination → Prop
  | .blockchain chain address =>
    ∃ o, t.origin = .blockchain o ∧ t.receiver = .address address ∧ o.chain = chain
  | .raiden chain node identifier =>
    ∃ o, t.origin = .raiden o ∧ t.receiver = .address o.node ∧
      o.chain = chain ∧ o.node = node ∧ o.identifier = identifier

namespace MatchKey

variable {t : Transfer} {d : Destination} {key : MatchKey}

/-- The key of a transfer is the key of a destination that it pays into. -/
theorem ofTransfer?_eq_some :
    ofTransfer? t = some key ↔ ∃ d, t.PaysInto d ∧ d.matchKey = key := by
  constructor
  · intro found
    unfold ofTransfer? at found
    split at found
    · rename_i o address origin receiver
      exact ⟨.blockchain o.chain address, ⟨o, origin, receiver, rfl⟩,
        Option.some.inj found⟩
    · rename_i o address origin receiver
      obtain ⟨own, found⟩ := Option.ite_none_right_eq_some.1 found
      rw [own] at receiver
      exact ⟨.raiden o.chain o.node o.identifier, ⟨o, origin, receiver, rfl, rfl, rfl⟩,
        Option.some.inj found⟩
    · cases found
  · rintro ⟨d, paid, rfl⟩
    cases d with
    | blockchain chain address =>
        obtain ⟨o, origin, receiver, rfl⟩ := paid
        simp only [ofTransfer?, origin, receiver, Destination.matchKey]
    | raiden chain node identifier =>
        obtain ⟨o, origin, receiver, rfl, rfl, rfl⟩ := paid
        simp only [ofTransfer?, origin, receiver, if_true, Destination.matchKey]

theorem ofTransfer?_eq_matchKey : ofTransfer? t = some d.matchKey ↔ t.PaysInto d := by
  rw [ofTransfer?_eq_some]
  constructor
  · rintro ⟨e, paid, same⟩
    rwa [← Destination.matchKey_injective (congrArg text same)]
  · intro paid
    exact ⟨d, paid, rfl⟩

/-- A destination that an on-chain transfer pays into is on the chain where
the transfer was seen. -/
theorem chain_of_ofTransfer? {o : ChainOrigin} (origin : t.origin = .blockchain o)
    (paysInto : ofTransfer? t = some d.matchKey) : d.chain = o.chain := by
  have paid := ofTransfer?_eq_matchKey.1 paysInto
  cases d with
  | blockchain chain address =>
      obtain ⟨p, origin', -, rfl⟩ := paid
      rw [origin] at origin'
      cases origin'
      rfl
  | raiden chain node identifier =>
      obtain ⟨p, origin', -⟩ := paid
      rw [origin] at origin'
      cases origin'

/-- A match key means what it says:  the key of a transfer is that of a destination
exactly if the transfer pays into it, and the texts of two keys are equal exactly if
the destinations are. -/
theorem tells_destination (t : Transfer) (d e : Destination) :
    (ofTransfer? t = some d.matchKey ↔ t.PaysInto d) ∧
      (d.matchKey.text = e.matchKey.text ↔ d = e) := by
  refine ⟨ofTransfer?_eq_matchKey, Destination.matchKey_injective, ?_⟩
  rintro rfl
  rfl

end MatchKey

end Paywatch
