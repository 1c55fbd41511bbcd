import Paywatch.Proofs.Data.Written
import Paywatch.Proofs.Order.Keys
import Paywatch.Proofs.Time.Calendar

/-!
# What a dedupe key tells

A dedupe key is made of parts with colons between them.  No part holds a colon but the
hashes of an on-chain transfer, and if those do not either, every part can be read back
from the key.  What the parts do not tell is not told:  the key of a payment through a
channel leaves its chain and its token out, and all of its time beyond the millisecond.
-/

namespace Paywatch

theorem Address.text_injective {a b : Address} (same : a.text = b.text) : a = b :=
  Except.ok.inj
    ((ofText_text a).symm.trans ((congrArg ofText same).trans (ofText_text b)))

theorem Address.colon_not_mem_text (a : Address) : ':' ∉ a.text.toList := by
  simp only [text, String.toList_ofList, List.mem_cons, not_or]
  refine ⟨by decide, by decide, fun member => ?_⟩
  exact absurd (List.all_eq_true.1 a.lower ':' member) (by decide)

/-- An address in front of a colon can be read back. -/
theorem Address.text_cancel {a b : Address} {x y : List Char}
    (same : a.text.toList ++ ':' :: x = b.text.toList ++ ':' :: y) : a = b ∧ x = y := by
  obtain ⟨digits, rest⟩ :=
    Text.colon_cancel a.colon_not_mem_text b.colon_not_mem_text same
  exact ⟨text_injective (String.toList_injective digits), rest⟩

theorem Ulid.text_injective {u v : Ulid} (same : u.text = v.text) : u = v :=
  Except.ok.inj
    ((ofText_text u).symm.trans ((congrArg ofText same).trans (ofText_text v)))

namespace Transfer

/-- A minus sign is no digit, so a number can be read back with its sign. -/
theorem signedDecimal_injective {m n : Int} (same : signedDecimal m = signedDecimal n) :
    m = n := by
  have unsigned : ∀ (k : Nat) (rest : String), "-" ++ rest ≠ Text.decimal k := by
    intro k rest signed
    have minus : '-' ∈ Text.Digits.write 10 k := by
      have member : '-' ∈ (Text.decimal k).toList := by
        simp [← signed, String.toList_append]
      rwa [Text.decimal, String.toList_ofList] at member
    exact absurd (Text.Digits.isDecimal_of_write '-' minus) (by decide)
  unfold signedDecimal at same
  split at same <;> split at same
  · have magnitudes := Text.decimal_injective ((String.append_right_inj _).1 same)
    omega
  · exact absurd same (unsigned _ _)
  · exact absurd same.symm (unsigned _ _)
  · have magnitudes := Text.decimal_injective same
    omega

/-- The hashes of an on-chain transfer hold no colon. -/
def Plain (t : Transfer) : Prop :=
  ∀ o, t.origin = .blockchain o → ':' ∉ o.blockHash.toList ∧ ':' ∉ o.txHash.toList

/-- The transfers are one movement, as far as dedupe keys tell:  they are one transfer
between accounts, one log or transaction of one block, or payments that one node reports
with one identifier at one millisecond. -/
def SameMovement (t u : Transfer) : Prop :=
  match t.origin, u.origin with
  | .internal _, .internal _ => t.id = u.id
  | .blockchain o, .blockchain p =>
    o.chain = p.chain ∧ o.blockHash = p.blockHash ∧ o.txHash = p.txHash ∧
      o.logIndex = p.logIndex
  | .raiden o, .raiden p =>
    o.node = p.node ∧ o.identifier = p.identifier ∧
      o.logTime.epochMillis = p.logTime.epochMillis ∧
      (o.logTime.second < 60 → p.logTime.second < 60 → o.logTime.AgreeToMilli p.logTime)
  | _, _ => False

/-- The transfers are one movement in full:  payments have also one chain, one token and
one log time. -/
def OneMovement (t u : Transfer) : Prop :=
  match t.origin, u.origin with
  | .internal _, .internal _ => t.id = u.id
  | .blockchain o, .blockchain p =>
    o.chain = p.chain ∧ o.blockHash = p.blockHash ∧ o.txHash = p.txHash ∧
      o.logIndex = p.logIndex
  | .raiden o, .raiden p =>
    o.chain = p.chain ∧ o.node = p.node ∧ t.token = u.token ∧
      o.identifier = p.identifier ∧ o.logTime = p.logTime
  | _, _ => False

/-- What dedupe keys leave out of payments through channels is the same. -/
def AgreeBeyondKeys (t u : Transfer) : Prop :=
  ∀ o p, t.origin = .raiden o → u.origin = .raiden p →
    o.chain = p.chain ∧ t.token = u.token ∧ o.logTime = p.logTime

/-- The first part of a key names where the transfer comes from. -/
def keyName (t : Transfer) : String :=
  match t.origin with
  | .internal _ => "internal"
  | .blockchain _ => "chain"
  | .raiden _ => "raiden"

/-- The other parts of a key, with colons between them. -/
def keyParts (t : Transfer) : List Char :=
  match t.origin with
  | .internal _ => t.id.text.toList
  | .blockchain o =>
    o.chain.text.toList ++ ':' :: (o.blockHash.toList ++ ':' :: (o.txHash.toList ++ ':' ::
      (Text.decimalWord o.logIndex).toList))
  | .raiden o =>
    o.node.text.toList ++ ':' :: ((Text.decimalWord o.identifier).toList ++ ':' ::
      (signedDecimal o.logTime.epochMillis).toList)

theorem toList_dedupeKey (t : Transfer) :
    t.dedupeKey.toList = t.keyName.toList ++ ':' :: t.keyParts := by
  cases origin : t.origin <;>
  · simp only [dedupeKey, keyName, keyParts, origin, String.toList_append,
      List.append_assoc]
    rfl

theorem colon_not_mem_keyName (t : Transfer) : ':' ∉ t.keyName.toList := by
  unfold keyName
  split <;> decide

/-- The hashes take all colons of the key of an on-chain transfer but four. -/
theorem count_colon_dedupeKey {t : Transfer} {o : ChainOrigin}
    (origin : t.origin = .blockchain o) :
    t.dedupeKey.toList.count ':' = o.blockHash.toList.count ':' +
      o.txHash.toList.count ':' + 4 := by
  have chain : o.chain.text.toList.count ':' = 0 :=
    List.count_eq_zero.2 (Text.colon_not_mem_decimal _)
  have index : (Text.decimalWord o.logIndex).toList.count ':' = 0 :=
    List.count_eq_zero.2 (Text.colon_not_mem_decimal _)
  have name : t.keyName.toList.count ':' = 0 :=
    List.count_eq_zero.2 t.colon_not_mem_keyName
  rw [toList_dedupeKey, List.count_append, List.count_cons_self, name]
  simp only [keyParts, origin, List.count_append, List.count_cons_self, chain, index]
  omega

/-- A transfer with the key of a plain one is plain. -/
theorem Plain.of_key {t u : Transfer} (plain : t.Plain) (same : t.dedupeKey = u.dedupeKey)
    {o p : ChainOrigin} (origin : t.origin = .blockchain o)
    (origin' : u.origin = .blockchain p) :
    ':' ∉ p.blockHash.toList ∧ ':' ∉ p.txHash.toList := by
  obtain ⟨block, tx⟩ := plain o origin
  have colons : t.dedupeKey.toList.count ':' = u.dedupeKey.toList.count ':' := by
    rw [same]
  rw [count_colon_dedupeKey origin, count_colon_dedupeKey origin',
    List.count_eq_zero.2 block, List.count_eq_zero.2 tx] at colons
  exact ⟨List.count_eq_zero.1 (by omega), List.count_eq_zero.1 (by omega)⟩

/-- Transfers with one key are one movement.  It is enough that the hashes of one
of them hold no colon. -/
theorem sameMovement_of_dedupeKey {t u : Transfer} (plain : t.Plain)
    (same : t.dedupeKey = u.dedupeKey) : t.SameMovement u := by
  have chars : t.dedupeKey.toList = u.dedupeKey.toList := by rw [same]
  rw [toList_dedupeKey, toList_dedupeKey] at chars
  obtain ⟨names, parts⟩ :=
    Text.colon_cancel t.colon_not_mem_keyName u.colon_not_mem_keyName chars
  unfold SameMovement
  cases origin : t.origin <;> cases origin' : u.origin <;>
    simp only [keyName, keyParts, origin, origin'] at names parts ⊢
  case internal.internal memo memo' =>
    have ulid : t.id.ulid = u.id.ulid :=
      Ulid.text_injective (String.toList_injective parts)
    exact congrArg Id.mk ulid
  case blockchain.blockchain o p =>
    obtain ⟨block, tx⟩ := plain o origin
    obtain ⟨block', tx'⟩ := plain.of_key same origin origin'
    obtain ⟨chain, parts⟩ := ChainId.text_cancel parts
    obtain ⟨blockHash, parts⟩ := Text.colon_cancel block block' parts
    obtain ⟨txHash, index⟩ := Text.colon_cancel tx tx' parts
    exact ⟨chain, String.toList_injective blockHash, String.toList_injective txHash,
      Text.decimalWord_injective (String.toList_injective index)⟩
  case raiden.raiden o p =>
    obtain ⟨node, parts⟩ := Address.text_cancel parts
    obtain ⟨identifier, millis⟩ := Text.decimalWord_cancel parts
    have sameMilli := signedDecimal_injective (String.toList_injective millis)
    exact ⟨node, identifier, sameMilli,
      fun ordinary ordinary' =>
        Instant.agreeToMilli_of_epochMillis sameMilli ordinary ordinary'⟩
  -- transfers of different sources have keys of different names
  all_goals exact absurd names (by decide)

theorem dedupeKey_of_sameMovement {t u : Transfer} (same : t.SameMovement u) :
    t.dedupeKey = u.dedupeKey := by
  unfold SameMovement at same
  cases origin : t.origin <;> cases origin' : u.origin <;>
    simp only [origin, origin'] at same
  case internal.internal memo memo' => simp [dedupeKey, origin, origin', same]
  case blockchain.blockchain o p =>
    obtain ⟨chain, blockHash, txHash, index⟩ := same
    simp [dedupeKey, origin, origin', chain, blockHash, txHash, index]
  case raiden.raiden o p =>
    obtain ⟨node, identifier, millis, -⟩ := same
    simp [dedupeKey, origin, origin', node, identifier, millis]

/-- Keys tell transfers apart exactly as far as the movements that they name. -/
theorem dedupeKey_eq_iff {t u : Transfer} (plain : t.Plain) :
    t.dedupeKey = u.dedupeKey ↔ t.SameMovement u :=
  ⟨sameMovement_of_dedupeKey plain, dedupeKey_of_sameMovement⟩

/-- Of transfers that keys do not tell apart, those are one movement in full that agree
in what keys leave out. -/
theorem SameMovement.oneMovement_iff {t u : Transfer} (same : t.SameMovement u) :
    t.OneMovement u ↔ t.AgreeBeyondKeys u := by
  unfold SameMovement at same
  unfold OneMovement AgreeBeyondKeys
  cases origin : t.origin <;> cases origin' : u.origin <;>
    simp only [origin, origin'] at same ⊢
  case internal.internal => simpa using same
  case blockchain.blockchain => simpa using same
  case raiden.raiden o p =>
    obtain ⟨node, identifier, -, -⟩ := same
    constructor
    · rintro ⟨chain, -, token, -, logTime⟩ _ _ ⟨⟩ ⟨⟩
      exact ⟨chain, token, logTime⟩
    · intro agree
      obtain ⟨chain, token, logTime⟩ := agree o p rfl rfl
      exact ⟨chain, node, token, identifier, logTime⟩

end Transfer

end Paywatch
