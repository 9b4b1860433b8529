import Marketplace.Text.Decimal

/-!
# Ledger references

A row of the ledger says what it is about in a text, `reference_id`. Escrow rows carry
`order-<id>`, and a refund may add a suffix, which names the remedy it belongs to; withdrawal rows carry
`withdraw-<id>`, affiliate rows the bare order id, deposits `deposit-<id>-<reference>`.

The nightly reconciliation reads the order back with the pattern `^order-(\d+)(?:[:-]|$)`,
here `orderRef`. `orderRef_orderReference` says that this finds every escrow row of an
order whatever its suffix, `orderRef_affiliateReference` that it finds no affiliate row. The texts are also
what the services tell repeated bookings apart by, so their injectivity matters (`orderReference_inj`).
-/

namespace Marketplace

open Text

/-- `f"order-{order_id}{reference_suffix}"`. -/
def orderReference (orderId : ℕ) (suffix : String) : String :=
  "order-" ++ (toString orderId ++ suffix)

/-- `f"withdraw-{req.id}"`. -/
def withdrawReference (reqId : ℕ) : String := "withdraw-" ++ toString reqId

/-- `str(order_id)`, the reference of affiliate rows. -/
def affiliateReference (orderId : ℕ) : String := toString orderId

/-- `f"deposit-{intent.id}"`, followed by `f"-{reference}"` where there is a reference. -/
def depositReference (intentId : ℕ) (reference : Option String) : String :=
  "deposit-" ++ (toString intentId ++ (reference.map fun r => "-" ++ r).getD "")

/-- `f":dispute:{dispute.id}:{key}"`. -/
def disputeSuffix (disputeId : ℕ) (key : String) : String :=
  ":dispute:" ++ (toString disputeId ++ (":" ++ key))

/-- What a suffix must start with for the reference to be found again. -/
def IsSuffix (s : String) : Prop :=
  match s.toList with
  | [] => True
  | c :: _ => c = ':' ∨ c = '-'

instance (s : String) : Decidable (IsSuffix s) := by
  unfold IsSuffix
  split <;> infer_instance

/-- The order behind a reference: the pattern `^order-(\d+)(?:[:-]|$)`. -/
def orderRef (reference : String) : Option ℕ :=
  if "order-".toList <+: reference.toList then
    match readNat (reference.toList.drop 6) with
    | some (n, []) => some n
    | some (n, c :: _) => if c = ':' ∨ c = '-' then some n else none
    | none => none
  else none

theorem IsSuffix.noDigit {s : String} (h : IsSuffix s) : NoDigit s.toList := by
  unfold IsSuffix at h
  rcases hs : s.toList with _ | ⟨c, cs⟩
  · exact trivial
  · rw [hs] at h
    rcases h with rfl | rfl
    · exact (by decide : Char.isDigit ':' = false)
    · exact (by decide : Char.isDigit '-' = false)

theorem isSuffix_disputeSuffix (disputeId : ℕ) (key : String) :
    IsSuffix (disputeSuffix disputeId key) := by
  simp [IsSuffix, disputeSuffix, String.toList_append]

/-- **Every escrow reference of an order is found, whatever its suffix.** -/
@[simp] theorem orderRef_orderReference {n : ℕ} {s : String} (hs : IsSuffix s) :
    orderRef (orderReference n s) = some n := by
  have hl : (orderReference n s).toList =
      "order-".toList ++ ((toString n).toList ++ s.toList) := by
    rw [orderReference, String.toList_append, String.toList_append]
  have hdrop : ("order-".toList ++ ((toString n).toList ++ s.toList)).drop 6 =
      (toString n).toList ++ s.toList := rfl
  rw [orderRef, hl, if_pos (List.prefix_append _ _), hdrop, readNat_append n hs.noDigit]
  unfold IsSuffix at hs
  rcases hc : s.toList with _ | ⟨c, cs⟩
  · rfl
  · rw [hc] at hs
    simp [hs]

/-- A text that does not start with `o` is no escrow reference. -/
theorem orderRef_eq_none {s : String} (h : s.toList.head? ≠ some 'o') : orderRef s = none := by
  rw [orderRef, if_neg]
  rintro ⟨t, ht⟩
  rw [← ht] at h
  exact h rfl

@[simp] theorem orderRef_affiliateReference (n : ℕ) : orderRef (affiliateReference n) = none := by
  refine orderRef_eq_none fun h => ?_
  rw [affiliateReference, toList_toString] at h
  have hmem : 'o' ∈ Nat.toDigits 10 n := List.mem_of_head? h
  exact absurd (Nat.isDigit_of_mem_toDigits (by decide) (by decide) hmem) (by decide)

/-- **Escrow references are told apart by the order and the suffix.** -/
theorem orderReference_inj {m n : ℕ} {s t : String} (hs : IsSuffix s) (ht : IsSuffix t) :
    orderReference m s = orderReference n t ↔ m = n ∧ s = t := by
  rw [orderReference, orderReference, String.append_right_inj, toString_append_inj hs.noDigit ht.noDigit]

theorem withdrawReference_inj {m n : ℕ} : withdrawReference m = withdrawReference n ↔ m = n := by
  rw [withdrawReference, withdrawReference, String.append_right_inj, toString_inj]

end Marketplace
