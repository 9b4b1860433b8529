import Mathlib.Tactic

/-!
# The rules of takedown requests

`takedown/lifecycle.py`: the statuses of the partner and of a request, which of the partner's become which
of ours, when a webhook may be applied, and the code by which a request is found again in the `reason` of a
partner's order.

`codeInReason_reasonFor` is the round trip of that code.
-/

namespace Marketplace

/-! ### Statuses -/

/-- `PARTNER_STATUSES`. -/
inductive PartnerStatus
  | pendingReview | quoted | awaitingPayment | processing | inWarranty | warrantyPending
  | success | failed | rejected | quoteRejected | cancelled
  deriving DecidableEq, Repr

/-- `TAKEDOWN_STATUSES`. -/
inductive TakedownStatus
  | review | quoted | started | processing | warranty | warrantyClaim
  | done | failed | declined | rejected | cancelled
  deriving DecidableEq, Repr

/-- The partner's last words. -/
def PartnerStatus.IsFinal : PartnerStatus → Prop
  | .success | .failed | .rejected | .quoteRejected | .cancelled => True
  | _ => False

instance : DecidablePred PartnerStatus.IsFinal := fun s => by
  cases s <;> unfold PartnerStatus.IsFinal <;> infer_instance

/-- `TERMINAL`. -/
def TakedownStatus.IsTerminal : TakedownStatus → Prop
  | .done | .failed | .declined | .rejected | .cancelled => True
  | _ => False

instance : DecidablePred TakedownStatus.IsTerminal := fun s => by
  cases s <;> unfold TakedownStatus.IsTerminal <;> infer_instance

/-- `REFUND_ON`. -/
def TakedownStatus.Refunds (s : TakedownStatus) : Prop := s = .failed ∨ s = .cancelled

instance : DecidablePred TakedownStatus.Refunds := fun s => by
  unfold TakedownStatus.Refunds
  infer_instance

/-- `_DIRECT`, with `review` for a status that is not in it. -/
def PartnerStatus.direct : PartnerStatus → TakedownStatus
  | .pendingReview => .review
  | .quoted => .review
  | .awaitingPayment => .started
  | .processing => .processing
  | .inWarranty => .warranty
  | .warrantyPending => .warrantyClaim
  | .success => .done
  | .failed => .failed
  | .rejected => .declined
  | .quoteRejected => .rejected
  | .cancelled => .cancelled

/-- `status_for`. -/
def statusFor (partnerStatus : PartnerStatus) (priceSet orderHeld : Bool) : TakedownStatus :=
  if partnerStatus = .quoted then
    if orderHeld then .started else if priceSet then .quoted else .review
  else if partnerStatus = .pendingReview ∧ orderHeld = true then .started
  else partnerStatus.direct

/-- `webhook_applies`. -/
def webhookApplies (currentPartnerStatus fromStatus : Option PartnerStatus) : Bool :=
  match currentPartnerStatus with
  | none => fromStatus = none || fromStatus = some .pendingReview
  | some s => fromStatus = some s

/-- `EVIDENCE_STATUSES`. -/
def PartnerStatus.HasEvidence (s : PartnerStatus) : Prop :=
  s = .inWarranty ∨ s = .warrantyPending ∨ s = .success

instance : DecidablePred PartnerStatus.HasEvidence := fun s => by
  unfold PartnerStatus.HasEvidence
  infer_instance

/-- **A request ends where the partner ends**, and in the status of the partner's last word. -/
theorem statusFor_isTerminal (s : PartnerStatus) (priceSet orderHeld : Bool) :
    (statusFor s priceSet orderHeld).IsTerminal ↔ s.IsFinal := by
  cases s <;> cases priceSet <;> cases orderHeld <;> decide

theorem statusFor_eq_done (s : PartnerStatus) (priceSet orderHeld : Bool) :
    statusFor s priceSet orderHeld = .done ↔ s = .success := by
  cases s <;> cases priceSet <;> cases orderHeld <;> decide

/-- A paid request is never put back to a status in which nothing is paid, but for the last words that
refund nothing. -/
theorem statusFor_held (s : PartnerStatus) (priceSet : Bool) :
    ¬(statusFor s priceSet true).IsTerminal ∨ statusFor s priceSet true = .done ∨
      (statusFor s priceSet true).Refunds ∨ s = .rejected ∨ s = .quoteRejected := by
  cases s <;> cases priceSet <;> decide

/-- A paid request is never put back to a status in which it could be accepted again. -/
theorem statusFor_late (s : PartnerStatus) (priceSet : Bool) :
    statusFor s priceSet true ≠ .review ∧ statusFor s priceSet true ≠ .quoted := by
  cases s <;> cases priceSet <;> decide

/-! ### The code of a request -/

/-- A character of a code. -/
def isCodeChar (c : Char) : Bool := c.isDigit || c.isUpper

/-- `TD-[0-9A-Z]{8}`. -/
def isTakedownCode (text : List Char) : Bool :=
  text.length = 11 && text.take 3 = ['T', 'D', '-'] && (text.drop 3).all isCodeChar

/-- The public reference of a request, as `new_takedown_code` draws it. -/
structure TakedownCode where
  text : List Char
  isCode : isTakedownCode text = true
  deriving DecidableEq

/-- `reason_for`. -/
def reasonFor (code : TakedownCode) (note : Option String) : List Char :=
  let text := (note.getD "").trimAscii.toString.toList
  (('[' :: (code.text ++ [']'])) ++ if text = [] then [] else ' ' :: text).take 2000

/-- `code_in_reason`. -/
def codeInReason : List Char → Option TakedownCode
  | '[' :: rest =>
    if h : isTakedownCode (rest.take 11) = true then
      if (rest.drop 11).head? = some ']' then some ⟨rest.take 11, h⟩ else none
    else none
  | _ => none

theorem TakedownCode.length (code : TakedownCode) : code.text.length = 11 := by
  have h := code.isCode
  simp only [isTakedownCode, Bool.and_eq_true, decide_eq_true_eq] at h
  exact h.1.1

/-- **The code is found again in the reason**, whatever the note. -/
theorem codeInReason_reasonFor (code : TakedownCode) (note : Option String) :
    codeInReason (reasonFor code note) = some code := by
  have hlen := code.length
  generalize htail : (if ((note.getD "").trimAscii.toString.toList) = [] then []
    else ' ' :: (note.getD "").trimAscii.toString.toList) = tail
  have hreason : reasonFor code note = '[' :: (code.text ++ (']' :: tail).take 1988) := by
    rw [reasonFor, htail, List.cons_append, List.take_succ_cons, List.append_assoc,
      List.take_append, hlen, List.take_of_length_le (by omega)]
    rfl
  have htake : (code.text ++ (']' :: tail).take 1988).take 11 = code.text := by
    rw [← hlen, List.take_left]
  have hdrop : (code.text ++ (']' :: tail).take 1988).drop 11 = (']' :: tail).take 1988 := by
    rw [← hlen, List.drop_left]
  rw [hreason]
  simp only [codeInReason, htake, hdrop, code.isCode, dite_true]
  rfl

/-! ### Evidence -/

/-- `safe_http_url`. -/
def safeHttpUrl (value : Option String) : Option String :=
  value.bind fun v =>
    let text := (v.trimAscii.toString.toLower).toList
    if "http://".toList <+: text ∨ "https://".toList <+: text then some v else none

end Marketplace
