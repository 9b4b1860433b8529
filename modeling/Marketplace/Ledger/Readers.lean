import Marketplace.Ledger.Reference
import Marketplace.Model.Types
import Marketplace.Text.Regex

/-!
# The readers of a ledger reference

Which order a row of the ledger is about is read off its reference in several places, each with
a parser of its own: the wallet's statement (`orderIdFromReference`), the money journal's grouping
(`groupKey`), the nightly reconciliation (`reconcileOrder`), the journal's filter of seeded
money (`journalOrder`), and the condition that lists an order's rows (`orderLedgerCondition`,
which `groupCondition` reaches by the group's key). The first two are Python patterns, the next
two PostgreSQL patterns, the last is `LIKE`.

The references of one order are `order-<id>` and a suffix (`OrderSuffix`), which for a remedy of a
dispute ends in a key the caller chose. The readers in SQL agree on the order whatever the key
is (`reconcileOrder_reference`, `orderLedgerCondition_iff`). The ones in Python do not read past
a newline, so all agree exactly on the references without a newline before
their last character: `readersAgree_iff`.
-/

namespace Marketplace

open Text

/-! ### References of an order -/

/-- `idempotency_key: str = Field(min_length=8, max_length=128)`. -/
abbrev RemedyKey := {key : String // 8 ≤ key.length ∧ key.length ≤ 128}

/-- What the system writes after `order-<id>`. -/
inductive OrderSuffix
  | bare
  | adminRefund
  | shortDelivery
  | short
  | adminPartial (disputeId : ℕ)
  | sellerTimeout (disputeId : ℕ)
  | remedy (disputeId : ℕ) (key : RemedyKey)
  deriving DecidableEq

namespace OrderSuffix

def text : OrderSuffix → String
  | bare => ""
  | adminRefund => ":admin-refund"
  | shortDelivery => ":short-delivery"
  | short => "-short"
  | adminPartial disputeId => disputeSuffix disputeId "admin-partial"
  | sellerTimeout disputeId => disputeSuffix disputeId "seller-timeout"
  | remedy disputeId key => disputeSuffix disputeId key

/-- The caller's key, if there is one, has no newline before its last character. -/
def OneLine : OrderSuffix → Prop
  | remedy _ key => '\n' ∉ key.1.toList.dropLast
  | _ => True

instance : DecidablePred OneLine
  | remedy _ key => inferInstanceAs (Decidable ('\n' ∉ key.1.toList.dropLast))
  | bare | adminRefund | shortDelivery | short | adminPartial _ | sellerTimeout _ => .isTrue trivial

theorem isSuffix_text (s : OrderSuffix) : IsSuffix s.text := by
  cases s with
  | bare | adminRefund | shortDelivery | short => decide
  | adminPartial d => exact isSuffix_disputeSuffix d _
  | sellerTimeout d => exact isSuffix_disputeSuffix d _
  | remedy d key => exact isSuffix_disputeSuffix d _

end OrderSuffix

/-! ### The patterns -/

/-- `[:-]` -/
def isSeparator (c : Char) : Bool := c = ':' ∨ c = '-'

section Patterns

variable (digits : DigitClass)

/-- What follows the number in `_ORDER_REF`: `(?:[:-].*)?$`. -/
def orderTail : Regex :=
  .seq (.opt (.seq (.one isSeparator) (.many Regex.dot none))) .eot

/-- `_ORDER_REF`, `^order-(\d+)(?:[:-].*)?$`. -/
def orderPattern : Regex :=
  .seq (.text "order-") (.seq (.group (.plus digits.isDecimal none)) orderTail)

/-- `_DEPOSIT_REF`, `^deposit-(\d+)(?:-.*)?$`. -/
def depositPattern : Regex :=
  .seq (.text "deposit-") (.seq (.group (.plus digits.isDecimal none))
    (.seq (.opt (.seq (.text "-") (.many Regex.dot none))) .eot))

/-- `_WITHDRAW_REF`, `^withdraw-(\d+)$`. -/
def withdrawPattern : Regex :=
  .seq (.text "withdraw-") (.seq (.group (.plus digits.isDecimal none)) .eot)

/-- What follows the number in the pattern of the SQL queries: `(?:[:-]|$)`. -/
def reconcileTail : Regex := .alt (.one isSeparator) .eot

/-- `^order-(\d+)(?:[:-]|$)`, in the SQL queries. -/
def reconcilePattern : Regex :=
  .seq (.text "order-") (.seq (.group (.plus digits.isDecimal none)) reconcileTail)

/-- What follows the kind in `GROUP_KEY`: `:(\d{1,12})$`. -/
def groupTail : Regex :=
  .seq (.text ":") (.seq (.group (.plus digits.isDecimal (some 11))) .eot)

/-- `GROUP_KEY`, `^(order|deposit|withdraw):(\d{1,12})$`. -/
def groupPattern : Regex :=
  .seq (.group (.alt (.text "order") (.alt (.text "deposit") (.text "withdraw")))) (groupTail digits)

/-- `m.group(1)` of a match in Python. -/
def pythonGroup (pattern : Regex) (s : String) : Option (List Char) :=
  ((pattern.groups .python s.toList).bind List.head?)

/-! ### The readers -/

/-- Why a reader stops: `int()` of no number, a cast the database refuses, a key of no group. -/
inductive ReadError
  | valueError
  | badCast
  | journalError
  deriving DecidableEq, Repr

/-- `_order_id_from_reference` -/
def orderIdFromReference (referenceId : Option String) : Except ReadError (Option ℕ) :=
  match referenceId with
  | none => .ok none
  | some reference =>
    if reference = "" then .ok none
    else
      match pythonGroup (orderPattern digits) reference with
      | some ident => ((digits.int? ident).elim (.error .valueError) fun n => .ok (some n))
      | none =>
        if digits.allDigits reference.toList then
          ((digits.int? reference.toList).elim (.error .valueError) fun n => .ok (some n))
        else .ok none

/-- `group_key` -/
def groupKey (referenceId : Option String) : Option String :=
  match referenceId with
  | none => none
  | some reference =>
    if reference = "" then none
    else
      match pythonGroup (orderPattern digits) reference with
      | some ident => some ("order:" ++ String.ofList ident)
      | none =>
        if digits.allDigits reference.toList then some ("order:" ++ reference)
        else
          match pythonGroup (depositPattern digits) reference with
          | some ident => some ("deposit:" ++ String.ofList ident)
          | none =>
            (pythonGroup (withdrawPattern digits) reference).map fun ident =>
              "withdraw:" ++ String.ofList ident

/-- `cast(… as Integer)`, of 32 bits and ASCII digits. -/
def castInteger (ds : List Char) : Except ReadError ℕ :=
  if ds ≠ [] ∧ ds.all Char.isDigit ∧ Nat.ofDigitChars 10 ds 0 < 2 ^ 31 then
    .ok (Nat.ofDigitChars 10 ds 0)
  else .error .badCast

/-- `cast(substring(reference_id, '^order-(\d+)(?:[:-]|$)'), Integer)`, which is `NULL` where the
reference is or where the pattern does not match. -/
def journalOrder (referenceId : Option String) : Except ReadError (Option ℕ) :=
  match referenceId.bind fun r => ((reconcilePattern digits).groups .postgres r.toList).bind
      List.head? with
  | none => .ok none
  | some ds => (castInteger ds).map some

/-- The order a row is booked for in `_check_orders`, which only reads references
`LIKE 'order-%'`. -/
def reconcileOrder (referenceId : Option String) : Except ReadError (Option ℕ) :=
  match referenceId with
  | none => .ok none
  | some r => if like "order-%".toList r.toList then journalOrder digits (some r) else .ok none

/-- `_not_seed`: no seeded wallet, no seeded order, no write-off of seeded money. -/
def notSeed (walletSeeded : Bool) (orderSeeded : ℕ → Bool) (referenceId : Option String) :
    Except ReadError Bool :=
  (journalOrder digits referenceId).map fun order =>
    !walletSeeded && order.all (fun n => !orderSeeded n) &&
      referenceId.all fun r => !like "seed-writeoff:%".toList r.toList

end Patterns

/-- `order_ledger_condition` -/
def orderLedgerCondition (orderId : ℕ) (includeAffiliate : Bool) (type : TransactionType)
    (referenceId : Option String) : Bool :=
  match referenceId with
  | none => false
  | some r =>
    let ref := "order-" ++ toString orderId
    r = ref || like (ref ++ ":%").toList r.toList || like (ref ++ "-%").toList r.toList ||
      (includeAffiliate && r = toString orderId &&
        (type = .affiliateCommission || type = .affiliateClawback))

/-- `_group_condition`: the rows a group's key stands for. -/
def groupCondition (digits : DigitClass) (key : String) :
    Except ReadError (TransactionType → Option String → Bool) :=
  match (groupPattern digits).groups .python key.toList with
  | some [kind, ident] =>
    if kind = "order".toList then
      (digits.int? ident).elim (.error .valueError) fun n => .ok (orderLedgerCondition n true)
    else if kind = "deposit".toList then
      let base := "deposit-" ++ String.ofList ident
      .ok fun _ r => r.any fun r => r = base || like (base ++ "-%").toList r.toList
    else .ok fun _ r => r = some ("withdraw-" ++ String.ofList ident)
  | _ => .error .journalError

/-! ### What the patterns make of a reference -/

theorem toList_orderReference (n : ℕ) (s : String) :
    (orderReference n s).toList = "order-".toList ++ ((toString n).toList ++ s.toList) := by
  rw [orderReference, String.toList_append, String.toList_append]

theorem eot_run_eq_nil_iff {dl : Dialect} {cs : List Char} :
    Regex.eot.run dl cs = [] ↔ Regex.atEnd dl cs = false := by
  rw [Regex.run]
  split_ifs with h <;> simp [h]

theorem isSeparator_iff {c : Char} : isSeparator c = true ↔ c = ':' ∨ c = '-' := by
  simp [isSeparator]

section Runs

variable (digits : DigitClass)

/-- Neither a separator nor a newline is a digit. -/
theorem not_separator_of_isDecimal {c : Char} (hc : digits.isDecimal c = true) :
    isSeparator c = false ∧ c ≠ '\n' := by
  have hascii : ∀ d : Char, d.toNat < 128 → d.isDigit = false → c ≠ d := by
    rintro d hd hdigit rfl
    rw [digits.isDecimal_ascii hd, hdigit] at hc
    exact absurd hc (by decide)
  have h1 := hascii ':' (by decide) (by decide)
  have h2 := hascii '-' (by decide) (by decide)
  exact ⟨by simp [isSeparator, h1, h2], hascii '\n' (by decide) (by decide)⟩

theorem isDecimal_head_of_isSuffix {s : String} (hs : IsSuffix s) (c : Char)
    (hc : s.toList.head? = some c) : digits.isDecimal c = false := by
  have hsep : isSeparator c = true := by
    unfold IsSuffix at hs
    rcases hl : s.toList with _ | ⟨d, ds⟩
    · simp [hl] at hc
    · rw [hl] at hs hc
      obtain rfl : d = c := by simpa using hc
      exact isSeparator_iff.mpr hs
  by_contra hdec
  have := (not_separator_of_isDecimal digits (Bool.eq_true_of_not_eq_false hdec)).1
  rw [hsep] at this
  exact absurd this (by decide)

theorem orderTail_run_digit {c : Char} (cs : List Char) (hc : digits.isDecimal c = true) :
    orderTail.run .python (c :: cs) = [] := by
  obtain ⟨hsep, hnl⟩ := not_separator_of_isDecimal digits hc
  have hopt : (Regex.opt (.seq (.one isSeparator) (.many Regex.dot none))).run .python (c :: cs) =
      [([], c :: cs)] := by
    rw [Regex.opt, Regex.run, Regex.run_seq_eq_nil (by rw [Regex.run, if_neg (by simp [hsep])])]
    simp [Regex.run]
  have hend : Regex.atEnd .python (c :: cs) = false := by simp [Regex.atEnd, hnl]
  rw [orderTail, Regex.run_seq_of_single hopt, eot_run_eq_nil_iff.mpr hend, List.map_nil]

theorem reconcileTail_run_digit {c : Char} (cs : List Char) (hc : digits.isDecimal c = true) :
    reconcileTail.run .postgres (c :: cs) = [] := by
  obtain ⟨hsep, -⟩ := not_separator_of_isDecimal digits hc
  simp [reconcileTail, Regex.run, hsep, Regex.atEnd]

/-- **In Python the suffix must not have a newline before its last character.** -/
theorem orderTail_run_eq_nil_iff {s : String} (hs : IsSuffix s) :
    orderTail.run .python s.toList = [] ↔ '\n' ∈ s.toList.dropLast := by
  unfold IsSuffix at hs
  rcases hl : s.toList with _ | ⟨c, cs⟩
  · simp [orderTail, Regex.opt, Regex.run, Regex.atEnd]
  · rw [hl] at hs
    have hsep : isSeparator c = true := isSeparator_iff.mpr hs
    have hnl : c ≠ '\n' := by rcases hs with rfl | rfl <;> decide
    have hopt : (Regex.opt (.seq (.one isSeparator) (.many Regex.dot none))).run .python (c :: cs) =
        ((splits Regex.dot cs.length cs).map fun rest => ([], rest)) ++ [([], c :: cs)] := by
      rw [Regex.opt, Regex.run,
        Regex.run_seq_of_single (g := []) (by rw [Regex.run, if_pos hsep])]
      simp [Regex.run]
    have hlast : Regex.atEnd .python (c :: cs) = false := by simp [Regex.atEnd, hnl]
    have hdrop : '\n' ∈ (c :: cs).dropLast ↔ '\n' ∈ cs.dropLast := by
      rcases cs with _ | ⟨d, cs⟩
      · simp
      · simp [List.dropLast, Ne.symm hnl]
    rw [orderTail, Regex.run_seq_eq_nil_iff, hopt, hdrop, ← not_iff_not,
      ← exists_splits_toEnd_iff]
    simp only [List.mem_append, List.mem_map, List.mem_singleton, eot_run_eq_nil_iff]
    constructor
    · intro h
      by_contra hno
      refine h fun m hm => ?_
      rcases hm with ⟨x, hx, rfl⟩ | rfl
      · exact Bool.eq_false_of_not_eq_true fun hend => hno ⟨x, hx, hend⟩
      · exact hlast
    · rintro ⟨x, hx, hend⟩ h
      have := h ([], x) (Or.inl ⟨x, hx, rfl⟩)
      rw [hend] at this
      exact absurd this (by decide)

theorem reconcileTail_run_ne_nil {s : String} (hs : IsSuffix s) :
    reconcileTail.run .postgres s.toList ≠ [] := by
  unfold IsSuffix at hs
  rcases hl : s.toList with _ | ⟨c, cs⟩
  · simp [reconcileTail, Regex.run, Regex.atEnd]
  · rw [hl] at hs
    have hsep : isSeparator c = true := isSeparator_iff.mpr hs
    simp [reconcileTail, Regex.run, hsep]

/-- The number captured from a reference, where the tail of the pattern accepts the suffix. -/
theorem run_orderReference {dl : Dialect} {tail : Regex} (n : ℕ) {s : String} (hs : IsSuffix s)
    (htail : ∀ c cs, digits.isDecimal c = true → tail.run dl (c :: cs) = []) :
    (((Regex.seq (.text "order-") (.seq (.group (.plus digits.isDecimal none)) tail)).groups dl
        (orderReference n s).toList).bind List.head?) =
      if tail.run dl s.toList = [] then none else some (toString n).toList := by
  have hrun : (Regex.seq (.text "order-") (.seq (.group (.plus digits.isDecimal none)) tail)).run dl
      ("order-".toList ++ ((toString n).toList ++ s.toList)) =
        (tail.run dl s.toList).map fun m => ((toString n).toList :: m.1, m.2) :=
    Regex.run_numbered (toList_toString_ne_nil n)
      (fun c hc => digits.isDecimal_of_isDigit (isDigit_of_mem_toString hc))
      (isDecimal_head_of_isSuffix digits hs) (by simp) htail
  rw [Regex.groups, toList_orderReference, hrun]
  rcases hr : tail.run dl s.toList with _ | ⟨m, l⟩ <;> simp

theorem pythonGroup_orderReference (n : ℕ) {s : String} (hs : IsSuffix s) :
    pythonGroup (orderPattern digits) (orderReference n s) =
      if '\n' ∈ s.toList.dropLast then none else some (toString n).toList := by
  rw [pythonGroup, orderPattern, run_orderReference digits n hs fun c cs =>
    orderTail_run_digit digits cs]
  simp only [orderTail_run_eq_nil_iff hs]

/-! ### What the readers make of it -/

theorem orderReference_ne_empty (n : ℕ) (s : String) : orderReference n s ≠ "" := by
  intro h
  have := congrArg String.toList h
  simp [toList_orderReference] at this

theorem not_allDigits_orderReference (n : ℕ) (s : String) :
    digits.allDigits (orderReference n s).toList = false := by
  have ho : digits.isdigit 'o' = false := digits.isdigit_ascii 'o' (by decide)
  simp [DigitClass.allDigits, toList_orderReference, ho]

/-- The wallet's reader. -/
theorem orderIdFromReference_orderReference (n : ℕ) {s : String} (hs : IsSuffix s) :
    orderIdFromReference digits (some (orderReference n s)) =
      .ok (if '\n' ∈ s.toList.dropLast then none else some n) := by
  simp only [orderIdFromReference, if_neg (orderReference_ne_empty n s),
    pythonGroup_orderReference digits n hs]
  by_cases hnl : '\n' ∈ s.toList.dropLast
  · simp [hnl, not_allDigits_orderReference]
  · simp only [if_neg hnl, digits.int?_toString, Option.elim_some]

/-- The journal's grouping, where the reference can be read at all. -/
theorem groupKey_orderReference (n : ℕ) {s : String} (hs : IsSuffix s)
    (hnl : '\n' ∉ s.toList.dropLast) :
    groupKey digits (some (orderReference n s)) = some ("order:" ++ toString n) := by
  simp only [groupKey, if_neg (orderReference_ne_empty n s),
    pythonGroup_orderReference digits n hs, if_neg hnl, String.ofList_toList]

theorem castInteger_toString {n : ℕ} (hn : n < 2 ^ 31) :
    castInteger (toString n).toList = .ok n := by
  have hval : Nat.ofDigitChars 10 (toString n).toList 0 = n := by
    rw [toList_toString, Nat.ofDigitChars_ten_toDigits]
  have hall : (toString n).toList.all Char.isDigit = true :=
    List.all_eq_true.mpr fun c hc => isDigit_of_mem_toString hc
  rw [castInteger, if_pos ⟨toList_toString_ne_nil n, hall, by rw [hval]; exact hn⟩, hval]

/-- **The patterns of the queries find the order whatever the suffix holds.** -/
theorem journalOrder_orderReference {n : ℕ} (hn : n < 2 ^ 31) {s : String} (hs : IsSuffix s) :
    journalOrder digits (some (orderReference n s)) = .ok (some n) := by
  simp only [journalOrder, Option.bind_some, reconcilePattern, run_orderReference digits n hs
    fun c cs => reconcileTail_run_digit digits cs, if_neg (reconcileTail_run_ne_nil hs),
    castInteger_toString hn]
  rfl

theorem reconcileOrder_orderReference {n : ℕ} (hn : n < 2 ^ 31) {s : String} (hs : IsSuffix s) :
    reconcileOrder digits (some (orderReference n s)) = .ok (some n) := by
  have hlike : like "order-%".toList (orderReference n s).toList = true := by
    have hplain : Plain "order-".toList := by simp [Plain]
    have hpat : "order-%".toList = "order-".toList ++ ['%'] := by decide
    rw [hpat, like_prefix_iff hplain, toList_orderReference]
    exact List.prefix_append _ _
  simp only [reconcileOrder, hlike, if_true]
  exact journalOrder_orderReference digits hn hs

end Runs

/-! ### The rows of one order -/

theorem plain_order (m : ℕ) {sep : Char} (hsep : sep = ':' ∨ sep = '-') :
    Plain ("order-" ++ toString m ++ String.singleton sep).toList := by
  intro c hc
  simp only [String.toList_append, String.toList_singleton, List.mem_append] at hc
  rcases hc with (hc | hc) | hc
  · fin_cases hc <;> decide
  · have hd := isDigit_of_mem_toString hc
    refine ⟨?_, ?_, ?_⟩ <;>
    · rintro rfl
      exact absurd hd (by decide)
  · obtain rfl : c = sep := by simpa using hc
    rcases hsep with rfl | rfl <;> decide

/-- `LIKE 'order-<id>:%'` and `LIKE 'order-<id>-%'`. -/
theorem like_order_iff (m n : ℕ) {s : String} (hs : IsSuffix s) {sep : Char}
    (hsep : sep = ':' ∨ sep = '-') {pattern : String}
    (hpat : pattern.toList = ("order-" ++ toString m ++ String.singleton sep).toList ++ ['%']) :
    like pattern.toList (orderReference n s).toList = true ↔
      m = n ∧ s.toList.head? = some sep := by
  rw [hpat, like_prefix_iff (plain_order m hsep)]
  constructor
  · rintro ⟨t, ht⟩
    have hsuffix : IsSuffix (String.singleton sep ++ String.ofList t) := by
      simp [IsSuffix, String.toList_append, hsep]
    have heq : orderReference m (String.singleton sep ++ String.ofList t) = orderReference n s := by
      rw [← String.toList_inj, ← ht]
      simp [orderReference, String.toList_append]
    obtain ⟨rfl, rfl⟩ := (orderReference_inj hsuffix hs).mp heq
    exact ⟨rfl, by simp [String.toList_append]⟩
  · rintro ⟨rfl, hhead⟩
    obtain ⟨t, ht⟩ : ∃ t, s.toList = sep :: t := by
      rcases hl : s.toList with _ | ⟨c, cs⟩
      · simp [hl] at hhead
      · exact ⟨cs, by simpa [hl] using hhead⟩
    refine ⟨t, ?_⟩
    rw [toList_orderReference, ht]
    simp [String.toList_append]

/-- **The condition that lists an order's rows takes the references of that order and of no
other.** -/
theorem orderLedgerCondition_iff (m n : ℕ) {s : String} (hs : IsSuffix s) (affiliate : Bool)
    (type : TransactionType) :
    orderLedgerCondition m affiliate type (some (orderReference n s)) = true ↔ m = n := by
  have hbare : orderReference n s = "order-" ++ toString m ↔ n = m ∧ s = "" := by
    have h := orderReference_inj (m := n) (n := m) hs (t := "") trivial
    rwa [orderReference, orderReference, String.append_empty] at h
  have haff : orderReference n s ≠ toString m := by
    intro h
    have href : orderRef (orderReference n s) = some n := orderRef_orderReference hs
    rw [h] at href
    exact absurd ((orderRef_affiliateReference m).symm.trans href) (by simp)
  have hcolon : like ("order-" ++ toString m ++ ":%").toList (orderReference n s).toList = true ↔
      m = n ∧ s.toList.head? = some ':' :=
    like_order_iff m n hs (Or.inl rfl) (by simp [String.toList_append])
  have hdash : like ("order-" ++ toString m ++ "-%").toList (orderReference n s).toList = true ↔
      m = n ∧ s.toList.head? = some '-' :=
    like_order_iff m n hs (Or.inr rfl) (by simp [String.toList_append])
  simp only [orderLedgerCondition, Bool.or_eq_true, Bool.and_eq_true, decide_eq_true_eq, hbare,
    hcolon, hdash, haff, and_false, false_and, or_false]
  constructor
  · rintro ((⟨rfl, -⟩ | ⟨rfl, -⟩) | ⟨rfl, -⟩) <;> rfl
  · rintro rfl
    unfold IsSuffix at hs
    rcases hl : s.toList with _ | ⟨c, cs⟩
    · exact Or.inl (Or.inl ⟨rfl, String.toList_eq_nil_iff.mp hl⟩)
    · rw [hl] at hs
      rcases hs with rfl | rfl
      · exact Or.inl (Or.inr ⟨rfl, rfl⟩)
      · exact Or.inr ⟨rfl, rfl⟩

/-- The group of an order is its condition, affiliate rows included. -/
theorem groupCondition_order (digits : DigitClass) {m : ℕ} (hm : m < 10 ^ 12) :
    groupCondition digits ("order:" ++ toString m) = .ok (orderLedgerCondition m true) := by
  have hlen : (toString m).toList.length ≤ 12 := by
    rw [toList_toString]
    exact (Nat.length_toDigits_le_iff (by decide) (by decide)).mpr hm
  have htail : (groupTail digits).run .python (":".toList ++ ((toString m).toList ++ [])) =
      [([(toString m).toList], [])] := by
    have hend : ∀ c cs, digits.isDecimal c = true → Regex.eot.run .python (c :: cs) = [] := by
      intro c cs hc
      rw [eot_run_eq_nil_iff]
      simp [Regex.atEnd, (not_separator_of_isDecimal digits hc).2]
    rw [groupTail, Regex.run_numbered (toList_toString_ne_nil m)
      (fun c hc => digits.isDecimal_of_isDigit (isDigit_of_mem_toString hc)) (by simp)
      (by simpa using hlen) hend]
    simp [Regex.run, Regex.atEnd]
  have hkey : ("order:" ++ toString m).toList =
      "order".toList ++ (":".toList ++ ((toString m).toList ++ [])) := by
    simp [String.toList_append]
  have hkind : (Regex.group (.alt (.text "order") (.alt (.text "deposit") (.text "withdraw")))).run
      .python ("order".toList ++ (":".toList ++ ((toString m).toList ++ []))) =
        [(["order".toList], ":".toList ++ ((toString m).toList ++ []))] := by
    simp [Regex.run]
  have hgroups : (groupPattern digits).groups .python ("order:" ++ toString m).toList =
      some ["order".toList, (toString m).toList] := by
    rw [Regex.groups, groupPattern, hkey, Regex.run_seq_of_single hkind, htail]
    rfl
  simp only [groupCondition, hgroups, if_true, digits.int?_toString]
  rfl

/-! ### All of them together -/

/-- Every reader attributes the reference to order `n`, and the rows a group lists are those the
reconciliation sums. Orders are numbered by a column of 32 bits. -/
structure ReadersAgree (digits : DigitClass) (n : ℕ) (reference : String) : Prop where
  wallet : orderIdFromReference digits (some reference) = .ok (some n)
  journal : groupKey digits (some reference) = some ("order:" ++ toString n)
  reconcile : reconcileOrder digits (some reference) = .ok (some n)
  seed : ∀ walletSeeded orderSeeded, notSeed digits walletSeeded orderSeeded (some reference) =
    .ok (!walletSeeded && !orderSeeded n)
  condition : ∀ m type, orderLedgerCondition m false type (some reference) = true ↔ m = n
  group : ∀ m, m < 2 ^ 31 → ∃ rows, groupCondition digits ("order:" ++ toString m) = .ok rows ∧
    ∀ type, rows type (some reference) = true ↔
      reconcileOrder digits (some reference) = .ok (some m)

section Agree

variable (digits : DigitClass)

/-- No reference of an order is a write-off of seeded money. -/
theorem like_writeoff_orderReference (n : ℕ) (s : String) :
    like "seed-writeoff:%".toList (orderReference n s).toList = false := by
  rw [toList_orderReference]
  simp [like]

theorem notSeed_orderReference {n : ℕ} (hn : n < 2 ^ 31) {s : String} (hs : IsSuffix s)
    (walletSeeded : Bool) (orderSeeded : ℕ → Bool) :
    notSeed digits walletSeeded orderSeeded (some (orderReference n s)) =
      .ok (!walletSeeded && !orderSeeded n) := by
  rw [notSeed, journalOrder_orderReference digits hn hs, Except.map, Option.all_some,
    Option.all_some, like_writeoff_orderReference]
  simp

/-- The group of an order lists what the reconciliation sums for it, whatever the suffix. -/
theorem groupCondition_reconcile {n : ℕ} (hn : n < 2 ^ 31) {s : String} (hs : IsSuffix s) {m : ℕ}
    (hm : m < 2 ^ 31) :
    ∃ rows, groupCondition digits ("order:" ++ toString m) = .ok rows ∧
      ∀ type, rows type (some (orderReference n s)) = true ↔
        reconcileOrder digits (some (orderReference n s)) = .ok (some m) := by
  refine ⟨_, groupCondition_order digits (by omega), fun type => ?_⟩
  rw [orderLedgerCondition_iff m n hs, reconcileOrder_orderReference digits hn hs]
  constructor
  · rintro rfl
    rfl
  · intro h
    simpa using (Option.some.inj (Except.ok.inj h)).symm

/-- **The readers agree exactly where the wallet's pattern reads the reference at all.** -/
theorem readersAgree_of_suffix {n : ℕ} (hn : n < 2 ^ 31) {s : String} (hs : IsSuffix s) :
    ReadersAgree digits n (orderReference n s) ↔ '\n' ∉ s.toList.dropLast := by
  constructor
  · intro h hnl
    have hwallet := h.wallet
    rw [orderIdFromReference_orderReference digits n hs, if_pos hnl] at hwallet
    simp at hwallet
  · intro hnl
    refine ⟨?_, groupKey_orderReference digits n hs hnl, reconcileOrder_orderReference digits hn hs,
      notSeed_orderReference digits hn hs,
      fun m type => orderLedgerCondition_iff m n hs false type,
      fun m hm => groupCondition_reconcile digits hn hs hm⟩
    rw [orderIdFromReference_orderReference digits n hs, if_neg hnl]

end Agree

theorem newline_disputeSuffix_iff (disputeId : ℕ) (key : String) :
    '\n' ∉ (disputeSuffix disputeId key).toList.dropLast ↔ '\n' ∉ key.toList.dropLast := by
  have hfront : '\n' ∉ ":dispute:".toList ++ ((toString disputeId).toList ++ ":".toList) := by
    simp only [List.mem_append, not_or]
    refine ⟨by decide, fun h => ?_, by decide⟩
    exact absurd (isDigit_of_mem_toString h) (by decide)
  have hlist : (disputeSuffix disputeId key).toList =
      (":dispute:".toList ++ ((toString disputeId).toList ++ ":".toList)) ++ key.toList := by
    simp only [disputeSuffix, String.toList_append, List.append_assoc]
  rw [hlist]
  rcases eq_or_ne key.toList [] with hk | hk
  · rw [hk, List.append_nil]
    exact iff_of_true (fun h => hfront (List.mem_of_mem_dropLast h)) (by simp)
  · rw [List.dropLast_append_of_ne_nil hk, List.mem_append, not_or]
    exact and_iff_right hfront

theorem OrderSuffix.oneLine_iff (s : OrderSuffix) : '\n' ∉ s.text.toList.dropLast ↔ s.OneLine := by
  cases s with
  | bare | adminRefund | shortDelivery | short => exact iff_of_true (by decide) trivial
  | adminPartial d | sellerTimeout d =>
    exact iff_of_true ((newline_disputeSuffix_iff d _).mpr (by decide)) trivial
  | remedy d key => exact newline_disputeSuffix_iff d key

/-- **Every reader agrees on the order of a reference exactly when the caller's key has no newline
before its last character.** -/
theorem readersAgree_iff (digits : DigitClass) {n : ℕ} (hn : n < 2 ^ 31) (s : OrderSuffix) :
    ReadersAgree digits n (orderReference n s.text) ↔ s.OneLine := by
  rw [readersAgree_of_suffix digits hn s.isSuffix_text, s.oneLine_iff]

theorem readersAgree_admin_refund :
    ReadersAgree .ascii 12 (orderReference 12 OrderSuffix.adminRefund.text) :=
  (readersAgree_iff .ascii (by decide) .adminRefund).mpr trivial

/-- A key of two lines: the reconciliation still sums the refund, the journal lists it for no
order. -/
theorem not_readersAgree_two_lines :
    ¬ ReadersAgree .ascii 12
      (orderReference 12 (OrderSuffix.remedy 3 ⟨"refund-1\nrefund-2", by decide⟩).text) := by
  rw [readersAgree_of_suffix .ascii (by decide) (OrderSuffix.isSuffix_text _),
    OrderSuffix.oneLine_iff]
  decide

end Marketplace
