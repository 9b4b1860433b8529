import Marketplace.Payments.Nowpayments
import Marketplace.Protocol.Slot

/-!
# The payments of a hosted invoice

A buyer can pay a hosted invoice more than once, and the payments reach the platform in any order and
any number of times, by notification or as candidates of a reconciliation. The deposit should be
credited once, as soon as one of them passes every check.

The handler binds the deposit to the first finished payment that names the invoice, the order and a USDT
network *before* it looks at the amounts, and afterwards takes no payment with another
`payment_id`. So the deposit is a slot with a first claimant (`Protocol.SlotRules`): a payment that is
rejected for its amounts claims it, and only a payment under the same id can settle it.
`stands_deliver` is that a delivery moves the deposit as `invoiceRules` says;
`credited_in_any_order_iff` is what follows for a sequence of deliveries.
-/

namespace Marketplace

namespace Nowpayments

open Python Text Sql Protocol

/-! ### Deliveries -/

/-- A payload on its way to a deposit. -/
inductive Delivery
  | ipn (p : Fields)
  | candidate (info : Fields)

def Delivery.payload : Delivery → Fields
  | .ipn p => p
  | .candidate info => info

/-- A deposit on a hosted invoice that no payment is bound to. -/
structure Fresh (i : Intent) : Prop where
  provider : i.provider = .nowpayments
  invoice : (given i.nowInvoiceId).isSome = true
  paymentId : i.nowPaymentId = none
  payAmount : i.payAmount = none
  unpaid : i.status ≠ .paid

/-- The deposit is paid. -/
def Store.IsPaid (s : Store) (id : ℕ) : Prop :=
  (s.intents.get? id).map Intent.status = some .paid

instance (s : Store) (id : ℕ) : Decidable (s.IsPaid id) := by
  unfold Store.IsPaid
  infer_instance

/-- Nothing was credited, or the deposit was, once and by its amount. -/
def CreditedAtMostOnce (id : ℕ) (i : Intent) (s s' : Store) : Prop :=
  (s'.wallets = s.wallets ∧ s'.transactions = s.transactions ∧ ¬ s'.IsPaid id) ∨
    ∃ reference, s'.wallets = deposit i.accountId i.amount s.wallets ∧
      s'.transactions = s.transactions ++ [⟨i.accountId, i.amount, reference⟩] ∧ s'.IsPaid id

namespace Runtime

variable (rt : Runtime)

/-- One delivery; a transaction that is lost leaves nothing behind. -/
def deliver (id : ℕ) (s : Store) : Delivery → Store
  | .ipn p => ((rt.handleNowpaymentsIpn p s).map Prod.fst).getD s
  | .candidate info =>
    if rt.candidateStatus info = some "finished" then
      ((rt.creditCandidate id info s).map Prod.fst).getD s
    else s

/-- Deliveries one after another. -/
def deliverAll (id : ℕ) (s : Store) (ds : List Delivery) : Store := ds.foldl (rt.deliver id) s

/-- The payload says that the payment is finished. -/
def finished : Delivery → Bool
  | .ipn p => rt.paymentStatus p = "finished"
  | .candidate info => rt.candidateStatus info = some "finished"

/-- The payload names the invoice, the order and a USDT network. -/
def identified (id : ℕ) (i : Intent) (p : Fields) : Bool :=
  given i.nowInvoiceId = some (rt.invoiceId p) && rt.text "order_id" p = formatOrderId id &&
    "usdt".toList.isPrefixOf (rt.payCurrency p).toList

/-- `actually_paid >= pay_amount > 0` -/
def covered (p : Fields) : Bool :=
  match rt.parseDecimal (Json.get p "actually_paid"), rt.parseDecimal (Json.get p "pay_amount") with
  | some paid, some required => 0 < required && required ≤ paid
  | _, _ => false

/-- The payload of a finished payment passes every check against the deposit as it was created. -/
def passes (id : ℕ) (i : Intent) (d : Delivery) : Bool :=
  rt.finished d && rt.identified id i d.payload && rt.covered d.payload

/-- The delivery gets to the checks: a notification has an id, its columns hold it, it is new to the
journal, and its order id reads as the deposit's. -/
def reaches (s : Store) (id : ℕ) (d : Delivery) : Bool :=
  rt.finished d &&
    match d with
    | .ipn p =>
      rt.paymentId p ≠ "" && rt.eventFits p && !s.journaled (rt.event p) &&
        (rt.parseOrderId (rt.orderIdRaw p) = some id && integer id)
    | .candidate _ => true

/-- The columns of the deposit hold the binding, and no other deposit has the payment. -/
def bindable (s : Store) (id : ℕ) (p : Fields) : Bool :=
  (varchar 64 (rt.paymentId p)).isSome && (varchar 32 (rt.payCurrency p)).isSome &&
    !s.paymentTaken id (rt.paymentId p)

/-- The reference of the deposit's credit. -/
def creditReference (id : ℕ) (p : Fields) : String :=
  depositReference id (if rt.paymentId p = "" then none else some (rt.paymentId p))

/-- The columns hold the amounts and texts of the credit. -/
def creditFits (s : Store) (id : ℕ) (i : Intent) (p : Fields) : Bool :=
  integer ((s.wallets.get? i.accountId).getD 0 + i.amount) &&
    ((varchar 255 (rt.creditReference id p)).isSome &&
      (0 < i.amount && s.transactions.all fun t => t.referenceId ≠ rt.creditReference id p)) &&
    (varchar 128 (rt.paymentId p)).isSome &&
    (["actually_paid", "pay_amount", "outcome_amount"].all fun key =>
      (rt.parseDecimal (Json.get p key)).all fun q => (numeric q).isSome) &&
    ((Json.get p "outcome_currency").isNull ||
      (varchar 32 (rt.lower (rt.py.str (Json.get p "outcome_currency")))).isSome)

/-- What the deliveries are to the deposit, as it and the tables were before the first of them. -/
def invoiceRules (s : Store) (id : ℕ) (i : Intent) : SlotRules Delivery String where
  key d := rt.paymentId d.payload
  claims d :=
    rt.reaches s id d && rt.identified id i d.payload && !rt.covered d.payload &&
      rt.bindable s id d.payload && rt.paymentId d.payload ≠ ""
  settlesFree d :=
    rt.reaches s id d && rt.identified id i d.payload && rt.covered d.payload &&
      rt.bindable s id d.payload && rt.creditFits s id i d.payload
  settlesHeld d :=
    rt.reaches s id d && rt.identified id i d.payload && rt.covered d.payload &&
      rt.creditFits s id i d.payload

/-- The delivery is for this deposit: a notification that names another one is not taken for a
payment of that one. -/
def Concerns (s : Store) (id : ℕ) : Delivery → Prop
  | .ipn p => ∀ n j, rt.parseOrderId (rt.orderIdRaw p) = some n → n ≠ id →
      s.intents.get? n = some j → (rt.checkIdentity n j p).isSome = true
  | .candidate _ => True

/-- One JSON object, up to the order of its keys. -/
def SameJson (p q : Fields) : Prop :=
  (∀ key, Json.get p key = Json.get q key) ∧ rt.jsonb p = rt.jsonb q

/-! ### One payment -/

section Checks

variable {rt} {s s₀ : Store} {id : ℕ} {i : Intent} {p : Fields}

/-- The deposit with a payment bound to it. -/
def bound (i : Intent) (paymentId payCurrency : Option String) : Intent :=
  { i with nowPaymentId := paymentId, payCurrency := payCurrency }

theorem ite_some_eq_none_iff {α : Type} {c : Prop} [Decidable c] {r : α} {o : Option α} :
    (if c then some r else o) = none ↔ ¬ c ∧ o = none := by
  split <;> simp [*]

theorem checkIdentity_eq_none_iff (i : Intent) :
    rt.checkIdentity id i p = none ↔
      i.provider = .nowpayments ∧ (given i.nowInvoiceId).any (rt.invoiceId p ≠ ·) = false ∧
        (given i.nowPaymentId).any (rt.paymentId p ≠ ·) = false ∧
        (rt.text "order_id" p ≠ "" ∧ rt.text "order_id" p = formatOrderId id) ∧
        (rt.payCurrency p ≠ "" ∧ rt.currencyMatches i (rt.payCurrency p) = true) := by
  simp only [checkIdentity, ite_some_eq_none_iff, not_or, ne_eq, not_not, and_true, Bool.not_eq_true,
    Bool.not_eq_false]

theorem formatOrderId_ne (id : ℕ) : formatOrderId id ≠ "" := by
  intro h
  have := congrArg String.toList h
  simp [formatOrderId, String.toList_append] at this

theorem any_ne_eq_false_iff (a : Option String) (k : String) :
    a.any (k ≠ ·) = false ↔ ∀ k' ∈ a, k' = k := by
  cases a with
  | none => simp
  | some k' =>
    rw [Option.any_some, decide_eq_false_iff_not, not_not]
    exact ⟨fun h _ hk => (Option.some.inj hk).symm.trans h.symm, fun h => (h k' rfl).symm⟩

/-- On a hosted invoice a payment gets past the identity checks when it names the invoice, the order
and a USDT network, and no other payment is bound. -/
theorem checkIdentity_bound (hi : Fresh i) (a c : Option String) :
    rt.checkIdentity id (bound i a c) p = none ↔
      rt.identified id i p = true ∧ ∀ k ∈ given a, k = rt.paymentId p := by
  obtain ⟨v, hv⟩ := Option.isSome_iff_exists.mp hi.invoice
  have husdt : ∀ t : String, "usdt".toList.isPrefixOf t.toList = true → t ≠ "" := by
    rintro t ht rfl
    exact Bool.noConfusion (show false = true from ht)
  have hhosted : rt.currencyMatches (bound i a c) (rt.payCurrency p) =
      "usdt".toList.isPrefixOf (rt.payCurrency p).toList := if_pos hi.invoice
  rw [checkIdentity_eq_none_iff, hhosted, any_ne_eq_false_iff, any_ne_eq_false_iff]
  simp only [bound, hv, hi.provider, identified, Bool.and_eq_true, decide_eq_true_eq, Option.mem_def,
    Option.some.injEq, true_and, forall_eq']
  constructor
  · rintro ⟨hinv, hpay, ⟨-, horder⟩, -, hcur⟩
    exact ⟨⟨⟨hinv, horder⟩, hcur⟩, hpay⟩
  · rintro ⟨⟨⟨hinv, horder⟩, hcur⟩, hpay⟩
    exact ⟨hinv, hpay, ⟨horder ▸ formatOrderId_ne id, horder⟩, husdt _ hcur, hcur⟩

/-! ### The amounts -/

theorem checkAmounts_of_covered (hi : i.payAmount = none) (h : rt.covered p = true) :
    ∃ paid required, rt.checkAmounts i p = .ok (paid, required) ∧
      rt.parseDecimal (Json.get p "actually_paid") = some paid ∧
      rt.parseDecimal (Json.get p "pay_amount") = some required := by
  rw [covered] at h
  split at h
  next paid required hpaid hrequired =>
    obtain ⟨hpos, hle⟩ : 0 < required ∧ required ≤ paid := by simpa using h
    refine ⟨paid, required, ?_, hpaid, hrequired⟩
    rw [checkAmounts, hpaid]
    dsimp only
    rw [if_neg (not_le.mpr (hpos.trans_le hle)), requiredPayAmount, hi]
    dsimp only
    rw [hrequired]
    dsimp only
    rw [if_neg (not_le.mpr hpos), if_neg (by simpa [Nowpayments.underpay] using hle)]
  next => exact absurd h (by simp)

theorem checkAmounts_of_not_covered (hi : i.payAmount = none) (h : rt.covered p = false) :
    ∃ r, rt.checkAmounts i p = .error r := by
  rw [checkAmounts]
  rcases hpaid : rt.parseDecimal (Json.get p "actually_paid") with _ | paid
  · exact ⟨_, rfl⟩
  · dsimp only
    split
    · exact ⟨_, rfl⟩
    · rw [requiredPayAmount, hi]
      dsimp only
      rcases hrequired : rt.parseDecimal (Json.get p "pay_amount") with _ | required
      · exact ⟨_, rfl⟩
      · dsimp only
        split
        · exact ⟨_, rfl⟩
        next hpos =>
          rw [if_pos]
          · exact ⟨_, rfl⟩
          · by_contra hle
            have hle' : required ≤ paid := by simpa [Nowpayments.underpay] using hle
            have : rt.covered p = true := by
              rw [covered, hpaid, hrequired]
              simp [not_le.mp hpos, hle']
            simp [h] at this

/-! ### The credit -/

/-- Where a deposit and the money are after its credit. -/
structure Paid (s : Store) (id : ℕ) (i : Intent) (s' : Store) : Prop where
  row : ∃ j, s'.intents = s.intents.modify id (fun _ => j) ∧ j.status = .paid
  wallets : s'.wallets = deposit i.accountId i.amount s.wallets
  transactions : ∃ reference, s'.transactions = s.transactions ++ [⟨i.accountId, i.amount, reference⟩]
  events : s'.ipnEvents = s.ipnEvents

theorem eq_of_varchar {n : ℕ} {t u : String} (h : varchar n t = some u) : u = t := by
  rw [varchar] at h
  split at h
  · exact (Option.some.inj h).symm
  · cases h

theorem assignGiven_isSome {α : Type} (column : α → Option α) (value old : Option α) :
    (∃ o, assignGiven column value old = some o) ↔
      value.all (fun v => (column v).isSome) = true := by
  cases value with
  | none => simp [assignGiven]
  | some v => cases h : column v <;> simp [assignGiven, h]

theorem paid_of_applyDepositPaid {reference : String} {pay : Payment} {s' : Store}
    (h : applyDepositPaid id i reference pay s = some s') : Paid s id i s' := by
  simp only [applyDepositPaid, Option.bind_eq_bind, Option.bind_eq_some_iff, Option.pure_def,
    Option.some.injEq, Option.guard_eq_some', exists_const] at h
  obtain ⟨-, r, -, -, e, -, c, -, o, -, cur, -, rfl⟩ := h
  exact ⟨⟨_, rfl, rfl⟩, rfl, ⟨r, rfl⟩, rfl⟩

/-- The database takes the credit exactly when every column holds its value. -/
theorem applyDepositPaid_isSome {reference : String} {pay : Payment} :
    (∃ s', applyDepositPaid id i reference pay s = some s') ↔
      integer ((s.wallets.get? i.accountId).getD 0 + i.amount) = true ∧
        (∃ r, varchar 255 (depositReference id (if reference = "" then none else some reference)) =
          some r ∧ 0 < i.amount ∧ ∀ t ∈ s.transactions, t.referenceId ≠ r) ∧
        (varchar 128 reference).isSome = true ∧ (numeric pay.paidCryptoAmount).isSome = true ∧
        pay.outcomeAmount.all (fun q => (numeric q).isSome) = true ∧
        pay.outcomeCurrency.all (fun c => (varchar 32 c).isSome) = true := by
  rw [← assignGiven_isSome numeric _ i.outcomeAmount,
    ← assignGiven_isSome (varchar 32) _ i.outcomeCurrency]
  simp only [applyDepositPaid, Option.bind_eq_bind, Option.bind_eq_some_iff, Option.pure_def,
    Option.some.injEq, Option.guard_eq_some', exists_const, Option.isSome_iff_exists]
  constructor
  · rintro ⟨s', hbal, r, hr, hok, e, he, c, hc, o, ho, cur, hcur, -⟩
    exact ⟨hbal, ⟨r, hr, hok⟩, ⟨e, he⟩, ⟨c, hc⟩, ⟨o, ho⟩, ⟨cur, hcur⟩⟩
  · rintro ⟨hbal, ⟨r, hr, hok⟩, ⟨e, he⟩, ⟨c, hc⟩, ⟨o, ho⟩, ⟨cur, hcur⟩⟩
    exact ⟨_, hbal, r, hr, hok, e, he, c, hc, o, ho, cur, hcur, rfl⟩

theorem referenceFits_iff {n : ℕ} {t : String} {amount : ℤ} :
    ((varchar n t).isSome && (0 < amount && s.transactions.all fun x => x.referenceId ≠ t)) = true ↔
      ∃ r, varchar n t = some r ∧ 0 < amount ∧ ∀ x ∈ s.transactions, x.referenceId ≠ r := by
  rcases h : varchar n t with _ | u
  · simp
  · obtain rfl := eq_of_varchar h
    simp

theorem outcomeCurrency_all_iff (paid : ℚ) :
    ((Json.get p "outcome_currency").isNull ||
      (varchar 32 (rt.lower (rt.py.str (Json.get p "outcome_currency")))).isSome) =
      (rt.payment paid p).outcomeCurrency.all fun c => (varchar 32 c).isSome := by
  rw [payment]
  dsimp only
  cases (Json.get p "outcome_currency").isNull <;> simp

/-- What a covered payment of an unpaid deposit comes to. -/
theorem creditCovered_bound (hi : Fresh i) {a c : Option String} {paid required : ℚ}
    (hpaid : rt.parseDecimal (Json.get p "actually_paid") = some paid)
    (hrequired : rt.parseDecimal (Json.get p "pay_amount") = some required) :
    (rt.creditFits s id i p = true → ∃ s',
      ((setPayAmount required (bound i a c)).bind fun j => rt.creditCovered id j p paid s) =
        some (s', .ok ()) ∧ Paid s id i s') ∧
    (rt.creditFits s id i p = false →
      ((setPayAmount required (bound i a c)).bind fun j => rt.creditCovered id j p paid s) = none) := by
  have hset : setPayAmount required (bound i a c) =
      (numeric required).map fun q => { bound i a c with payAmount := some q } := by
    rw [setPayAmount, bound, hi.payAmount]
  have hcredit : ∀ q, rt.creditCovered id { bound i a c with payAmount := some q } p paid s =
      (applyDepositPaid id { bound i a c with payAmount := some q } (rt.paymentId p)
        (rt.payment paid p) s).map (·, .ok ()) := fun q => if_neg hi.unpaid
  have hfits : rt.creditFits s id i p = true ↔
      ∃ q, numeric required = some q ∧
        ∃ s', applyDepositPaid id { bound i a c with payAmount := some q } (rt.paymentId p)
          (rt.payment paid p) s = some s' := by
    simp only [applyDepositPaid_isSome, exists_and_right, ← Option.isSome_iff_exists (x := numeric required)]
    rw [creditFits, outcomeCurrency_all_iff paid, Bool.and_eq_true, Bool.and_eq_true, Bool.and_eq_true,
      Bool.and_eq_true, referenceFits_iff]
    simp only [List.all_cons, List.all_nil, hpaid, hrequired, Option.all_some, Bool.and_true, Bool.and_eq_true]
    constructor
    · rintro ⟨⟨⟨⟨hbal, href⟩, hext⟩, hp, hr, ho⟩, hc⟩
      exact ⟨hr, hbal, href, hext, hp, ho, hc⟩
    · rintro ⟨hr, hbal, href, hext, hp, ho, hc⟩
      exact ⟨⟨⟨⟨hbal, href⟩, hext⟩, hp, hr, ho⟩, hc⟩
  rw [hset]
  constructor
  · intro h
    obtain ⟨q, hq, s', hs'⟩ := hfits.mp h
    refine ⟨s', ?_, ?_⟩
    · rw [hq, Option.map_some, Option.bind_some, hcredit, hs', Option.map_some]
    · obtain ⟨hrow, hw, ht, he⟩ := paid_of_applyDepositPaid hs'
      exact ⟨hrow, hw, ht, he⟩
  · intro h
    rcases hq : numeric required with _ | q
    · rfl
    · rw [Option.map_some, Option.bind_some, hcredit]
      rcases hs' : applyDepositPaid id { bound i a c with payAmount := some q } (rt.paymentId p)
          (rt.payment paid p) s with _ | s'
      · rfl
      · have := hfits.mpr ⟨q, hq, s', hs'⟩
        simp [h] at this

/-! ### Where a deposit stands -/

/-- The row of the deposit: unbound, bound to a payment that did not cover it, or paid. -/
def RowOf (i : Intent) : SlotPhase String → Intent → Prop
  | .free, j => ∃ a c, given a = none ∧ j = bound i a c
  | .held k, j => k ≠ "" ∧ ∃ c, j = bound i (some k) c
  | .settled, j => j.status = .paid

/-- Wallets and transactions: untouched until the deposit is paid, then with its credit. -/
def MoneyOf (s₀ : Store) (i : Intent) : SlotPhase String → Store → Prop
  | .settled, s => s.wallets = deposit i.accountId i.amount s₀.wallets ∧
      ∃ reference, s.transactions = s₀.transactions ++ [⟨i.accountId, i.amount, reference⟩]
  | _, s => s.wallets = s₀.wallets ∧ s.transactions = s₀.transactions

/-- The tables as a phase of the deposit has them; only its own row has changed. -/
structure At (s₀ : Store) (id : ℕ) (i : Intent) (ph : SlotPhase String) (s : Store) : Prop where
  row : ∃ j, s.intents = s₀.intents.modify id (fun _ => j) ∧ RowOf i ph j
  money : MoneyOf s₀ i ph s

theorem modify_const_modify (t : Table ℕ Intent) (id : ℕ) (j j' : Intent) :
    (t.modify id fun _ => j).modify id (fun _ => j') = t.modify id fun _ => j' := by
  ext1
  simp only [Table.modify, List.map_map]
  refine List.map_congr_left fun r _ => ?_
  by_cases hr : r.1 = id <;> simp [hr]

theorem paymentTaken_modify {j : Intent} (h : s.intents = s₀.intents.modify id fun _ => j)
    (k : String) : s.paymentTaken id k = s₀.paymentTaken id k := by
  rw [Store.paymentTaken, h, Table.modify, List.any_map, Store.paymentTaken]
  congr 1
  funext r
  by_cases hr : r.1 = id <;> simp [hr]

/-- Rewriting the row of the deposit within a phase. -/
theorem At.put {ph ph' : SlotPhase String} {j : Intent} (h : At s₀ id i ph s) (hrow : RowOf i ph' j)
    (hmoney : MoneyOf s₀ i ph' s) : At s₀ id i ph' (s.putIntent id j) := by
  obtain ⟨⟨j', hj', -⟩, -⟩ := h
  refine ⟨⟨j, ?_, hrow⟩, ?_⟩
  · rw [Store.putIntent]
    dsimp only
    rw [hj', modify_const_modify]
  · cases ph' <;> exact hmoney

theorem At.paid {ph : SlotPhase String} {s' : Store} (h : At s₀ id i ph s) (hph : ph ≠ .settled)
    (hp : Paid s id i s') : At s₀ id i .settled s' := by
  obtain ⟨⟨j', hj', -⟩, hmoney⟩ := h
  obtain ⟨⟨j, hj, hpaid⟩, hw, ⟨r, ht⟩, -⟩ := hp
  have hsame : s.wallets = s₀.wallets ∧ s.transactions = s₀.transactions := by
    cases ph with
    | settled => exact absurd rfl hph
    | _ => exact hmoney
  refine ⟨⟨j, ?_, hpaid⟩, ?_, r, ?_⟩
  · rw [hj, hj', modify_const_modify]
  · rw [hw, hsame.1]
  · rw [ht, hsame.2]

/-- Until the deposit is paid the columns take what they took before. -/
theorem bindable_of_at {ph : SlotPhase String} (h : At s₀ id i ph s) (p : Fields) :
    rt.bindable s id p = rt.bindable s₀ id p := by
  obtain ⟨j, hj, -⟩ := h.row
  rw [bindable, paymentTaken_modify hj, bindable]

theorem creditFits_of_at {ph : SlotPhase String} (h : At s₀ id i ph s) (hph : ph ≠ .settled)
    (p : Fields) : rt.creditFits s id i p = rt.creditFits s₀ id i p := by
  have hsame : s.wallets = s₀.wallets ∧ s.transactions = s₀.transactions := by
    have hmoney := h.money
    cases ph with
    | settled => exact absurd rfl hph
    | _ => exact hmoney
  rw [creditFits, hsame.1, hsame.2, creditFits]

/-- The binding of a payment to an unbound deposit. -/
theorem bindPayment_free (rt : Runtime) (s : Store) (id : ℕ) (p : Fields) (i : Intent)
    {a : Option String} (ha : given a = none) (c : Option String) :
    (rt.bindable s id p = true → rt.bindPayment id (bound i a c) p s =
      some (bound i (some (rt.paymentId p)) (some (rt.payCurrency p)))) ∧
    (rt.bindable s id p = false → rt.bindPayment id (bound i a c) p s = none) := by
  have hfree : (given (bound i a c).nowPaymentId).isSome = false := by
    rw [show (bound i a c).nowPaymentId = a from rfl, ha]
    rfl
  rw [bindPayment, if_neg (by simp [hfree]), bindable]
  rcases h1 : varchar 64 (rt.paymentId p) with _ | u
  · simp
  · obtain rfl := eq_of_varchar h1
    rcases h2 : varchar 32 (rt.payCurrency p) with _ | v
    · simp
    · obtain rfl := eq_of_varchar h2
      cases h3 : s.paymentTaken id (rt.paymentId p) <;> simp [h3, bound, guard]

theorem bindPayment_held (rt : Runtime) (s : Store) (id : ℕ) (p : Fields) (i : Intent) {k : String}
    (hk : k ≠ "") (c : Option String) :
    rt.bindPayment id (bound i (some k) c) p s = some (bound i (some k) c) :=
  if_pos (by simp [bound, given, hk])

/-! ### A payment moves the deposit as the rules say -/

variable {d : Delivery} {j : Intent}

/-- What a try comes to: a lost transaction is an offer without effect, any other leaves the deposit
where the rules put it, and the same payment has no effect again. -/
def TrySpec (rt : Runtime) (s₀ : Store) (id : ℕ) (i : Intent) (ph : SlotPhase String) (d : Delivery)
    (s : Store) : Option (Store × Except Rejection Unit) → Prop
  | none => (rt.invoiceRules s₀ id i).step ph d = ph
  | some (s', _) =>
    At s₀ id i ((rt.invoiceRules s₀ id i).step ph d) s' ∧ s'.ipnEvents = s.ipnEvents ∧
      (rt.invoiceRules s₀ id i).Spent ((rt.invoiceRules s₀ id i).step ph d) d

/-- The code, once a payment is identified. -/
theorem tryCredit_of_identified (h : rt.checkIdentity id j p = none) :
    rt.tryCreditNowpaymentsFinished id j p s =
      (rt.bindPayment id j p s).bind fun j =>
        match rt.checkAmounts j p with
        | .error r => some (s.putIntent id j, .error r)
        | .ok (paid, required) =>
          (setPayAmount required j).bind fun j => rt.creditCovered id j p paid s := by
  rw [tryCreditNowpaymentsFinished, h]
  rfl

theorem tryCredit_of_not_covered {j' : Intent} (h : rt.checkIdentity id j p = none)
    (hbind : rt.bindPayment id j p s = some j') (hpay : j'.payAmount = none)
    (hc : rt.covered p = false) :
    ∃ r, rt.tryCreditNowpaymentsFinished id j p s = some (s.putIntent id j', .error r) := by
  obtain ⟨r, hr⟩ := checkAmounts_of_not_covered hpay hc
  refine ⟨r, ?_⟩
  rw [tryCredit_of_identified h, hbind, Option.bind_some, hr]

theorem tryCredit_of_covered (hi : Fresh i) {a c : Option String}
    (h : rt.checkIdentity id j p = none) (hbind : rt.bindPayment id j p s = some (bound i a c))
    (hc : rt.covered p = true) :
    (rt.creditFits s id i p = true → ∃ s',
      rt.tryCreditNowpaymentsFinished id j p s = some (s', .ok ()) ∧ Paid s id i s') ∧
    (rt.creditFits s id i p = false → rt.tryCreditNowpaymentsFinished id j p s = none) := by
  obtain ⟨paid, required, hamounts, hpaid, hrequired⟩ :=
    checkAmounts_of_covered (i := bound i a c) hi.payAmount hc
  have hrun : rt.tryCreditNowpaymentsFinished id j p s =
      (setPayAmount required (bound i a c)).bind fun j => rt.creditCovered id j p paid s := by
    rw [tryCredit_of_identified h, hbind, Option.bind_some, hamounts]
  rw [hrun]
  exact creditCovered_bound hi hpaid hrequired

theorem tryCredit_of_not_identified (s : Store) (h : rt.checkIdentity id j p ≠ none) :
    ∃ r, rt.tryCreditNowpaymentsFinished id j p s = some (s, .error r) := by
  obtain ⟨r, hr⟩ := Option.ne_none_iff_exists'.mp h
  exact ⟨r, by rw [tryCreditNowpaymentsFinished, hr]⟩

/-- An unbound deposit. -/
theorem trySpec_free (hi : Fresh i) (h : At s₀ id i .free s) {a c : Option String}
    (ha : given a = none) (hreach : rt.reaches s₀ id d = true) :
    TrySpec rt s₀ id i .free d s
      (rt.tryCreditNowpaymentsFinished id (bound i a c) d.payload s) := by
  have hid : rt.checkIdentity id (bound i a c) d.payload = none ↔
      rt.identified id i d.payload = true ∧ ∀ k ∈ given a, k = rt.paymentId d.payload :=
    checkIdentity_bound hi a c
  rw [ha] at hid
  cases hident : rt.identified id i d.payload with
  | false =>
    have hne : rt.checkIdentity id (bound i a c) d.payload ≠ none := by simp [hid, hident]
    obtain ⟨r, hr⟩ := tryCredit_of_not_identified s hne
    rw [hr]
    have hstep : (rt.invoiceRules s₀ id i).step .free d = .free := by
      simp [SlotRules.step, invoiceRules, hident]
    refine ⟨by rwa [hstep], rfl, ?_⟩
    rw [hstep]
    simp [SlotRules.Spent, invoiceRules, hident]
  | true =>
    have hnone : rt.checkIdentity id (bound i a c) d.payload = none := hid.mpr ⟨hident, by simp⟩
    obtain ⟨hbind, hlost⟩ := bindPayment_free rt s id d.payload i ha c
    rw [bindable_of_at h] at hbind hlost
    cases hb : rt.bindable s₀ id d.payload with
    | false =>
      rw [tryCredit_of_identified hnone, hlost hb]
      simp [TrySpec, SlotRules.step, invoiceRules, hb]
    | true =>
      cases hc : rt.covered d.payload with
      | false =>
        obtain ⟨r, hr⟩ := tryCredit_of_not_covered hnone (hbind hb) hi.payAmount hc
        rw [hr]
        by_cases hk : rt.paymentId d.payload = ""
        · -- a candidate without an id is written to the row, but binds nothing
          have hstep : (rt.invoiceRules s₀ id i).step .free d = .free := by
            simp [SlotRules.step, invoiceRules, hc, hk]
          refine ⟨?_, rfl, ?_⟩
          · rw [hstep]
            exact h.put ⟨_, _, by simp [given, hk], rfl⟩ h.money
          · rw [hstep]
            simp [SlotRules.Spent, invoiceRules, hc, hk]
        · have hstep : (rt.invoiceRules s₀ id i).step .free d = .held (rt.paymentId d.payload) := by
            simp [SlotRules.step, invoiceRules, hc, hk, hreach, hident, hb]
          refine ⟨?_, rfl, ?_⟩
          · rw [hstep]
            exact h.put ⟨hk, _, rfl⟩ h.money
          · rw [hstep]
            simp [SlotRules.Spent, invoiceRules, hc]
      | true =>
        obtain ⟨hcredit, hlost⟩ := tryCredit_of_covered hi hnone (hbind hb) hc
        rw [creditFits_of_at h (by simp)] at hcredit hlost
        cases hf : rt.creditFits s₀ id i d.payload with
        | false =>
          rw [hlost hf]
          simp [TrySpec, SlotRules.step, invoiceRules, hc, hf]
        | true =>
          obtain ⟨s', hs', hpaid⟩ := hcredit hf
          rw [hs']
          have hstep : (rt.invoiceRules s₀ id i).step .free d = .settled := by
            simp [SlotRules.step, invoiceRules, hc, hf, hreach, hident, hb]
          rw [TrySpec, hstep]
          exact ⟨h.paid (by simp) hpaid, hpaid.events, trivial⟩

/-- A deposit bound to a payment. -/
theorem trySpec_held (hi : Fresh i) {k : String} (h : At s₀ id i (.held k) s) (hk : k ≠ "")
    (c : Option String) (hreach : rt.reaches s₀ id d = true) :
    TrySpec rt s₀ id i (.held k) d s
      (rt.tryCreditNowpaymentsFinished id (bound i (some k) c) d.payload s) := by
  have hgiven : given (some k) = some k := by simp [given, hk]
  have hid : rt.checkIdentity id (bound i (some k) c) d.payload = none ↔
      rt.identified id i d.payload = true ∧ ∀ k' ∈ given (some k), k' = rt.paymentId d.payload :=
    checkIdentity_bound hi (some k) c
  rw [hgiven] at hid
  have hbind := bindPayment_held rt s id d.payload i hk c
  by_cases hsame : rt.identified id i d.payload = true ∧ k = rt.paymentId d.payload
  · have hnone : rt.checkIdentity id (bound i (some k) c) d.payload = none :=
      hid.mpr ⟨hsame.1, by simp [hsame.2]⟩
    cases hc : rt.covered d.payload with
    | false =>
      obtain ⟨r, hr⟩ := tryCredit_of_not_covered hnone hbind hi.payAmount hc
      rw [hr]
      have hstep : (rt.invoiceRules s₀ id i).step (.held k) d = .held k := by
        simp [SlotRules.step, invoiceRules, hc]
      refine ⟨?_, rfl, ?_⟩
      · rw [hstep]
        exact h.put ⟨hk, _, rfl⟩ h.money
      · rw [hstep]
        simp [SlotRules.Spent, invoiceRules, hc]
    | true =>
      obtain ⟨hcredit, hlost⟩ := tryCredit_of_covered hi hnone hbind hc
      rw [creditFits_of_at h (by simp)] at hcredit hlost
      cases hf : rt.creditFits s₀ id i d.payload with
      | false =>
        rw [hlost hf]
        simp [TrySpec, SlotRules.step, invoiceRules, hf]
      | true =>
        obtain ⟨s', hs', hpaid⟩ := hcredit hf
        rw [hs']
        have hstep : (rt.invoiceRules s₀ id i).step (.held k) d = .settled := by
          simp [SlotRules.step, invoiceRules, hc, hf, hreach, hsame]
        rw [TrySpec, hstep]
        exact ⟨h.paid (by simp) hpaid, hpaid.events, trivial⟩
  · have hne : rt.checkIdentity id (bound i (some k) c) d.payload ≠ none := by
      rw [Ne, hid]
      simpa [and_comm] using hsame
    obtain ⟨r, hr⟩ := tryCredit_of_not_identified s hne
    have hspent : (rt.invoiceRules s₀ id i).Spent (.held k) d := by
      rintro ⟨hkey, hset⟩
      have hset' : rt.identified id i d.payload = true := by
        simp only [invoiceRules, Bool.and_eq_true] at hset
        exact hset.1.1.2
      exact hsame ⟨hset', hkey.symm⟩
    rw [hr, TrySpec, hspent.step_eq]
    exact ⟨h, rfl, hspent⟩

/-- A paid deposit takes no credit and stays paid. -/
theorem tryCredit_of_paid (rt : Runtime) (s : Store) (id : ℕ) (p : Fields) {j : Intent}
    (hj : j.status = .paid) :
    rt.tryCreditNowpaymentsFinished id j p s = none ∨
      ∃ r, rt.tryCreditNowpaymentsFinished id j p s = some (s, .error r) ∨
        ∃ j', j'.status = .paid ∧
          rt.tryCreditNowpaymentsFinished id j p s = some (s.putIntent id j', .error r) := by
  by_cases hid : rt.checkIdentity id j p = none
  · rw [tryCredit_of_identified hid]
    rcases hbind : rt.bindPayment id j p s with _ | j1
    · exact .inl rfl
    · have hj1 : j1.status = .paid := by
        rw [bindPayment] at hbind
        split at hbind
        · rw [← Option.some.inj hbind, hj]
        · simp only [Option.bind_eq_bind, Option.bind_eq_some_iff, Option.pure_def, Option.some.injEq,
            Option.guard_eq_some', exists_const] at hbind
          obtain ⟨_, -, _, -, -, rfl⟩ := hbind
          exact hj
      rw [Option.bind_some]
      rcases rt.checkAmounts j1 p with r | ⟨paid, required⟩
      · exact .inr ⟨r, .inr ⟨j1, hj1, rfl⟩⟩
      · dsimp only
        rcases hset : setPayAmount required j1 with _ | j2
        · exact .inl rfl
        · have hj2 : j2.status = .paid := by
            rw [setPayAmount] at hset
            split at hset
            · rw [← Option.some.inj hset, hj1]
            · obtain ⟨q, -, rfl⟩ := Option.map_eq_some_iff.mp hset
              exact hj1
          rw [Option.bind_some, creditCovered, if_pos hj2]
          exact .inr ⟨_, .inr ⟨j2, hj2, rfl⟩⟩
  · obtain ⟨r, hr⟩ := tryCredit_of_not_identified s hid
    exact .inr ⟨r, .inl hr⟩

theorem trySpec_settled (h : At s₀ id i .settled s) (hj : j.status = .paid) :
    TrySpec rt s₀ id i .settled d s (rt.tryCreditNowpaymentsFinished id j d.payload s) := by
  rcases tryCredit_of_paid rt s id d.payload hj with
    hr | ⟨r, hr | ⟨j', hj', hr⟩⟩
  · rw [hr]
    rfl
  · rw [hr]
    exact ⟨h, rfl, trivial⟩
  · rw [hr]
    exact ⟨h.put hj' h.money, rfl, trivial⟩

/-- **One try moves the deposit as the rules say.** -/
theorem trySpec (hi : Fresh i) {ph : SlotPhase String} (h : At s₀ id i ph s)
    (hj : s.intents.get? id = some j) (hreach : rt.reaches s₀ id d = true) :
    TrySpec rt s₀ id i ph d s (rt.tryCreditNowpaymentsFinished id j d.payload s) := by
  obtain ⟨j', hintents, hrow⟩ := h.row
  have hjj : j' = j := by
    rw [hintents, Table.get?_modify_self] at hj
    obtain ⟨_, -, rfl⟩ := Option.map_eq_some_iff.mp hj
    rfl
  subst hjj
  cases ph with
  | free =>
    obtain ⟨a, c, ha, rfl⟩ := hrow
    exact trySpec_free hi h ha hreach
  | held k =>
    obtain ⟨hk, c, rfl⟩ := hrow
    exact trySpec_held hi h hk c hreach
  | settled => exact trySpec_settled h hrow

/-! ### The journal -/

/-- Where a deposit stands: the tables are as the phase has them, and what was journaled since has no
effect again. The notifications come from `Sent`. -/
structure Stands (rt : Runtime) (s₀ : Store) (id : ℕ) (i : Intent) (Sent : Fields → Prop)
    (ph : SlotPhase String) (s : Store) : Prop where
  tables : At s₀ id i ph s
  journal : ∃ new, s.ipnEvents = s₀.ipnEvents ++ new ∧ ∀ e ∈ new, ∃ p, Sent p ∧ rt.event p = e ∧
    (rt.invoiceRules s₀ id i).Spent ph (.ipn p)

/-- What does not reach the checks never has an effect. -/
theorem spent_of_not_reaches (h : rt.reaches s₀ id d = false) (ph : SlotPhase String) :
    (rt.invoiceRules s₀ id i).Spent ph d := by
  cases ph with
  | free => simp [SlotRules.Spent, invoiceRules, h]
  | held k => simp [SlotRules.Spent, invoiceRules, h]
  | settled => trivial

/-- One JSON object delivered twice is one offer. -/
theorem spent_congr {q : Fields} (hsame : rt.SameJson p q)
    (hhash : rt.payloadHash p = rt.payloadHash q) {ph : SlotPhase String}
    (h : (rt.invoiceRules s₀ id i).Spent ph (.ipn p)) :
    (rt.invoiceRules s₀ id i).Spent ph (.ipn q) := by
  obtain ⟨hget, hjsonb⟩ := hsame
  have htext : ∀ key, rt.text key p = rt.text key q := fun key => by rw [text, hget, text]
  have hid : rt.paymentId p = rt.paymentId q := by rw [paymentId, htext, paymentId]
  have hstatus : rt.paymentStatus p = rt.paymentStatus q := by
    rw [paymentStatus, htext, paymentStatus]
  have hcurrency : rt.payCurrency p = rt.payCurrency q := by rw [payCurrency, htext, payCurrency]
  have horder : rt.orderIdRaw p = rt.orderIdRaw q := by rw [orderIdRaw, hget, orderIdRaw]
  have hevent : rt.event p = rt.event q := by rw [event, hid, hstatus, horder, hhash, event]
  have hreaches : rt.reaches s₀ id (.ipn p) = rt.reaches s₀ id (.ipn q) := by
    simp only [reaches, finished, eventFits, hid, hstatus, horder, hevent, hjsonb]
  have hident : rt.identified id i p = rt.identified id i q := by
    rw [identified, invoiceId, htext, htext, hcurrency, identified, invoiceId]
  have hcovered : rt.covered p = rt.covered q := by rw [covered, hget, hget, covered]
  have hbindable : rt.bindable s₀ id p = rt.bindable s₀ id q := by
    rw [bindable, hid, hcurrency, bindable]
  have href : rt.creditReference id p = rt.creditReference id q := by
    rw [creditReference, hid, creditReference]
  have hfits : rt.creditFits s₀ id i p = rt.creditFits s₀ id i q := by
    rw [creditFits, href, hid, creditFits]
    simp only [hget]
  have hkey : (rt.invoiceRules s₀ id i).key (.ipn p) = (rt.invoiceRules s₀ id i).key (.ipn q) := hid
  have hclaims : (rt.invoiceRules s₀ id i).claims (.ipn p) =
      (rt.invoiceRules s₀ id i).claims (.ipn q) := by
    change (rt.reaches s₀ id (.ipn p) && rt.identified id i p && !rt.covered p && rt.bindable s₀ id p &&
      decide (rt.paymentId p ≠ "")) = _
    rw [hreaches, hident, hcovered, hbindable, hid]
    rfl
  have hfree : (rt.invoiceRules s₀ id i).settlesFree (.ipn p) =
      (rt.invoiceRules s₀ id i).settlesFree (.ipn q) := by
    change (rt.reaches s₀ id (.ipn p) && rt.identified id i p && rt.covered p && rt.bindable s₀ id p &&
      rt.creditFits s₀ id i p) = _
    rw [hreaches, hident, hcovered, hbindable, hfits]
    rfl
  have hheld : (rt.invoiceRules s₀ id i).settlesHeld (.ipn p) =
      (rt.invoiceRules s₀ id i).settlesHeld (.ipn q) := by
    change (rt.reaches s₀ id (.ipn p) && rt.identified id i p && rt.covered p &&
      rt.creditFits s₀ id i p) = _
    rw [hreaches, hident, hcovered, hfits]
    rfl
  cases ph with
  | free =>
    rw [SlotRules.Spent] at h ⊢
    rwa [← hfree, ← hclaims, ← hheld]
  | held k =>
    rw [SlotRules.Spent] at h ⊢
    rwa [← hkey, ← hheld]
  | settled => trivial

variable {Sent : Fields → Prop} {ph : SlotPhase String}

/-- A delivery without effect. -/
theorem Stands.same (h : Stands rt s₀ id i Sent ph s)
    (hstep : (rt.invoiceRules s₀ id i).step ph d = ph) :
    Stands rt s₀ id i Sent ((rt.invoiceRules s₀ id i).step ph d) s := by
  rwa [hstep]

/-- A try that kept the journal as it was. -/
theorem Stands.tried (h : Stands rt s₀ id i Sent ph s) {s' : Store}
    (hat : At s₀ id i ((rt.invoiceRules s₀ id i).step ph d) s') (he : s'.ipnEvents = s.ipnEvents) :
    Stands rt s₀ id i Sent ((rt.invoiceRules s₀ id i).step ph d) s' := by
  obtain ⟨new, hnew, hspent⟩ := h.journal
  refine ⟨hat, new, by rw [he, hnew], fun e he => ?_⟩
  obtain ⟨p, hp, hpe, hps⟩ := hspent e he
  exact ⟨p, hp, hpe, hps.step d⟩

/-- A notification that went into the journal. -/
theorem Stands.journaled (h : Stands rt s₀ id i Sent ph s) (hp : Sent p) {s' : Store}
    (hat : At s₀ id i ((rt.invoiceRules s₀ id i).step ph (.ipn p)) s')
    (he : s'.ipnEvents = s.ipnEvents ++ [rt.event p])
    (hspent : (rt.invoiceRules s₀ id i).Spent ((rt.invoiceRules s₀ id i).step ph (.ipn p)) (.ipn p)) :
    Stands rt s₀ id i Sent ((rt.invoiceRules s₀ id i).step ph (.ipn p)) s' := by
  obtain ⟨new, hnew, hold⟩ := h.journal
  refine ⟨hat, new ++ [rt.event p], by rw [he, hnew, List.append_assoc], fun e he => ?_⟩
  rcases List.mem_append.mp he with he | he
  · obtain ⟨q, hq, hqe, hqs⟩ := hold e he
    exact ⟨q, hq, hqe, hqs.step _⟩
  · exact ⟨p, hp, (List.mem_singleton.mp he).symm, hspent⟩

/-- The journal does not touch the other tables. -/
theorem At.journal (h : At s₀ id i ph s) (es : List IpnEvent) :
    At s₀ id i ph { s with ipnEvents := es } := by
  refine ⟨h.row, ?_⟩
  have hmoney := h.money
  cases ph <;> exact hmoney

/-- A repeated notification has no effect. -/
theorem Stands.spent_of_journaled (h : Stands rt s₀ id i Sent ph s)
    (hsent : ∀ q, Sent q → rt.payloadHash q = rt.payloadHash p → rt.SameJson q p)
    (hj : s.journaled (rt.event p) = true) : (rt.invoiceRules s₀ id i).Spent ph (.ipn p) := by
  obtain ⟨new, hnew, hspent⟩ := h.journal
  rw [Store.journaled, hnew, List.any_append, Bool.or_eq_true] at hj
  rcases hj with hold | hj
  · refine spent_of_not_reaches ?_ ph
    have : s₀.journaled (rt.event p) = true := hold
    simp [reaches, this]
  · obtain ⟨e, he, hkey⟩ := List.any_eq_true.mp hj
    obtain ⟨q, hq, rfl, hqs⟩ := hspent e he
    simp only [Bool.and_eq_true, decide_eq_true_eq] at hkey
    have hhash : rt.payloadHash q = rt.payloadHash p := hkey.2
    exact spent_congr (hsent q hq hhash) hhash hqs

/-! ### Deliveries move the deposit as the rules say -/

/-- The row of the deposit is there. -/
theorem At.get? (h : At s₀ id i ph s) (hrow : s₀.intents.get? id = some i) :
    ∃ j, s.intents.get? id = some j ∧ RowOf i ph j := by
  obtain ⟨j, hj, hphase⟩ := h.row
  exact ⟨j, by rw [hj, Table.get?_modify_self, hrow, Option.map_some], hphase⟩

/-- The rows of other deposits are as they were. -/
theorem At.get?_of_ne (h : At s₀ id i ph s) {n : ℕ} (hn : n ≠ id) :
    s.intents.get? n = s₀.intents.get? n := by
  obtain ⟨j, hj, -⟩ := h.row
  rw [hj, Table.get?_modify_of_ne _ hn]

theorem eq_settled_of_paid (hi : Fresh i) (h : RowOf i ph j) (hj : j.status = .paid) :
    ph = .settled := by
  cases ph with
  | free =>
    obtain ⟨a, c, -, rfl⟩ := h
    exact absurd hj hi.unpaid
  | held k =>
    obtain ⟨-, c, rfl⟩ := h
    exact absurd hj hi.unpaid
  | settled => rfl

/-- A candidate of a reconciliation. -/
theorem stands_candidate (hi : Fresh i) (hrow : s₀.intents.get? id = some i)
    (h : Stands rt s₀ id i Sent ph s) (info : Fields) :
    Stands rt s₀ id i Sent ((rt.invoiceRules s₀ id i).step ph (.candidate info))
      (rt.deliver id s (.candidate info)) := by
  rw [deliver]
  split
  next hfin =>
    obtain ⟨j, hj, hphase⟩ := h.tables.get? hrow
    rw [creditCandidate, hj]
    dsimp only
    split
    next hpaid =>
      obtain rfl := eq_settled_of_paid hi hphase hpaid
      exact h
    next =>
      have hreach : rt.reaches s₀ id (.candidate info) = true := by simp [reaches, finished, hfin]
      have hspec := trySpec hi h.tables hj hreach
      rw [Delivery.payload] at hspec
      rcases hr : rt.tryCreditNowpaymentsFinished id j info s with _ | ⟨s', r⟩
      · rw [hr] at hspec
        exact h.same hspec
      · rw [hr] at hspec
        exact h.tried hspec.1 hspec.2.1
  next hfin =>
    exact h.same (spent_of_not_reaches (by simp [reaches, finished, hfin]) ph).step_eq

/-- A finished payment of a notification that was just journaled. -/
theorem stands_finished (hi : Fresh i) (hrow : s₀.intents.get? id = some i)
    (h : Stands rt s₀ id i Sent ph s) (hd : rt.Concerns s₀ id (.ipn p)) (hsent : Sent p)
    (hfin : rt.paymentStatus p = "finished") (hid : rt.paymentId p ≠ "")
    (hfits : rt.eventFits p = true) (hnew : s.journaled (rt.event p) = false) :
    Stands rt s₀ id i Sent ((rt.invoiceRules s₀ id i).step ph (.ipn p))
      (((rt.handleFinished p { s with ipnEvents := s.ipnEvents ++ [rt.event p] }).map Prod.fst).getD
        s) := by
  have hold : s₀.journaled (rt.event p) = false := by
    obtain ⟨new, hevents, -⟩ := h.journal
    rw [Store.journaled, hevents, List.any_append, Bool.or_eq_false_iff] at hnew
    exact hnew.1
  -- journaled, and without another effect
  have hquiet : rt.reaches s₀ id (.ipn p) = false → Stands rt s₀ id i Sent
      ((rt.invoiceRules s₀ id i).step ph (.ipn p)) { s with ipnEvents := s.ipnEvents ++ [rt.event p] } := by
    intro hreach
    have hspent : (rt.invoiceRules s₀ id i).Spent ph (.ipn p) := spent_of_not_reaches hreach ph
    refine h.journaled hsent ?_ rfl ?_
    · rw [hspent.step_eq]
      exact h.tables.journal _
    · rw [hspent.step_eq]
      exact hspent
  rw [handleFinished]
  rcases hparse : rt.parseOrderId (rt.orderIdRaw p) with _ | n
  · exact hquiet (by simp [reaches, hparse])
  · dsimp only
    cases hint : integer n with
    | false =>
      refine h.same (spent_of_not_reaches ?_ ph).step_eq
      by_cases hn : n = id
      · subst hn
        simp [reaches, hparse, hint]
      · simp [reaches, hparse, hn]
    | true =>
      rw [if_neg (by simp)]
      by_cases hn : n = id
      · subst hn
        obtain ⟨j, hj, -⟩ := h.tables.get? hrow
        have hreach : rt.reaches s₀ n (.ipn p) = true := by
          simp [reaches, finished, hfin, hid, hfits, hold, hparse, hint]
        have hspec := trySpec (d := .ipn p) hi (h.tables.journal (s.ipnEvents ++ [rt.event p])) hj hreach
        rw [Delivery.payload] at hspec
        rw [hj]
        dsimp only
        rcases hr : rt.tryCreditNowpaymentsFinished n j p
          { s with ipnEvents := s.ipnEvents ++ [rt.event p] } with _ | ⟨s', r⟩
        · rw [hr] at hspec
          exact h.same hspec
        · rw [hr] at hspec
          exact h.journaled hsent hspec.1 hspec.2.1 hspec.2.2
      · have hquiet' := hquiet (by simp [reaches, hparse, hn])
        rw [h.tables.get?_of_ne hn]
        rcases hother : s₀.intents.get? n with _ | j
        · exact hquiet'
        · have hrejected := hd n j hparse hn hother
          obtain ⟨r, hr⟩ := tryCredit_of_not_identified
            { s with ipnEvents := s.ipnEvents ++ [rt.event p] } (Option.isSome_iff_ne_none.mp hrejected)
          dsimp only
          rw [hr]
          exact hquiet'

/-- **One delivery moves the deposit as the rules say.** -/
theorem stands_deliver (hi : Fresh i) (hrow : s₀.intents.get? id = some i)
    (h : Stands rt s₀ id i Sent ph s) (hd : rt.Concerns s₀ id d) (hsent : ∀ p, d = .ipn p → Sent p)
    (hhash : ∀ p q, Sent p → Sent q → rt.payloadHash p = rt.payloadHash q → rt.SameJson p q) :
    Stands rt s₀ id i Sent ((rt.invoiceRules s₀ id i).step ph d) (rt.deliver id s d) := by
  cases d with
  | candidate info => exact stands_candidate hi hrow h info
  | ipn p =>
    have hp : Sent p := hsent p rfl
    have hnot : rt.reaches s₀ id (.ipn p) = false →
        Stands rt s₀ id i Sent ((rt.invoiceRules s₀ id i).step ph (.ipn p)) s :=
      fun hreach => h.same (spent_of_not_reaches hreach ph).step_eq
    rw [deliver, handleNowpaymentsIpn]
    split
    next hshape =>
      refine hnot ?_
      rcases hshape with hshape | hshape
      · simp [reaches, hshape]
      · simp [reaches, finished, hshape]
    next hshape =>
      split
      next hfits => exact hnot (by simp [reaches, hfits])
      next hfits =>
        split
        next hj =>
          exact h.same (h.spent_of_journaled (fun q hq hh => hhash q p hq hp hh) hj).step_eq
        next hj =>
          dsimp only
          split
          next hfin =>
            have hspent : (rt.invoiceRules s₀ id i).Spent ph (.ipn p) :=
              spent_of_not_reaches (by simp [reaches, finished, hfin]) ph
            refine h.journaled hp ?_ rfl ?_
            · rw [hspent.step_eq]
              exact h.tables.journal _
            · rw [hspent.step_eq]
              exact hspent
          next hfin =>
            exact stands_finished hi hrow h hd hp (not_not.mp hfin) (fun he => hshape (.inl he))
              (by simpa using hfits) (by simpa using hj)

/-- **A sequence of deliveries moves the deposit as the rules say.** -/
theorem stands_deliverAll (hi : Fresh i) (hrow : s₀.intents.get? id = some i)
    (hhash : ∀ p q, Sent p → Sent q → rt.payloadHash p = rt.payloadHash q → rt.SameJson p q)
    {ds : List Delivery} (hds : ∀ d ∈ ds, rt.Concerns s₀ id d) (hsent : ∀ p, .ipn p ∈ ds → Sent p)
    (h : Stands rt s₀ id i Sent ph s) :
    Stands rt s₀ id i Sent ((rt.invoiceRules s₀ id i).phase ph ds) (rt.deliverAll id s ds) := by
  induction ds generalizing ph s with
  | nil => exact h
  | cons d ds ih =>
    refine ih (fun d' hd' => hds d' (List.mem_cons_of_mem _ hd'))
      (fun p hp => hsent p (List.mem_cons_of_mem _ hp)) ?_
    exact stands_deliver hi hrow h (hds d (by simp)) (fun p hp => hsent p (by simp [hp])) hhash

/-- A fresh deposit is free. -/
theorem stands_fresh (hi : Fresh i) (hrow : s₀.intents.get? id = some i) :
    Stands rt s₀ id i Sent .free s₀ := by
  have hself : s₀.intents = s₀.intents.modify id fun _ => i := by
    ext1
    rw [Table.modify]
    symm
    refine (List.map_congr_left fun r hr => ?_).trans (List.map_id _)
    by_cases hk : r.1 = id
    · obtain ⟨k, v⟩ := r
      obtain rfl : k = id := hk
      have hv : v = i := by
        have := Table.get?_eq_some_iff.mpr hr
        rw [hrow] at this
        exact (Option.some.inj this).symm
      simp [hv]
    · simp [hk]
  refine ⟨⟨⟨i, hself, none, i.payCurrency, rfl, ?_⟩, rfl, rfl⟩, [], by simp, by simp⟩
  rw [bound, ← hi.paymentId]

/-- What is paid in the end is what the rules settle. -/
theorem isPaid_iff (hi : Fresh i) (hrow : s₀.intents.get? id = some i)
    (h : Stands rt s₀ id i Sent ph s) : s.IsPaid id ↔ ph = .settled := by
  obtain ⟨j, hj, hphase⟩ := h.tables.get? hrow
  rw [Store.IsPaid, hj, Option.map_some, Option.some.injEq]
  constructor
  · exact eq_settled_of_paid hi hphase
  · rintro rfl
    exact hphase

/-- The credit is the only change of the money. -/
theorem creditedAtMostOnce (hi : Fresh i) (hrow : s₀.intents.get? id = some i)
    (h : Stands rt s₀ id i Sent ph s) : CreditedAtMostOnce id i s₀ s := by
  have hpaid := isPaid_iff hi hrow h
  have hmoney := h.tables.money
  cases ph with
  | settled =>
    obtain ⟨hw, r, ht⟩ := hmoney
    exact .inr ⟨r, hw, ht, hpaid.mpr rfl⟩
  | free => exact .inl ⟨hmoney.1, hmoney.2, by simp [hpaid]⟩
  | held k => exact .inl ⟨hmoney.1, hmoney.2, by simp [hpaid]⟩

end Checks

/-! ### A reconciliation is a sequence of deliveries -/

/-- What the loop over the payments of an invoice leaves behind is what candidates one after another
would. -/
theorem reconcileLoop_deliveries (rt : Runtime) (api : Api) (id : ℕ) (candidates : List Fields)
    (seen : Seen) (s : Store) :
    ∃ infos : List Fields, (rt.reconcileLoop api id candidates seen s).1 =
      rt.deliverAll id s (infos.map .candidate) := by
  induction candidates generalizing seen s with
  | nil => exact ⟨[], rfl⟩
  | cons candidate candidates ih =>
    rw [reconcileLoop]
    split
    · exact ih seen s
    · split
      · exact ih _ s
      next info _ =>
        dsimp only
        split
        · exact ih _ s
        next hfin =>
          have hone : ∀ s' r, rt.creditCandidate id info s = some (s', r) →
              rt.deliver id s (.candidate info) = s' := by
            intro s' r hr
            rw [deliver, if_pos (not_not.mp hfin), hr]
            rfl
          split
          · exact ⟨[], rfl⟩
          next s' hr => exact ⟨[info], (hone s' _ hr).symm⟩
          next s' r hr =>
            split
            · exact ⟨[], rfl⟩
            · obtain ⟨infos, hinfos⟩ := ih { seen.see (rt.candidateStatus info) with validationFailed := true } s'
              refine ⟨info :: infos, ?_⟩
              rw [hinfos, List.map_cons, deliverAll, deliverAll, List.foldl_cons, hone s' _ hr]

/-- **A reconciliation leaves behind what a sequence of candidates does.** -/
theorem reconcileNowpayments_deliveries (rt : Runtime) (api : Api) (id : ℕ) (i : Intent)
    (s : Store) :
    ∃ infos : List Fields, (rt.reconcileNowpayments api id i s).1 =
      rt.deliverAll id s (infos.map .candidate) := by
  rw [reconcileNowpayments]
  split
  · rw [reconcileInvoice]
    split
    · exact ⟨[], rfl⟩
    · split
      · exact ⟨[], rfl⟩
      · exact reconcileLoop_deliveries rt api id _ {} s
  · split
    · exact ⟨[], rfl⟩
    · rw [reconcilePayment]
      split
      · exact ⟨[], rfl⟩
      · split
        · exact ⟨[], rfl⟩
        next info _ =>
          dsimp only
          split
          · exact ⟨[], rfl⟩
          next hfin =>
            have hone : ∀ s' r, rt.creditCandidate id info s = some (s', r) →
                s' = rt.deliverAll id s ([info].map .candidate) := by
              intro s' r hr
              rw [List.map_singleton, deliverAll, List.foldl_cons, List.foldl_nil, deliver,
                if_pos (not_not.mp hfin), hr]
              rfl
            split
            · exact ⟨[], rfl⟩
            next s' hr => exact ⟨[info], hone s' _ hr⟩
            next s' r hr => exact ⟨[info], hone s' _ hr⟩

end Runtime

/-! ### The order of the payments -/

/-- **The order of the payments matters exactly through the first that is rejected for its amounts.** A
deposit on a hosted invoice is credited at most once, by its amount. When a payment of the
sequence passes every check, the deposit ends paid exactly if such a payment, whose values the database can hold,
comes while no payment was rejected for its amounts, or under the id of the first that was. -/
theorem credited_in_any_order_iff (rt : Runtime) (s : Store) (id : ℕ) (i : Intent)
    (hrow : s.intents.get? id = some i) (hi : Fresh i) (ds : List Delivery)
    (hds : ∀ d ∈ ds, rt.Concerns s id d)
    (hhash : ∀ p q, .ipn p ∈ ds → .ipn q ∈ ds → rt.payloadHash p = rt.payloadHash q →
      rt.SameJson p q) :
    (CreditedAtMostOnce id i s (rt.deliverAll id s ds) ∧
        ((∃ d ∈ ds, rt.passes id i d = true) → (rt.deliverAll id s ds).IsPaid id)) ↔
      ((∃ d ∈ ds, rt.passes id i d = true) →
        ∃ before d after, ds = before ++ d :: after ∧
          (rt.invoiceRules s id i).SettlesAfter before d) := by
  have hstands := Runtime.stands_deliverAll hi hrow hhash hds (fun _ hp => hp) (Runtime.stands_fresh hi hrow)
  rw [Runtime.isPaid_iff hi hrow hstands, SlotRules.phase_eq_settled_iff]
  exact and_iff_right (Runtime.creditedAtMostOnce hi hrow hstands)

/-! ### An underpaid payment and a full one -/

/-- The parts of Python the payments below use. -/
def sampleRuntime : Runtime where
  py := ⟨.ascii, fun _ => "", fun _ => none⟩
  lower := String.toLower
  decimal t := if t = "10" then some 10 else if t = "9" then some 9 else none
  payloadHash p :=
    match Json.get p "payment_id" with
    | .int n => toString n
    | _ => ""
  jsonb _ := true

/-- A finished payment of invoice 77, for which 10 USDT were asked. -/
def samplePayment (paymentId actuallyPaid : ℤ) : Fields :=
  [("payment_id", .int paymentId), ("payment_status", .str "finished"), ("invoice_id", .int 77),
    ("order_id", .str "DEP-1"), ("pay_currency", .str "usdttrc20"), ("pay_amount", .int 10),
    ("actually_paid", .int actuallyPaid)]

/-- A deposit of 250 000 on invoice 77. -/
def sampleIntent : Intent :=
  ⟨7, 250000, .pending, .nowpayments, some "77", none, none, none, none, none, none, none, some "77"⟩

def sampleStore : Store := ⟨Table.empty.insert 1 sampleIntent, Table.empty, [], []⟩

theorem fresh_sampleIntent : Fresh sampleIntent := ⟨rfl, rfl, rfl, rfl, by decide⟩

/-- The full payment alone is credited. -/
theorem credited_in_any_order_full :
    CreditedAtMostOnce 1 sampleIntent sampleStore
        (sampleRuntime.deliverAll 1 sampleStore [.ipn (samplePayment 5001 10)]) ∧
      ((∃ d ∈ [Delivery.ipn (samplePayment 5001 10)], sampleRuntime.passes 1 sampleIntent d = true) →
        (sampleRuntime.deliverAll 1 sampleStore [.ipn (samplePayment 5001 10)]).IsPaid 1) := by
  refine (credited_in_any_order_iff sampleRuntime sampleStore 1 sampleIntent rfl
    fresh_sampleIntent _ ?_ ?_).mpr fun _ => ⟨[], _, [], rfl, ?_⟩
  · intro d hd
    obtain rfl := List.mem_singleton.mp hd
    intro n j _ hn hj
    rw [sampleStore, Table.get?_insert_of_ne hn, Table.get?_empty] at hj
    cases hj
  · intro p q hp hq _
    obtain rfl : p = samplePayment 5001 10 := by simpa using hp
    obtain rfl : q = samplePayment 5001 10 := by simpa using hq
    exact ⟨fun _ => rfl, rfl⟩
  · decide +kernel

/-- Nine USDT came first, under another id. -/
theorem not_credited_underpaid_first :
    ¬ (CreditedAtMostOnce 1 sampleIntent sampleStore (sampleRuntime.deliverAll 1 sampleStore
          [.ipn (samplePayment 5000 9), .ipn (samplePayment 5001 10)]) ∧
      ((∃ d ∈ [Delivery.ipn (samplePayment 5000 9), .ipn (samplePayment 5001 10)],
          sampleRuntime.passes 1 sampleIntent d = true) →
        (sampleRuntime.deliverAll 1 sampleStore
          [.ipn (samplePayment 5000 9), .ipn (samplePayment 5001 10)]).IsPaid 1)) := by
  rintro ⟨-, h⟩
  have hunpaid : ¬ (sampleRuntime.deliverAll 1 sampleStore
      [.ipn (samplePayment 5000 9), .ipn (samplePayment 5001 10)]).IsPaid 1 := by
    decide +kernel
  exact hunpaid (h ⟨_, List.mem_cons_of_mem _ (List.mem_singleton_self _), by decide +kernel⟩)

end Nowpayments

end Marketplace
