import Marketplace.Model.Db

/-!
# The finance report and the closing of a period

`ledger/report.py`: the flows of a period, the balance of what is held for users, `close_period`, which keeps the report
as it reads then with the largest id of the ledger, and `list_closes`, which looks at a closed period again.

The report selects rows by `created_at`, in one statement for each of its parts; what is late is told by the id.
`created_at` and the ids of a booking are what the booking says, in no order. Texts of a close, disputes, channels,
sellers and programs are left out, and the parts of the balance by role.
-/

namespace Marketplace

open Sql

/-! ### The rows -/

/-- A row of `transactions`, as the report reads it. -/
structure LedgerEntry where
  type : TransactionType
  amount : ℤ
  referenceId : Option String
  description : Option String
  createdAt : ℕ
  deriving DecidableEq

/-- `_kind`. -/
inductive LedgerKind
  | platformWithdrawFee
  | seedWriteoff
  | demoTopup
  | plain (type : TransactionType)
  deriving DecidableEq

/-- `LIKE 'start%'`; nothing is like it where there is no text. -/
def startsLike (start : String) (text : Option String) : Prop := ∃ t ∈ text, start.toList <+: t.toList

instance decidableStartsLike (start : String) (text : Option String) : Decidable (startsLike start text) := by
  unfold startsLike
  infer_instance

/-- `_kind`, of a row. -/
def LedgerEntry.kind (entry : LedgerEntry) : LedgerKind :=
  if entry.type = .platformFee ∧ startsLike "withdraw-" entry.referenceId then .platformWithdrawFee
  else if entry.type = .adjustmentDebit ∧ startsLike "seed-writeoff:" entry.referenceId then .seedWriteoff
  else if entry.type = .topup ∧ startsLike "Nạp thử" entry.description then .demoTopup
  else .plain entry.type

/-! ### The figures -/

/-- The amounts of certain kinds, added up. -/
def amountOf (entries : List LedgerEntry) (kinds : List LedgerKind) : ℤ :=
  ((entries.filter fun entry => entry.kind ∈ kinds).map LedgerEntry.amount).sum

/-- The number of rows of certain kinds. -/
def countOf (entries : List LedgerEntry) (kinds : List LedgerKind) : ℕ :=
  (entries.filter fun entry => entry.kind ∈ kinds).length

/-- What `_flows` returns. -/
structure PeriodFlows where
  gmv : ℤ
  orders : ℕ
  revenue : ℤ
  orderFee : ℤ
  withdrawFee : ℤ
  costs : ℤ
  promoSubsidy : ℤ
  affiliateNet : ℤ
  cashbackNet : ℤ
  manualNet : ℤ
  net : ℤ
  refunds : ℤ
  refundCount : ℕ
  deposits : ℤ
  depositCount : ℕ
  demoTopups : ℤ
  seedWriteoffs : ℤ
  withdrawn : ℤ
  withdrawCount : ℕ
  deriving DecidableEq

/-- `_flows`, of the rows it selects. -/
def flowsOf (entries : List LedgerEntry) : PeriodFlows :=
  let a := amountOf entries
  let n := countOf entries
  let orderFee := a [.plain .platformFee]
  let withdrawFee := a [.platformWithdrawFee]
  let promo := a [.plain .promoSubsidy]
  let affiliate := a [.plain .affiliateCommission] - a [.plain .affiliateClawback]
  let cashback := a [.plain .cashback] - a [.plain .cashbackClawback]
  let manual := a [.plain .topup, .plain .adjustmentCredit] - a [.plain .adjustmentDebit]
  { gmv := a [.plain .purchaseHold]
    orders := n [.plain .purchaseHold]
    revenue := orderFee + withdrawFee
    orderFee
    withdrawFee
    costs := promo + affiliate + cashback + manual
    promoSubsidy := promo
    affiliateNet := affiliate
    cashbackNet := cashback
    manualNet := manual
    net := orderFee + withdrawFee - (promo + affiliate + cashback + manual)
    refunds := a [.plain .refund]
    refundCount := n [.plain .refund]
    deposits := a [.plain .deposit]
    depositCount := n [.plain .deposit]
    demoTopups := a [.demoTopup]
    seedWriteoffs := a [.seedWriteoff]
    withdrawn := a [.plain .withdraw]
    withdrawCount := n [.plain .withdraw] }

/-- `SOURCE_IN`. -/
def sourceIn : List TransactionType :=
  [.topup, .deposit, .adjustmentCredit, .affiliateCommission, .promoSubsidy, .cashback]

/-- `SOURCE_OUT`. -/
def sourceOut : List TransactionType := [.withdraw, .adjustmentDebit, .affiliateClawback, .cashbackClawback]

/-- The amounts of certain types, added up. -/
def sumOfTypes (entries : List LedgerEntry) (types : List TransactionType) : ℤ :=
  ((entries.filter fun entry => entry.type ∈ types).map LedgerEntry.amount).sum

/-- What `_balance` returns, up to the closing figure. -/
structure PeriodBalance where
  opening : ℤ
  deposits : ℤ
  injected : ℤ
  withdrawn : ℤ
  removed : ℤ
  closing : ℤ
  deriving DecidableEq

/-- `_balance`, of the rows before the period and of those in it. -/
def balanceOf (before inPeriod : List LedgerEntry) : PeriodBalance :=
  let opening := sumOfTypes before sourceIn - sumOfTypes before sourceOut
  let deposits := sumOfTypes inPeriod [.deposit]
  let injected := sumOfTypes inPeriod [.topup, .adjustmentCredit, .affiliateCommission, .promoSubsidy, .cashback]
  let withdrawn := sumOfTypes inPeriod [.withdraw]
  let removed := sumOfTypes inPeriod [.adjustmentDebit, .affiliateClawback, .cashbackClawback]
  { opening, deposits, injected, withdrawn, removed
    closing := opening + deposits + injected - withdrawn - removed }

/-! ### The tables -/

/-- A period `[start, stop)`, in microseconds. -/
structure Period where
  start : ℕ
  stop : ℕ
  deriving DecidableEq

/-- `period_report`. -/
structure PeriodReport where
  current : PeriodFlows
  previous : PeriodFlows
  balance : PeriodBalance
  deriving DecidableEq

/-- A row of `finance_period_closes`. -/
structure PeriodClose where
  period : Period
  lastTransactionId : ℕ
  snapshot : PeriodReport
  /-- What no column keeps: the rows `snapshot.current` is taken of. -/
  counted : List (ℕ × LedgerEntry)

/-- The tables. -/
structure LedgerDb where
  transactions : Table ℕ LedgerEntry
  closes : Table ℕ PeriodClose

/-- What is locked. -/
inductive LedgerKey
  | entry (transactionId : ℕ)
  /-- `pg_advisory_xact_lock(_CLOSE_LOCK_KEY)`. -/
  | closing
  deriving DecidableEq

/-- A function on these tables inside a session. -/
abbrev LedgerTx (α : Type) : Type := Sql.Tx LedgerDb LedgerKey Abort α

/-- The row is dated in the period. -/
def Period.Covers (period : Period) (entry : LedgerEntry) : Prop :=
  period.start ≤ entry.createdAt ∧ entry.createdAt < period.stop

instance decidableCovers (period : Period) (entry : LedgerEntry) : Decidable (period.Covers entry) := by
  unfold Period.Covers
  infer_instance

/-- The period of the same length before. -/
def Period.before (period : Period) : Period := ⟨period.start - (period.stop - period.start), period.start⟩

namespace LedgerDb

/-- The rows dated in the period. -/
def dated (d : LedgerDb) (period : Period) : List (ℕ × LedgerEntry) :=
  d.transactions.rows.filter fun row => period.Covers row.2

/-- `_flows`. -/
def flows (d : LedgerDb) (period : Period) : PeriodFlows := flowsOf ((d.dated period).map Prod.snd)

/-- `_balance`. -/
def balance (d : LedgerDb) (period : Period) : PeriodBalance :=
  balanceOf ((d.transactions.rows.map Prod.snd).filter fun entry => entry.createdAt < period.start)
    ((d.dated period).map Prod.snd)

/-- `max(id)`, or `0`. -/
def maxId (d : LedgerDb) : ℕ := (d.transactions.rows.map Prod.fst).foldr max 0

/-- `_overlapping`. -/
def overlapping (d : LedgerDb) (period : Period) : Option (ℕ × PeriodClose) :=
  d.closes.rows.find? fun row => row.2.period.start < period.stop ∧ period.start < row.2.period.stop

/-- The rows that were booked into a closed period late. -/
def lateOf (d : LedgerDb) (close : PeriodClose) : List (ℕ × LedgerEntry) :=
  d.transactions.rows.filter fun row => close.period.Covers row.2 ∧ close.lastTransactionId < row.1

end LedgerDb

/-! ### Bookings -/

/-- `INSERT INTO transactions`. -/
def bookEntry (row : ℕ × LedgerEntry) : LedgerTx Unit := do
  let taken ← Tx.lock (.entry row.1) fun d => d.transactions.get? row.1
  Tx.require (taken = none) .integrity
  Tx.modify fun d => { d with transactions := d.transactions.insert row.1 row.2 }

/-- A transaction that moves money, as far as the ledger is concerned. -/
def bookEntries (rows : List (ℕ × LedgerEntry)) : LedgerTx Unit := Tx.forEach rows bookEntry

/-! ### Closing a period -/

/-- `validate_range`. -/
def validateRange (period : Period) : LedgerTx Unit := do
  Tx.require (period.start < period.stop) (.valueError "end phải sau start")
  Tx.require (period.stop - period.start ≤ 400 * 86400 * 1000000) (.valueError "kỳ báo cáo tối đa 400 ngày")

/-- `period_report`, with the rows the flows are taken of. -/
def periodReport (period : Period) : LedgerTx (PeriodReport × List (ℕ × LedgerEntry)) := do
  validateRange period
  let current ← Tx.read fun d => (d.flows period, d.dated period)
  let previous ← Tx.read fun d => d.flows period.before
  let balance ← Tx.read fun d => d.balance period
  pure ({ current := current.1, previous, balance }, current.2)

/-- `close_period`; the sequence has given the key. -/
def closePeriod (closeId : ℕ) (period : Period) (now : ℕ) : LedgerTx Unit := do
  validateRange period
  Tx.lock .closing fun _ => ()
  Tx.require (period.stop ≤ now) (.valueError "Kỳ chưa kết thúc, chưa chốt được")
  let overlap ← Tx.read fun d => (d.overlapping period).isSome
  Tx.require (overlap = false) (.valueError "Kỳ này trùng với một kỳ đã chốt")
  let report ← periodReport period
  let lastId ← Tx.read LedgerDb.maxId
  let taken ← Tx.read fun d => (d.closes.get? closeId).isSome
  Tx.require (taken = false) .integrity
  Tx.modify fun d =>
    { d with
      closes := d.closes.insert closeId
        { period, lastTransactionId := lastId, snapshot := report.1, counted := report.2 } }

/-! ### Looking at closed periods -/

/-- `drift`. -/
structure PeriodDrift where
  netDelta : ℤ
  lateRows : ℕ
  lateAmount : ℤ
  deriving DecidableEq

/-- The drift of a close. -/
def closeDrift (close : PeriodClose) : LedgerTx PeriodDrift := do
  let live ← Tx.read fun d => d.flows close.period
  let late ← Tx.read fun d => d.lateOf close
  pure
    { netDelta := live.net - close.snapshot.current.net
      lateRows := late.length
      lateAmount := (late.map fun row => row.2.amount).sum }

/-- The drift of each of the closes. -/
def closeDrifts : List (ℕ × PeriodClose) → LedgerTx (List (ℕ × PeriodDrift))
  | [] => pure []
  | row :: rows => do
    let drift ← closeDrift row.2
    let drifts ← closeDrifts rows
    pure ((row.1, drift) :: drifts)

/-- `list_closes`. -/
def listCloses (limit : ℕ) : LedgerTx (List (ℕ × PeriodDrift)) := do
  let rows ← Tx.read fun d =>
    (d.closes.rows.mergeSort fun a b => decide (b.2.period.start ≤ a.2.period.start)).take limit
  closeDrifts rows

end Marketplace
