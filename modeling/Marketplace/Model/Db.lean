import Marketplace.Model.Types
import Marketplace.Sql.Table
import Marketplace.Sql.Serial

/-!
# The database

`Db` is the state all services share, one field per table. A change to it is one of
the functions below, each of which touches one table; their projections are
simplification lemmas, so that what an operation leaves alone is computed and not proved.

`Tx` is the type of a service function that runs in a session: a transaction over `Db` that locks
rows named by `RowKey` and gives up with an `Abort`. `Settings` holds the answers of the runtime
configuration and of the clock during one call; a theorem about an operation quantifies
over them, so nothing depends on how an administrator configured the platform.

Identifiers of new rows are drawn from the database's sequences, which never hand out a number
twice. An operation that inserts takes its numbers as arguments, and an insertion under a taken
key is the unique violation `Abort.integrity`.
-/

namespace Marketplace

open Sql

/-- The state of the platform. -/
structure Db where
  accounts : Table ℕ Account
  /-- By owning account. -/
  wallets : Table ℕ Wallet
  /-- The ledger, oldest row first. -/
  transactions : List Transaction
  withdrawRequests : Table ℕ WithdrawRequest
  /-- By order. -/
  commissions : Table ℕ AffiliateCommission
  /-- `affiliate_fund.balance` of the one fund row. -/
  fundBalance : ℤ
  fundEntries : List AffiliateFundEntry
  /-- By order. -/
  cashbacks : Table ℕ BuyerCashback
  variants : Table ℕ ProductVariant
  products : Table ℕ Product
  resources : Table ℕ Resource
  allocations : Table ℕ ProxyAllocation
  tasks : Table ℕ ServiceTask
  orders : Table ℕ Order
  disputes : Table ℕ Dispute
  claimResources : List DisputeClaimResource
  claimProxies : List DisputeClaimProxy
  resourceActions : List DisputeResourceAction
  proxyActions : List DisputeProxyAction
  promotions : Table ℕ Promotion
  promotionCodes : Table ℕ PromotionCode
  /-- By order. -/
  redemptions : Table ℕ PromotionRedemption
  depositIntents : Table ℕ DepositIntent
  sepayEvents : Table ℕ SePayWebhookEvent

/-- The database before anything happened. -/
def Db.empty : Db where
  accounts := .empty
  wallets := .empty
  transactions := []
  withdrawRequests := .empty
  commissions := .empty
  fundBalance := 0
  fundEntries := []
  cashbacks := .empty
  variants := .empty
  products := .empty
  resources := .empty
  allocations := .empty
  tasks := .empty
  orders := .empty
  disputes := .empty
  claimResources := []
  claimProxies := []
  resourceActions := []
  proxyActions := []
  promotions := .empty
  promotionCodes := .empty
  redemptions := .empty
  depositIntents := .empty
  sepayEvents := .empty

/-! ### Changes -/

namespace Db

/-- Change a wallet. -/
@[simps] def modifyWallet (a : ℕ) (f : Wallet → Wallet) (d : Db) : Db :=
  { d with wallets := d.wallets.modify a f }

/-- Create a wallet. -/
@[simps] def insertWallet (a : ℕ) (w : Wallet) (d : Db) : Db :=
  { d with wallets := d.wallets.insert a w }

/-- Append a row to the ledger. -/
@[simps] def addTransaction (t : Transaction) (d : Db) : Db :=
  { d with transactions := d.transactions ++ [t] }

/-- Change an account. -/
@[simps] def modifyAccount (a : ℕ) (f : Account → Account) (d : Db) : Db :=
  { d with accounts := d.accounts.modify a f }

/-- Create a withdrawal request. -/
@[simps] def insertWithdrawRequest (r : ℕ) (v : WithdrawRequest) (d : Db) : Db :=
  { d with withdrawRequests := d.withdrawRequests.insert r v }

/-- Change a withdrawal request. -/
@[simps] def modifyWithdrawRequest (r : ℕ) (f : WithdrawRequest → WithdrawRequest) (d : Db) :
    Db :=
  { d with withdrawRequests := d.withdrawRequests.modify r f }

/-- Record a commission. -/
@[simps] def insertCommission (o : ℕ) (v : AffiliateCommission) (d : Db) : Db :=
  { d with commissions := d.commissions.insert o v }

/-- Change a commission. -/
@[simps] def modifyCommission (o : ℕ) (f : AffiliateCommission → AffiliateCommission) (d : Db) :
    Db :=
  { d with commissions := d.commissions.modify o f }

/-- Move the affiliate budget. -/
@[simps] def addFundBalance (x : ℤ) (d : Db) : Db := { d with fundBalance := d.fundBalance + x }

/-- Append a row to the affiliate budget's ledger. -/
@[simps] def addFundEntry (e : AffiliateFundEntry) (d : Db) : Db :=
  { d with fundEntries := d.fundEntries ++ [e] }

/-- Record a cashback. -/
@[simps] def insertCashback (o : ℕ) (v : BuyerCashback) (d : Db) : Db :=
  { d with cashbacks := d.cashbacks.insert o v }

/-- Change a cashback. -/
@[simps] def modifyCashback (o : ℕ) (f : BuyerCashback → BuyerCashback) (d : Db) : Db :=
  { d with cashbacks := d.cashbacks.modify o f }

/-- Change a package. -/
@[simps] def modifyVariant (v : ℕ) (f : ProductVariant → ProductVariant) (d : Db) : Db :=
  { d with variants := d.variants.modify v f }

/-- Create a stock line. -/
@[simps] def insertResource (r : ℕ) (v : Resource) (d : Db) : Db :=
  { d with resources := d.resources.insert r v }

/-- Change a stock line. -/
@[simps] def modifyResource (r : ℕ) (f : Resource → Resource) (d : Db) : Db :=
  { d with resources := d.resources.modify r f }

/-- Bind a proxy line. -/
@[simps] def insertAllocation (a : ℕ) (v : ProxyAllocation) (d : Db) : Db :=
  { d with allocations := d.allocations.insert a v }

/-- Change a proxy line. -/
@[simps] def modifyAllocation (a : ℕ) (f : ProxyAllocation → ProxyAllocation) (d : Db) : Db :=
  { d with allocations := d.allocations.modify a f }

/-- Create a task. -/
@[simps] def insertTask (t : ℕ) (v : ServiceTask) (d : Db) : Db :=
  { d with tasks := d.tasks.insert t v }

/-- Change a task. -/
@[simps] def modifyTask (t : ℕ) (f : ServiceTask → ServiceTask) (d : Db) : Db :=
  { d with tasks := d.tasks.modify t f }

/-- Create an order. -/
@[simps] def insertOrder (o : ℕ) (v : Order) (d : Db) : Db :=
  { d with orders := d.orders.insert o v }

/-- Change an order. -/
@[simps] def modifyOrder (o : ℕ) (f : Order → Order) (d : Db) : Db :=
  { d with orders := d.orders.modify o f }

/-- Open a case. -/
@[simps] def insertDispute (c : ℕ) (v : Dispute) (d : Db) : Db :=
  { d with disputes := d.disputes.insert c v }

/-- Change a case. -/
@[simps] def modifyDispute (c : ℕ) (f : Dispute → Dispute) (d : Db) : Db :=
  { d with disputes := d.disputes.modify c f }

/-- Claim a stock line. -/
@[simps] def addClaimResource (v : DisputeClaimResource) (d : Db) : Db :=
  { d with claimResources := d.claimResources ++ [v] }

/-- Claim a proxy line. -/
@[simps] def addClaimProxy (v : DisputeClaimProxy) (d : Db) : Db :=
  { d with claimProxies := d.claimProxies ++ [v] }

/-- Record the remedy of a stock line. -/
@[simps] def addResourceAction (v : DisputeResourceAction) (d : Db) : Db :=
  { d with resourceActions := d.resourceActions ++ [v] }

/-- Record the remedy of a proxy line. -/
@[simps] def addProxyAction (v : DisputeProxyAction) (d : Db) : Db :=
  { d with proxyActions := d.proxyActions ++ [v] }

/-- Change a child code. -/
@[simps] def modifyPromotionCode (c : ℕ) (f : PromotionCode → PromotionCode) (d : Db) : Db :=
  { d with promotionCodes := d.promotionCodes.modify c f }

/-- Record the use of a promotion. -/
@[simps] def insertRedemption (o : ℕ) (v : PromotionRedemption) (d : Db) : Db :=
  { d with redemptions := d.redemptions.insert o v }

/-- Change a deposit order. -/
@[simps] def modifyDepositIntent (i : ℕ) (f : DepositIntent → DepositIntent) (d : Db) : Db :=
  { d with depositIntents := d.depositIntents.modify i f }

end Db

/-! ### Transactions -/

/-- The rows a statement can lock. -/
inductive RowKey
  | wallet (account : ℕ)
  | withdrawRequest (id : ℕ)
  | commission (order : ℕ)
  | fund
  | cashback (order : ℕ)
  | variant (id : ℕ)
  | resource (id : ℕ)
  | allocation (id : ℕ)
  | order (id : ℕ)
  | dispute (id : ℕ)
  | promotion (id : ℕ)
  | promotionCode (id : ℕ)
  | depositIntent (id : ℕ)
  | sepayEvent (id : ℕ)
  deriving DecidableEq, Repr

/-- Why a function gives up; the session rolls back. -/
inductive Abort
  /-- `HTTPException(status_code, detail)`. -/
  | http (status : ℕ) (detail : String)
  /-- `api_error(ErrorCode.…, status)`. -/
  | api (status : ℕ) (code : String)
  /-- `raise ValueError(message)`. -/
  | valueError (message : String)
  /-- A unique constraint of the database. -/
  | integrity
  /-- The function returned without a commit, so the session's changes are dropped. -/
  | notCommitted
  deriving DecidableEq, Repr

/-- `InsufficientCredit()`. -/
def Abort.insufficientCredit : Abort := .api 402 "INSUFFICIENT_CREDIT"

/-- `ResourceUnavailable()`. -/
def Abort.resourceUnavailable : Abort := .api 409 "RESOURCE_UNAVAILABLE"

/-- A service function inside a session. -/
abbrev Tx (α : Type) : Type := Sql.Tx Db RowKey Abort α

/-- `db.add(…)` and a flush: a new row under a key the sequence handed out. The new key is
locked, and a taken one is a unique violation. -/
def insertRow {V : Type} (k : RowKey) (row : Db → Option V) (f : Db → Db) : Tx Unit := do
  let taken ← Sql.Tx.lock k fun d => (row d).isSome
  Sql.Tx.require (taken = false) .integrity
  Sql.Tx.modify f

theorem wp_insertRow {V : Type} {k : RowKey} {row : Db → Option V} {f : Db → Db}
    {R : Rely Db RowKey} {I : Db → Prop} {Q : Unit → (Db → Db) → List RowKey → List Db → Db → Prop}
    {w : Db → Db} {L : List RowKey} {s : List Db} {d : Db} :
    (insertRow k row f).wp R I Q w L s d ↔ ∀ d', R.rel L d d' → I d' → row (w d') = none →
      Q () (fun d => f (w d)) (k :: L) (w d' :: s) d' := by
  simp only [insertRow, Sql.Tx.wp_bind, Sql.Tx.wp_lock, Sql.Tx.wp_require, Sql.Tx.wp_modify,
    Option.isSome_eq_false_iff, Option.isNone_iff_eq_none]

/-- The clock and the configuration as one call finds them. -/
structure Settings where
  /-- `datetime.now(timezone.utc)`. -/
  now : ℕ
  /-- `func.now()`, the default of a row's `created_at`: the moment the transaction began. -/
  startedAt : ℕ
  /-- `platform_account_id`: the account whose wallet books platform fees. -/
  platformAccountId : ℕ
  /-- What `platform_fee_percent_for` answers for the sale at hand. -/
  platformFeePercent : ℚ
  /-- The hours `escrow_hours_for` answers for the sale at hand. -/
  escrowHours : ℕ
  withdrawMinAmount : ℤ
  withdrawFeeFixed : ℤ
  withdrawFeePercent : ℚ
  /-- `withdraw_limit_per_request` of the seller's tier. -/
  withdrawLimitPerRequest : Option ℤ
  /-- `enabled` of the affiliate programme. -/
  affiliateEnabled : Bool
  maxCommissionsPerDay : ℕ
  /-- What `_commission_quote`'s rules on the referrer, the earning window and the public address
  answer for the sale at hand. -/
  referralEligible : Bool
  /-- `resolve_rate` for the sale at hand: the percentage of the fee, if any. -/
  commissionRate : Option ℚ
  /-- `cashback_percent` of the buyer's tier. -/
  cashbackPercent : ℚ
  /-- `_category_chain` of the product at hand. -/
  categoryChain : List ℕ
  /-- `same_public_ip` of the buyer and the referrer at hand. -/
  samePublicIp : Bool
  disputeOpenWindowHours : ℕ
  disputeSellerResponseHours : ℕ
  disputeResolutionTimeoutHours : ℕ
  disputeAbandonGraceHours : ℕ

/-- A shop for examples: account 1 sells one package made to order, and account 2 has the money for it. -/
def Db.sample : Db :=
  { Db.empty with
    accounts := ⟨[(1, ⟨true, false, true, false, none, none⟩),
      (2, ⟨false, false, true, false, none, none⟩)], by decide⟩
    wallets := ⟨[(0, ⟨0, 0⟩), (1, ⟨0, 0⟩), (2, ⟨90000, 0⟩)], by decide⟩
    products := ⟨[(1, ⟨1, true, none, 4⟩)], by decide⟩
    variants := ⟨[(1, ⟨1, 50000, .manual, 24, true, none, 1, none, none⟩)], by decide⟩ }

/-- A configuration for examples, at moment `now`. -/
def Settings.sample (now : ℕ) : Settings where
  now := now
  startedAt := now
  platformAccountId := 0
  platformFeePercent := 10
  escrowHours := 72
  withdrawMinAmount := 50000
  withdrawFeeFixed := 2000
  withdrawFeePercent := 0
  withdrawLimitPerRequest := none
  affiliateEnabled := true
  maxCommissionsPerDay := 20
  referralEligible := true
  commissionRate := some 10
  cashbackPercent := 0
  categoryChain := []
  samePublicIp := false
  disputeOpenWindowHours := 72
  disputeSellerResponseHours := 48
  disputeResolutionTimeoutHours := 48
  disputeAbandonGraceHours := 24

end Marketplace
