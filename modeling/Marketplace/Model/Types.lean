import Mathlib.Tactic

/-!
# The rows of the database

The records the services read and write, with the columns they use. A row does not repeat its own
primary key; the tables of `Marketplace.Model.Db` are keyed by it. Amounts are whole đồng,
moments are seconds, and what the database calls `NULL` is `none`.

A wallet belongs to one account and an account has at most one wallet, so wallets are
keyed by the account that owns them, and `Transaction.walletId` is that account as well.
-/

namespace Marketplace

/-! ### Money -/

/-- `TransactionType`. -/
inductive TransactionType
  | topup | deposit | purchaseHold | purchaseRelease | platformFee | withdraw | withdrawLock
  | withdrawUnlock | refund | affiliateCommission | affiliateClawback | adjustmentCredit
  | adjustmentDebit | withdrawFee | promoSubsidy | cashback | cashbackClawback
  deriving DecidableEq, Repr

/-- `TransactionDirection`. -/
inductive TransactionDirection
  | in_ | out | neutral
  deriving DecidableEq, Repr

/-- `TRANSACTION_DIRECTION`: what each type does to the available balance. -/
def TransactionType.direction : TransactionType → TransactionDirection
  | .topup | .deposit | .purchaseRelease | .refund | .affiliateCommission | .withdrawUnlock
  | .platformFee | .adjustmentCredit | .promoSubsidy | .cashback => .in_
  | .affiliateClawback | .cashbackClawback | .purchaseHold | .withdrawLock
  | .adjustmentDebit => .out
  | .withdraw | .withdrawFee => .neutral

/-- A row of the ledger. -/
structure Transaction where
  walletId : ℕ
  type : TransactionType
  amount : ℤ
  referenceId : Option String
  createdAt : ℕ
  deriving DecidableEq, Repr

/-- A wallet; `pending_balance` is always `0` and left out. -/
structure Wallet where
  availableBalance : ℤ
  lockedBalance : ℤ
  deriving DecidableEq, Repr

/-- `WithdrawStatus`. -/
inductive WithdrawStatus
  | pending | approved | rejected | paid
  deriving DecidableEq, Repr

/-- `WITHDRAW_SOURCES`: what a withdrawal pays out of. -/
inductive WithdrawSource
  | sellerBalance | affiliateCommission
  deriving DecidableEq, Repr

/-- A withdrawal request. -/
structure WithdrawRequest where
  accountId : ℕ
  amount : ℤ
  status : WithdrawStatus
  feeAmount : ℤ
  netAmount : ℤ
  source : WithdrawSource
  payoutReference : Option String
  paidAt : Option ℕ
  rejectReason : Option String
  createdAt : ℕ
  deriving DecidableEq, Repr

/-! ### Accounts and referrals -/

/-- An account. `isSeller` says whether `"seller"` is among its roles. -/
structure Account where
  isSeller : Bool
  isInternal : Bool
  isActive : Bool
  isSeeded : Bool
  referredById : Option ℕ
  depositCode : Option String
  deriving DecidableEq, Repr

/-- A commission paid for an order; keyed by the order (`order_id` is unique). -/
structure AffiliateCommission where
  affiliateAccountId : ℕ
  buyerAccountId : ℕ
  ratePercent : ℚ
  feeBaseAmount : ℤ
  amount : ℤ
  clawedBackAt : Option ℕ
  createdAt : ℕ
  deriving DecidableEq, Repr

/-- Kinds of `AffiliateFundEntry`. -/
inductive FundEntryKind
  | topup | commission | clawback
  deriving DecidableEq, Repr

/-- A row of the affiliate budget's ledger. -/
structure AffiliateFundEntry where
  amount : ℤ
  kind : FundEntryKind
  referenceId : Option String
  note : Option String
  deriving DecidableEq, Repr

/-- The cashback paid for an order; keyed by the order (`order_id` is unique). -/
structure BuyerCashback where
  buyerId : ℕ
  ratePercent : ℚ
  baseAmount : ℤ
  amount : ℤ
  clawedBackAt : Option ℕ
  clawbackAmount : Option ℤ
  deriving DecidableEq, Repr

/-! ### Catalogue and stock -/

/-- `DeliveryMode`. -/
inductive DeliveryMode
  | instant | manual
  deriving DecidableEq, Repr

/-- A package of a product. -/
structure ProductVariant where
  productId : ℕ
  price : ℤ
  deliveryMode : DeliveryMode
  slaHours : ℕ
  isActive : Bool
  durationDays : Option ℕ
  minPerOrder : ℕ
  maxPerOrder : Option ℕ
  manualStock : Option ℕ
  deriving DecidableEq, Repr

/-- A product. `isActive` says whether its status is `active`. -/
structure Product where
  sellerId : ℕ
  isActive : Bool
  providerId : Option ℕ
  categoryId : ℕ
  deriving DecidableEq, Repr

/-- `ResourceStatus`. -/
inductive ResourceStatus
  | available | assigned | expired | error
  deriving DecidableEq, Repr

/-- A stock line. -/
structure Resource where
  variantId : ℕ
  sellerId : ℕ
  status : ResourceStatus
  orderId : Option ℕ
  assignedAt : Option ℕ
  expiresAt : Option ℕ
  refundAmountCap : Option ℤ
  isArchived : Bool
  createdAt : ℕ
  deriving DecidableEq, Repr

/-- `ProxyAllocationStatus`. -/
inductive ProxyAllocationStatus
  | allocated | offline | expired | released | error
  deriving DecidableEq, Repr

/-- A proxy line of an order. -/
structure ProxyAllocation where
  orderId : ℕ
  lineNo : ℕ
  status : ProxyAllocationStatus
  refundAmountCap : Option ℤ
  deliveredText : Option String
  deriving DecidableEq, Repr

/-- `ServiceTaskStatus`. -/
inductive ServiceTaskStatus
  | pending | assigned | processing | completed | failed
  deriving DecidableEq, Repr

/-- A task of an order that is fulfilled by hand. -/
structure ServiceTask where
  orderId : ℕ
  targetUrl : String
  status : ServiceTaskStatus
  resultData : Option String
  deriving DecidableEq, Repr

/-! ### Orders and disputes -/

/-- `OrderStatus`. -/
inductive OrderStatus
  | pending | processing | delivered | completed | disputed | refunded | cancelled
  deriving DecidableEq, Repr

/-- An order. -/
structure Order where
  buyerId : ℕ
  sellerId : ℕ
  variantId : Option ℕ
  productId : Option ℕ
  providerId : Option ℕ
  quantity : ℕ
  totalAmount : ℤ
  refundedAmount : ℤ
  stockHeld : ℕ
  promoCode : Option String
  discountAmount : ℤ
  status : OrderStatus
  escrowExpiresAt : Option ℕ
  deliveredAt : Option ℕ
  deliveredData : Option String
  cancelReason : Option String
  createdAt : ℕ
  isSeeded : Bool
  deriving DecidableEq, Repr

/-- `DisputeStatus`. -/
inductive DisputeStatus
  | open_ | resolvedRefund | resolvedReject | resolvedPartialRefund | resolvedReplace
  | resolvedExtendWarranty | resolvedTimeout | withdrawnByBuyer | resolvedAbandoned
  deriving DecidableEq, Repr

/-- A dispute case. -/
structure Dispute where
  orderId : ℕ
  buyerId : ℕ
  status : DisputeStatus
  sellerNote : Option String
  createdAt : ℕ
  resolutionOfferedAt : Option ℕ
  resolutionDeadlineAt : Option ℕ
  reviewRequestedAt : Option ℕ
  resolvedAt : Option ℕ
  sellerDeadlineAt : Option ℕ
  sellerRespondedAt : Option ℕ
  deriving DecidableEq, Repr

/-- A stock line named in a claim batch. -/
structure DisputeClaimResource where
  disputeId : ℕ
  resourceId : ℕ
  batchKey : String
  createdAt : ℕ
  deriving DecidableEq, Repr

/-- A proxy line named in a claim batch. -/
structure DisputeClaimProxy where
  disputeId : ℕ
  allocationId : ℕ
  batchKey : String
  createdAt : ℕ
  deriving DecidableEq, Repr

/-- What a seller may do about a claimed stock line. -/
inductive RemedyAction
  | replace | refund
  deriving DecidableEq, Repr

/-- The remedy of a stock line. -/
structure DisputeResourceAction where
  disputeId : ℕ
  originalResourceId : ℕ
  replacementResourceId : Option ℕ
  action : RemedyAction
  refundAmount : ℤ
  idempotencyKey : String
  deriving DecidableEq, Repr

/-- Who remedied a proxy line. -/
inductive ActorRole
  | seller | admin
  deriving DecidableEq, Repr

/-- The remedy of a proxy line, always a refund. -/
structure DisputeProxyAction where
  disputeId : ℕ
  allocationId : ℕ
  refundAmount : ℤ
  idempotencyKey : String
  actorRole : ActorRole
  deriving DecidableEq, Repr

/-! ### Promotions -/

/-- `DiscountType`. -/
inductive DiscountType
  | percent | fixed
  deriving DecidableEq, Repr

/-- A campaign. -/
structure Promotion where
  code : String
  discountType : DiscountType
  discountValue : ℤ
  maxDiscountAmount : Option ℤ
  minOrderAmount : ℤ
  startsAt : Option ℕ
  endsAt : Option ℕ
  usageLimit : Option ℕ
  perBuyerLimit : Option ℕ
  budgetAmount : Option ℤ
  categoryIds : List ℕ
  newBuyersOnly : Bool
  isActive : Bool
  archivedAt : Option ℕ
  affiliateAccountId : Option ℕ
  deriving DecidableEq, Repr

/-- A single-use child code of a campaign. -/
structure PromotionCode where
  promotionId : ℕ
  code : String
  redeemedOrderId : Option ℕ
  deriving DecidableEq, Repr

/-- The use of a code by an order; keyed by the order (`order_id` is unique). -/
structure PromotionRedemption where
  promotionId : ℕ
  buyerId : ℕ
  discountAmount : ℤ
  code : String
  affiliateAccountId : Option ℕ
  deriving DecidableEq, Repr

/-! ### Deposits -/

/-- `DepositIntentStatus`. -/
inductive DepositIntentStatus
  | pending | paid | cancelled | expired
  deriving DecidableEq, Repr

/-- `DepositProvider`. -/
inductive DepositProvider
  | sepay | payos | nowpayments
  deriving DecidableEq, Repr

/-- A deposit order of an account. -/
structure DepositIntent where
  accountId : ℕ
  amount : ℤ
  status : DepositIntentStatus
  provider : DepositProvider
  paymentCode : Option String
  bankAccountNumber : Option String
  sepayBankAccountId : Option String
  sepayTransactionId : Option String
  sepayReference : Option String
  paidAmount : Option ℤ
  createdAt : ℕ
  expiresAt : ℕ
  deriving DecidableEq, Repr

/-- Which path journaled a bank transfer. -/
inductive SePaySource
  | webhook | reconcile
  deriving DecidableEq, Repr

/-- What an administrator did with a transfer nothing matched. -/
inductive Resolution
  | credited | dismissed
  deriving DecidableEq, Repr

/-- The journal row of a bank transfer. `incoming` is the direction read from its raw
payload, `subAccount` the payload's virtual account. -/
structure SePayWebhookEvent where
  transactionId : String
  paymentCode : Option String
  reference : Option String
  accountNumber : String
  subAccount : String
  amount : ℤ
  source : SePaySource
  incoming : Bool
  resolution : Option Resolution
  deriving DecidableEq, Repr

end Marketplace
