import Marketplace.Model.Db

/-!
# Promo codes

The checkout part of `promotions/service.py`. `applyCode` checks every rule of the
campaign behind a code and answers the discount; at order creation it holds the campaign's row,
and a child code's row, until the order commits. `recordRedemption` then counts the use.

How often a campaign was used and what it gave away is stored nowhere: `Db.usage` recounts
the redemptions whose order is not cancelled.
-/

namespace Marketplace

open Sql

/-! ### What a code is worth -/

/-- `discount_for`: the buyer always pays at least 1 đ. -/
def discountFor (discountType : DiscountType) (value : ℤ) (maxDiscount : Option ℤ)
    (subtotal : ℤ) : ℤ :=
  let amount := match discountType with
    | .percent =>
      let amount := subtotal * value / 100
      match maxDiscount with
      | some maxDiscount => min amount maxDiscount
      | none => amount
    | .fixed => value
  max 0 (min amount (subtotal - 1))

theorem discountFor_le {type : DiscountType} {value : ℤ} {maxDiscount : Option ℤ} {subtotal : ℤ}
    (h : 0 < discountFor type value maxDiscount subtotal) :
    discountFor type value maxDiscount subtotal ≤ subtotal - 1 := by
  simp only [discountFor] at h ⊢
  omega

/-! ### Usage -/

/-- `_live_redemptions`: the order that used the code is there and not cancelled. -/
def Db.liveRedemption (d : Db) (orderId : ℕ) : Prop :=
  ∃ v ∈ d.orders.get? orderId, v.status ≠ .cancelled

instance (d : Db) (orderId : ℕ) : Decidable (d.liveRedemption orderId) := by
  unfold Db.liveRedemption
  infer_instance

/-- The live uses of a campaign. -/
def Db.uses (d : Db) (promotionId : ℕ) : ℕ :=
  d.redemptions.sum fun o r => if r.promotionId = promotionId ∧ d.liveRedemption o then 1 else 0

/-- The live uses of a campaign by one buyer. -/
def Db.usesBy (d : Db) (promotionId buyerId : ℕ) : ℕ :=
  d.redemptions.sum fun o r =>
    if r.promotionId = promotionId ∧ r.buyerId = buyerId ∧ d.liveRedemption o then 1 else 0

/-- The discounts a campaign gave in its live uses. -/
def Db.spent (d : Db) (promotionId : ℕ) : ℤ :=
  d.redemptions.sum fun o r =>
    if r.promotionId = promotionId ∧ d.liveRedemption o then r.discountAmount else 0

/-- `_usage`: uses, discount given, and uses by this buyer. -/
def Db.usage (d : Db) (promotionId buyerId : ℕ) : ℕ × ℤ × ℕ :=
  (d.uses promotionId, d.spent promotionId, d.usesBy promotionId buyerId)

/-- `_has_prior_order`. -/
def Db.hasPriorOrder (d : Db) (buyerId : ℕ) : Prop :=
  ∃ r ∈ d.orders.rows, r.2.buyerId = buyerId ∧ r.2.status ≠ .cancelled ∧ r.2.isSeeded = false

instance (d : Db) (buyerId : ℕ) : Decidable (d.hasPriorOrder buyerId) := by
  unfold Db.hasPriorOrder
  infer_instance

/-! ### Checking a code -/

/-- `AppliedPromo`. -/
structure AppliedPromo where
  promotionId : ℕ
  code : String
  discount : ℤ
  codeId : Option ℕ
  affiliateAccountId : Option ℕ
  deriving DecidableEq, Repr

/-- The campaign with a code. -/
def Db.promotionByCode (d : Db) (code : String) : Option (ℕ × Promotion) :=
  d.promotions.rows.find? fun r => r.2.code = code

/-- The child code with a text. -/
def Db.childByCode (d : Db) (code : String) : Option (ℕ × PromotionCode) :=
  d.promotionCodes.rows.find? fun r => r.2.code = code

/-- `_resolve_code` with `lock=True`: the campaign behind a code, locked, and the child code if it
is one, locked as well. -/
def resolveCode (code : String) : Tx (Option ((ℕ × Promotion) × Option (ℕ × PromotionCode))) := do
  let promo ← Sql.Tx.stmt
    (fun d => (d.promotionByCode code).toList.map fun r => RowKey.promotion r.1)
    fun d => .pure (d.promotionByCode code)
  match promo with
  | some promo => pure (some (promo, none))
  | none => do
    let parentId ← Tx.read fun d => (d.childByCode code).map fun r => r.2.promotionId
    match parentId with
    | none => pure none
    | some parentId => do
      let promo ← Tx.lock (.promotion parentId) fun d => d.promotions.get? parentId
      let child ← Sql.Tx.stmt
        (fun d => (d.childByCode code).toList.map fun r => RowKey.promotionCode r.1)
        fun d => .pure (d.childByCode code)
      pure (promo.map fun promo => ((parentId, promo), child))

/-- `CODE_PATTERN`: three to thirty-two capitals, digits, hyphens and underscores. -/
def codePattern (code : String) : Bool :=
  3 ≤ code.length && code.length ≤ 32 &&
    code.toList.all fun c => c.isUpper || c.isDigit || c = '-' || c = '_'

/-- The rules of `apply_code` on the campaign itself, in the order they are checked. -/
def checkCampaign (cfg : Settings) (promo : Promotion) (child : Option (ℕ × PromotionCode))
    (buyerId : ℕ) (subtotal : ℤ) : Tx Unit := do
  Tx.require (promo.isActive = true ∧ promo.archivedAt = none) (.api 400 "PROMO_NOT_FOUND")
  Tx.require (∀ c ∈ child, c.2.redeemedOrderId = none) (.api 400 "PROMO_EXHAUSTED")
  Tx.require (promo.affiliateAccountId ≠ some buyerId) (.api 400 "PROMO_OWN_CODE")
  Tx.require (∀ startsAt ∈ promo.startsAt, startsAt ≤ cfg.now) (.api 400 "PROMO_NOT_STARTED")
  Tx.require (∀ endsAt ∈ promo.endsAt, cfg.now < endsAt) (.api 400 "PROMO_EXPIRED")
  Tx.require (promo.minOrderAmount ≤ subtotal) (.api 400 "PROMO_MIN_ORDER")
  Tx.require (promo.categoryIds = [] ∨ ∃ c ∈ promo.categoryIds, c ∈ cfg.categoryChain)
    (.api 400 "PROMO_NOT_APPLICABLE")
  let prior ← Tx.read fun d => decide (d.hasPriorOrder buyerId)
  Tx.require (promo.newBuyersOnly = true → prior = false) (.api 400 "PROMO_NEW_BUYERS_ONLY")

/-- The last part of `apply_code`: the ceilings, and what the budget leaves of the discount. -/
def applyCeilings (promo : Promotion) (usage : ℕ × ℤ × ℕ) (subtotal : ℤ) : Tx ℤ := do
  let (uses, spent, mine) := usage
  Tx.require (∀ limit ∈ promo.perBuyerLimit, mine < limit) (.api 400 "PROMO_ALREADY_USED")
  Tx.require (∀ limit ∈ promo.usageLimit, uses < limit) (.api 400 "PROMO_EXHAUSTED")
  let discount :=
    discountFor promo.discountType promo.discountValue promo.maxDiscountAmount subtotal
  Tx.require (∀ budget ∈ promo.budgetAmount, 0 < budget - spent) (.api 400 "PROMO_EXHAUSTED")
  let discount := match promo.budgetAmount with
    | some budget => min discount (budget - spent)
    | none => discount
  Tx.require (0 < discount) (.api 400 "PROMO_NOT_APPLICABLE")
  pure discount

/-- `apply_code` with `lock=True`; `code` is the normalised text. -/
def applyCode (cfg : Settings) (code : String) (buyerId : ℕ) (subtotal : ℤ) :
    Tx AppliedPromo := do
  Tx.require (codePattern code = true) (.api 400 "PROMO_NOT_FOUND")
  let found ← resolveCode code
  let ((promotionId, promo), child) ← Tx.getOrElse found (.api 400 "PROMO_NOT_FOUND")
  checkCampaign cfg promo child buyerId subtotal
  let usage ← Tx.read fun d => d.usage promotionId buyerId
  let discount ← applyCeilings promo usage subtotal
  pure
    { promotionId := promotionId, code := code, discount := discount
      codeId := child.map Prod.fst, affiliateAccountId := promo.affiliateAccountId }

/-! ### Recording the use -/

/-- `attribute_via_promotion`: an account without a referrer gets one, for good. -/
def attributeViaPromotion (cfg : Settings) (buyerId affiliateId : ℕ) : Tx Unit := do
  if buyerId = affiliateId then pure ()
  else do
    let buyer ← Tx.read fun d => d.accounts.get? buyerId
    let affiliate ← Tx.read fun d => d.accounts.get? affiliateId
    match buyer, affiliate with
    | some buyer, some _ =>
      Tx.when (buyer.referredById = none ∧ buyer.isSeeded = false ∧ cfg.samePublicIp = false) <|
        Tx.modify (Db.modifyAccount buyerId fun v =>
          if v.referredById = none then { v with referredById := some affiliateId } else v)
    | _, _ => pure ()

/-- The conditional update of `record_redemption`. -/
def redeemChild (codeId orderId : ℕ) : Tx Unit := do
  let child ← Tx.lock (.promotionCode codeId) fun d => d.promotionCodes.get? codeId
  Tx.require (∃ c ∈ child, c.redeemedOrderId = none) (.api 400 "PROMO_EXHAUSTED")
  Tx.modify (Db.modifyPromotionCode codeId fun c => { c with redeemedOrderId := some orderId })

/-- `db.add(PromotionRedemption(…))`, under the table's constraints. -/
def addRedemption (orderId : ℕ) (v : PromotionRedemption) : Tx Unit := do
  let taken ← Tx.read fun d => (d.redemptions.get? orderId).isSome
  Tx.require (taken = false ∧ 0 < v.discountAmount) .integrity
  Tx.modify (Db.insertRedemption orderId v)

/-- `record_redemption`. -/
def recordRedemption (cfg : Settings) (applied : AppliedPromo) (orderId buyerId : ℕ) :
    Tx Unit := do
  match applied.codeId with
  | some codeId => redeemChild codeId orderId
  | none => pure ()
  addRedemption orderId
    { promotionId := applied.promotionId, buyerId := buyerId, discountAmount := applied.discount
      code := applied.code, affiliateAccountId := applied.affiliateAccountId }
  match applied.affiliateAccountId with
  | some affiliateId => attributeViaPromotion cfg buyerId affiliateId
  | none => pure ()

end Marketplace
