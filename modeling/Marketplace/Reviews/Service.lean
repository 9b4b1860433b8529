import Marketplace.Resources.Stock

/-!
# Reviews and the rating of a product

`reviews/service.py`: a buyer reviews an order, an admin hides and restores reviews, and a job reviews stale
orders with five stars. Each of the three recomputes the rating of the product, a count and an average of its
visible reviews (`refreshProductRating`), and writes it to the product's row.

A review is kept under its order, of which there is at most one. The row of the product is
not locked when the aggregate is read; the `UPDATE` takes it, for the columns that differ from what was
loaded. Images, notices and the business log are left out. The job goes through the products it has touched
in the order it touched them.
-/

namespace Marketplace

open Sql

/-! ### The rows -/

/-- A rating, one to five stars. -/
abbrev Stars : Type := { n : ℕ // 1 ≤ n ∧ n ≤ 5 }

/-- A row of `reviews`. -/
structure Review where
  buyerId : ℕ
  productId : ℕ
  rating : Stars
  comment : Option String
  isAuto : Bool
  isHidden : Bool
  hiddenReason : Option String
  hiddenById : Option ℕ
  hiddenAt : Option ℕ
  deriving DecidableEq

/-- The rating columns of a product. The average stands for the double next to it. -/
structure RatedProduct where
  ratingAvg : Option ℚ
  ratingCount : ℕ
  deriving DecidableEq

/-- What is read of an order; `isDisputed` says whether it ever had a dispute. -/
structure ReviewedOrder where
  buyerId : ℕ
  status : OrderStatus
  productId : Option ℕ
  variantId : Option ℕ
  escrowExpiresAt : Option ℕ
  createdAt : ℕ
  isSeeded : Bool
  isDisputed : Bool
  deriving DecidableEq

/-- What the rest of the shop keeps: orders, the product of each variant, and the review settings. -/
structure ReviewedShop where
  orders : Table ℕ ReviewedOrder
  variants : Table ℕ ℕ
  windowDays : ℕ
  autoEnabled : Bool
  autoDays : ℕ

/-- The tables. -/
structure ReviewDb where
  /-- Keyed by the order, which is unique. -/
  reviews : Table ℕ Review
  products : Table ℕ RatedProduct
  shop : ReviewedShop

/-- The rows that are locked: a review by its order, also before it is there, and a product. -/
inductive ReviewKey
  | review (orderId : ℕ)
  | product (productId : ℕ)
  deriving DecidableEq

/-- A function on these tables inside a session. -/
abbrev ReviewTx (α : Type) : Type := Sql.Tx ReviewDb ReviewKey Abort α

namespace ReviewDb

/-- What the review of an order counts for the product: its rating, while it is visible. -/
def shown (d : ReviewDb) (productId orderId : ℕ) : Option Stars :=
  ((d.reviews.get? orderId).filter fun r => r.productId = productId && !r.isHidden).map Review.rating

/-- The ratings of the product's visible reviews. -/
def visibleRatings (d : ReviewDb) (productId : ℕ) : List Stars :=
  (d.reviews.rows.filter fun r => r.2.productId = productId && !r.2.isHidden).map fun r => r.2.rating

/-- Add a review. -/
def addReview (orderId : ℕ) (review : Review) (d : ReviewDb) : ReviewDb :=
  { d with reviews := d.reviews.insert orderId review }

/-- Rewrite a review. -/
def modifyReview (orderId : ℕ) (f : Review → Review) (d : ReviewDb) : ReviewDb :=
  { d with reviews := d.reviews.modify orderId f }

end ReviewDb

/-- `func.avg` of the ratings. -/
def average (ratings : List Stars) : Option ℚ :=
  if ratings = [] then none else some ((ratings.map fun r => (r.val : ℚ)).sum / ratings.length)

/-! ### The rating of a product -/

/-- The `UPDATE` of a product that was loaded and edited. -/
def RatedProduct.write (loaded edited row : RatedProduct) : RatedProduct where
  ratingAvg := writeColumn loaded.ratingAvg edited.ratingAvg row.ratingAvg
  ratingCount := writeColumn loaded.ratingCount edited.ratingCount row.ratingCount

/-- The flush of a product; without a change there is no `UPDATE`, and the row is not taken. -/
def flushProduct (productId : ℕ) (loaded edited : RatedProduct) : ReviewTx Unit := do
  Tx.stmt (fun _ => if edited = loaded then [] else [.product productId]) fun _ => Tx.pure ()
  Tx.modify fun d => { d with products := d.products.modify productId (RatedProduct.write loaded edited) }

/-- `refresh_product_rating`. -/
def refreshProductRating (productId : ℕ) : ReviewTx Unit := do
  let ratings ← Tx.read fun d => d.visibleRatings productId
  let product ← Tx.read fun d => d.products.get? productId
  match product with
  | none => pure ()
  | some product =>
    flushProduct productId product
      { ratingAvg := (average ratings).filter (· ≠ 0), ratingCount := ratings.length }

/-! ### A buyer reviews an order -/

/-- `REVIEWABLE_STATUSES`. -/
def reviewableStatuses : List OrderStatus := [.delivered, .completed]

/-- `review_window_open`. -/
def reviewWindowOpen (order : ReviewedOrder) (windowDays now : ℕ) : Bool :=
  now ≤ order.escrowExpiresAt.getD order.createdAt + windowDays * 86400

/-- The `INSERT` of a review: it waits for another one of the order, and fails if there is one then. -/
def insertReview (orderId : ℕ) (review : Review) : ReviewTx Unit := do
  let other ← Tx.lock (.review orderId) fun d => d.reviews.get? orderId
  Tx.require (other = none) .integrity
  Tx.modify (ReviewDb.addReview orderId review)

/-- The product an order bought. -/
def boughtProduct (order : ReviewedOrder) : ReviewTx (Option ℕ) :=
  match order.productId, order.variantId with
  | some productId, _ => pure (some productId)
  | none, some variantId => Tx.read fun d => d.shop.variants.get? variantId
  | none, none => pure none

/-- `create_review`. -/
def createReview (orderId buyerId : ℕ) (rating : Stars) (comment : Option String) (hasImages : Bool) (now : ℕ) :
    ReviewTx Unit := do
  let order ← Tx.read fun d => d.shop.orders.get? orderId
  let order ← Tx.getOrElse order (.api 404 "ORDER_NOT_FOUND")
  Tx.require (order.buyerId = buyerId) (.api 403 "NOT_ORDER_OWNER")
  Tx.require (order.status ∈ reviewableStatuses) (.api 400 "REVIEW_NOT_ELIGIBLE")
  let windowDays ← Tx.read fun d => d.shop.windowDays
  Tx.require (reviewWindowOpen order windowDays now) (.api 400 "REVIEW_WINDOW_CLOSED")
  let existing ← Tx.read fun d => d.reviews.get? orderId
  Tx.require (existing = none) (.api 400 "REVIEW_ALREADY_EXISTS")
  let product ← boughtProduct order
  let productId ← Tx.getOrElse product (.api 400 "VARIANT_NOT_FOUND")
  insertReview orderId
    { buyerId, productId, rating, comment, isAuto := false, isHidden := false, hiddenReason := none
      hiddenById := none, hiddenAt := none }
  Tx.require (hasImages → ¬order.isSeeded) (.api 400 "REVIEW_NOT_ELIGIBLE")
  refreshProductRating productId

/-! ### An admin hides or restores a review -/

/-- What hiding or restoring makes of a review. -/
def Review.moderated (adminId : ℕ) (hidden : Bool) (reason : Option String) (now : ℕ) (review : Review) : Review :=
  { review with
    isHidden := hidden
    hiddenReason := if hidden then (reason.map strip).filter (· ≠ "") else none
    hiddenById := if hidden then some adminId else none
    hiddenAt := if hidden then some now else none }

/-- The `UPDATE` of a review that was loaded and moderated. -/
def Review.write (loaded edited row : Review) : Review :=
  { row with
    isHidden := writeColumn loaded.isHidden edited.isHidden row.isHidden
    hiddenReason := writeColumn loaded.hiddenReason edited.hiddenReason row.hiddenReason
    hiddenById := writeColumn loaded.hiddenById edited.hiddenById row.hiddenById
    hiddenAt := writeColumn loaded.hiddenAt edited.hiddenAt row.hiddenAt }

/-- The flush of a review. -/
def flushReview (reviewId : ℕ) (loaded edited : Review) : ReviewTx Unit := do
  Tx.stmt (fun _ => if edited = loaded then [] else [.review reviewId]) fun _ => Tx.pure ()
  Tx.modify (ReviewDb.modifyReview reviewId (Review.write loaded edited))

/-- `set_review_visibility`. -/
def setReviewVisibility (reviewId adminId : ℕ) (hidden : Bool) (reason : Option String) (now : ℕ) :
    ReviewTx Unit := do
  let review ← Tx.read fun d => d.reviews.get? reviewId
  let review ← Tx.getOrElse review (.api 404 "REVIEW_NOT_FOUND")
  flushReview reviewId review (review.moderated adminId hidden reason now)
  refreshProductRating review.productId

/-! ### The job -/

/-- The orders the job goes through, oldest first. -/
def staleOrders (cutoff limit : ℕ) (d : ReviewDb) : List (ℕ × ReviewedOrder) :=
  ((d.shop.orders.rows.filter fun row =>
      row.2.status ∈ reviewableStatuses ∧ row.2.createdAt ≤ cutoff ∧ d.reviews.get? row.1 = none ∧
        row.2.isDisputed = false).mergeSort fun a b => a.2.createdAt ≤ b.2.createdAt).take limit

/-- The five stars of the job. -/
def fiveStars : Stars := ⟨5, by decide⟩

/-- The reviews the job adds: of each order that has a product. -/
def autoReviews : List (ℕ × ReviewedOrder) → ReviewTx (List (ℕ × Review))
  | [] => pure []
  | (orderId, order) :: orders => do
    let product ← boughtProduct order
    let rest ← autoReviews orders
    pure (match product with
      | none => rest
      | some productId =>
        (orderId,
          { buyerId := order.buyerId, productId, rating := fiveStars, comment := none, isAuto := true
            isHidden := false, hiddenReason := none, hiddenById := none, hiddenAt := none }) :: rest)

/-- `auto_review_stale_orders`. -/
def autoReviewStaleOrders (now limit : ℕ) : ReviewTx Unit := do
  let policy ← Tx.read fun d => (d.shop.autoEnabled, d.shop.autoDays)
  Tx.require (policy.1 = true) .notCommitted
  let stale ← Tx.read (staleOrders (now - policy.2 * 86400) limit)
  let added ← autoReviews stale
  Tx.require (added ≠ []) .notCommitted
  Tx.forEach added fun row => insertReview row.1 row.2
  Tx.forEach (added.map fun row => row.2.productId).dedup refreshProductRating

end Marketplace
