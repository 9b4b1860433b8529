import Marketplace.Orders.AdminCase
import Marketplace.Wallet.Effects

/-!
# What the functions about one order write

Provisioning, settlement and cancellation write to many tables, but to one order only.
`OrderWrite o Q` lists the writes of a function about the order `o`; `Q` says what it may do to
the row of the order, whose terms it never changes. The footprints below say which functions
these are: the ones that leave the row alone, the ones that keep its status, and the ones
that close or deliver the order.

The campaigns and the dispute cases are not on the list, and `OrderStep` is what follows for the
database.
-/

namespace Marketplace

open Sql

/-- What an order is about: who buys it from whom, and for how much. -/
def Order.terms (v : Order) : ℕ × ℕ × ℤ × ℤ :=
  (v.buyerId, v.sellerId, v.totalAmount, v.discountAmount)

/-- A change of an order that keeps its status. -/
def KeepsStatus (v v' : Order) : Prop := v'.status = v.status

/-- Any change of an order. -/
def AnyChange (_ _ : Order) : Prop := True

/-- The writes of a function about the order `o`, which changes its row as `Q` says. -/
inductive OrderWrite (o : ℕ) (Q : Order → Order → Prop) : (Db → Db) → Prop
  | money {f : Db → Db} (h : MoneyWrite (fun _ => False) f) : OrderWrite o Q f
  | order (f : Order → Order) (h : ∀ v, (f v).terms = v.terms) (hQ : ∀ v, Q v (f v)) :
      OrderWrite o Q (Db.modifyOrder o f)
  | account (a : ℕ) (f : Account → Account) : OrderWrite o Q (Db.modifyAccount a f)
  | variant (v : ℕ) (f : ProductVariant → ProductVariant) : OrderWrite o Q (Db.modifyVariant v f)
  | newResource (r : ℕ) (v : Resource) : OrderWrite o Q (Db.insertResource r v)
  | resource (r : ℕ) (f : Resource → Resource) : OrderWrite o Q (Db.modifyResource r f)
  | newAllocation (a : ℕ) (v : ProxyAllocation) : OrderWrite o Q (Db.insertAllocation a v)
  | allocation (a : ℕ) (f : ProxyAllocation → ProxyAllocation) :
      OrderWrite o Q (Db.modifyAllocation a f)
  | newTask (t : ℕ) (v : ServiceTask) : OrderWrite o Q (Db.insertTask t v)
  | task (t : ℕ) (f : ServiceTask → ServiceTask) : OrderWrite o Q (Db.modifyTask t f)

/-! ### What follows for the database -/

/-- One order moves as `Q` says; the other orders, the campaigns and the cases stay. -/
structure OrderStep (o : ℕ) (Q : Order → Order → Prop) (d d' : Db) : Prop where
  promotions : d'.promotions = d.promotions
  promotionCodes : d'.promotionCodes = d.promotionCodes
  redemptions : d'.redemptions = d.redemptions
  disputes : d'.disputes = d.disputes
  others : ∀ o', o' ≠ o → d'.orders.get? o' = d.orders.get? o'
  missing : d.orders.get? o = none → d'.orders.get? o = none
  row : ∀ v, d.orders.get? o = some v →
    ∃ v', d'.orders.get? o = some v' ∧ v'.terms = v.terms ∧ Q v v'

/-- A step that writes no order. -/
theorem orderStep_of_eq {o : ℕ} {Q : Order → Order → Prop} (hQ : ∀ v, Q v v) {d d' : Db}
    (h1 : d'.promotions = d.promotions) (h2 : d'.promotionCodes = d.promotionCodes)
    (h3 : d'.redemptions = d.redemptions) (h4 : d'.disputes = d.disputes)
    (h5 : d'.orders = d.orders) : OrderStep o Q d d' :=
  ⟨h1, h2, h3, h4, fun _ _ => by rw [h5], fun h => by rw [h5, h],
    fun v hv => ⟨v, by rw [h5, hv], rfl, hQ v⟩⟩

theorem OrderStep.trans {o : ℕ} {Q Q' Q'' : Order → Order → Prop}
    {d₁ d₂ d₃ : Db} (h : OrderStep o Q d₁ d₂) (h' : OrderStep o Q' d₂ d₃)
    (hQ : ∀ a b c, Q a b → Q' b c → Q'' a c) : OrderStep o Q'' d₁ d₃ where
  promotions := h'.promotions.trans h.promotions
  promotionCodes := h'.promotionCodes.trans h.promotionCodes
  redemptions := h'.redemptions.trans h.redemptions
  disputes := h'.disputes.trans h.disputes
  others o' ho := (h'.others o' ho).trans (h.others o' ho)
  missing hn := h'.missing (h.missing hn)
  row v hv := by
    obtain ⟨v₂, hv₂, ht₂, hq₂⟩ := h.row v hv
    obtain ⟨v₃, hv₃, ht₃, hq₃⟩ := h'.row v₂ hv₂
    exact ⟨v₃, hv₃, ht₃.trans ht₂, hQ v v₂ v₃ hq₂ hq₃⟩

/-- The terms of every order stay. -/
theorem OrderStep.terms {o : ℕ} {Q : Order → Order → Prop} {d d' : Db} (h : OrderStep o Q d d')
    (o' : ℕ) : (d'.orders.get? o').map Order.terms = (d.orders.get? o').map Order.terms := by
  by_cases ho : o' = o
  · subst ho
    rcases hv : d.orders.get? o' with _ | v
    · rw [h.missing hv]
    · obtain ⟨v', hv', ht, -⟩ := h.row v hv
      rw [hv', Option.map_some, Option.map_some, ht]
  · rw [h.others o' ho]

theorem orderStep_modifyOrder {o : ℕ} {Q : Order → Order → Prop} {f : Order → Order}
    (h : ∀ v, (f v).terms = v.terms) (hQ : ∀ v, Q v (f v)) (d : Db) :
    OrderStep o Q d (d.modifyOrder o f) where
  promotions := rfl
  promotionCodes := rfl
  redemptions := rfl
  disputes := rfl
  others _ ho := Table.get?_modify_of_ne _ ho _
  missing hn := by rw [Db.modifyOrder_orders, Table.get?_modify_self, hn, Option.map_none]
  row v hv := ⟨f v, by rw [Db.modifyOrder_orders, Table.get?_modify_self, hv, Option.map_some],
    h v, hQ v⟩

theorem OrderWrite.step {o : ℕ} {Q : Order → Order → Prop} (hQ : ∀ v, Q v v) {f : Db → Db}
    (h : OrderWrite o Q f) (d : Db) : OrderStep o Q d (f d) := by
  cases h with
  | money h =>
    cases h with
    | wallet h =>
      cases h with
      | refunded o' x h => exact h.elim
      | _ => exact orderStep_of_eq hQ rfl rfl rfl rfl rfl
    | _ => exact orderStep_of_eq hQ rfl rfl rfl rfl rfl
  | order f h hQ' => exact orderStep_modifyOrder h hQ' d
  | _ => exact orderStep_of_eq hQ rfl rfl rfl rfl rfl

/-! ### Locking an order -/

section Locking

variable {R : Rely Db RowKey} {I : Db → Prop} {w : Db → Db} {L : List RowKey} {s : List Db}
  {d : Db} {o : ℕ}

theorem wp_lockOrderRow {Q : Order → (Db → Db) → List RowKey → List Db → Db → Prop} :
    (lockOrderRow o).wp R I Q w L s d ↔ ∀ d', R.rel L d d' → I d' →
      ∀ v, (w d').orders.get? o = some v → Q v w (.order o :: L) (w d' :: s) d' := by
  simp only [lockOrderRow, lockOrder, Tx.wp_bind, Tx.wp_lock, Tx.wp_getOrElse]

theorem wp_lockDueOrder {due : Db → Order → Bool}
    {Q : Order → (Db → Db) → List RowKey → List Db → Db → Prop} :
    (lockDueOrder o due).wp R I Q w L s d ↔ ∀ d', R.rel L d d' → I d' →
      ∀ v, (w d').orders.get? o = some v → due (w d') v = true →
        Q v w (.order o :: L) (w d' :: s) d' := by
  simp only [lockDueOrder, Tx.wp_bind, Tx.wp_lock, Tx.wp_getOrElse, Option.filter_eq_some_iff,
    and_imp]

end Locking

/-! ### Functions that only read -/

theorem writes_checkCampaign (cfg : Settings) (promo : Promotion)
    (child : Option (ℕ × PromotionCode)) (b : ℕ) (x : ℤ) :
    (checkCampaign cfg promo child b x).Writes (· = id) :=
  .bind (Tx.writes_require _ _) fun _ => .bind (Tx.writes_require _ _) fun _ =>
    .bind (Tx.writes_require _ _) fun _ => .bind (Tx.writes_require _ _) fun _ =>
    .bind (Tx.writes_require _ _) fun _ => .bind (Tx.writes_require _ _) fun _ =>
    .bind (Tx.writes_require _ _) fun _ => .bind (Tx.writes_read _) fun _ =>
    Tx.writes_require _ _

theorem writes_resolveCode (code : String) : (resolveCode code).Writes (· = id) := by
  refine .bind (fun _ => Tx.writes_pure _) fun promo => ?_
  rcases promo with _ | promo
  · refine .bind (Tx.writes_read _) fun parentId => ?_
    rcases parentId with _ | parentId
    · exact Tx.writes_pure _
    · exact .bind (Tx.writes_lock _ _) fun _ => .bind (fun _ => Tx.writes_pure _) fun _ =>
        Tx.writes_pure _
  · exact Tx.writes_pure _

theorem writes_applyCode (cfg : Settings) (code : String) (b : ℕ) (x : ℤ) :
    (applyCode cfg code b x).Writes (· = id) :=
  .bind (Tx.writes_require _ _) fun _ => .bind (writes_resolveCode code) fun _ =>
    .bind (Tx.writes_getOrElse _ _) fun _ => .bind (writes_checkCampaign _ _ _ _ _) fun _ =>
    .bind (Tx.writes_read _) fun _ => .bind (.bind (Tx.writes_require _ _) fun _ =>
      .bind (Tx.writes_require _ _) fun _ => .bind (Tx.writes_require _ _) fun _ =>
      .bind (Tx.writes_require _ _) fun _ => Tx.writes_pure _) fun _ => Tx.writes_pure _

theorem writes_applyPromo (cfg : Settings) (code : Option String) (b : ℕ) (x : ℤ) :
    (applyPromo cfg code b x).Writes (· = id) := by
  rcases code with _ | code
  · exact Tx.writes_pure _
  · exact .bind (writes_applyCode cfg code b x) fun _ => Tx.writes_pure _

theorem writes_checkVariantQuantity (variant : ProductVariant) (q : ℕ) :
    (checkVariantQuantity variant q).Writes (· = id) := Tx.writes_require _ _

theorem writes_variantForPurchase (p : Purchase) : (variantForPurchase p).Writes (· = id) :=
  .bind (Tx.writes_read _) fun _ => .bind (Tx.writes_getOrElse _ _) fun _ =>
    .bind (Tx.writes_require _ _) fun _ => .bind (Tx.writes_read _) fun _ =>
    .bind (Tx.writes_getOrElse _ _) fun _ => .bind (Tx.writes_require _ _) fun _ =>
    .bind (Tx.writes_require _ _) fun _ => .bind (writes_checkVariantQuantity _ _) fun _ =>
    .bind (Tx.writes_require _ _) fun _ => Tx.writes_pure _

theorem writes_productForPurchase (p : AdapterPurchase) :
    (productForPurchase p).Writes (· = id) := by
  refine .bind (Tx.writes_read _) fun _ => .bind (Tx.writes_getOrElse _ _) fun _ =>
    .bind (Tx.writes_require _ _) fun _ => .bind (Tx.writes_require _ _) fun _ =>
    .bind (Tx.writes_require _ _) fun _ => .bind (Tx.writes_require _ _) fun _ => ?_
  have hrest : ∀ product : Product, (do
      Tx.require (∀ limit ∈ p.adapterMax, p.quoteQuantity ≤ limit) (.api 400 "ORDER_QUANTITY_LIMIT")
      Tx.require (p.available = true) (.api 400 "PRODUCT_UNAVAILABLE")
      pure product : Tx Product).Writes (· = id) := fun _ =>
    .bind (Tx.writes_require _ _) fun _ => .bind (Tx.writes_require _ _) fun _ => Tx.writes_pure _
  rcases p.variantId with _ | v
  · exact hrest _
  · refine .bind (Tx.writes_read _) fun variant => ?_
    rcases variant with _ | variant
    · exact hrest _
    · change (if _ then _ else _ : Tx Product).Writes _
      split_ifs
      · exact .bind (writes_checkVariantQuantity _ _) fun _ => hrest _
      · exact hrest _

/-! ### Functions that leave the order's row alone -/

section Footprints

variable {P : (Db → Db) → Prop} (cfg : Settings) (o : ℕ) {Q : Order → Order → Prop}

theorem OrderWrite.wallet {f : Db → Db} (h : WalletWrite (fun _ => False) f) : OrderWrite o Q f :=
  .money (.wallet h)

theorem writes_payOut (order : Order) : (payOut cfg o order).Writes (OrderWrite o Q) := by
  refine .bind (Tx.writes_read _) fun seller => .bind (writes_settlement cfg order seller)
    fun r => ?_
  exact Tx.writes_when ((writes_releaseEscrow cfg o _ _ _).mono fun _ => .wallet o)

theorem writes_applyPrograms (order : Order) :
    (applyPrograms cfg o order).Writes (OrderWrite o Q) := by
  refine .bind ((writes_applyAffiliateCommission cfg o order).mono fun _ => .money) fun _ => ?_
  exact (writes_applyBuyerCashback cfg o _).mono fun _ => .wallet o

theorem writes_clawbackPrograms : (clawbackPrograms cfg o).Writes (OrderWrite o Q) := by
  refine .bind ((writes_clawbackCommissionForOrder cfg o).mono fun _ => .money) fun _ => ?_
  exact (writes_clawbackBuyerCashback cfg o).mono fun _ => .wallet o

theorem writes_requireNoOpenDispute : (requireNoOpenDispute o).Writes P :=
  .bind (Tx.writes_read _) fun _ => Tx.writes_require _ _

/-- Claiming stock writes to the rows it claims only. -/
theorem writes_tryClaim (h : ∀ r f, P (Db.modifyResource r f)) (skipped : List ℕ)
    (variantId quantity : ℕ) (durationDays : Option ℕ) :
    (tryClaimResources cfg skipped variantId quantity o durationDays).Writes P := by
  refine .bind (fun _ => Tx.writes_pure _) fun ids => ?_
  split_ifs
  · exact Tx.writes_pure _
  · exact .bind (Tx.writes_forEach fun _ => Tx.writes_modify.mpr (h _ _)) fun _ => Tx.writes_pure _

theorem writes_claim (h : ∀ r f, P (Db.modifyResource r f)) (skipped : List ℕ)
    (variantId quantity : ℕ) (durationDays : Option ℕ) :
    (claimResources cfg skipped variantId quantity o durationDays).Writes P :=
  .bind (writes_tryClaim cfg o h skipped variantId quantity durationDays) fun _ =>
    Tx.writes_getOrElse _ _

theorem writes_claimResources (skipped : List ℕ) (variantId quantity : ℕ)
    (durationDays : Option ℕ) :
    (claimResources cfg skipped variantId quantity o durationDays).Writes (OrderWrite o Q) :=
  writes_claim cfg o .resource skipped variantId quantity durationDays

/-- Redeeming a code writes to the code, the redemption and the account that is attributed. -/
theorem writes_redeem (haccount : ∀ i f, P (Db.modifyAccount i f))
    (hredemption : ∀ o v, P (Db.insertRedemption o v))
    (hcode : ∀ c f, P (Db.modifyPromotionCode c f)) (a : AppliedPromo) (b : ℕ) :
    (recordRedemption cfg a o b).Writes P := by
  have hattr : ∀ i, (attributeViaPromotion cfg b i).Writes P := by
    intro i
    rw [attributeViaPromotion]
    split_ifs
    · exact Tx.writes_pure _
    · refine .bind (Tx.writes_read _) fun b => .bind (Tx.writes_read _) fun a => ?_
      rcases b with _ | b <;> rcases a with _ | a
      · exact Tx.writes_pure _
      · exact Tx.writes_pure _
      · exact Tx.writes_pure _
      · exact Tx.writes_when (Tx.writes_modify.mpr (haccount _ _))
  have hadd : ∀ r, (addRedemption o r).Writes P := fun _ =>
    .bind (Tx.writes_read _) fun _ => .bind (Tx.writes_require _ _) fun _ => Tx.writes_modify.mpr (hredemption _ _)
  have hchild : ∀ code, (redeemChild code o).Writes P := fun _ =>
    .bind (Tx.writes_lock _ _) fun _ => .bind (Tx.writes_require _ _) fun _ => Tx.writes_modify.mpr (hcode _ _)
  rw [recordRedemption]
  rcases a.codeId with _ | code <;> rcases a.affiliateAccountId with _ | i
  · exact .bind (hadd _) fun _ => Tx.writes_pure _
  · exact .bind (hadd _) fun _ => hattr i
  · exact .bind (hchild code) fun _ => .bind (hadd _) fun _ => Tx.writes_pure _
  · exact .bind (hchild code) fun _ => .bind (hadd _) fun _ => hattr i

theorem writes_setCaps (ids : List ℕ) (x : ℤ) : (setCaps ids x).Writes (OrderWrite o Q) :=
  Tx.writes_forEach fun _ => Tx.writes_modify.mpr (.resource _ _)

theorem writes_attributeViaPromotion (buyer affiliate : ℕ) :
    (attributeViaPromotion cfg buyer affiliate).Writes (OrderWrite o Q) := by
  rw [attributeViaPromotion]
  split_ifs
  · exact Tx.writes_pure _
  · refine .bind (Tx.writes_read _) fun b => .bind (Tx.writes_read _) fun a => ?_
    rcases b with _ | b <;> rcases a with _ | a
    · exact Tx.writes_pure _
    · exact Tx.writes_pure _
    · exact Tx.writes_pure _
    · exact Tx.writes_when (Tx.writes_modify.mpr (.account _ _))

theorem writes_createResource (variantId sellerId id : ℕ) (cap : ℤ) :
    (createResource cfg o variantId sellerId id cap).Writes (OrderWrite o Q) :=
  writes_insertRow (.newResource _ _)

theorem writes_settlePurchase (sellerId : ℕ) (total : ℤ) (rows : List ℕ)
    (variantId quantity : ℕ) (acceptsPartial : Bool) :
    (settlePurchase cfg o sellerId total rows variantId quantity acceptsPartial).Writes
      (OrderWrite o Q) := by
  have hrows : ∀ l : List (ℕ × ℤ), (Tx.forEach l fun r =>
      createResource cfg o variantId sellerId r.1 r.2 : Tx Unit).Writes (OrderWrite o Q) :=
    fun l => Tx.writes_forEach fun r => writes_createResource cfg o _ _ _ _
  rw [settlePurchase]
  split_ifs
  · exact .bind (hrows _) fun _ => Tx.writes_pure _
  · exact Tx.writes_pure _
  · exact .bind (hrows _) fun _ => Tx.writes_pure _

theorem writes_provision (order : Order) (p : Provision) :
    (p.run cfg o order).Writes (OrderWrite o Q) := by
  cases p with
  | failed message => exact Tx.writes_pure _
  | text data => exact Tx.writes_pure _
  | tasks rows =>
    refine .bind (Tx.writes_forEach fun r => ?_) fun _ => ?_
    · exact .bind (Tx.writes_read _) fun _ => .bind (Tx.writes_require _ _) fun _ =>
        Tx.writes_modify.mpr (.newTask _ _)
    · change (if _ then _ else _ : Tx ProvisionResult).Writes _
      split_ifs <;> exact Tx.writes_pure _
  | sellerPool skipped variantId quantity durationDays =>
    exact .bind (writes_tryClaim cfg o .resource _ _ _ _) fun _ => Tx.writes_pure _
  | supplier rows variantId quantity acceptsPartial =>
    exact writes_settlePurchase cfg o _ _ _ _ _ _
  | proxies lines data =>
    refine .bind (Tx.writes_forEach fun l => ?_) fun _ => Tx.writes_pure _
    exact .bind (Tx.writes_read _) fun _ => .bind (Tx.writes_require _ _) fun _ =>
      writes_insertRow (.newAllocation _ _)

/-! ### Functions that keep the order's status -/

theorem writes_order {f : Order → Order} (h : ∀ v, (f v).terms = v.terms) (hQ : ∀ v, Q v (f v)) :
    (Tx.modify (Db.modifyOrder o f) : Tx Unit).Writes (OrderWrite o Q) :=
  Tx.writes_modify.mpr (.order f h hQ)

theorem writes_takeManualStock (hQ : ∀ v n, Q v { v with stockHeld := n }) (variantId : ℕ) (variant : ProductVariant) (quantity : ℕ) :
    (takeManualStock variantId variant o quantity).Writes (OrderWrite o Q) := by
  rw [takeManualStock]
  split_ifs
  · exact Tx.writes_pure _
  · exact .bind (Tx.writes_lock _ _) fun _ => .bind (Tx.writes_require _ _) fun _ =>
      .bind (Tx.writes_modify.mpr (.variant _ _)) fun _ =>
        writes_order o (fun _ => rfl) fun _ => hQ _ _

theorem writes_releaseManualStock (hQ : ∀ v n, Q v { v with stockHeld := n }) (order : Order) :
    (releaseManualStock o order).Writes (OrderWrite o Q) := by
  rw [releaseManualStock]
  rcases order.variantId with _ | v
  · exact Tx.writes_pure _
  · refine Tx.writes_when (.bind (Tx.writes_lock _ _) fun _ => ?_)
    exact .bind (Tx.writes_modify.mpr (.variant _ _)) fun _ =>
      writes_order o (fun _ => rfl) fun _ => hQ _ _

variable (hQ : ∀ v v', KeepsStatus v v' → Q v v')
include hQ

theorem writes_refund (buyer : ℕ) (x : ℤ) (s : String) :
    (refundEscrow cfg o buyer x s).Writes (OrderWrite o Q) := by
  refine (writes_refundEscrow cfg o buyer x s (S := (· = o)) rfl).mono fun f hf => ?_
  cases hf with
  | credit a x => exact .wallet o (.credit a x)
  | newWallet a x => exact .wallet o (.newWallet a x)
  | book t h => exact .wallet o (.book t h)
  | refunded o' x h =>
    subst h
    exact .order _ (fun _ => rfl) fun _ => hQ _ _ rfl
  | newCashback o' v => exact .wallet o (.newCashback o' v)
  | cashback o' f => exact .wallet o (.cashback o' f)
  | deposit i f => exact .wallet o (.deposit i f)

theorem writes_finalizeOrderLines (order : Order) (text : Option String)
    (lines : List (ℕ × ProxyAllocation)) :
    (finalizeOrderLines o order text lines).Writes (OrderWrite o Q) := by
  rcases lines with _ | ⟨line, lines⟩
  · exact Tx.writes_pure _
  · refine .bind (Tx.writes_forEach fun r => Tx.writes_modify.mpr (.allocation _ _)) fun _ => ?_
    split
    · exact .bind (writes_order o (fun _ => rfl) fun _ => hQ _ _ rfl) fun _ => Tx.writes_pure _
    · exact Tx.writes_pure _

omit hQ

/-! ### Functions that close or deliver the order -/

theorem writes_setOrderStatus (status : OrderStatus) :
    (setOrderStatus cfg o status).Writes (OrderWrite o AnyChange) :=
  writes_order o (fun _ => rfl) fun _ => trivial

theorem writes_cancelOrder (reason : String) :
    (cancelOrder cfg o reason).Writes (OrderWrite o AnyChange) :=
  .bind (writes_setOrderStatus cfg o _) fun _ => writes_order o (fun _ => rfl) fun _ => trivial

theorem writes_deliverProvision (order : Order) (result : ProvisionResult) :
    (deliverProvision cfg o order result).Writes (OrderWrite o AnyChange) := by
  have hany : ∀ v v', KeepsStatus v v' → AnyChange v v' := fun _ _ _ => trivial
  refine .bind (writes_setOrderStatus cfg o _) fun _ =>
    .bind (writes_order o (fun _ => rfl) fun _ => trivial) fun _ =>
    .bind (Tx.writes_when (writes_refund cfg o hany _ _ _)) fun _ =>
    .bind (writes_order o (fun _ => rfl) fun _ => trivial) fun _ => .bind (Tx.writes_read _)
    fun _ => .bind (Tx.writes_read _) fun _ =>
    .bind (writes_finalizeOrderLines o hany _ _ _) fun _ => ?_
  exact Tx.writes_when (writes_refund cfg o hany _ _ _)

theorem writes_applyProvisionResult (order : Order) (providerId : Option ℕ)
    (result : ProvisionResult) :
    (applyProvisionResult cfg o order providerId result).Writes (OrderWrite o AnyChange) := by
  rw [applyProvisionResult]
  split_ifs
  · exact .bind (writes_order o (fun _ => rfl) fun _ => trivial) fun _ =>
      .bind (writes_setOrderStatus cfg o _) fun _ =>
        writes_order o (fun _ => rfl) fun _ => trivial
  · exact .bind (writes_order o (fun _ => rfl) fun _ => trivial) fun _ =>
      writes_deliverProvision cfg o order result
  · exact .bind (writes_refund cfg o (fun _ _ _ => trivial) _ _ _) fun _ =>
      writes_cancelOrder cfg o _

theorem writes_provisionNewOrder (order : Order) (p : AdapterPurchase) :
    (provisionNewOrder cfg o order p).Writes (OrderWrite o AnyChange) := by
  have hany : ∀ v v', KeepsStatus v v' → AnyChange v v' := fun _ _ _ => trivial
  rw [provisionNewOrder]
  split_ifs
  · exact .bind (writes_refund cfg o hany _ _ _) fun _ => writes_cancelOrder cfg o _
  · exact Tx.writes_pure _
  · rcases p.provision with _ | provision
    · exact .bind (writes_refund cfg o hany _ _ _) fun _ => writes_cancelOrder cfg o _
    · exact .bind (writes_provision cfg o order provision) fun result =>
        writes_applyProvisionResult cfg o order p.providerId result

end Footprints

end Marketplace
