import Marketplace.Orders.Effects

/-!
# Campaign ceilings under concurrent checkouts

Any number of buyers check out with the codes of a campaign while other transactions cancel
orders. How often the campaign was used is recounted from the orders each time, so what keeps
it under its ceilings is a lock: `applyCode` takes the campaign's row before it counts
and the checkout holds it until it commits, whichever of the campaign's codes was typed.

`PromoRel` states what that lock protects: while one holds a campaign's row, its live uses can only
get fewer, because a new use needs the row and a cancellation gives one back. `PromoInv` are the
ceilings themselves, with what a recorded use says about its order; `promoMachine_correct`
proves that every transaction keeps them.
-/

namespace Marketplace

open Sql

/-! ### The transactions -/

/-- A transaction that places an order or changes orders. -/
inductive CheckoutCall
  | createOrder (cfg : Settings) (skipped : List ℕ) (orderId : ℕ) (p : Purchase)
  | createOrderWithAdapter (cfg : Settings) (orderId : ℕ) (p : AdapterPurchase)
  | provisionPendingOrder (cfg : Settings) (orderId : ℕ) (provision : Provision)
      (providerId : Option ℕ)
  | slaCheck (cfg : Settings) (orderId : ℕ)
  | provisionSweep (cfg : Settings) (orderId : ℕ) (catalog : Bool)
  | refundOrder (cfg : Settings) (orderId : ℕ) (buyerMessage : Option String)
  /-- Whatever else happens to `orders`, whose rows it locks. -/
  | other (orders : List ℕ) (f : Db → Db)

/-- The transaction itself. -/
def CheckoutCall.code : CheckoutCall → Tx Unit
  | .createOrder cfg skipped o p => Marketplace.createOrder cfg skipped o p
  | .createOrderWithAdapter cfg o p => Marketplace.createOrderWithAdapter cfg o p
  | .provisionPendingOrder cfg o provision providerId =>
    Marketplace.provisionPendingOrder cfg o provision providerId
  | .slaCheck cfg o => Marketplace.slaCheck cfg o
  | .provisionSweep cfg o catalog => Marketplace.provisionSweep cfg o catalog
  | .refundOrder cfg o message => Marketplace.refundOrder cfg o message
  | .other orders f => do
    Tx.forEach orders fun o => do
      let _ ← lockOrder o
      pure ()
    Tx.modify f

/-- A step that places no order: campaigns and their uses stay, an order keeps its terms, and a
cancelled one stays cancelled. -/
structure NoNewUses (d d' : Db) : Prop where
  promotions : d'.promotions = d.promotions
  promotionCodes : d'.promotionCodes = d.promotionCodes
  redemptions : d'.redemptions = d.redemptions
  terms : ∀ o, (d'.orders.get? o).map Order.terms = (d.orders.get? o).map Order.terms
  cancelled : ∀ o, (d.orders.get? o).map Order.status = some .cancelled →
    (d'.orders.get? o).map Order.status = some .cancelled

/-- All of them at once. Transactions that are not spelled out place no order, leave the
campaigns alone, and change the rows they locked only. -/
def promoMachine : Machine Db RowKey Abort Unit CheckoutCall where
  code := CheckoutCall.code
  allows
    | .other orders f, _, d => NoNewUses d (f d) ∧
      ∀ o, o ∉ orders → (f d).orders.get? o = d.orders.get? o
    | _, _, _ => True

/-! ### The ceilings -/

/-- What the order costs before the discount. -/
def Order.subtotal (v : Order) : ℤ := v.totalAmount + v.discountAmount

/-- No child code's text is that of a campaign or of another child. -/
def Db.CodesDistinct (d : Db) : Prop :=
  (∀ c v p u, d.promotionCodes.get? c = some v → d.promotions.get? p = some u →
    v.code ≠ u.code) ∧
  ∀ c v c' v', d.promotionCodes.get? c = some v → d.promotionCodes.get? c' = some v' →
    v.code = v'.code → c = c'

/-- The limits of a campaign, kept. -/
structure Promotion.WithinLimits (promo : Promotion) (d : Db) (p : ℕ) : Prop where
  uses : ∀ limit ∈ promo.usageLimit, d.uses p ≤ limit
  usesBy : ∀ limit ∈ promo.perBuyerLimit, ∀ b, d.usesBy p b ≤ limit
  spent : ∀ budget ∈ promo.budgetAmount, d.spent p ≤ budget

/-- What a recorded use says about its order. -/
structure PromotionRedemption.Fits (r : PromotionRedemption) (v : Order) : Prop where
  buyer : v.buyerId = r.buyerId
  discount : v.discountAmount = r.discountAmount
  one_le : 1 ≤ v.discountAmount
  le_subtotal : v.discountAmount ≤ v.subtotal - 1

/-- What holds of the campaigns in every committed state. -/
structure PromoInv (d : Db) : Prop where
  limits : ∀ p promo, d.promotions.get? p = some promo → promo.WithinLimits d p
  redeemed : ∀ o r, d.redemptions.get? o = some r → ∃ v, d.orders.get? o = some v ∧ r.Fits v
  child : ∀ o r c v, d.redemptions.get? o = some r → d.promotionCodes.get? c = some v →
    v.code = r.code → v.redeemedOrderId = some o
  distinct : d.CodesDistinct

/-! ### Counting live uses -/

section Counting

variable {M : Type} [AddCommMonoid M] [PartialOrder M] [IsOrderedAddMonoid M]

/-- A sum over live uses. -/
def Db.liveSum (d : Db) (P : PromotionRedemption → Prop) [DecidablePred P]
    (g : PromotionRedemption → M) : M :=
  d.redemptions.sum fun o r => if P r ∧ d.liveRedemption o then g r else 0

theorem uses_eq_liveSum (d : Db) (p : ℕ) : d.uses p = d.liveSum (·.promotionId = p) fun _ => 1 :=
  rfl

theorem usesBy_eq_liveSum (d : Db) (p b : ℕ) : d.usesBy p b =
    d.liveSum (fun r => r.promotionId = p ∧ r.buyerId = b) fun _ => 1 := by
  simp only [Db.usesBy, Db.liveSum, and_assoc]

theorem spent_eq_liveSum (d : Db) (p : ℕ) :
    d.spent p = d.liveSum (·.promotionId = p) PromotionRedemption.discountAmount := rfl

theorem liveRedemption_iff (d : Db) (o : ℕ) : d.liveRedemption o ↔
    ∃ s, (d.orders.get? o).map Order.status = some s ∧ s ≠ .cancelled := by
  unfold Db.liveRedemption
  rcases d.orders.get? o with _ | v <;> simp

variable {d d' : Db} {P : PromotionRedemption → Prop} [DecidablePred P]
  {g : PromotionRedemption → M}

/-- Fewer live orders, a smaller sum. -/
theorem liveSum_le_of_live (hg : ∀ o r, d.redemptions.get? o = some r → 0 ≤ g r)
    (hred : d'.redemptions = d.redemptions)
    (hlive : ∀ o r, d.redemptions.get? o = some r → d'.liveRedemption o → d.liveRedemption o) :
    d'.liveSum P g ≤ d.liveSum P g := by
  rw [Db.liveSum, hred]
  refine Table.sum_le_sum fun o r hr => ?_
  by_cases h' : P r ∧ d'.liveRedemption o
  · rw [if_pos h', if_pos ⟨h'.1, hlive o r hr h'.2⟩]
  · rw [if_neg h']
    split_ifs
    · exact hg o r hr
    · exact le_refl 0

/-- One more use adds its own share at most. -/
theorem liveSum_insert_le {o : ℕ} {r : PromotionRedemption} (hr : 0 ≤ g r)
    (hfresh : d.redemptions.get? o = none) (hred : d'.redemptions = d.redemptions.insert o r)
    (hlive : ∀ o' r', d.redemptions.get? o' = some r' →
      (d'.liveRedemption o' ↔ d.liveRedemption o')) :
    d'.liveSum P g ≤ d.liveSum P g + if P r then g r else 0 := by
  have hold : (d.redemptions.sum fun o' r' => if P r' ∧ d'.liveRedemption o' then g r' else 0) =
      d.liveSum P g := by
    refine Table.sum_congr fun o' r' h' => ?_
    simp only [hlive o' r' h']
  rw [Db.liveSum, hred, Table.sum_insert hfresh, hold]
  refine add_le_add_right ?_ _
  by_cases hP : P r
  · rw [if_pos hP]
    split_ifs
    · exact le_refl _
    · exact hr
  · rw [if_neg fun h => hP h.1, if_neg hP]

end Counting

theorem Db.discount_nonneg {d : Db} (hI : PromoInv d) :
    ∀ o r, d.redemptions.get? o = some r → 0 ≤ r.discountAmount := by
  intro o r hr
  obtain ⟨v, -, hfit⟩ := hI.redeemed o r hr
  have hd := hfit.discount
  have h1 := hfit.one_le
  omega

/-! ### What the locks protect -/

/-- What the other sessions may change while the rows `L` are locked. -/
structure PromoRel (L : List RowKey) (d d' : Db) : Prop where
  promotions : d'.promotions = d.promotions
  code : ∀ c, .promotionCode c ∈ L → d'.promotionCodes.get? c = d.promotionCodes.get? c
  texts : ∀ c, (d'.promotionCodes.get? c).map PromotionCode.code =
    (d.promotionCodes.get? c).map PromotionCode.code
  order : ∀ o, .order o ∈ L → d'.orders.get? o = d.orders.get? o
  uses : ∀ p, .promotion p ∈ L → d'.uses p ≤ d.uses p
  usesBy : ∀ p b, .promotion p ∈ L → d'.usesBy p b ≤ d.usesBy p b
  spent : ∀ p, .promotion p ∈ L → d'.spent p ≤ d.spent p

theorem PromoRel.refl (L : List RowKey) (d : Db) : PromoRel L d d :=
  ⟨rfl, fun _ _ => rfl, fun _ => rfl, fun _ _ => rfl, fun _ _ => le_refl _,
    fun _ _ _ => le_refl _, fun _ _ => le_refl _⟩

theorem PromoRel.trans {L : List RowKey} {d₁ d₂ d₃ : Db} (h : PromoRel L d₁ d₂)
    (h' : PromoRel L d₂ d₃) : PromoRel L d₁ d₃ where
  promotions := h'.promotions.trans h.promotions
  code c hc := (h'.code c hc).trans (h.code c hc)
  texts c := (h'.texts c).trans (h.texts c)
  order o ho := (h'.order o ho).trans (h.order o ho)
  uses p hp := (h'.uses p hp).trans (h.uses p hp)
  usesBy p b hp := (h'.usesBy p b hp).trans (h.usesBy p b hp)
  spent p hp := (h'.spent p hp).trans (h.spent p hp)

theorem PromoRel.anti {L L' : List RowKey} {d₁ d₂ : Db} (hL : L ⊆ L') (h : PromoRel L' d₁ d₂) :
    PromoRel L d₁ d₂ :=
  ⟨h.promotions, fun c hc => h.code c (hL hc), h.texts, fun o ho => h.order o (hL ho),
    fun p hp => h.uses p (hL hp), fun p b hp => h.usesBy p b (hL hp),
    fun p hp => h.spent p (hL hp)⟩

/-- The rely of a checkout. -/
def promoRely : Rely Db RowKey := ⟨PromoRel, PromoRel.refl, PromoRel.trans, PromoRel.anti⟩

/-- What one step does to the uses: none is forgotten, and a child code that was redeemed stays
redeemed by the same order. -/
structure KeepsUses (d d' : Db) : Prop where
  promotions : d'.promotions = d.promotions
  redemptions : ∀ o r, d.redemptions.get? o = some r → d'.redemptions.get? o = some r
  child : ∀ c v o, d.promotionCodes.get? c = some v → v.redeemedOrderId = some o →
    d'.promotionCodes.get? c = some v

theorem KeepsUses.refl (d : Db) : KeepsUses d d := ⟨rfl, fun _ _ => id, fun _ _ _ h _ => h⟩

/-- What a commit owes. -/
abbrev promoOwes (c : CheckoutCall) : Unit → (Db → Db) → List RowKey → List Db → Db → Prop :=
  Commits promoRely PromoInv promoMachine (fun _ _ => KeepsUses) c

/-! ### Steps that place no order -/

section NoNewUses

variable {d d' : Db} (h : NoNewUses d d')
include h

theorem NoNewUses.live (o : ℕ) (r : PromotionRedemption) (_ : d.redemptions.get? o = some r)
    (hlive : d'.liveRedemption o) : d.liveRedemption o := by
  rw [liveRedemption_iff] at hlive ⊢
  obtain ⟨s, hs, hne⟩ := hlive
  rcases hv : d.orders.get? o with _ | v
  · have hterms := h.terms o
    rw [hv] at hterms
    rcases hv' : d'.orders.get? o with _ | v'
    · rw [hv'] at hs
      exact absurd hs (by simp)
    · rw [hv'] at hterms
      exact absurd hterms (by simp)
  · refine ⟨v.status, rfl, fun hc => hne ?_⟩
    have hcan := h.cancelled o (by rw [hv, Option.map_some, hc])
    rw [hs] at hcan
    exact Option.some.inj hcan

theorem NoNewUses.uses_le (p : ℕ) : d'.uses p ≤ d.uses p := by
  rw [uses_eq_liveSum, uses_eq_liveSum]
  exact liveSum_le_of_live (fun _ _ _ => Nat.zero_le _) h.redemptions h.live

theorem NoNewUses.usesBy_le (p b : ℕ) : d'.usesBy p b ≤ d.usesBy p b := by
  rw [usesBy_eq_liveSum, usesBy_eq_liveSum]
  exact liveSum_le_of_live (fun _ _ _ => Nat.zero_le _) h.redemptions h.live

theorem NoNewUses.spent_le (hI : PromoInv d) (p : ℕ) : d'.spent p ≤ d.spent p := by
  rw [spent_eq_liveSum, spent_eq_liveSum]
  exact liveSum_le_of_live (Db.discount_nonneg hI) h.redemptions h.live

theorem NoNewUses.inv (hI : PromoInv d) : PromoInv d' where
  limits p promo hp := by
    rw [h.promotions] at hp
    obtain ⟨huses, hby, hspent⟩ := hI.limits p promo hp
    exact ⟨fun l hl => (h.uses_le p).trans (huses l hl),
      fun l hl b => (h.usesBy_le p b).trans (hby l hl b),
      fun l hl => (h.spent_le hI p).trans (hspent l hl)⟩
  redeemed o r hr := by
    rw [h.redemptions] at hr
    obtain ⟨v, hv, hfit⟩ := hI.redeemed o r hr
    have hterms := h.terms o
    rw [hv] at hterms
    rcases hv' : d'.orders.get? o with _ | v'
    · rw [hv'] at hterms
      exact absurd hterms (by simp)
    · rw [hv'] at hterms
      obtain ⟨h1, -, h3, h4⟩ : v'.buyerId = v.buyerId ∧ v'.sellerId = v.sellerId ∧
          v'.totalAmount = v.totalAmount ∧ v'.discountAmount = v.discountAmount := by
        simpa [Order.terms] using hterms
      refine ⟨v', rfl, ⟨h1.trans hfit.buyer, h4.trans hfit.discount, ?_, ?_⟩⟩
      · rw [h4]
        exact hfit.one_le
      · rw [Order.subtotal, h3, h4]
        exact hfit.le_subtotal
  child o r c v hr hc := by
    rw [h.redemptions] at hr
    rw [h.promotionCodes] at hc
    exact hI.child o r c v hr hc
  distinct := by
    unfold Db.CodesDistinct
    rw [h.promotionCodes, h.promotions]
    exact hI.distinct

theorem NoNewUses.keepsUses : KeepsUses d d' where
  promotions := h.promotions
  redemptions o r hr := by rw [h.redemptions, hr]
  child c v o hc _ := by rw [h.promotionCodes, hc]

/-- A step that changes only orders outside `L` is one the holder of `L` may see. -/
theorem NoNewUses.promoRel (hI : PromoInv d) {L : List RowKey}
    (hrows : ∀ o, .order o ∈ L → d'.orders.get? o = d.orders.get? o) : PromoRel L d d' where
  promotions := h.promotions
  code c _ := by rw [h.promotionCodes]
  texts c := by rw [h.promotionCodes]
  order := hrows
  uses p _ := h.uses_le p
  usesBy p b _ := h.usesBy_le p b
  spent p _ := h.spent_le hI p

end NoNewUses

/-- A function about an order that is not cancelled places no order. -/
theorem OrderStep.noNewUses {o : ℕ} {d d' : Db} (h : OrderStep o AnyChange d d')
    (hne : (d.orders.get? o).map Order.status ≠ some .cancelled) : NoNewUses d d' where
  promotions := h.promotions
  promotionCodes := h.promotionCodes
  redemptions := h.redemptions
  terms := h.terms
  cancelled o' ho' := by
    by_cases ho : o' = o
    · exact absurd (ho ▸ ho') hne
    · rw [h.others o' ho, ho']

/-- A part of a transaction about one order. -/
theorem wp_orderStep {o : ℕ} {α : Type} {t : Tx α} (ht : t.Writes (OrderWrite o AnyChange))
    {w : Db → Db} {L : List RowKey} {s : List Db} {d : Db} :
    t.wp promoRely PromoInv (fun _ w' L' _ d' => (∃ g : Db → Db,
      (∀ d, OrderStep o AnyChange d (g d)) ∧ w' = fun d => g (w d)) ∧ L ⊆ L' ∧ PromoRel L d d')
      w L s d := by
  refine Tx.wp_mono (Tx.wp_writes
    (fun d => orderStep_of_eq (fun _ => trivial) rfl rfl rfl rfl rfl)
    (fun h h' => h.trans h' fun _ _ _ _ _ => trivial)
    (ht.mono fun f hf d => hf.step (fun _ => trivial) d)) ?_
  rintro _ w' L' s' d' ⟨g, hg, hw, hL, -, hd⟩
  exact ⟨⟨g, hg, hw⟩, hL, hd⟩

/-- **A function about a locked order that is not cancelled owes nothing more.** -/
theorem wp_owes_of_writes {c : CheckoutCall} {o : ℕ} {t : Tx Unit}
    (ht : t.Writes (OrderWrite o AnyChange)) {L : List RowKey} {s : List Db} {d : Db}
    (ho : .order o ∈ L) (hne : (d.orders.get? o).map Order.status ≠ some .cancelled) :
    t.wp promoRely PromoInv (promoOwes c) id L s d := by
  refine Tx.wp_mono (wp_orderStep ht) ?_
  rintro _ w L' s' d₁ ⟨⟨g, hg, rfl⟩, hL, hd₁⟩ d₂ hd₂ hI _
  have hd : PromoRel L d d₂ := hd₁.trans (PromoRel.anti hL hd₂)
  have hstep : NoNewUses d₂ (g d₂) := by
    refine (hg d₂).noNewUses ?_
    rwa [hd.order o ho]
  refine ⟨hstep.inv hI, hstep.keepsUses, fun L'' hdisj => hstep.promoRel hI fun o' ho' => ?_⟩
  exact (hg d₂).others o' fun he => hdisj _ (hL ho) (he ▸ ho')

/-! ### Checking a code -/

/-- What a code check leaves behind, while its locks are held: room for one more use. -/
structure AppliedPromo.Fits (a : AppliedPromo) (buyerId : ℕ) (subtotal : ℤ) (L : List RowKey)
    (d : Db) : Prop where
  lock : .promotion a.promotionId ∈ L
  room : ∃ promo, d.promotions.get? a.promotionId = some promo ∧
    (∀ limit ∈ promo.usageLimit, d.uses a.promotionId < limit) ∧
    (∀ limit ∈ promo.perBuyerLimit, d.usesBy a.promotionId buyerId < limit) ∧
    ∀ budget ∈ promo.budgetAmount, d.spent a.promotionId + a.discount ≤ budget
  discount : 1 ≤ a.discount ∧ a.discount ≤ subtotal - 1
  child : ∀ c v, d.promotionCodes.get? c = some v → v.code = a.code → a.codeId = some c

theorem AppliedPromo.Fits.stable {a : AppliedPromo} {b : ℕ} {x : ℤ} {L L' : List RowKey}
    {d d' : Db} (h : a.Fits b x L d) (hL : L ⊆ L') (hd : PromoRel L d d') : a.Fits b x L' d' where
  lock := hL h.lock
  room := by
    obtain ⟨promo, hp, huses, hby, hspent⟩ := h.room
    refine ⟨promo, by rw [hd.promotions, hp], fun l hl => (hd.uses _ h.lock).trans_lt (huses l hl),
      fun l hl => (hd.usesBy _ b h.lock).trans_lt (hby l hl), fun l hl => ?_⟩
    exact (add_le_add_left (hd.spent _ h.lock) _).trans (hspent l hl)
  discount := h.discount
  child c v hc hv := by
    have ht := hd.texts c
    rw [hc] at ht
    obtain ⟨u, hu, hcode⟩ : ∃ u, d.promotionCodes.get? c = some u ∧ u.code = v.code := by
      simpa using ht.symm
    exact h.child c u hu (hcode.trans hv)

/-- The campaign `resolveCode` found is there, and the child code is the one with this text. -/
theorem wp_resolveCode {code : String} {L : List RowKey} {s : List Db} {d : Db} :
    (resolveCode code).wp promoRely PromoInv
      (fun found w L' _ d' => w = id ∧ L ⊆ L' ∧ PromoRel L d d' ∧ ∀ p promo child,
        found = some ((p, promo), child) → .promotion p ∈ L' ∧ d'.promotions.get? p = some promo ∧
          ∀ c v, d'.promotionCodes.get? c = some v → v.code = code → child.map Prod.fst = some c)
      id L s d := by
  have hfind : ∀ (d : Db) (r : ℕ × PromotionCode), d.childByCode code = some r →
      d.promotionCodes.get? r.1 = some r.2 ∧ r.2.code = code := by
    intro d r hr
    refine ⟨Table.get?_eq_some_iff.mpr (List.mem_of_find?_eq_some hr), ?_⟩
    simpa using List.find?_some hr
  have hnone : ∀ (d : Db) c v, d.childByCode code = none → d.promotionCodes.get? c = some v →
      v.code ≠ code := by
    intro d c v hn hc
    have hno := List.find?_eq_none.mp hn _ (Table.get?_eq_some_iff.mp hc)
    simpa using hno
  unfold resolveCode
  rw [Tx.wp_bind]
  intro d₁ hd₁ hI₁
  simp only [id]
  rcases hp : d₁.promotionByCode code with _ | ⟨p, promo⟩
  · simp only [Option.toList_none, List.map_nil, List.nil_append, Tx.wp, Tx.wp_bind, Tx.wp_read]
    intro d₂ hd₂ hI₂
    rcases hc : d₂.childByCode code with _ | r
    · simp only [id, hc, Option.map_none, Tx.wp_pure]
      exact ⟨trivial, List.Subset.refl _, PromoRel.trans hd₁ hd₂, fun _ _ _ hf => absurd hf (by simp)⟩
    · simp only [id, hc, Option.map_some, Tx.wp_bind, Tx.wp_lock]
      intro d₃ hd₃ hI₃ d₄ hd₄ hI₄
      simp only [Tx.wp, Tx.wp_pure, id]
      refine ⟨trivial, fun k hk => List.mem_append_right _ (List.mem_cons_of_mem _ hk),
        PromoRel.trans (PromoRel.trans hd₁ hd₂)
          (PromoRel.trans hd₃ (PromoRel.anti (List.subset_cons_self _ _) hd₄)),
        fun q promo child hf => ?_⟩
      rcases hq : d₃.promotions.get? r.2.promotionId with _ | promo'
      · rw [hq] at hf
        exact absurd hf (by simp)
      · rw [hq] at hf
        obtain ⟨⟨rfl, rfl⟩, rfl⟩ : (r.2.promotionId = q ∧ promo' = promo) ∧
            d₄.childByCode code = child := by simpa using hf
        refine ⟨by simp, by rw [hd₄.promotions, hq], fun c v hc' hv => ?_⟩
        rcases hf' : d₄.childByCode code with _ | r'
        · exact absurd hv (hnone d₄ c v hf' hc')
        · obtain ⟨hr', hcode'⟩ := hfind d₄ r' hf'
          have hcr : c = r'.1 := hI₄.distinct.2 c v r'.1 r'.2 hc' hr' (hv.trans hcode'.symm)
          rw [Option.map_some, hcr]
  · simp only [Option.toList_some, List.map_cons, List.map_nil, List.cons_append, List.nil_append]
    refine ⟨rfl, List.subset_cons_self _ _, hd₁, fun q promo' child hf => ?_⟩
    obtain ⟨⟨rfl, rfl⟩, rfl⟩ : (p = q ∧ promo = promo') ∧ none = child := by simpa using hf
    have hmem : d₁.promotions.get? p = some promo :=
      Table.get?_eq_some_iff.mpr (List.mem_of_find?_eq_some hp)
    have hcode : promo.code = code := by simpa using List.find?_some hp
    refine ⟨by simp, hmem, fun c v hc hv => ?_⟩
    exact absurd (hv.trans hcode.symm) (hI₁.distinct.1 c v p promo hc hmem)

/-- A part of a transaction that only reads. -/
theorem wp_reads {α : Type} {t : Tx α} (ht : t.Writes (· = id)) {L : List RowKey} {s : List Db}
    {d : Db} : t.wp promoRely PromoInv (fun _ w L' _ d' => w = id ∧ L ⊆ L' ∧ PromoRel L d d')
      id L s d := by
  refine Tx.wp_mono (Tx.wp_frame (P := (· = id)) rfl (fun f g hf hg => by rw [hf, hg]; rfl) ht) ?_
  rintro _ w L' s' d' ⟨g, rfl, rfl, hL, -, hd⟩
  exact ⟨rfl, hL, hd⟩

/-- **A code that passes leaves room for its use.** -/
theorem wp_applyCode {cfg : Settings} {code : String} {b : ℕ} {x : ℤ} {L : List RowKey}
    {s : List Db} {d : Db} : (applyCode cfg code b x).wp promoRely PromoInv
      (fun a w L' _ d' => w = id ∧ L ⊆ L' ∧ a.Fits b x L' d') id L s d := by
  simp only [applyCode, Tx.wp_bind, Tx.wp_require]
  refine fun _ => Tx.wp_mono wp_resolveCode ?_
  rintro found w L₁ s₁ d₁ ⟨rfl, hL₁, -, hfound⟩
  rw [Tx.wp_getOrElse]
  rintro ⟨⟨p, promo⟩, child⟩ rfl
  obtain ⟨hlock, hpromo, hchild⟩ := hfound p promo child rfl
  refine Tx.wp_mono (wp_reads (writes_checkCampaign cfg promo child b x)) ?_
  rintro _ w L₂ s₂ d₂ ⟨rfl, hL₂, hd₂⟩
  simp only [Tx.wp_read, Db.usage, applyCeilings, Tx.wp_bind, Tx.wp_require, Tx.wp_pure, id]
  intro d₃ hd₃ hI₃ hby huses hbudget hpos
  have hd : PromoRel L₁ d₁ d₃ := hd₂.trans (PromoRel.anti hL₂ hd₃)
  refine ⟨trivial, List.Subset.trans hL₁ hL₂, hL₂ hlock, ⟨promo, by rw [hd.promotions, hpromo], huses, hby, ?_⟩,
    ⟨Order.one_le_iff_pos.mpr hpos, ?_⟩, fun c v hc hv => ?_⟩
  · intro budget hb
    have hbud := hbudget budget hb
    rw [Option.mem_def] at hb
    simp only [hb] at hpos ⊢
    omega
  · have hle := @discountFor_le promo.discountType promo.discountValue promo.maxDiscountAmount x
    rcases hb : promo.budgetAmount with _ | budget
    · simp only [hb] at hpos ⊢
      exact hle hpos
    · simp only [hb] at hpos ⊢
      have := hle (by omega)
      omega
  · have ht := hd.texts c
    rw [hc] at ht
    obtain ⟨u, hu, hcode⟩ : ∃ u, d₁.promotionCodes.get? c = some u ∧ u.code = v.code := by
      simpa using ht.symm
    exact hchild c u hu (hcode.trans hv)

/-! ### Placing the order -/

/-- The use `recordRedemption` records. -/
def AppliedPromo.redemption (a : AppliedPromo) (buyerId : ℕ) : PromotionRedemption where
  promotionId := a.promotionId
  buyerId := buyerId
  discountAmount := a.discount
  code := a.code
  affiliateAccountId := a.affiliateAccountId

/-- The codes after a use was recorded. -/
def redeemedCodes (d : Db) (o : ℕ) (use : Option AppliedPromo) : Table ℕ PromotionCode :=
  match use.bind AppliedPromo.codeId with
  | some c => d.promotionCodes.modify c fun v => { v with redeemedOrderId := some o }
  | none => d.promotionCodes

/-- The uses after it was recorded. -/
def redeemedUses (d : Db) (o buyerId : ℕ) : Option AppliedPromo → Table ℕ PromotionRedemption
  | some a => d.redemptions.insert o (a.redemption buyerId)
  | none => d.redemptions

/-- What a checkout makes of the database: the order is there, and a use where one is
recorded. -/
structure Placed (o : ℕ) (v : Order) (use : Option AppliedPromo) (d d' : Db) : Prop where
  promotions : d'.promotions = d.promotions
  promotionCodes : d'.promotionCodes = redeemedCodes d o use
  redemptions : d'.redemptions = redeemedUses d o v.buyerId use
  others : ∀ o', o' ≠ o → d'.orders.get? o' = d.orders.get? o'
  own : d.orders.get? o = none → ∃ v', d'.orders.get? o = some v' ∧ v'.terms = v.terms

theorem Placed.then {o : ℕ} {v : Order} {use : Option AppliedPromo} {d d' d'' : Db}
    (h : Placed o v use d d') (h' : OrderStep o AnyChange d' d'') : Placed o v use d d'' where
  promotions := h'.promotions.trans h.promotions
  promotionCodes := h'.promotionCodes.trans h.promotionCodes
  redemptions := h'.redemptions.trans h.redemptions
  others o' ho := (h'.others o' ho).trans (h.others o' ho)
  own hn := by
    obtain ⟨v₁, hv₁, ht₁⟩ := h.own hn
    obtain ⟨v₂, hv₂, ht₂, -⟩ := h'.row v₁ hv₁
    exact ⟨v₂, hv₂, ht₂.trans ht₁⟩

/-- A checkout under way: the order is placed, and the promotion `promo` is applied to it, of which
`use` is recorded so far. -/
structure Checkout (o : ℕ) (v : Order) (promo use : Option AppliedPromo) (w : Db → Db)
    (L : List RowKey) (d : Db) : Prop where
  effect : ∀ d, Placed o v use d (w d)
  lock : .order o ∈ L
  fresh : d.orders.get? o = none
  applied : ∀ a ∈ promo, a.Fits v.buyerId v.subtotal L d ∧ v.discountAmount = a.discount
  child : ∀ c, use.bind AppliedPromo.codeId = some c → .promotionCode c ∈ L ∧
    ∃ u, d.promotionCodes.get? c = some u ∧ u.redeemedOrderId = none

section Checkout

variable {o : ℕ} {v : Order} {promo use : Option AppliedPromo} {w : Db → Db}
  {L L' : List RowKey} {s : List Db} {d d' : Db}

theorem Checkout.stable (h : Checkout o v promo use w L d) (hL : L ⊆ L') (hd : PromoRel L d d') :
    Checkout o v promo use w L' d' where
  effect := h.effect
  lock := hL h.lock
  fresh := by
    rw [hd.order o h.lock, h.fresh]
  applied a ha := ⟨(h.applied a ha).1.stable hL hd, (h.applied a ha).2⟩
  child c hc := by
    obtain ⟨hlock, u, hu, hn⟩ := h.child c hc
    exact ⟨hL hlock, u, by rw [hd.code c hlock, hu], hn⟩

/-- A function about the order keeps the checkout going. -/
theorem Checkout.frame (h : Checkout o v promo use w L d) {α : Type} {t : Tx α}
    (ht : t.Writes (OrderWrite o AnyChange)) :
    t.wp promoRely PromoInv (fun _ w L _ d => Checkout o v promo use w L d) w L s d := by
  refine Tx.wp_mono (wp_orderStep ht) ?_
  rintro _ w' L' s' d' ⟨⟨g, hg, rfl⟩, hL, hd⟩
  have h' := h.stable hL hd
  exact ⟨fun d => (h.effect d).then (hg (w d)), h'.lock, h'.fresh, h'.applied, h'.child⟩

/-- The row of the order starts a checkout. -/
theorem wp_addOrder (ha : ∀ a ∈ promo, a.Fits v.buyerId v.subtotal L d ∧
    v.discountAmount = a.discount) : (addOrder o v).wp promoRely PromoInv
      (fun _ w L _ d => Checkout o v promo none w L d) id L s d := by
  rw [addOrder, wp_insertRow]
  intro d' hd' _ hfresh
  exact ⟨fun d => ⟨rfl, rfl, rfl, fun o' ho => Table.get?_insert_of_ne ho v,
      fun hn => ⟨v, Table.get?_insert_self hn v, rfl⟩⟩, by simp, hfresh,
    fun a hm => ⟨(ha a hm).1.stable (List.subset_cons_self _ _) hd', (ha a hm).2⟩, by simp⟩

/-- Recording the use. -/
theorem wp_recordRedemption {a : AppliedPromo} {cfg : Settings}
    (h : Checkout o v (some a) none w L d) :
    (recordRedemption cfg a o v.buyerId).wp promoRely PromoInv
      (fun _ w L _ d => Checkout o v (some a) (some a) w L d) w L s d := by
  have hcodes : ∀ d, (w d).promotionCodes = d.promotionCodes := fun d => (h.effect d).promotionCodes
  have hplaced : ∀ {w' : Db → Db}, (∀ d, (w' d).promotionCodes = redeemedCodes d o (some a) ∧
      (w' d).promotions = (w d).promotions ∧ (w' d).redemptions = (w d).redemptions ∧
      (w' d).orders = (w d).orders) → ∀ d, Placed o v (some a) d
        ((w' d).insertRedemption o (a.redemption v.buyerId)) := by
    intro w' hw' d
    obtain ⟨h1, h2, h3, h4⟩ := hw' d
    have he := h.effect d
    refine ⟨h2.trans he.promotions, h1, ?_, fun o' ho => ?_, fun hn => ?_⟩
    · rw [Db.insertRedemption_redemptions, h3, he.redemptions]
      rfl
    · rw [Db.insertRedemption_orders, h4, he.others o' ho]
    · rw [Db.insertRedemption_orders, h4]
      exact he.own hn
  have hattr : ∀ (w : Db → Db) (L : List RowKey) (s : List Db) (d : Db),
      Checkout o v (some a) (some a) w L d →
      (match a.affiliateAccountId with
        | some affiliateId => attributeViaPromotion cfg v.buyerId affiliateId
        | none => pure () : Tx Unit).wp promoRely PromoInv
          (fun _ w L _ d => Checkout o v (some a) (some a) w L d) w L s d := by
    intro w L s d hc
    rcases a.affiliateAccountId with _ | affiliateId
    · exact hc
    · exact hc.frame (writes_attributeViaPromotion cfg o v.buyerId affiliateId)
  rw [recordRedemption]
  rcases hc : a.codeId with _ | c
  · simp only [addRedemption, Tx.wp_bind, Tx.wp_read, Tx.wp_require, Tx.wp_modify]
    intro d₁ hd₁ hI₁ _
    have h₁ := h.stable (List.Subset.refl L) hd₁
    refine hattr _ _ _ _ ⟨hplaced fun d => ⟨?_, rfl, rfl, rfl⟩, h₁.lock, h₁.fresh, h₁.applied, ?_⟩
    · rw [hcodes d, redeemedCodes, Option.bind_some, hc]
    · simp [hc]
  · simp only [redeemChild, addRedemption, Tx.wp_bind, Tx.wp_lock, Tx.wp_read, Tx.wp_require,
      Tx.wp_modify, hcodes]
    rintro d₁ hd₁ hI₁ ⟨u, hu, hn⟩ d₂ hd₂ hI₂ _
    have h₁ := (h.stable (List.Subset.refl L) hd₁).stable
      (List.subset_cons_self (.promotionCode c) L) (PromoRel.anti (List.subset_cons_self _ _) hd₂)
    refine hattr _ _ _ _ ⟨hplaced fun d => ⟨?_, rfl, rfl, rfl⟩, h₁.lock, h₁.fresh, h₁.applied,
      fun c' hc' => ?_⟩
    · rw [Db.modifyPromotionCode_promotionCodes, hcodes d, redeemedCodes, Option.bind_some, hc]
    · obtain rfl : c = c' := by simpa [hc] using hc'
      exact ⟨by simp, u, by rw [hd₂.code c (by simp), hu], hn⟩

/-- Charging the order. -/
theorem wp_chargeOrder {cfg : Settings} {x : ℤ} (h : Checkout o v promo none w L d) :
    (chargeOrder cfg o v.buyerId x promo).wp promoRely PromoInv
      (fun _ w L _ d => Checkout o v promo promo w L d) w L s d := by
  unfold chargeOrder
  rw [Tx.wp_bind]
  refine Tx.wp_mono (h.frame ((writes_deductCredit cfg _ x o "").mono fun _ => .wallet o)) ?_
  intro _ w' L' s' d' h'
  rcases promo with _ | a
  · exact h'
  · exact wp_recordRedemption h'

/-! ### Committing it -/

section Placed

variable (h : Placed o v use d d') (hfresh : d.redemptions.get? o = none)

include h hfresh in
theorem Placed.live (o' : ℕ) (r : PromotionRedemption) (hr : d.redemptions.get? o' = some r) :
    d'.liveRedemption o' ↔ d.liveRedemption o' := by
  have ho : o' ≠ o := by
    rintro rfl
    rw [hfresh] at hr
    exact absurd hr (by simp)
  rw [liveRedemption_iff, liveRedemption_iff, h.others o' ho]

include h hfresh in
/-- A sum over live uses grows by the share of the use recorded. -/
theorem Placed.liveSum_le {M : Type} [AddCommMonoid M] [PartialOrder M] [IsOrderedAddMonoid M]
    (P : PromotionRedemption → Prop) [DecidablePred P] {g : PromotionRedemption → M}
    (hg : ∀ o r, d.redemptions.get? o = some r → 0 ≤ g r)
    (hu : ∀ a ∈ use, 0 ≤ g (a.redemption v.buyerId)) :
    d'.liveSum P g ≤ d.liveSum P g + use.elim 0 fun a =>
      if P (a.redemption v.buyerId) then g (a.redemption v.buyerId) else 0 := by
  rcases use with _ | a
  · rw [Option.elim_none, add_zero]
    exact liveSum_le_of_live hg h.redemptions fun o' r hr => (h.live hfresh o' r hr).mp
  · exact liveSum_insert_le (hu a rfl) hfresh h.redemptions (h.live hfresh)

include h in
theorem Placed.texts (c : ℕ) : (d'.promotionCodes.get? c).map PromotionCode.code =
    (d.promotionCodes.get? c).map PromotionCode.code := by
  rw [h.promotionCodes, redeemedCodes]
  rcases use.bind AppliedPromo.codeId with _ | c₀
  · rfl
  · simp only [Table.get?_modify]
    split_ifs
    · rw [Option.map_map]
      rfl
    · rfl

end Placed

/-- A use on record fits every row with the terms of its order. -/
theorem PromotionRedemption.Fits.of_terms {r : PromotionRedemption} {v v' : Order} (h : r.Fits v)
    (ht : v'.terms = v.terms) : r.Fits v' := by
  obtain ⟨h1, -, h3, h4⟩ : v'.buyerId = v.buyerId ∧ v'.sellerId = v.sellerId ∧
      v'.totalAmount = v.totalAmount ∧ v'.discountAmount = v.discountAmount := by
    simpa [Order.terms] using ht
  refine ⟨h1.trans h.buyer, h4.trans h.discount, ?_, ?_⟩
  · rw [h4]
    exact h.one_le
  · rw [Order.subtotal, h3, h4]
    exact h.le_subtotal

section Commit

variable (h : Checkout o v promo promo w L d) (hI : PromoInv d)
include h hI

/-- Nobody has used a code for an order that is not there. -/
theorem Checkout.unused : d.redemptions.get? o = none := by
  rcases hr : d.redemptions.get? o with _ | r
  · rfl
  · obtain ⟨u, hu, -⟩ := hI.redeemed o r hr
    rw [h.fresh] at hu
    exact absurd hu (by simp)

theorem Checkout.uses_le (p : ℕ) : (w d).uses p ≤ d.uses p +
    promo.elim 0 fun a => if a.promotionId = p then 1 else 0 :=
  (h.effect d).liveSum_le (h.unused hI) (·.promotionId = p) (g := fun _ => (1 : ℕ))
    (fun _ _ _ => Nat.zero_le _) fun _ _ => Nat.zero_le _

theorem Checkout.usesBy_le (p b : ℕ) : (w d).usesBy p b ≤ d.usesBy p b +
    promo.elim 0 fun a => if a.promotionId = p ∧ v.buyerId = b then 1 else 0 := by
  rw [usesBy_eq_liveSum, usesBy_eq_liveSum]
  exact (h.effect d).liveSum_le (h.unused hI) (fun r => r.promotionId = p ∧ r.buyerId = b)
    (g := fun _ => (1 : ℕ)) (fun _ _ _ => Nat.zero_le _) fun _ _ => Nat.zero_le _

theorem Checkout.spent_le (p : ℕ) : (w d).spent p ≤ d.spent p +
    promo.elim 0 fun a => if a.promotionId = p then a.discount else 0 := by
  refine (h.effect d).liveSum_le (h.unused hI) (·.promotionId = p) (Db.discount_nonneg hI)
    fun a ha => ?_
  have hpos := (h.applied a ha).1.discount.1
  change 0 ≤ a.discount
  omega

theorem Checkout.limits (p : ℕ) (u : Promotion) (hp : (w d).promotions.get? p = some u) :
    u.WithinLimits (w d) p := by
  rw [(h.effect d).promotions] at hp
  obtain ⟨hl1, hl2, hl3⟩ := hI.limits p u hp
  have h1 := h.uses_le hI p
  have h2 := h.usesBy_le hI p
  have h3 := h.spent_le hI p
  rcases promo with _ | a
  · simp only [Option.elim_none, add_zero] at h1 h2 h3
    exact ⟨fun l hl => h1.trans (hl1 l hl), fun l hl b => (h2 b).trans (hl2 l hl b),
      fun l hl => h3.trans (hl3 l hl)⟩
  obtain ⟨u', hu', hr1, hr2, hr3⟩ := (h.applied a rfl).1.room
  simp only [Option.elim_some] at h1 h2 h3
  by_cases hap : a.promotionId = p
  · subst hap
    obtain rfl : u = u' := by simpa [hp] using hu'
    simp only [if_true, true_and] at h1 h2 h3
    refine ⟨fun l hl => h1.trans (hr1 l hl), fun l hl b => (h2 b).trans ?_,
      fun l hl => h3.trans (hr3 l hl)⟩
    split_ifs with hb
    · exact hb ▸ hr2 l hl
    · exact hl2 l hl b
  · simp only [hap, if_false, false_and, add_zero] at h1 h2 h3
    exact ⟨fun l hl => h1.trans (hl1 l hl), fun l hl b => (h2 b).trans (hl2 l hl b),
      fun l hl => h3.trans (hl3 l hl)⟩

theorem Checkout.redeemed (o' : ℕ) (r : PromotionRedemption)
    (hr : (w d).redemptions.get? o' = some r) :
    ∃ u, (w d).orders.get? o' = some u ∧ r.Fits u := by
  have he := h.effect d
  rw [he.redemptions] at hr
  have hold : ∀ r, d.redemptions.get? o' = some r → ∃ u, (w d).orders.get? o' = some u ∧
      r.Fits u := by
    intro r hr'
    obtain ⟨u, hu, hfit⟩ := hI.redeemed o' r hr'
    have ho : o' ≠ o := by
      rintro rfl
      rw [h.unused hI] at hr'
      exact absurd hr' (by simp)
    exact ⟨u, (he.others o' ho).trans hu, hfit⟩
  rcases promo with _ | a
  · exact hold r hr
  · rw [redeemedUses, Table.get?_insert (h.unused hI)] at hr
    split_ifs at hr with ho
    · obtain rfl : a.redemption v.buyerId = r := by simpa using hr
      obtain ⟨v', hv', ht⟩ := he.own h.fresh
      obtain ⟨hfit, hdis⟩ := h.applied a rfl
      have hrow : (a.redemption v.buyerId).Fits v := by
        refine ⟨rfl, hdis, ?_, ?_⟩
        · rw [hdis]
          exact hfit.discount.1
        · rw [hdis]
          exact hfit.discount.2
      exact ⟨v', ho ▸ hv', hrow.of_terms ht⟩
    · exact hold r hr

omit hI in
/-- The child codes after the commit: the one redeemed was free before. -/
theorem Checkout.codes (c : ℕ) (u : PromotionCode)
    (hc : (w d).promotionCodes.get? c = some u) :
    d.promotionCodes.get? c = some u ∧ promo.bind AppliedPromo.codeId ≠ some c ∨
      ∃ u₀, promo.bind AppliedPromo.codeId = some c ∧ d.promotionCodes.get? c = some u₀ ∧
        u₀.redeemedOrderId = none ∧ u = { u₀ with redeemedOrderId := some o } := by
  rw [(h.effect d).promotionCodes, redeemedCodes] at hc
  rcases hb : promo.bind AppliedPromo.codeId with _ | c₀
  · rw [hb] at hc
    exact Or.inl ⟨hc, by simp⟩
  · simp only [hb, Table.get?_modify] at hc
    by_cases hcc : c = c₀
    · subst hcc
      obtain ⟨-, u₀, hu₀, hn⟩ := h.child c hb
      rw [if_pos rfl, hu₀, Option.map_some, Option.some.injEq] at hc
      exact Or.inr ⟨u₀, rfl, hu₀, hn, hc.symm⟩
    · rw [if_neg hcc] at hc
      exact Or.inl ⟨hc, fun he => hcc (Option.some.inj he).symm⟩

theorem Checkout.children (o' : ℕ) (r : PromotionRedemption) (c : ℕ) (u : PromotionCode)
    (hr : (w d).redemptions.get? o' = some r) (hc : (w d).promotionCodes.get? c = some u)
    (hcode : u.code = r.code) : u.redeemedOrderId = some o' := by
  rw [(h.effect d).redemptions] at hr
  have hold : d.redemptions.get? o' = some r → u.redeemedOrderId = some o' := by
    intro hr
    rcases h.codes c u hc with ⟨hc', -⟩ | ⟨u₀, -, hu₀, hn, rfl⟩
    · exact hI.child o' r c u hr hc' hcode
    · have hredeemed := hI.child o' r c u₀ hr hu₀ hcode
      rw [hn] at hredeemed
      exact absurd hredeemed (by simp)
  rcases promo with _ | a
  · exact hold hr
  · rw [redeemedUses, Table.get?_insert (h.unused hI)] at hr
    split_ifs at hr with ho
    · obtain rfl : a.redemption v.buyerId = r := by simpa using hr
      rcases h.codes c u hc with ⟨hc', hne⟩ | ⟨u₀, -, hu₀, hn, rfl⟩
      · exact absurd ((h.applied a rfl).1.child c u hc' hcode) hne
      · rw [ho]
    · exact hold hr

theorem Checkout.inv : PromoInv (w d) where
  limits := h.limits hI
  redeemed := h.redeemed hI
  child := h.children hI
  distinct := by
    have he := h.effect d
    have htext : ∀ c u, (w d).promotionCodes.get? c = some u →
        ∃ u₀, d.promotionCodes.get? c = some u₀ ∧ u₀.code = u.code := by
      intro c u hc
      have ht := he.texts c
      rw [hc] at ht
      simpa using ht.symm
    refine ⟨fun c u p q hc hp => ?_, fun c u c' u' hc hc' hcode => ?_⟩
    · obtain ⟨u₀, hu₀, hcode⟩ := htext c u hc
      rw [he.promotions] at hp
      rw [← hcode]
      exact hI.distinct.1 c u₀ p q hu₀ hp
    · obtain ⟨u₀, hu₀, h₀⟩ := htext c u hc
      obtain ⟨u₁, hu₁, h₁⟩ := htext c' u' hc'
      exact hI.distinct.2 c u₀ c' u₁ hu₀ hu₁ (h₀.trans (hcode.trans h₁.symm))

theorem Checkout.keepsUses : KeepsUses d (w d) where
  promotions := (h.effect d).promotions
  redemptions o' r hr := by
    rw [(h.effect d).redemptions]
    rcases promo with _ | a
    · exact hr
    · have ho : o' ≠ o := by
        rintro rfl
        rw [h.unused hI] at hr
        exact absurd hr (by simp)
      exact (Table.get?_insert_of_ne ho _).trans hr
  child c u o' hc hu := by
    have ht := (h.effect d).texts c
    rw [hc] at ht
    obtain ⟨u', hu', -⟩ : ∃ u', (w d).promotionCodes.get? c = some u' ∧ u'.code = u.code := by
      simpa using ht
    rcases h.codes c u' hu' with ⟨hc', -⟩ | ⟨u₀, -, hu₀, hn, -⟩
    · rw [hu', ← hc', hc]
    · obtain rfl : u = u₀ := by simpa [hc] using hu₀
      rw [hn] at hu
      exact absurd hu (by simp)

/-- Whoever holds other rows sees nothing of the checkout. -/
theorem Checkout.promoRel {L' : List RowKey} (hdisj : LocksDisjoint L L') :
    PromoRel L' d (w d) := by
  have he := h.effect d
  have hne : ∀ a ∈ promo, ∀ p, .promotion p ∈ L' → a.promotionId ≠ p := fun a ha p hp hap =>
    hdisj _ (h.applied a ha).1.lock (hap ▸ hp)
  refine ⟨he.promotions, fun c hc => ?_, he.texts, fun o' ho' => ?_, fun p hp => ?_,
    fun p b hp => ?_, fun p hp => ?_⟩
  · rw [he.promotionCodes, redeemedCodes]
    rcases hb : promo.bind AppliedPromo.codeId with _ | c₀
    · rfl
    · have hcc : c ≠ c₀ := fun he' => hdisj _ (h.child c₀ hb).1 (he' ▸ hc)
      exact Table.get?_modify_of_ne _ hcc _
  · have ho : o' ≠ o := fun hoo => hdisj _ h.lock (hoo ▸ ho')
    exact he.others o' ho
  · refine (h.uses_le hI p).trans ?_
    rcases promo with _ | a
    · simp
    · simp [hne a rfl p hp]
  · refine (h.usesBy_le hI p b).trans ?_
    rcases promo with _ | a
    · simp
    · simp [hne a rfl p hp]
  · refine (h.spent_le hI p).trans ?_
    rcases promo with _ | a
    · simp
    · simp [hne a rfl p hp]

end Commit

/-- **A checkout owes nothing more than that its use is recorded.** -/
theorem Checkout.owes (h : Checkout o v promo promo w L d) (c : CheckoutCall) :
    promoOwes c () w L s d := by
  intro d' hd' hI _
  have h' := h.stable (List.Subset.refl L) hd'
  exact ⟨h'.inv hI, h'.keepsUses hI, fun L' => h'.promoRel hI⟩

end Checkout

/-! ### Every transaction -/

theorem newOrder_subtotal (cfg : Settings) (b seller : ℕ) (variantId productId : Option ℕ)
    (q : ℕ) (x : ℤ) (promo : Option AppliedPromo) (status : OrderStatus) :
    (newOrder cfg b seller variantId productId q x promo status).subtotal = x := by
  simp [Order.subtotal, newOrder]

/-- What `applyPromo` found fits the order made from it. -/
theorem wp_applyPromo {cfg : Settings} {code : Option String} {b : ℕ} {x : ℤ} {L : List RowKey}
    {s : List Db} {d : Db} (seller q : ℕ) (variantId productId : Option ℕ) (status : OrderStatus) :
    (applyPromo cfg code b x).wp promoRely PromoInv (fun promo w L' _ d' => w = id ∧
      let v := newOrder cfg b seller variantId productId q x promo status
      ∀ a ∈ promo, a.Fits v.buyerId v.subtotal L' d' ∧ v.discountAmount = a.discount) id L s d := by
  rcases code with _ | code
  · exact ⟨rfl, fun a ha => absurd ha (by simp)⟩
  · unfold applyPromo
    rw [Tx.wp_bind]
    refine Tx.wp_mono wp_applyCode ?_
    rintro a w L' s' d' ⟨rfl, -, hfit⟩
    refine ⟨rfl, fun a' ha' => ?_⟩
    obtain rfl : a = a' := by simpa using ha'
    rw [newOrder_subtotal]
    exact ⟨hfit, by simp [newOrder, discountOf]⟩

theorem createOrder_counted (cfg : Settings) (skipped : List ℕ) (o : ℕ) (p : Purchase) (d : Db)
    (c : CheckoutCall) : (createOrder cfg skipped o p).wp promoRely PromoInv (promoOwes c) id [] []
      d := by
  rw [createOrder, Tx.wp_bind]
  refine Tx.wp_mono (wp_reads (writes_variantForPurchase p)) ?_
  rintro ⟨variant, product⟩ w L s d₁ ⟨rfl, -, -⟩
  simp only [Tx.wp_bind, Tx.wp_ite]
  refine Tx.wp_mono (Tx.wp_and
    (wp_applyPromo product.sellerId p.quantity (some p.variantId) (some variant.productId)
      .delivered)
    (wp_applyPromo product.sellerId p.quantity (some p.variantId) (some variant.productId)
      .pending)) ?_
  rintro promo w L₂ s₂ d₂ ⟨⟨rfl, hinstant⟩, -, hmanual⟩
  refine ⟨fun _ => ?_, fun _ => ?_⟩
  · simp only [createInstantOrder, Tx.wp_bind]
    refine Tx.wp_mono (wp_addOrder hinstant) fun _ w L s d h => ?_
    refine Tx.wp_mono (wp_chargeOrder h) fun _ w L s d h => ?_
    refine Tx.wp_mono (h.frame (writes_claimResources cfg o skipped _ _ _)) fun ids w L s d h => ?_
    exact Tx.wp_mono (h.frame (writes_setCaps o ids _)) fun _ w L s d h => h.owes c
  · simp only [createManualOrder, Tx.wp_bind]
    refine Tx.wp_mono (wp_addOrder hmanual) fun _ w L s d h => ?_
    refine Tx.wp_mono (h.frame (writes_takeManualStock o (fun _ _ => trivial) _ _ _)) fun _ w L s d h => ?_
    exact Tx.wp_mono (wp_chargeOrder h) fun _ w L s d h => h.owes c

theorem createOrderWithAdapter_counted (cfg : Settings) (o : ℕ) (p : AdapterPurchase) (d : Db)
    (c : CheckoutCall) : (createOrderWithAdapter cfg o p).wp promoRely PromoInv (promoOwes c) id []
      [] d := by
  rw [createOrderWithAdapter, Tx.wp_bind]
  refine Tx.wp_mono (wp_reads (writes_productForPurchase p)) ?_
  rintro product w L s d₁ ⟨rfl, -, -⟩
  simp only [Tx.wp_bind]
  refine Tx.wp_mono (wp_applyPromo product.sellerId p.quoteQuantity p.variantId
    (some p.productId) .pending) ?_
  rintro promo w L₂ s₂ d₂ ⟨rfl, hfit⟩
  refine Tx.wp_mono (wp_addOrder hfit) fun _ w L s d h => ?_
  refine Tx.wp_mono (wp_chargeOrder h) fun _ w L s d h => ?_
  exact Tx.wp_mono (h.frame (writes_provisionNewOrder cfg o _ p)) fun _ w L s d h => h.owes c

/-- The rows a call of `other` named are locked when it changes them. -/
theorem wp_lockOrders {orders : List ℕ} {L : List RowKey} {s : List Db} {d : Db} :
    (Tx.forEach orders fun o => do
      let _ ← lockOrder o
      pure () : Tx Unit).wp promoRely PromoInv
      (fun _ w L' _ _ => w = id ∧ L ⊆ L' ∧ ∀ o ∈ orders, .order o ∈ L') id L s d := by
  induction orders generalizing L s d with
  | nil => exact ⟨rfl, List.Subset.refl L, fun o ho => absurd ho (by simp)⟩
  | cons o orders ih =>
    intro d' hd' hI
    refine Tx.wp_mono ih ?_
    rintro _ w L' s' d'' ⟨rfl, hL, ho⟩
    refine ⟨rfl, fun k hk => hL (List.mem_cons_of_mem _ hk), fun o' ho' => ?_⟩
    rcases List.mem_cons.mp ho' with rfl | ho'
    · exact hL (List.mem_cons_self)
    · exact ho o' ho'

/-- **Every transaction keeps the ceilings.** -/
theorem promoMachine_correct :
    promoMachine.Correct promoRely PromoInv fun _ _ => KeepsUses := by
  intro c d hd
  cases c with
  | createOrder cfg skipped o p => exact createOrder_counted cfg skipped o p d _
  | createOrderWithAdapter cfg o p => exact createOrderWithAdapter_counted cfg o p d _
  | provisionPendingOrder cfg o provision providerId =>
    simp only [promoMachine, CheckoutCall.code, provisionPendingOrder, lockOrder, Tx.wp_bind,
      Tx.wp_lock, Tx.wp_getOrElse, Tx.wp_require, id]
    intro d₁ _ _ v hv hs
    rw [← Tx.wp_bind]
    refine wp_owes_of_writes (o := o) (.bind (writes_provision cfg o v provision) fun result =>
      writes_applyProvisionResult cfg o v providerId result) List.mem_cons_self ?_
    simp [hv, hs]
  | slaCheck cfg o =>
    change (slaCheck cfg o).wp promoRely PromoInv _ id [] [] d
    rw [slaCheck, Tx.wp_bind, wp_lockDueOrder]
    intro d₁ _ _ v hv hdue
    simp only [Bool.and_eq_true, decide_eq_true_eq] at hdue
    refine wp_owes_of_writes (o := o) (.bind (writes_refund cfg o (fun _ _ _ => trivial) _ _ _) fun _ =>
      .bind (writes_releaseManualStock o (fun _ _ => trivial) v) fun _ => writes_cancelOrder cfg o _)
      List.mem_cons_self ?_
    rw [show d₁.orders.get? o = some v from hv, Option.map_some, hdue.1]
    simp
  | provisionSweep cfg o catalog =>
    change (provisionSweep cfg o catalog).wp promoRely PromoInv _ id [] [] d
    rw [provisionSweep, Tx.wp_bind, wp_lockDueOrder]
    intro d₁ _ _ v hv hdue
    simp only [Bool.and_eq_true, decide_eq_true_eq] at hdue
    refine wp_owes_of_writes (o := o) (.bind (writes_refund cfg o (fun _ _ _ => trivial) _ _ _) fun _ =>
      writes_cancelOrder cfg o _) List.mem_cons_self ?_
    rw [show d₁.orders.get? o = some v from hv, Option.map_some, hdue.1.1.1]
    simp
  | refundOrder cfg o message =>
    change (refundOrder cfg o message).wp promoRely PromoInv _ id [] [] d
    unfold refundOrder
    generalize message.map (fun m => m.trimAscii.toString) = text
    rw [Tx.wp_bind, wp_lockOrderRow]
    intro d₁ _ _ v hv
    rw [Tx.wp_bind, Tx.wp_require]
    intro hs
    refine wp_owes_of_writes (o := o) ?_ List.mem_cons_self ?_
    · exact .bind (writes_requireNoOpenDispute o) fun _ => .bind (Tx.writes_require _ _) fun _ =>
        .bind (writes_refund cfg o (fun _ _ _ => trivial) _ _ _) fun _ => .bind (writes_setOrderStatus cfg o _) fun _ =>
        .bind (Tx.writes_when (writes_releaseManualStock o (fun _ _ => trivial) v)) fun _ =>
        .bind (writes_order o (fun _ => rfl) fun _ => trivial) fun _ => writes_clawbackPrograms cfg o
    · rw [show d₁.orders.get? o = some v from hv, Option.map_some]
      rcases hs with hs | hs | hs <;> simp [hs]
  | other orders f =>
    simp only [promoMachine, CheckoutCall.code, Tx.wp_bind]
    refine Tx.wp_mono wp_lockOrders ?_
    rintro _ w L s d₁ ⟨rfl, -, hlocks⟩ d₂ hd₂ hI ⟨hstep, hrows⟩
    refine ⟨hstep.inv hI, hstep.keepsUses, fun L' hdisj => hstep.promoRel hI fun o ho => ?_⟩
    have hno : o ∉ orders := fun hm => hdisj _ (hlocks o hm) ho
    exact hrows o hno

/-! ### Campaigns, from the first use on -/

/-- Campaigns nobody has used yet. -/
structure NoUses (d : Db) : Prop where
  redemptions : d.redemptions = .empty
  distinct : d.CodesDistinct
  budget : ∀ p promo, d.promotions.get? p = some promo → ∀ b ∈ promo.budgetAmount, 0 ≤ b

theorem NoUses.inv {d : Db} (h : NoUses d) : PromoInv d where
  limits p promo hp := by
    have hsum : ∀ {M : Type} [AddCommMonoid M] (f : ℕ → PromotionRedemption → M),
        d.redemptions.sum f = 0 := fun f => by rw [h.redemptions, Table.sum_empty]
    refine ⟨fun l _ => ?_, fun l _ b => ?_, fun l hl => ?_⟩
    · rw [Db.uses, hsum]
      exact Nat.zero_le l
    · rw [Db.usesBy, hsum]
      exact Nat.zero_le l
    · rw [Db.spent, hsum]
      exact h.budget p promo hp l hl
  redeemed o r hr := by
    rw [h.redemptions] at hr
    exact absurd hr (by simp)
  child o r c v hr _ _ := by
    rw [h.redemptions] at hr
    exact absurd hr (by simp)
  distinct := h.distinct

theorem promoMachine_inv {d : Db} (hd : NoUses d) {C : Config Db RowKey Abort Unit CheckoutCall ℕ}
    (h : Reachable promoMachine d C) : PromoInv C.db :=
  (promoMachine_correct.reachable hd.inv h).inv

theorem promoMachine_keeps {d : Db} (hd : NoUses d)
    {C C' : Config Db RowKey Abort Unit CheckoutCall ℕ} {l : Option (CheckoutCall × Unit)}
    (h : Reachable promoMachine d C) (hstep : Step promoMachine C l C') :
    KeepsUses C.db C'.db := by
  rcases l with _ | ⟨c, a⟩
  · rw [hstep.db_eq]
    exact KeepsUses.refl _
  · exact promoMachine_correct.commit hd.inv h hstep

/-- **Campaign ceilings hold under concurrent checkouts.** In every committed state the live uses of
a campaign are within its limits, in number, per buyer and in money; no child code was used by two
orders, and no step forgets a use; a redeemed order was discounted by at least 1 đ
and still costs at least 1 đ. -/
theorem promo_ceilings_hold {d : Db} (hd : NoUses d)
    {C : Config Db RowKey Abort Unit CheckoutCall ℕ} (h : Reachable promoMachine d C) :
    (∀ p promo, C.db.promotions.get? p = some promo → promo.WithinLimits C.db p) ∧
    (∀ c v o r o' r', C.db.promotionCodes.get? c = some v →
      C.db.redemptions.get? o = some r → C.db.redemptions.get? o' = some r' →
      r.code = v.code → r'.code = v.code → o = o') ∧
    (∀ o r, C.db.redemptions.get? o = some r → ∃ v, C.db.orders.get? o = some v ∧
      v.discountAmount = r.discountAmount ∧ 1 ≤ v.discountAmount ∧
      v.discountAmount ≤ v.subtotal - 1 ∧ 1 ≤ v.totalAmount) ∧
    ∀ l C', Step promoMachine C l C' → KeepsUses C.db C'.db := by
  have hI := promoMachine_inv hd h
  refine ⟨hI.limits, fun c v o r o' r' hc hr hr' hcode hcode' => ?_, fun o r hr => ?_,
    fun l C' => promoMachine_keeps hd h⟩
  · have ho := hI.child o r c v hr hc hcode.symm
    have ho' := hI.child o' r' c v hr' hc hcode'.symm
    rw [ho] at ho'
    exact Option.some.inj ho'
  · obtain ⟨v, hv, hfit⟩ := hI.redeemed o r hr
    refine ⟨v, hv, hfit.discount, hfit.one_le, hfit.le_subtotal, ?_⟩
    have hle := hfit.le_subtotal
    rw [Order.subtotal] at hle
    omega

/-- A shop with one package made to order, and a campaign for one use with one child code. -/
def sampleCampaign : Db :=
  { Db.sample with
    accounts := ⟨[(1, ⟨true, false, true, false, none, none⟩),
      (2, ⟨false, false, true, false, none, none⟩),
      (3, ⟨false, false, true, false, none, none⟩)], by decide⟩
    wallets := ⟨[(0, ⟨0, 0⟩), (1, ⟨0, 0⟩), (2, ⟨90000, 0⟩), (3, ⟨90000, 0⟩)], by decide⟩
    promotions := ⟨[(1, ⟨"TET2026", .percent, 20, none, 0, none, none, some 1, some 1, some 30000,
      [], false, true, none, none⟩)], by decide⟩
    promotionCodes := ⟨[(5, ⟨1, "TET-AB12", none⟩)], by decide⟩ }

theorem sampleCampaign_noUses : NoUses sampleCampaign where
  redemptions := rfl
  distinct := by
    refine ⟨fun c v p u hc hp => ?_, fun c v c' v' hc hc' _ => ?_⟩
    · have hv := Table.get?_eq_some_iff.mp hc
      have hu := Table.get?_eq_some_iff.mp hp
      simp only [sampleCampaign, List.mem_cons, List.not_mem_nil, or_false, Prod.mk.injEq] at hv hu
      rw [hv.2, hu.2]
      decide
    · have hv := Table.get?_eq_some_iff.mp hc
      have hv' := Table.get?_eq_some_iff.mp hc'
      simp only [sampleCampaign, List.mem_cons, List.not_mem_nil, or_false, Prod.mk.injEq] at hv hv'
      rw [hv.1, hv'.1]
  budget p promo hp b hb := by
    have hu := Table.get?_eq_some_iff.mp hp
    simp only [sampleCampaign, List.mem_cons, List.not_mem_nil, or_false, Prod.mk.injEq] at hu
    rw [hu.2] at hb
    obtain rfl : 30000 = b := by simpa using hb
    decide

/-- Buyer 2 uses the child code, the seller misses the deadline and the use comes back, buyer 3 uses
the campaign's own code. -/
theorem promo_ceilings_hold_sample :
    ∃ C : Config Db RowKey Abort Unit CheckoutCall ℕ,
      Reachable promoMachine sampleCampaign C ∧ C.db.uses 1 = 1 ∧ C.db.spent 1 = 10000 ∧
      (∀ limit ∈ (some 1 : Option ℕ), C.db.uses 1 ≤ limit) ∧
      ∃ v, C.db.orders.get? 2 = some v ∧ 1 ≤ v.totalAmount := by
  have hrun : Reachable promoMachine sampleCampaign
      (Config.idle ([CheckoutCall.createOrder (Settings.sample 10) [] 1 ⟨2, 1, 1, none, some "TET-AB12"⟩,
        .slaCheck (Settings.sample 90000) 1,
        .createOrder (Settings.sample 90001) [] 2 ⟨3, 1, 1, none, some "TET2026"⟩].foldl
          (fun d c => c.code.exec d) sampleCampaign) : Config Db RowKey Abort Unit CheckoutCall ℕ) :=
    ((reaches_of_code 0 (M := promoMachine) (c := CheckoutCall.createOrder (Settings.sample 10) [] 1
        ⟨2, 1, 1, none, some "TET-AB12"⟩) (fun _ => trivial) rfl).trans
      (reaches_of_code 0 (M := promoMachine) (c := CheckoutCall.slaCheck (Settings.sample 90000) 1)
        (fun _ => trivial) rfl)).trans
      (reaches_of_code 0 (M := promoMachine) (c := CheckoutCall.createOrder (Settings.sample 90001) []
        2 ⟨3, 1, 1, none, some "TET2026"⟩) (fun _ => trivial) rfl)
  obtain ⟨hlimits, -, horders, -⟩ := promo_ceilings_hold sampleCampaign_noUses hrun
  refine ⟨_, hrun, by decide, by decide, (hlimits 1 _ rfl).uses, ?_⟩
  obtain ⟨v, hv, -, -, -, hpos⟩ := horders 2 _ rfl
  exact ⟨v, hv, hpos⟩

end Marketplace
