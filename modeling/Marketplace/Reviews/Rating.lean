import Marketplace.Reviews.Service
import Marketplace.Sql.Play
import Marketplace.Sql.Rely

/-!
# A product's rating is that of its visible reviews

Buyers, admins and the job in any number of sessions, next to whatever the rest of the shop does to orders,
variants and settings. The rating in a product's row is to be the one of its visible reviews.

The aggregate is read before the row of the product is taken, so two sessions may both read it without the
other's review, and the second to commit writes a rating that was never true: `rating_lost` is that run. The
condition `ReviewCall.Undisturbed` is that no other session has committed a change to the visible reviews
of the product since the aggregate was read, and `rating_of_visible_reviews` what holds of the runs whose
commits meet it.
-/

namespace Marketplace

open Sql

/-! ### The rating that is right -/

/-- The rating of the visible reviews. -/
def ReviewDb.ratingOf (d : ReviewDb) (p : ℕ) : RatedProduct :=
  ⟨average (d.visibleRatings p), (d.visibleRatings p).length⟩

/-- **Every product has the rating of its visible reviews.** -/
def ReviewDb.RatingsRight (d : ReviewDb) : Prop :=
  ∀ p row, d.products.get? p = some row → row = d.ratingOf p

/-- An average of stars is not zero. -/
theorem filter_average (ratings : List Stars) : (average ratings).filter (· ≠ 0) = average ratings := by
  rw [average]
  split_ifs with h
  · rfl
  · have hlen : (0 : ℚ) < ratings.length := by
      exact_mod_cast List.length_pos_of_ne_nil h
    have hsum : 0 < (ratings.map fun r => (r.val : ℚ)).sum := by
      refine List.sum_pos _ (fun x hx => ?_) (by rwa [ne_eq, List.map_eq_nil_iff])
      obtain ⟨r, -, rfl⟩ := List.mem_map.mp hx
      exact_mod_cast r.2.1
    rw [Option.filter_some, if_pos]
    simpa using (div_pos hsum hlen).ne'

/-- The visible reviews of a product, with their orders. -/
def ReviewDb.visiblePairs (d : ReviewDb) (p : ℕ) : List (ℕ × Stars) :=
  (d.reviews.rows.filter fun r => r.2.productId = p && !r.2.isHidden).map fun r => (r.1, r.2.rating)

theorem mem_visiblePairs {d : ReviewDb} {p o : ℕ} {stars : Stars} :
    (o, stars) ∈ d.visiblePairs p ↔ d.shown p o = some stars := by
  simp only [ReviewDb.visiblePairs, ReviewDb.shown, List.mem_map, List.mem_filter, Option.map_eq_some_iff,
    Option.filter_eq_some_iff, Prod.mk.injEq, Prod.exists]
  constructor
  · rintro ⟨o', r, ⟨hr, hp⟩, rfl, rfl⟩
    exact ⟨r, ⟨Table.get?_eq_some_iff.mpr hr, hp⟩, rfl⟩
  · rintro ⟨r, ⟨hr, hp⟩, rfl⟩
    exact ⟨o, r, ⟨Table.get?_eq_some_iff.mp hr, hp⟩, rfl, rfl⟩

theorem nodup_visiblePairs (d : ReviewDb) (p : ℕ) : (d.visiblePairs p).Nodup := by
  have hkeys : ((d.visiblePairs p).map Prod.fst).Nodup := by
    rw [ReviewDb.visiblePairs, List.map_map]
    exact d.reviews.nodup.sublist (List.filter_sublist.map _)
  exact hkeys.of_map

/-- **The rating depends on what each review counts.** -/
theorem ratingOf_congr {d d' : ReviewDb} {p : ℕ} (h : ∀ o, d.shown p o = d'.shown p o) :
    d.ratingOf p = d'.ratingOf p := by
  have hperm : (d.visiblePairs p).Perm (d'.visiblePairs p) := by
    rw [List.perm_ext_iff_of_nodup (nodup_visiblePairs d p) (nodup_visiblePairs d' p)]
    rintro ⟨o, stars⟩
    rw [mem_visiblePairs, mem_visiblePairs, h]
  have hratings : (d.visibleRatings p).Perm (d'.visibleRatings p) := by
    have hmap : ∀ e : ReviewDb, e.visibleRatings p = (e.visiblePairs p).map Prod.snd := fun e => by
      rw [ReviewDb.visiblePairs, List.map_map]
      rfl
    rw [hmap, hmap]
    exact hperm.map _
  have hnil : d.visibleRatings p = [] ↔ d'.visibleRatings p = [] := by
    constructor
    · intro h
      rw [h] at hratings
      exact hratings.nil_eq.symm
    · intro h
      rw [h] at hratings
      exact hratings.eq_nil
  simp only [ReviewDb.ratingOf, average, hnil, hratings.length_eq, (hratings.map fun r => (r.val : ℚ)).sum_eq]

/-! ### The sessions -/

/-- The calls, and what the rest of the shop does. -/
inductive ReviewCall
  | createReview (orderId buyerId : ℕ) (rating : Stars) (comment : Option String) (hasImages : Bool) (now : ℕ)
  | setReviewVisibility (reviewId adminId : ℕ) (hidden : Bool) (reason : Option String) (now : ℕ)
  | autoReviewStaleOrders (now limit : ℕ)
  /-- Orders, variants and settings become anything. -/
  | elsewhere (shop : ReviewedShop)

/-- What a session runs. -/
def ReviewCall.code : ReviewCall → ReviewTx Unit
  | .createReview orderId buyerId rating comment hasImages now =>
    Marketplace.createReview orderId buyerId rating comment hasImages now
  | .setReviewVisibility reviewId adminId hidden reason now =>
    Marketplace.setReviewVisibility reviewId adminId hidden reason now
  | .autoReviewStaleOrders now limit => Marketplace.autoReviewStaleOrders now limit
  | .elsewhere shop => Tx.modify fun d => { d with shop }

/-- Apart from the reviews `own`, the visible reviews of the product are in `d` what they were in `x`. -/
def SameShown (own : ℕ → Prop) (p : ℕ) (x d : ReviewDb) : Prop :=
  ∀ o, ¬own o → x.shown p o = d.shown p o

/-- Only the reviews of the two states matter. -/
instance decidableSameShown (own : ℕ → Prop) [DecidablePred own] (p : ℕ) (x d : ReviewDb) :
    Decidable (SameShown own p x d) :=
  decidable_of_iff (∀ o ∈ x.reviews.rows.map Prod.fst ++ d.reviews.rows.map Prod.fst, ¬own o →
      x.shown p o = d.shown p o) (by
    constructor
    · intro h o ho
      by_cases hmem : o ∈ x.reviews.rows.map Prod.fst ++ d.reviews.rows.map Prod.fst
      · exact h o hmem ho
      · rw [List.mem_append, not_or] at hmem
        have hx := Table.get?_eq_none_iff.mpr hmem.1
        have hd := Table.get?_eq_none_iff.mpr hmem.2
        rw [ReviewDb.shown, ReviewDb.shown, hx, hd]
    · exact fun h o _ ho => h o ho)

/-- **No other session has committed a change to the visible reviews of the product since the aggregate was
read.** The aggregate is in the last three states a single review's session saw; the job's own reviews
are those that are not committed. A review that is restored though it is visible is not written, so it is not
taken either. -/
def ReviewCall.Undisturbed : ReviewCall → List ReviewDb → ReviewDb → Prop
  | .createReview orderId .., seen, d => ∀ x ∈ seen.take 3, ∀ r ∈ x.reviews.get? orderId,
    SameShown (fun o => o = orderId) r.productId x d
  | .setReviewVisibility reviewId adminId hidden reason now, seen, d =>
    ∀ first ∈ seen.getLast?, ∀ r ∈ first.reviews.get? reviewId, ∀ x ∈ seen.take 3,
      SameShown (fun o => o = reviewId ∧ r.moderated adminId hidden reason now ≠ r) r.productId x d
  | .autoReviewStaleOrders .., seen, d => ∀ x ∈ seen, ∀ row ∈ x.reviews.rows, d.reviews.get? row.1 = none →
    SameShown (fun o => d.reviews.get? o = none) row.2.productId x d
  | .elsewhere _, _, _ => True

instance decidableUndisturbedReview (c : ReviewCall) (seen : List ReviewDb) (d : ReviewDb) :
    Decidable (c.Undisturbed seen d) := by
  cases c <;> unfold ReviewCall.Undisturbed <;> infer_instance

/-- The sessions, in the runs in which no rating is overtaken. -/
def reviewMachine : Machine ReviewDb ReviewKey Abort Unit ReviewCall := ⟨ReviewCall.code, ReviewCall.Undisturbed⟩

/-! ### What the rows protect -/

/-- What the others leave alone: a review that is locked, the product a review is of, and which products
there are. -/
structure ReviewRel (L : List ReviewKey) (d d' : ReviewDb) : Prop where
  locked : ∀ o, .review o ∈ L → d'.reviews.get? o = d.reviews.get? o
  product : ∀ o r, d.reviews.get? o = some r → ∃ r', d'.reviews.get? o = some r' ∧ r'.productId = r.productId
  present : ∀ p, (d'.products.get? p).isSome = (d.products.get? p).isSome

/-- What the others leave alone. -/
def reviewRely : Rely ReviewDb ReviewKey where
  rel := ReviewRel
  refl _ _ := ⟨fun _ _ => rfl, fun _ r h => ⟨r, h, rfl⟩, fun _ => rfl⟩
  trans h h' := by
    refine ⟨fun o ho => (h'.locked o ho).trans (h.locked o ho), fun o r hr => ?_,
      fun p => (h'.present p).trans (h.present p)⟩
    obtain ⟨r', hr', hp'⟩ := h.product o r hr
    obtain ⟨r'', hr'', hp''⟩ := h'.product o r' hr'
    exact ⟨r'', hr'', hp''.trans hp'⟩
  anti hL h := ⟨fun o ho => h.locked o (hL ho), h.product, h.present⟩

/-- The reviews a session has written: it holds them, and what becomes of one depends on that one. -/
structure Writing (own : ℕ → Prop) (w : ReviewDb → ReviewDb) (L : List ReviewKey) : Prop where
  locked : ∀ o, own o → .review o ∈ L
  alone : ∀ e e' o, e.reviews.get? o = e'.reviews.get? o → (w e).reviews.get? o = (w e').reviews.get? o
  other : ∀ e o, ¬own o → (w e).reviews.get? o = e.reviews.get? o

section Refresh

variable {own : ℕ → Prop} {w w' : ReviewDb → ReviewDb} {L L' : List ReviewKey} {d e : ReviewDb} {p q : ℕ}
  {s : List ReviewDb}

theorem Writing.congr (h : Writing own w L) (hw : ∀ e, (w' e).reviews = (w e).reviews) (hL : L ⊆ L') :
    Writing own w' L' :=
  ⟨fun o ho => hL (h.locked o ho), fun e e' o he => by rw [hw, hw]; exact h.alone e e' o he,
    fun e o ho => by rw [hw]; exact h.other e o ho⟩

theorem shown_congr {d d' : ReviewDb} {o : ℕ} (h : d.reviews.get? o = d'.reviews.get? o) :
    d.shown p o = d'.shown p o := by rw [ReviewDb.shown, ReviewDb.shown, h]

/-- The product is right in what the session commits, if none of its reviews has changed since the states `x`. -/
def Settled (own : ℕ → Prop) (p : ℕ) (w : ReviewDb → ReviewDb) (L : List ReviewKey) (xs : List ReviewDb)
    (d : ReviewDb) : Prop :=
  ∀ e, reviewRely.rel L d e → e.RatingsRight → (∀ x ∈ xs, SameShown own p x e) →
    ∀ row, (w e).products.get? p = some row → row = (w e).ratingOf p

theorem RatedProduct.write_self (loaded edited : RatedProduct) : loaded.write edited loaded = edited := by
  rw [RatedProduct.write, writeColumn_self, writeColumn_self]

/-- **The rating is right when nothing has moved since it was computed.** -/
theorem wp_refreshProductRating (h : Writing own w L) (hplain : ∀ e, (w e).products.get? p = e.products.get? p) :
    (refreshProductRating p).wp reviewRely ReviewDb.RatingsRight
      (fun _ w' L' s' d' => ∃ xs, s' = xs ++ s ∧ xs ⊆ s'.take 3 ∧ L ⊆ L' ∧ reviewRely.rel L d d' ∧
        (∀ e, (w' e).reviews = (w e).reviews) ∧ (∀ e, (w' e).shop = (w e).shop) ∧
        (∀ e q, q ≠ p → (w' e).products.get? q = (w e).products.get? q) ∧
        (∀ e q, ((w' e).products.get? q).isSome = ((w e).products.get? q).isSome) ∧
        (∀ x ∈ xs, ∃ dx, reviewRely.rel L d dx ∧ reviewRely.rel L dx d' ∧ x = w dx) ∧
        Settled own p w' L' xs d') w L s d := by
  simp only [refreshProductRating, Tx.wp_bind, Tx.wp_read]
  intro d₁ hd₁ _ d₂ hd₂ hI₂
  -- what a review of the session counts is the same whenever the session looks
  have hown : ∀ {a b : ReviewDb}, reviewRely.rel L a b → ∀ o, own o → (w b).shown p o = (w a).shown p o :=
    fun hab o ho => shown_congr (h.alone _ _ o (hab.locked o (h.locked o ho)))
  rcases hp : (w d₂).products.get? p with _ | loaded
  · refine ⟨[w d₂, w d₁], rfl, by simp, List.Subset.refl L, reviewRely.trans hd₁ hd₂, fun _ => rfl, fun _ => rfl,
      fun _ _ _ => rfl, fun _ _ => rfl, ?_, fun e he _ _ row hrow => ?_⟩
    · simp only [List.mem_cons, List.not_mem_nil, or_false]
      rintro x (rfl | rfl)
      · exact ⟨d₂, reviewRely.trans hd₁ hd₂, reviewRely.refl L d₂, rfl⟩
      · exact ⟨d₁, hd₁, hd₂, rfl⟩
    -- the product is not there
    rw [hplain] at hp hrow
    have := he.present p
    rw [hp, hrow] at this
    exact absurd this (by simp)
  · change Tx.wp reviewRely ReviewDb.RatingsRight _ _ _ _ _ _
    simp only [flushProduct, Tx.wp_bind]
    intro d₃ hd₃ _
    have hsub : L ⊆ ([] : List ReviewKey) ++ L := List.Subset.refl L
    refine ⟨[w d₃, w d₂, w d₁], rfl, by simp, List.subset_append_right _ _,
      reviewRely.trans hd₁ (reviewRely.trans hd₂ hd₃), fun _ => rfl, fun _ => rfl, fun e q hq => ?_, fun e q => ?_, ?_,
      fun e he hI hsame row hrow => ?_⟩
    · exact Table.get?_modify_of_ne _ hq _
    · change ((Table.modify _ _ _).get? q).isSome = _
      rw [Table.get?_modify]
      split_ifs <;> simp
    · simp only [List.mem_cons, List.not_mem_nil, or_false]
      rintro x (rfl | rfl | rfl)
      · exact ⟨d₃, reviewRely.trans hd₁ (reviewRely.trans hd₂ hd₃), reviewRely.refl L d₃, rfl⟩
      · exact ⟨d₂, reviewRely.trans hd₁ hd₂, hd₃, rfl⟩
      · exact ⟨d₁, hd₁, reviewRely.trans hd₂ hd₃, rfl⟩
    · replace he : reviewRely.rel L d₃ e := reviewRely.anti (List.subset_append_right _ _) he
      -- what was loaded is what is there, and what was computed is right
      have hload : loaded = e.ratingOf p := by
        have hd : loaded = d₂.ratingOf p := hI₂ p loaded (by rw [← hplain]; exact hp)
        rw [hd]
        refine ratingOf_congr fun o => ?_
        by_cases ho : own o
        · exact (shown_congr ((reviewRely.trans hd₃ he).locked o (h.locked o ho))).symm
        · rw [← hsame (w d₂) (by simp) o ho]
          exact (shown_congr (h.other d₂ o ho)).symm
      have hcomp : (w d₁).ratingOf p = (w e).ratingOf p := by
        refine ratingOf_congr fun o => ?_
        by_cases ho : own o
        · exact (hown (reviewRely.trans hd₂ (reviewRely.trans hd₃ he)) o ho).symm
        · rw [hsame (w d₁) (by simp) o ho]
          exact (shown_congr (h.other e o ho)).symm
      change ((w e).products.modify p _).get? p = some row at hrow
      rw [Table.get?_modify_self, hplain] at hrow
      obtain ⟨row₀, hrow₀, rfl⟩ := Option.map_eq_some_iff.mp hrow
      obtain rfl : row₀ = loaded := (hI p row₀ hrow₀).trans hload.symm
      rw [RatedProduct.write_self, filter_average]
      exact hcomp

/-! ### What a session commits -/

/-- The products whose rating a session has recomputed, next to the reviews it has written. -/
structure Recomputed (own done : ℕ → Prop) (w₀ : ReviewDb → ReviewDb) (L₀ : List ReviewKey) (d₀ : ReviewDb)
    (w : ReviewDb → ReviewDb) (L : List ReviewKey) (s : List ReviewDb) (d : ReviewDb) : Prop where
  reviews : ∀ e, (w e).reviews = (w₀ e).reviews
  plain : ∀ e p, ¬done p → (w e).products.get? p = e.products.get? p
  present : ∀ e p, ((w e).products.get? p).isSome = (e.products.get? p).isSome
  locks : L₀ ⊆ L
  since : reviewRely.rel L₀ d₀ d
  settled : ∀ p, done p → ∃ xs ⊆ s, Settled own p w L xs d ∧
    ∀ x ∈ xs, ∃ dx, reviewRely.rel L₀ d₀ dx ∧ reviewRely.rel [] dx d ∧ x.reviews = (w₀ dx).reviews

/-- Nothing is recomputed yet. -/
theorem Recomputed.start (hw : ∀ e, (w e).products = e.products) :
    Recomputed own (fun _ => False) w L d w L s d :=
  ⟨fun _ => rfl, fun e p _ => by rw [hw], fun e p => by rw [hw], List.Subset.refl L, reviewRely.refl L d,
    fun _ h => h.elim⟩

variable {done : ℕ → Prop} {w₀ : ReviewDb → ReviewDb} {L₀ : List ReviewKey} {d₀ : ReviewDb}

/-- **One more product.** -/
theorem Recomputed.wp_refresh (h : Recomputed own done w₀ L₀ d₀ w L s d) (hw₀ : Writing own w₀ L₀)
    (hp : ¬done p) :
    (refreshProductRating p).wp reviewRely ReviewDb.RatingsRight
      (fun _ w' L' s' d' => Recomputed own (fun q => q = p ∨ done q) w₀ L₀ d₀ w' L' s' d' ∧
        ∃ xs ⊆ s'.take 3, Settled own p w' L' xs d' ∧ (∃ t, s' = t ++ s) ∧
          ∀ x ∈ xs, ∃ dx, reviewRely.rel L₀ d₀ dx ∧ reviewRely.rel [] dx d' ∧ x.reviews = (w₀ dx).reviews)
      w L s d := by
  refine Tx.wp_mono (wp_refreshProductRating (hw₀.congr h.reviews h.locks) fun e => h.plain e p hp) ?_
  rintro _ w' L' s' d' ⟨xs, hs', htake, hL, hd, hrev, _, hprod, hpres, hxs, hset⟩
  have hxs' : ∀ x ∈ xs, ∃ dx, reviewRely.rel L₀ d₀ dx ∧ reviewRely.rel [] dx d' ∧ x.reviews = (w₀ dx).reviews := by
    intro x hx
    obtain ⟨dx, hdx, hdx', rfl⟩ := hxs x hx
    exact ⟨dx, reviewRely.trans h.since (reviewRely.anti h.locks hdx),
      reviewRely.anti (List.nil_subset _) hdx', h.reviews dx⟩
  refine ⟨⟨fun e => (hrev e).trans (h.reviews e), fun e q hq => ?_, fun e q => (hpres e q).trans (h.present e q),
    List.Subset.trans h.locks hL, reviewRely.trans h.since (reviewRely.anti h.locks hd), fun q hq => ?_⟩,
    xs, htake, hset, ⟨xs, hs'⟩, hxs'⟩
  · rw [hprod e q fun hqp => hq (Or.inl hqp)]
    exact h.plain e q fun hqd => hq (Or.inr hqd)
  · by_cases hqp : q = p
    · subst hqp
      exact ⟨xs, hs' ▸ List.subset_append_left _ _, hset, hxs'⟩
    · obtain ⟨ys, hys, hsetq, hdx⟩ := h.settled q (hq.resolve_left hqp)
      refine ⟨ys, List.Subset.trans hys (hs' ▸ List.subset_append_right _ _), fun e he hI hsame row hrow => ?_,
        fun y hy => ?_⟩
      · rw [hprod e q hqp] at hrow
        rw [hsetq e (reviewRely.trans hd (reviewRely.anti hL he)) hI hsame row hrow]
        exact ratingOf_congr fun o => shown_congr (by rw [hrev e])
      · obtain ⟨dy, h1, h2, h3⟩ := hdx y hy
        exact ⟨dy, h1, reviewRely.trans h2 (reviewRely.anti (List.nil_subset _) hd), h3⟩

/-- **A session that has recomputed the products of its reviews may commit.** -/
theorem Recomputed.commits (h : Recomputed own done w₀ L₀ d₀ w L s d) (hw₀ : Writing own w₀ L₀)
    (hI : e.RatingsRight)
    (hright : ∀ p, done p → ∀ row, (w e).products.get? p = some row → row = (w e).ratingOf p)
    (hmine : ∀ o, own o → (∀ r, e.reviews.get? o = some r → done r.productId) ∧
      ∀ r, (w₀ e).reviews.get? o = some r → done r.productId)
    (hkept : ∀ o, own o → ∀ r, e.reviews.get? o = some r →
      ∃ r', (w₀ e).reviews.get? o = some r' ∧ r'.productId = r.productId) :
    (w e).RatingsRight ∧ ∀ L', LocksDisjoint L L' → reviewRely.rel L' e (w e) := by
  have hother : ∀ o, ¬own o → (w e).reviews.get? o = e.reviews.get? o := fun o ho => by
    rw [h.reviews]
    exact hw₀.other e o ho
  constructor
  · intro p row hrow
    by_cases hp : done p
    · exact hright p hp row hrow
    · rw [h.plain e p hp] at hrow
      rw [hI p row hrow]
      refine ratingOf_congr fun o => ?_
      by_cases ho : own o
      · -- a review of the session is not of this product
        have hnone : ∀ {x : ReviewDb}, (∀ r, x.reviews.get? o = some r → done r.productId) → x.shown p o = none := by
          intro x hx
          rw [ReviewDb.shown, Option.map_eq_none_iff, Option.filter_eq_none_iff]
          intro r hr hpr
          have := hx r hr
          rw [show r.productId = p by simpa using (Bool.and_eq_true_iff.mp hpr).1] at this
          exact hp this
        rw [hnone (hmine o ho).1, hnone fun r hr => (hmine o ho).2 r (by rwa [h.reviews] at hr)]
      · exact (shown_congr (hother o ho)).symm
  · intro L' hL'
    refine ⟨fun o ho => hother o fun hown => ?_, fun o r hr => ?_, fun p => h.present e p⟩
    · exact hL' _ (h.locks (hw₀.locked o hown)) ho
    · by_cases ho : own o
      · rw [h.reviews]
        exact hkept o ho r hr
      · exact ⟨r, (hother o ho).trans hr, rfl⟩

end Refresh

/-! ### The calls -/

section Owes

variable {d : ReviewDb}

/-- What a session owes. -/
abbrev ReviewOwes (c : ReviewCall) : Unit → (ReviewDb → ReviewDb) → List ReviewKey → List ReviewDb → ReviewDb → Prop :=
  Commits reviewRely ReviewDb.RatingsRight reviewMachine (fun _ _ _ _ => True) c

theorem wp_boughtProduct {order : ReviewedOrder} {w : ReviewDb → ReviewDb} {L : List ReviewKey} {s : List ReviewDb} :
    (boughtProduct order).wp reviewRely ReviewDb.RatingsRight
      (fun _ w' L' _ d' => w' = w ∧ L' = L ∧ reviewRely.rel L d d') w L s d := by
  rw [boughtProduct]
  split
  · exact ⟨rfl, rfl, reviewRely.refl L d⟩
  · exact fun d' hd _ => ⟨rfl, rfl, hd⟩
  · exact ⟨rfl, rfl, reviewRely.refl L d⟩

/-- **A buyer reviews an order.** -/
theorem createReview_owes (orderId buyerId : ℕ) (rating : Stars) (comment : Option String) (hasImages : Bool)
    (now : ℕ) :
    (createReview orderId buyerId rating comment hasImages now).wp reviewRely ReviewDb.RatingsRight
      (ReviewOwes (.createReview orderId buyerId rating comment hasImages now)) id [] [] d := by
  simp only [createReview, insertReview, Tx.wp_bind, Tx.wp_read, Tx.wp_getOrElse, Tx.wp_require, Tx.wp_lock,
    Tx.wp_modify]
  intro d₁ _ _ order _ _ _ d₂ _ _ _ d₃ _ _ _
  refine Tx.wp_mono wp_boughtProduct ?_
  rintro product _ _ s₄ d₄ ⟨rfl, rfl, _⟩ p _ d₅ _ _ hfree _
  -- the review is not there, and no other one of the order can come
  have hnone : ∀ e, reviewRely.rel [.review orderId] d₅ e → e.reviews.get? orderId = none := fun e he =>
    (he.locked orderId (by simp)).trans hfree
  have hw : Writing (fun o => o = orderId)
      (ReviewDb.addReview orderId ⟨buyerId, p, rating, comment, false, false, none, none, none⟩)
      [.review orderId] := by
    refine ⟨fun o ho => by simp [ho], fun e e' o he => ?_, fun e o ho => Table.get?_insert_of_ne ho _⟩
    change (e.reviews.insert _ _).get? o = (e'.reviews.insert _ _).get? o
    rw [Table.get?_insert_eq, Table.get?_insert_eq]
    split_ifs with ho
    · rw [← ho, he]
    · exact he
  refine Tx.wp_mono (Recomputed.wp_refresh (Recomputed.start fun _ => rfl) hw not_false) ?_
  rintro _ w' L' s' d' ⟨h, xs, htake, hset, -, hdx⟩ e he hI hallow
  have hfrom : reviewRely.rel [.review orderId] d₅ e := reviewRely.trans h.since (reviewRely.anti h.locks he)
  have hnew : ∀ dx, reviewRely.rel [.review orderId] d₅ dx →
      (dx.reviews.insert orderId ⟨buyerId, p, rating, comment, false, false, none, none, none⟩).get? orderId =
        some ⟨buyerId, p, rating, comment, false, false, none, none, none⟩ := fun dx hdx =>
    Table.get?_insert_self (hnone dx hdx) _
  refine (fun hc => ⟨hc.1, trivial, hc.2⟩) (h.commits hw hI (fun q hq row hrow => ?_) ?_ ?_)
  · obtain rfl : q = p := hq.resolve_right id
    refine hset e he hI (fun x hx => ?_) row hrow
    obtain ⟨dx, hdx, -, hrev⟩ := hdx x hx
    exact hallow x (htake hx) _ (by rw [hrev]; exact hnew dx hdx)
  · rintro o rfl
    refine ⟨fun r hr => absurd hr (by rw [hnone e hfrom]; simp), fun r hr => ?_⟩
    rw [← Option.some.inj ((hnew e hfrom).symm.trans hr)]
    exact Or.inl rfl
  · rintro o rfl r hr
    exact absurd hr (by rw [hnone e hfrom]; simp)

/-- **An admin hides or restores a review.** -/
theorem setReviewVisibility_owes (reviewId adminId : ℕ) (hidden : Bool) (reason : Option String) (now : ℕ) :
    (setReviewVisibility reviewId adminId hidden reason now).wp reviewRely ReviewDb.RatingsRight
      (ReviewOwes (.setReviewVisibility reviewId adminId hidden reason now)) id [] [] d := by
  simp only [setReviewVisibility, flushReview, Tx.wp_bind, Tx.wp_read, Tx.wp_getOrElse, Tx.wp_modify]
  intro d₁ _ _ r hr d₂ hd₂ _
  set changed := r.moderated adminId hidden reason now ≠ r with hchanged
  have hw : Writing (fun o => o = reviewId ∧ changed)
      (ReviewDb.modifyReview reviewId (Review.write r (r.moderated adminId hidden reason now)))
      ((if r.moderated adminId hidden reason now = r then [] else [.review reviewId]) ++ []) := by
    refine ⟨fun o ho => by simp [ho.1, if_neg ho.2], fun e e' o he => ?_, fun e o ho => ?_⟩
    · change (e.reviews.modify _ _).get? o = (e'.reviews.modify _ _).get? o
      rw [Table.get?_modify, Table.get?_modify, he]
    · change (e.reviews.modify _ _).get? o = e.reviews.get? o
      rw [Table.get?_modify]
      split_ifs with hor
      · -- nothing differs, and nothing is written
        have hsame : r.moderated adminId hidden reason now = r := by
          by_contra hne
          exact ho ⟨hor, hne⟩
        have hid : ∀ row : Review, Review.write r r row = row := fun row => by simp [Review.write, writeColumn]
        rw [hsame, show Review.write r r = id from funext hid, Option.map_id, id]
      · rfl
  change (refreshProductRating r.productId).wp reviewRely ReviewDb.RatingsRight _
    (ReviewDb.modifyReview reviewId (Review.write r (r.moderated adminId hidden reason now))) _ _ _
  refine Tx.wp_mono (Recomputed.wp_refresh (Recomputed.start fun _ => rfl) hw not_false) ?_
  rintro _ w' L' s' d' ⟨h, xs, htake, hset, ⟨t, rfl⟩, -⟩ e he hI hallow
  have hproduct : ∀ r', e.reviews.get? reviewId = some r' → r'.productId = r.productId := by
    intro r' hr'
    have hfrom := reviewRely.trans (reviewRely.anti (List.nil_subset _) hd₂)
      (reviewRely.trans (reviewRely.anti (List.nil_subset _) h.since) (reviewRely.anti (List.nil_subset _) he))
    obtain ⟨r'', hr'', hp⟩ := hfrom.product reviewId r hr
    rw [Option.some.inj (hr'.symm.trans hr'')]
    exact hp
  refine (fun hc => ⟨hc.1, trivial, hc.2⟩) (h.commits hw hI (fun q hq row hrow => ?_) ?_ ?_)
  · obtain rfl : q = r.productId := hq.resolve_right id
    exact hset e he hI (fun x hx => hallow d₁ (by simp) r hr x (htake hx)) row hrow
  · rintro o ⟨rfl, -⟩
    refine ⟨fun r' hr' => Or.inl (hproduct r' hr'), fun r' hr' => Or.inl ?_⟩
    change (e.reviews.modify _ _).get? o = some r' at hr'
    rw [Table.get?_modify_self] at hr'
    obtain ⟨r'', hr'', rfl⟩ := Option.map_eq_some_iff.mp hr'
    exact hproduct r'' hr''
  · rintro o ⟨rfl, -⟩ r' hr'
    exact ⟨_, (Table.get?_modify_self e.reviews o _).trans (congrArg _ hr'), rfl⟩

/-- The products of the orders are looked up; nothing is written. -/
theorem wp_autoReviews {orders : List (ℕ × ReviewedOrder)} {w : ReviewDb → ReviewDb} {L : List ReviewKey}
    {s : List ReviewDb} :
    (autoReviews orders).wp reviewRely ReviewDb.RatingsRight
      (fun _ w' L' _ d' => w' = w ∧ L' = L ∧ reviewRely.rel L d d') w L s d := by
  induction orders generalizing s d with
  | nil => exact ⟨rfl, rfl, reviewRely.refl L d⟩
  | cons row orders ih =>
    simp only [autoReviews, Tx.wp_bind]
    refine Tx.wp_mono wp_boughtProduct ?_
    rintro product _ _ s₁ d₁ ⟨rfl, rfl, hd₁⟩
    refine Tx.wp_mono ih ?_
    rintro rest _ _ s₂ d₂ ⟨rfl, rfl, hd₂⟩
    exact ⟨rfl, rfl, reviewRely.trans hd₁ hd₂⟩

/-- The reviews the job has added: none of them was there, and none can come. -/
structure Added (rows : List (ℕ × Review)) (w : ReviewDb → ReviewDb) (L : List ReviewKey) (d : ReviewDb) : Prop where
  writing : Writing (fun o => o ∈ rows.map Prod.fst) w L
  free : ∀ e, reviewRely.rel L d e → ∀ o ∈ rows.map Prod.fst, e.reviews.get? o = none
  there : ∀ e, reviewRely.rel L d e → ∀ row ∈ rows, (w e).reviews.get? row.1 = some row.2
  products : ∀ e, (w e).products = e.products

/-- **One more review of the job.** -/
theorem Added.insert {rows : List (ℕ × Review)} {w : ReviewDb → ReviewDb} {L : List ReviewKey} {d d' : ReviewDb}
    (h : Added rows w L d) (row : ℕ × Review) (hd : reviewRely.rel L d d')
    (hfree : (w d').reviews.get? row.1 = none) :
    Added (rows ++ [row]) (fun e => (w e).addReview row.1 row.2) (.review row.1 :: L) d' := by
  have hnew : row.1 ∉ rows.map Prod.fst := by
    intro hmem
    obtain ⟨r, hr, hk⟩ := List.mem_map.mp hmem
    have := h.there d' hd r hr
    rw [hk, hfree] at this
    exact absurd this (by simp)
  have hback : ∀ e, reviewRely.rel (.review row.1 :: L) d' e → reviewRely.rel L d e := fun e he =>
    reviewRely.trans hd (reviewRely.anti (List.subset_cons_self _ _) he)
  have hnone : ∀ e, reviewRely.rel (.review row.1 :: L) d' e → (w e).reviews.get? row.1 = none := fun e he => by
    rw [h.writing.alone e d' row.1 (he.locked row.1 List.mem_cons_self), hfree]
  refine ⟨⟨fun o ho => ?_, fun e e' o he => ?_, fun e o ho => ?_⟩, fun e he o ho => ?_, fun e he r hr => ?_,
    fun e => h.products e⟩
  · rcases List.mem_append.mp (by simpa only [List.map_append] using ho) with ho | ho
    · exact List.mem_cons_of_mem _ (h.writing.locked o ho)
    · rw [show o = row.1 by simpa using ho]
      exact List.mem_cons_self
  · change ((w e).reviews.insert _ _).get? o = ((w e').reviews.insert _ _).get? o
    have hw := h.writing.alone e e' o he
    rw [Table.get?_insert_eq, Table.get?_insert_eq]
    split_ifs with ho
    · rw [← ho, hw]
    · exact hw
  · have ho' : o ∉ rows.map Prod.fst ∧ o ≠ row.1 := by
      simpa [not_or] using ho
    exact (Table.get?_insert_of_ne ho'.2 _).trans (h.writing.other e o ho'.1)
  · rcases List.mem_append.mp (by simpa only [List.map_append] using ho) with ho | ho
    · exact h.free e (hback e he) o ho
    · rw [show o = row.1 by simpa using ho, ← h.writing.other e row.1 hnew]
      exact hnone e he
  · rcases List.mem_append.mp hr with hr | hr
    · have hne : r.1 ≠ row.1 := fun hk => hnew (hk ▸ List.mem_map_of_mem hr)
      exact (Table.get?_insert_of_ne hne _).trans (h.there e (hback e he) r hr)
    · obtain rfl := List.mem_singleton.mp hr
      exact Table.get?_insert_self (hnone e he) _

theorem wp_insertReviews {rows : List (ℕ × Review)} (done : List (ℕ × Review)) {w : ReviewDb → ReviewDb}
    {L : List ReviewKey} {s : List ReviewDb} (h : Added done w L d) :
    (Tx.forEach rows fun row => insertReview row.1 row.2).wp reviewRely ReviewDb.RatingsRight
      (fun _ w' L' _ d' => Added (done ++ rows) w' L' d') w L s d := by
  induction rows generalizing done w L s d with
  | nil => rwa [List.append_nil]
  | cons row rows ih =>
    change (insertReview row.1 row.2 >>= fun _ => Tx.forEach rows fun row => insertReview row.1 row.2).wp
      reviewRely ReviewDb.RatingsRight _ w L s d
    simp only [insertReview, Tx.wp_bind, Tx.wp_lock, Tx.wp_require, Tx.wp_modify]
    intro d₁ hd₁ _ hfree
    rw [← List.singleton_append, ← List.append_assoc]
    exact ih (done ++ [row]) (h.insert row hd₁ hfree)

/-- The job recomputes one product after the other. -/
theorem wp_refreshAll {own done : ℕ → Prop} {w₀ w : ReviewDb → ReviewDb} {L₀ L : List ReviewKey} {d₀ : ReviewDb}
    {s : List ReviewDb} (hw₀ : Writing own w₀ L₀) {ps : List ℕ} (hnodup : ps.Nodup) (hnew : ∀ p ∈ ps, ¬done p)
    (h : Recomputed own done w₀ L₀ d₀ w L s d) :
    (Tx.forEach ps refreshProductRating).wp reviewRely ReviewDb.RatingsRight
      (fun _ w' L' s' d' => Recomputed own (fun p => p ∈ ps ∨ done p) w₀ L₀ d₀ w' L' s' d') w L s d := by
  induction ps generalizing done w L s d with
  | nil =>
    change Recomputed own (fun p => p ∈ ([] : List ℕ) ∨ done p) w₀ L₀ d₀ w L s d
    simpa only [List.not_mem_nil, false_or] using h
  | cons p ps ih =>
    change (refreshProductRating p >>= fun _ => Tx.forEach ps refreshProductRating).wp reviewRely
      ReviewDb.RatingsRight _ w L s d
    obtain ⟨hp, hps⟩ := List.nodup_cons.mp hnodup
    rw [Tx.wp_bind]
    refine Tx.wp_mono (h.wp_refresh hw₀ (hnew p List.mem_cons_self)) ?_
    rintro _ w' L' s' d' ⟨h', -⟩
    have hnew' : ∀ q ∈ ps, ¬(q = p ∨ done q) := by
      rintro q hq (rfl | hd)
      · exact hp hq
      · exact hnew q (List.mem_cons_of_mem _ hq) hd
    refine Tx.wp_mono (ih hps hnew' h') fun _ w'' L'' s'' d'' h'' => ?_
    simpa only [List.mem_cons, or_assoc, or_left_comm] using h''

/-- **The job reviews stale orders.** -/
theorem autoReviewStaleOrders_owes (now limit : ℕ) :
    (autoReviewStaleOrders now limit).wp reviewRely ReviewDb.RatingsRight
      (ReviewOwes (.autoReviewStaleOrders now limit)) id [] [] d := by
  simp only [autoReviewStaleOrders, Tx.wp_bind, Tx.wp_read, Tx.wp_require]
  intro d₁ _ _ _ d₂ _ _
  refine Tx.wp_mono wp_autoReviews ?_
  rintro rows _ _ s₃ d₃ ⟨rfl, rfl, _⟩ _
  have hstart : Added [] (id : ReviewDb → ReviewDb) [] d₃ :=
    ⟨⟨fun o ho => absurd ho (by simp), fun _ _ _ h => h, fun _ _ _ => rfl⟩, fun _ _ o ho => absurd ho (by simp),
      fun _ _ r hr => absurd hr (by simp), fun _ => rfl⟩
  refine Tx.wp_mono (wp_insertReviews [] hstart) ?_
  intro _ w₀ L₀ s₄ d₄ hadded
  rw [List.nil_append] at hadded
  refine Tx.wp_mono (wp_refreshAll hadded.writing (List.nodup_dedup _) (fun _ _ => not_false)
    (Recomputed.start (s := s₄) hadded.products)) ?_
  intro _ w L s d' h e he hI hallow
  have hfrom : reviewRely.rel L₀ d₄ e := reviewRely.trans h.since (reviewRely.anti h.locks he)
  have hdone : ∀ row ∈ rows, row.2.productId ∈ (rows.map fun row => row.2.productId).dedup ∨ False := fun row hrow =>
    Or.inl (List.mem_dedup.mpr (List.mem_map_of_mem hrow))
  refine (fun hc => ⟨hc.1, trivial, hc.2⟩) (h.commits hadded.writing hI (fun p hp row hrow => ?_) ?_ ?_)
  · obtain ⟨xs, hxs, hset, hdx⟩ := h.settled p hp
    refine hset e he hI (fun x hx o ho => ?_) row hrow
    obtain ⟨dx, hdx, hlater, hrev⟩ := hdx x hx
    -- the product is that of a review of the job, which is in the state and not committed
    obtain ⟨mine, hmine, rfl⟩ := List.mem_map.mp (List.mem_dedup.mp (hp.resolve_right id))
    by_cases hnone : e.reviews.get? o = none
    · have hx : x.reviews.get? o = none := by
        rw [hrev, hadded.writing.other dx o ho]
        rcases hg : dx.reviews.get? o with _ | r
        · rfl
        · obtain ⟨r', hr', -⟩ := (reviewRely.trans hlater (reviewRely.anti (List.nil_subset _) he)).product o r hg
          exact absurd hr' (by simp [hnone])
      exact shown_congr (hx.trans hnone.symm)
    · exact hallow x (hxs hx) mine (Table.get?_eq_some_iff.mp (by rw [hrev]; exact hadded.there dx hdx mine hmine))
        (hadded.free e hfrom mine.1 (List.mem_map_of_mem hmine)) o hnone
  · intro o ho
    refine ⟨fun r hr => absurd hr (by rw [hadded.free e hfrom o ho]; simp), fun r hr => ?_⟩
    obtain ⟨row, hrow, rfl⟩ := List.mem_map.mp ho
    rw [← Option.some.inj ((hadded.there e hfrom row hrow).symm.trans hr)]
    exact hdone row hrow
  · intro o ho r hr
    exact absurd hr (by rw [hadded.free e hfrom o ho]; simp)

end Owes

theorem reviewMachine_correct :
    reviewMachine.Correct reviewRely ReviewDb.RatingsRight fun _ _ _ _ => True := by
  intro c d _
  cases c with
  | createReview orderId buyerId rating comment hasImages now =>
    exact createReview_owes orderId buyerId rating comment hasImages now
  | setReviewVisibility reviewId adminId hidden reason now =>
    exact setReviewVisibility_owes reviewId adminId hidden reason now
  | autoReviewStaleOrders now limit => exact autoReviewStaleOrders_owes now limit
  | elsewhere shop =>
    exact fun e _ hI _ => ⟨hI, trivial, fun _ _ => ⟨fun _ _ => rfl, fun _ r hr => ⟨r, hr, rfl⟩, fun _ => rfl⟩⟩

/-- **A product's rating is the rating of its visible reviews**, in every state of every run in which no
rating is overtaken. -/
theorem rating_of_visible_reviews {ι : Type} [DecidableEq ι] {d : ReviewDb} (hd : d.RatingsRight)
    {C : Config ReviewDb ReviewKey Abort Unit ReviewCall ι} (h : Reachable reviewMachine d C) :
    C.db.RatingsRight :=
  (reviewMachine_correct.reachable hd h).inv

/-! ### Two reviews at once -/

/-- Two delivered orders of a product that nobody has reviewed. -/
def sampleUnrated : ReviewDb where
  reviews := .empty
  products := ⟨[(7, ⟨none, 0⟩)], by decide⟩
  shop :=
    { orders := ⟨[(1, ⟨10, .delivered, some 7, none, none, 0, false, false⟩),
        (2, ⟨20, .delivered, some 7, none, none, 0, false, false⟩)], by decide⟩
      variants := .empty, windowDays := 30, autoEnabled := false, autoDays := 7 }

/-- The buyer of the first order gives five stars. -/
def samplePraise : ReviewCall := .createReview 1 10 fiveStars none false 100

/-- The buyer of the second order gives one. -/
def sampleComplaint : ReviewCall := .createReview 2 20 ⟨1, by decide⟩ none false 100

theorem sampleUnrated_right : sampleUnrated.RatingsRight := by
  intro p row h
  obtain ⟨rfl, rfl⟩ : p = 7 ∧ row = ⟨none, 0⟩ := by
    simpa [sampleUnrated] using Table.get?_eq_some_iff.mp h
  rfl

/-- One review after the other. -/
theorem rating_of_visible_reviews_sample :
    ∃ C : Config ReviewDb ReviewKey Abort Unit ReviewCall (Fin 2), Reachable reviewMachine sampleUnrated C ∧
      C.db.products.get? 7 = some ⟨some 3, 2⟩ ∧ C.db.RatingsRight := by
  obtain ⟨C, hC, hrow⟩ := Machine.reaches_of_play (M := reviewMachine) (ι := Fin 2) (d := sampleUnrated)
    (P := fun d => d.products.get? 7 = some ⟨some 3, 2⟩) (fun c s d => decide (c.Undisturbed s d))
    (.begin 0 samplePraise :: List.replicate 10 (.step 0) ++ .begin 1 sampleComplaint :: List.replicate 10 (.step 1))
    (fun c s d h => (of_decide_eq_true h : c.Undisturbed s d)) (by decide +kernel)
  exact ⟨C, hC, hrow, rating_of_visible_reviews sampleUnrated_right hC⟩

/-- **A rating is lost**: both buyers read the aggregate before either commits, and with no session open any
more the product has two visible reviews and a rating of one. -/
theorem rating_lost :
    ∃ C : Config ReviewDb ReviewKey Abort Unit ReviewCall (Fin 2),
      Reachable (Machine.ofCode ReviewCall.code) sampleUnrated C ∧ (∀ i, C.session i = none) ∧
        C.db.products.get? 7 = some ⟨some 1, 1⟩ ∧ (C.db.visibleRatings 7).length = 2 ∧ ¬C.db.RatingsRight := by
  obtain ⟨C, hC, hidle, hrow, hlen⟩ := Machine.settles_of_play (M := Machine.ofCode ReviewCall.code) (ι := Fin 2) (d := sampleUnrated)
    (P := fun d => d.products.get? 7 = some ⟨some 1, 1⟩ ∧ (d.visibleRatings 7).length = 2) (fun _ _ _ => true)
    (.begin 0 samplePraise :: .begin 1 sampleComplaint :: List.replicate 7 (.step 0) ++
      List.replicate 7 (.step 1) ++ List.replicate 3 (.step 0) ++ List.replicate 3 (.step 1))
    (fun _ _ _ _ => trivial) (by decide +kernel)
  refine ⟨C, hC, hidle, hrow, hlen, fun hright => ?_⟩
  have hcount := congrArg RatedProduct.ratingCount (hright 7 _ hrow)
  rw [ReviewDb.ratingOf, hlen] at hcount
  simp at hcount

end Marketplace
