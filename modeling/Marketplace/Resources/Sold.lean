import Marketplace.Lines.Footprints
import Marketplace.Resources.Stock

/-!
# Sold stock

The seller's stock operations, the checkouts, the remedies and the expiry of stock, all at once. A line
that has been sold, which is to say attached to an order, is not to be touched by its seller any more.

The operations that check an unlocked copy of a line are overtaken by a checkout, and one does
not check at all: `sold_line_marked_error` is a line that its seller declares faulty after the
sale, `sold_line_edited` one whose content changes under the buyer. `StockClient.Timely` is the condition
under which such an operation commits only onto a line that is still what it checked;
`sold_stock_immutable` is what holds of the runs in which every commit meets it.

The orders are followed on the platform without the contents (`Handles`, `lineRely`), the
seller's operations on the platform with them.
-/

namespace Marketplace

open Sql

/-! ### What a transaction may do to the lines -/

/-- The line is attached to no order, or there is none. -/
def Db.Unsold (d : Db) (r : ℕ) : Prop := ∀ v, d.resources.get? r = some v → v.orderId = none

/-- What happens to the lines while the rows `L` are locked: a locked line that is not sold stays as it
is, and a line that is sold stays attached. -/
structure LineRel (L : List RowKey) (d d' : Db) : Prop where
  held : ∀ r, .resource r ∈ L → d.Unsold r → d'.resources.get? r = d.resources.get? r
  sold : ∀ r v, d.resources.get? r = some v → v.orderId ≠ none →
    ∃ v', d'.resources.get? r = some v' ∧ v'.orderId = v.orderId

theorem unsold_iff {d d' : Db} {r : ℕ} (h : d'.resources.get? r = d.resources.get? r) :
    d'.Unsold r ↔ d.Unsold r := by rw [Db.Unsold, Db.Unsold, h]

theorem LineRel.refl (L : List RowKey) (d : Db) : LineRel L d d :=
  ⟨fun _ _ _ => rfl, fun _ v hv _ => ⟨v, hv, rfl⟩⟩

theorem LineRel.trans {L : List RowKey} {d₁ d₂ d₃ : Db} (h : LineRel L d₁ d₂)
    (h' : LineRel L d₂ d₃) : LineRel L d₁ d₃ where
  held r hr hu := by
    have heq := h.held r hr hu
    rw [h'.held r hr ((unsold_iff heq).mpr hu), heq]
  sold r v hv hs := by
    obtain ⟨v₂, hv₂, ho₂⟩ := h.sold r v hv hs
    obtain ⟨v₃, hv₃, ho₃⟩ := h'.sold r v₂ hv₂ (by rwa [ho₂])
    exact ⟨v₃, hv₃, ho₃.trans ho₂⟩

theorem LineRel.anti {L L' : List RowKey} {d₁ d₂ : Db} (hL : L ⊆ L') (h : LineRel L' d₁ d₂) :
    LineRel L d₁ d₂ := ⟨fun r hr => h.held r (hL hr), h.sold⟩

/-- What the others may do to the lines. -/
def lineRely : Rely Db RowKey := ⟨LineRel, LineRel.refl, LineRel.trans, LineRel.anti⟩

/-- What a transaction holding `L` has done to a line: anything, if it holds the line and the line is not
sold; nothing to another unsold line; and a sold line stays attached, and assigned unless the
transaction is a remedy. -/
def Handled (remedy : Prop) (L : List RowKey) (d d' : Db) (r : ℕ) : Prop :=
  .resource r ∈ L ∧ d.Unsold r ∨
    (d.Unsold r → d'.resources.get? r = d.resources.get? r) ∧
      ∀ v, d.resources.get? r = some v → v.orderId ≠ none →
        ∃ v', d'.resources.get? r = some v' ∧ v'.orderId = v.orderId ∧
          (v.status = .assigned → v'.status = .assigned ∨ remedy)

/-- A transaction in the middle of its work, with pending change `w` and locks `L`. -/
def Handles (remedy : Prop) (w : Db → Db) (L : List RowKey) (d : Db) : Prop :=
  ∀ d', LineRel L d d' → ∀ r, Handled remedy L d' (w d') r

/-- The line may be written to: it is locked and not sold, or sold already. -/
def Workable (L : List RowKey) (d : Db) (r : ℕ) : Prop :=
  .resource r ∈ L ∧ d.Unsold r ∨ ∃ v, d.resources.get? r = some v ∧ v.orderId ≠ none

section Handling

variable {remedy : Prop} {w : Db → Db} {L L' : List RowKey} {s : List Db} {d d' : Db} {r : ℕ}

theorem Workable.stable (h : Workable L d r) (hL : L ⊆ L') (hd : LineRel L d d') :
    Workable L' d' r := by
  rcases h with ⟨hr, hu⟩ | ⟨v, hv, ho⟩
  · exact Or.inl ⟨hL hr, (unsold_iff (hd.held r hr hu)).mpr hu⟩
  · obtain ⟨v', hv', ho'⟩ := hd.sold r v hv ho
    exact Or.inr ⟨v', hv', by rwa [ho']⟩

theorem Handled.mono (h : Handled remedy L d d' r) (hL : L ⊆ L') : Handled remedy L' d d' r :=
  h.imp_left fun h => ⟨hL h.1, h.2⟩

theorem handles_id (remedy : Prop) : Handles remedy id L d := by
  intro d' _ r
  exact Or.inr ⟨fun _ => rfl, fun v hv _ => ⟨v, hv, rfl, Or.inl⟩⟩

theorem Handles.stable (h : Handles remedy w L d) (hL : L ⊆ L') (hd : LineRel L d d') :
    Handles remedy w L' d' :=
  fun d'' hd' r => (h d'' (hd.trans (hd'.anti hL)) r).mono hL

/-- A line that is attached in the transaction's view may be written to. -/
theorem Handles.workable (h : Handles remedy w L d) {v : Resource}
    (hv : (w d).resources.get? r = some v) (ho : v.orderId ≠ none) : Workable L d r := by
  rcases h d (LineRel.refl L d) r with hfree | ⟨hsame, -⟩
  · exact Or.inl hfree
  · by_cases hu : d.Unsold r
    · exact absurd (hu v (by rw [← hsame hu, hv])) ho
    · simp only [Db.Unsold, not_forall] at hu
      obtain ⟨u, hu, hne⟩ := hu
      exact Or.inr ⟨u, hu, hne⟩

/-- A line that is free in the transaction's view is not sold. -/
theorem Handles.unsold (h : Handles remedy w L d)
    (hv : ∀ v, (w d).resources.get? r = some v → v.orderId = none) : d.Unsold r := by
  rcases h d (LineRel.refl L d) r with hfree | ⟨-, hsold⟩
  · exact hfree.2
  · intro u hu
    by_contra hne
    obtain ⟨v, hw, ho, -⟩ := hsold u hu hne
    exact hne (by rw [← ho, hv v hw])

/-- A change that does not touch the stock. -/
theorem Handles.then (h : Handles remedy w L d) {g : Db → Db}
    (hg : ∀ d, (g d).resources = d.resources) : Handles remedy (fun d => g (w d)) L d := by
  intro d' hd r
  have hr := h d' hd r
  simpa only [Handled, hg] using hr

/-- A part that does not touch the stock. -/
theorem Handles.frame {Q : Order → Order → Prop} (h : Handles remedy w L d) {α : Type} {t : Tx α}
    (ht : t.Writes (LineWrite Q False True)) :
    t.wp lineRely (fun _ => True) (fun _ w L _ d => Handles remedy w L d) w L s d := by
  refine Tx.wp_mono (Tx.wp_frame (P := fun f : Db → Db => ∀ d, (f d).resources = d.resources) (fun _ => rfl)
    (fun f g hf hg d => (hg (f d)).trans (hf d)) (ht.mono fun f hf => hf.resources_eq)) ?_
  rintro _ w' L' s' d' ⟨g, hg, rfl, hL, -, hd⟩
  exact (h.stable hL hd).then hg

/-- Work on a line that may be written to: it stays attached to its order, and assigned unless this is a
remedy. -/
theorem Handles.work (h : Handles remedy w L d) (hr : Workable L d r) {f : Resource → Resource}
    (ho : ∀ v, (f v).orderId = v.orderId)
    (hs : ∀ v, v.status = .assigned → (f v).status = .assigned ∨ remedy) :
    Handles remedy (fun d => (w d).modifyResource r f) L d := by
  intro d' hd r'
  rcases h d' hd r' with hfree | ⟨hsame, hsold⟩
  · exact Or.inl hfree
  by_cases he : r' = r
  · subst he
    rcases hr.stable (List.Subset.refl L) hd with hfree | ⟨u, hu, hne⟩
    · exact Or.inl hfree
    · refine Or.inr ⟨fun hfree => absurd (hfree u hu) hne, fun v hv hv' => ?_⟩
      obtain ⟨v', hw, ho', hs'⟩ := hsold v hv hv'
      refine ⟨f v', by rw [Db.modifyResource_resources, Table.get?_modify_self, hw, Option.map_some],
        (ho v').trans ho', fun ha => ?_⟩
      rcases hs' ha with ha' | hrem
      · exact hs v' ha'
      · exact Or.inr hrem
  · refine Or.inr ⟨fun hu => ?_, fun v hv hv' => ?_⟩
    · rw [Db.modifyResource_resources, Table.get?_modify_of_ne _ he, hsame hu]
    · rw [Db.modifyResource_resources, Table.get?_modify_of_ne _ he]
      exact hsold v hv hv'

/-- Any change to lines that are held and not sold. -/
theorem Handles.take (h : Handles remedy w L d) (hr : .resource r ∈ L ∧ d.Unsold r) {g : Db → Db}
    (hg : ∀ d r', r' ≠ r → (g d).resources.get? r' = d.resources.get? r') :
    Handles remedy (fun d => g (w d)) L d := by
  intro d' hd r'
  by_cases he : r' = r
  · subst he
    exact Or.inl ⟨hr.1, (unsold_iff (hd.held r' hr.1 hr.2)).mpr hr.2⟩
  · have hr' := h d' hd r'
    simpa only [Handled, hg _ r' he] using hr'

end Handling

/-! ### Taking stock -/

section Taking

variable {remedy : Prop} {w : Db → Db} {L : List RowKey} {s : List Db} {d : Db}
  (cfg : Settings) (o : ℕ)

/-- A loop that changes lines the transaction holds. -/
theorem Handles.takeAll {α : Type} (key : α → ℕ) (f : α → Resource → Resource) {as : List α}
    (h : Handles remedy w L d) (hr : ∀ a ∈ as, .resource (key a) ∈ L ∧ d.Unsold (key a)) :
    Handles remedy (fun d => as.foldl (fun d a => d.modifyResource (key a) (f a)) (w d)) L d := by
  induction as generalizing w with
  | nil => exact h
  | cons a as ih =>
    have htake := h.take (g := Db.modifyResource (key a) (f a)) (hr a List.mem_cons_self)
      fun d r' hr' => Table.get?_modify_of_ne _ hr' _
    exact ih htake fun b hb => hr b (List.mem_cons_of_mem a hb)

/-- A loop that changes what a buyer does not see of lines that may be written to. -/
theorem Handles.workAll {α : Type} (key : α → ℕ) (f : α → Resource → Resource) {as : List α}
    (h : Handles remedy w L d) (hr : ∀ a ∈ as, Workable L d (key a))
    (ho : ∀ a v, (f a v).orderId = v.orderId) (hs : ∀ a v, (f a v).status = v.status) :
    Handles remedy (fun d => as.foldl (fun d a => d.modifyResource (key a) (f a)) (w d)) L d := by
  induction as generalizing w with
  | nil => exact h
  | cons a as ih =>
    have hwork := h.work (hr a List.mem_cons_self) (ho a) fun v hv => Or.inl ((hs a v).trans hv)
    exact ih hwork fun b hb => hr b (List.mem_cons_of_mem a hb)

theorem mem_claimable {variantId : ℕ} {skipped : List ℕ} {r : ℕ}
    (h : r ∈ d.claimable variantId skipped) :
    ∃ v, d.resources.get? r = some v ∧ v.orderId = none := by
  obtain ⟨⟨r, v⟩, hrow, rfl⟩ := List.mem_map.mp h
  rw [List.mem_mergeSort, List.mem_filter] at hrow
  have hfree : v.orderId = none := (of_decide_eq_true hrow.2).2.2.1
  exact ⟨v, Table.get?_eq_some_iff.mpr hrow.1, hfree⟩

/-- Lines that are locked when they are free may be written to. -/
theorem Handles.locked (h : Handles remedy w L d) {ids : List ℕ} (hids : ∀ r ∈ ids,
      ∃ v, (w d).resources.get? r = some v ∧ v.orderId = none) :
    ∀ r ∈ ids, .resource r ∈ ids.map RowKey.resource ++ L ∧ d.Unsold r := by
  intro r hr
  refine ⟨List.mem_append_left _ (List.mem_map_of_mem hr), h.unsold fun u hu => ?_⟩
  obtain ⟨v, hv, ho⟩ := hids r hr
  obtain rfl : v = u := by simpa [hv] using hu
  exact ho

/-- `claim_resources`: the lines taken may be written to afterwards. -/
theorem Handles.tryClaim (h : Handles remedy w L d) (skipped : List ℕ) (variantId quantity : ℕ)
    (durationDays : Option ℕ) :
    (tryClaimResources cfg skipped variantId quantity o durationDays).wp lineRely (fun _ => True)
      (fun ids w L _ d => Handles remedy w L d ∧ ∀ l ∈ ids, ∀ r ∈ l, Workable L d r) w L s d := by
  intro d' hd _
  have h' := h.stable (List.Subset.refl L) hd
  -- What follows the statement, for the lines it has locked.
  have hrest : ∀ ids : List ℕ, (∀ r ∈ ids, .resource r ∈ ids.map RowKey.resource ++ L ∧ d'.Unsold r) →
      (if ids.length < quantity then pure none else do
        Tx.forEach ids fun id => Tx.modify (Db.modifyResource id (Resource.assign cfg o durationDays))
        pure (some ids) : Tx (Option (List ℕ))).wp lineRely (fun _ => True)
          (fun ids w L _ d => Handles remedy w L d ∧ ∀ l ∈ ids, ∀ r ∈ l, Workable L d r) w
          (ids.map RowKey.resource ++ L) (w d' :: s) d' := by
    intro ids hfree
    have hlocked := h'.stable (List.subset_append_right (ids.map RowKey.resource) L) (LineRel.refl _ d')
    rw [Tx.wp_ite, Tx.wp_pure, Tx.wp_bind, Tx.wp_forEach_modify]
    refine ⟨fun _ => ⟨hlocked, by simp⟩, fun _ => ⟨?_, ?_⟩⟩
    · exact hlocked.takeAll id (fun _ => Resource.assign cfg o durationDays) hfree
    · intro l hl r hr
      obtain rfl : ids = l := by simpa using hl
      exact Or.inl (hfree r hr)
  exact hrest _ (h'.locked fun r hr => mem_claimable (List.mem_of_mem_take hr))

theorem Handles.claim (h : Handles remedy w L d) (skipped : List ℕ) (variantId quantity : ℕ)
    (durationDays : Option ℕ) :
    (claimResources cfg skipped variantId quantity o durationDays).wp lineRely (fun _ => True)
      (fun ids w L _ d => Handles remedy w L d ∧ ∀ r ∈ ids, Workable L d r) w L s d := by
  rw [claimResources, Tx.wp_bind]
  refine Tx.wp_mono (h.tryClaim cfg o skipped variantId quantity durationDays) fun ids w L s d h => ?_
  rw [Tx.wp_getOrElse]
  exact fun l hl => ⟨h.1, h.2 l hl⟩

theorem Handles.caps (h : Handles remedy w L d) {ids : List ℕ} (hr : ∀ r ∈ ids, Workable L d r)
    (x : ℤ) :
    (setCaps ids x).wp lineRely (fun _ => True) (fun _ w L _ d => Handles remedy w L d) w L s d := by
  rw [setCaps, Tx.wp_forEach_modify]
  refine h.workAll Prod.fst (fun r v => { v with refundAmountCap := some r.2 }) (fun r hmem => ?_)
    (fun _ _ => rfl) fun _ _ => rfl
  exact hr r.1 (List.of_mem_zip hmem).1

/-- A line an adapter creates. -/
theorem Handles.create (h : Handles remedy w L d) (variantId sellerId id : ℕ) (cap : ℤ) :
    (createResource cfg o variantId sellerId id cap).wp lineRely (fun _ => True)
      (fun _ w L _ d => Handles remedy w L d) w L s d := by
  rw [createResource, wp_insertRow]
  intro d' hd _ hnone
  have h' := h.stable (List.subset_cons_self (.resource id) L) hd
  refine h'.take ⟨List.mem_cons_self, ?_⟩ fun d r' hr' => Table.get?_insert_of_ne hr' _
  exact (h.stable (List.Subset.refl L) hd).unsold fun v hv => by simp [hnone] at hv

theorem Handles.createAll (h : Handles remedy w L d) (variantId sellerId : ℕ) (rows : List (ℕ × ℤ)) :
    (Tx.forEach rows fun r => createResource cfg o variantId sellerId r.1 r.2).wp lineRely
      (fun _ => True) (fun _ w L _ d => Handles remedy w L d) w L s d := by
  induction rows generalizing w L s d with
  | nil => exact h
  | cons r rows ih =>
    change (createResource cfg o variantId sellerId r.1 r.2 >>= fun _ => _).wp _ _ _ _ _ _ _
    rw [Tx.wp_bind]
    exact Tx.wp_mono (h.create cfg o variantId sellerId r.1 r.2) fun _ w L s d h => ih h

/-- `adapter.provision(…)`. -/
theorem Handles.provision (h : Handles remedy w L d) (order : Order) (p : Provision) :
    (p.run cfg o order).wp lineRely (fun _ => True) (fun _ w L _ d => Handles remedy w L d) w L s d := by
  cases p with
  | failed message => exact h
  | text data => exact h
  | tasks rows =>
    refine h.frame (Q := fun _ _ => True) (.bind (Tx.writes_forEach fun r => ?_) fun _ => ?_)
    · exact .bind (Tx.writes_read _) fun _ => .bind (Tx.writes_require _ _) fun _ =>
        Tx.writes_modify.mpr (.newTask _ _)
    · change (if _ then _ else _ : Tx ProvisionResult).Writes _
      split_ifs <;> exact Tx.writes_pure _
  | sellerPool skipped variantId quantity durationDays =>
    rw [Provision.run, Tx.wp_bind]
    exact Tx.wp_mono (h.tryClaim cfg o skipped variantId quantity durationDays)
      fun ids w L s d h => h.1
  | supplier rows variantId quantity acceptsPartial =>
    rw [Provision.run, settlePurchase]
    simp only [Tx.wp_ite, Tx.wp_bind, Tx.wp_pure]
    exact ⟨fun _ => ⟨fun _ => h.createAll cfg o _ _ _, fun _ => h⟩, fun _ => h.createAll cfg o _ _ _⟩
  | proxies lines data =>
    refine h.frame (Q := fun _ _ => True) (.bind (Tx.writes_forEach fun l => ?_) fun _ =>
      Tx.writes_pure _)
    exact .bind (Tx.writes_read _) fun _ => .bind (Tx.writes_require _ _) fun _ =>
      writes_insertRow (.newAllocation trivial _ _)

end Taking

/-! ### The functions about orders -/

/-- The call is a remedy of a case. -/
def OrderCall.IsRemedy : OrderCall → Prop
  | .sellerResolveResources .. => True
  | .replaceDispute .. => True
  | _ => False

section Calls

variable {remedy : Prop} {w : Db → Db} {L : List RowKey} {s : List Db} {d : Db}
  (cfg : Settings) (o : ℕ)

/-- Nothing is said about the rows of orders. -/
abbrev AnyOrder (_ _ : Order) : Prop := True

theorem Handles.read (h : Handles remedy w L d) {α : Type} {t : Tx α} (ht : t.Writes (· = id)) :
    t.wp lineRely (fun _ => True) (fun _ w L _ d => Handles remedy w L d) w L s d :=
  h.frame (Q := AnyOrder) (lineWrites_of_id lineWrites_id ht)

theorem handles_createOrder (skipped : List ℕ) (p : Purchase) :
    (createOrder cfg skipped o p).wp lineRely (fun _ => True)
      (fun _ w L _ d => Handles False w L d) id [] [] d := by
  rw [createOrder, Tx.wp_bind]
  refine Tx.wp_mono ((handles_id False).read (writes_variantForPurchase p)) fun v w L s d h => ?_
  obtain ⟨variant, product⟩ := v
  change (applyPromo cfg p.promoCode p.buyerId (variant.price * p.quantity) >>= _).wp _ _ _ _ _ _ _
  rw [Tx.wp_bind]
  refine Tx.wp_mono (h.read (writes_applyPromo cfg _ _ _)) fun promo w L s d h => ?_
  have hkeep : ∀ v v', KeepsText v v' → AnyOrder v v' := fun _ _ _ => trivial
  rw [Tx.wp_ite]
  refine ⟨fun _ => ?_, fun _ => ?_⟩
  · rw [createInstantOrder, Tx.wp_bind]
    refine Tx.wp_mono (h.frame (writes_insertRow (.newOrder (Q := AnyOrder) o _))) fun _ w L s d h => ?_
    rw [Tx.wp_bind]
    refine Tx.wp_mono (h.frame (lineWrites_chargeOrder lineFootprint cfg o hkeep _ _ _)) fun _ w L s d h => ?_
    rw [Tx.wp_bind]
    refine Tx.wp_mono (h.claim cfg o skipped _ _ _) fun ids w L s d h => ?_
    exact h.1.caps h.2 _
  · exact h.frame (.bind (writes_insertRow (.newOrder o _)) fun _ =>
      .bind (lineWrites_takeManualStock lineFootprint o hkeep _ _ _) fun _ =>
        lineWrites_chargeOrder lineFootprint cfg o hkeep _ _ _)

theorem handles_provision (h : Handles remedy w L d) (order : Order) (providerId : Option ℕ)
    (p : Provision) :
    (do let result ← p.run cfg o order
        applyProvisionResult cfg o order providerId result : Tx Unit).wp lineRely (fun _ => True)
      (fun _ w L _ d => Handles remedy w L d) w L s d := by
  rw [Tx.wp_bind]
  refine Tx.wp_mono (h.provision cfg o order p) fun result w L s d h => ?_
  exact h.frame (lineWrites_applyProvisionResult lineFootprint (Q := AnyOrder) cfg o (fun _ _ => trivial) trivial _ _ _)

theorem handles_createOrderWithAdapter (p : AdapterPurchase) :
    (createOrderWithAdapter cfg o p).wp lineRely (fun _ => True)
      (fun _ w L _ d => Handles False w L d) id [] [] d := by
  have hkeep : ∀ v v', KeepsText v v' → AnyOrder v v' := fun _ _ _ => trivial
  rw [createOrderWithAdapter, Tx.wp_bind]
  refine Tx.wp_mono ((handles_id False).read (writes_productForPurchase p)) fun product w L s d h => ?_
  rw [Tx.wp_bind]
  refine Tx.wp_mono (h.read (writes_applyPromo cfg _ _ _)) fun promo w L s d h => ?_
  rw [Tx.wp_bind]
  refine Tx.wp_mono (h.frame (writes_insertRow (.newOrder (Q := AnyOrder) o _))) fun _ w L s d h => ?_
  rw [Tx.wp_bind]
  refine Tx.wp_mono (h.frame (lineWrites_chargeOrder lineFootprint cfg o hkeep _ _ _)) fun _ w L s d h => ?_
  have hfail : (do
      refundEscrow cfg o p.buyerId
        (newOrder cfg p.buyerId product.sellerId p.variantId (some p.productId) p.quoteQuantity
          p.quoteAmount promo .pending).totalAmount ""
      cancelOrder cfg o (buyerCancelReason none) : Tx Unit).Writes (LineWrite AnyOrder False True) :=
    .bind (lineWrites_refundEscrow lineFootprint cfg o hkeep _ _ _) fun _ => lineWrites_cancelOrder lineFootprint cfg o hkeep _
  rw [provisionNewOrder]
  simp only [Tx.wp_ite, Tx.wp_pure]
  refine ⟨fun _ => h.frame hfail, fun _ => ⟨fun _ => h, fun _ => ?_⟩⟩
  rcases p.provision with _ | provision
  · exact h.frame hfail
  · exact handles_provision cfg o h _ _ provision

theorem handles_provisionPendingOrder (provision : Provision) (providerId : Option ℕ) :
    (provisionPendingOrder cfg o provision providerId).wp lineRely (fun _ => True)
      (fun _ w L _ d => Handles False w L d) id [] [] d := by
  rw [provisionPendingOrder, Tx.wp_bind]
  refine Tx.wp_mono ((handles_id False).frame (Q := AnyOrder) (lineWrites_lockOrder o)) fun order w L s d h => ?_
  rw [Tx.wp_bind, Tx.wp_getOrElse]
  intro order _
  rw [Tx.wp_bind, Tx.wp_require]
  exact fun _ => handles_provision cfg o h order providerId provision

theorem handles_replaceDispute (skipped : List ℕ) (c : ℕ) :
    (replaceDispute cfg skipped c).wp lineRely (fun _ => True)
      (fun _ w L _ d => Handles True w L d) id [] [] d := by
  have hkeep : ∀ v v', KeepsText v v' → AnyOrder v v' := fun _ _ _ => trivial
  rw [replaceDispute, Tx.wp_bind]
  refine Tx.wp_mono ((handles_id True).frame (Q := AnyOrder) (lineWrites_lockOpenCase c)) fun u w L s d h => ?_
  rw [Tx.wp_bind]
  refine Tx.wp_mono (h.frame (Q := AnyOrder) (lineWrites_lockOrderRow u.orderId)) fun order w L s d h => ?_
  rw [Tx.wp_bind, Tx.wp_read]
  intro d₁ hd₁ _
  rw [Tx.wp_bind, Tx.wp_getOrElse]
  rintro ⟨variantId, variant⟩ -
  rw [Tx.wp_bind, Tx.wp_require]
  intro _
  rw [Tx.wp_bind, Tx.wp_read]
  intro d₂ hd₂ _
  rw [Tx.wp_bind, Tx.wp_require]
  intro _
  rw [Tx.wp_bind, Tx.wp_read]
  intro d₃ hd₃ _
  have h₃ := h.stable (List.Subset.refl L) (hd₁.trans (hd₂.trans hd₃))
  -- The lines of the order are attached to it, which makes them fit to be written to.
  have hold : ∀ r ∈ ((w d₃).resources.rows.filter fun r => r.2.orderId = some u.orderId).map Prod.fst,
      Workable L d₃ r := by
    intro r hr
    obtain ⟨⟨r, v⟩, hrow, rfl⟩ := List.mem_map.mp hr
    rw [List.mem_filter] at hrow
    have ho : v.orderId = some u.orderId := of_decide_eq_true hrow.2
    exact h₃.workable (Table.get?_eq_some_iff.mpr hrow.1) (by simp [ho])
  rw [Tx.wp_bind, Tx.wp_require]
  intro _
  rw [Tx.wp_bind, Tx.wp_forEach_modify]
  have hfaulty : ∀ (ids : List ℕ) (w : Db → Db), Handles True w L d₃ → (∀ r ∈ ids, Workable L d₃ r) →
      Handles True (fun d => ids.foldl (fun d r => d.modifyResource r fun v =>
        { v with status := .error }) (w d)) L d₃ := by
    intro ids
    induction ids with
    | nil => exact fun w h _ => h
    | cons r ids ih =>
      intro w h hr
      exact ih _ (h.work (hr r List.mem_cons_self) (fun _ => rfl) fun _ _ => Or.inr trivial)
        fun r' hr' => hr r' (List.mem_cons_of_mem r hr')
  rw [Tx.wp_bind]
  refine Tx.wp_mono ((hfaulty _ w h₃ hold).claim cfg u.orderId skipped _ _ _) fun ids w L s d h => ?_
  rw [Tx.wp_bind]
  refine Tx.wp_mono (h.1.caps h.2 _) fun _ w L s d h => ?_
  exact h.frame (Q := AnyOrder) (.bind (lineWrites_modifyOrder lineFootprint _ fun _ => trivial) fun _ =>
    .bind (lineWrites_setOrderStatus lineFootprint cfg _ hkeep _) fun _ => lineWrites_modifyCase c _)

/-- The lines a seller's remedy is about: they are attached to the order. -/
theorem Handles.originals (h : Handles remedy w L d) (c : ℕ) (resourceIds : List ℕ) :
    (claimedOriginals c o resourceIds).wp lineRely (fun _ => True)
      (fun originals w L _ d => Handles remedy w L d ∧ ∀ r ∈ originals, Workable L d r.1) w L s d := by
  have hfound : (lockOrderResources o resourceIds).wp lineRely (fun _ => True)
      (fun found w L _ d => Handles remedy w L d ∧ ∀ r ∈ found, Workable L d r.1) w L s d := by
    intro d' hd _
    have h' := h.stable (List.Subset.refl L) hd
    refine ⟨h'.stable (List.subset_append_right _ _) (LineRel.refl _ d'), fun r hr => ?_⟩
    rw [List.mem_filter] at hr
    have ho : r.2.orderId = some o := (of_decide_eq_true hr.2).2
    exact (h'.workable (Table.get?_eq_some_iff.mpr hr.1) (by simp [ho])).stable
      (List.subset_append_right _ _) (LineRel.refl _ d')
  rw [claimedOriginals, Tx.wp_bind]
  refine Tx.wp_mono hfound fun found w L s d h => ?_
  rw [Tx.wp_bind, Tx.wp_require]
  intro _
  rw [Tx.wp_bind, Tx.wp_read]
  intro d₁ hd₁ _
  rw [Tx.wp_bind, Tx.wp_require]
  intro _
  rw [Tx.wp_bind, Tx.wp_read]
  intro d₂ hd₂ _
  rw [Tx.wp_bind, Tx.wp_require]
  intro _
  rw [Tx.wp_bind, Tx.wp_require]
  intro _
  have hd := hd₁.trans hd₂
  refine ⟨h.1.stable (List.Subset.refl L) hd, fun r hr => ?_⟩
  obtain ⟨id, -, hfind⟩ := List.mem_filterMap.mp hr
  exact (h.2 r (List.mem_of_find?_eq_some hfind)).stable (List.Subset.refl L) hd

/-- If as many rows of a table are among the names as there are names, every name is one of them. -/
theorem mem_of_length_eq {V : Type} {rows : List (ℕ × V)} (hnd : (rows.map Prod.fst).Nodup)
    {ids : List ℕ} (hsub : ∀ r ∈ rows, r.1 ∈ ids) (hlen : rows.length = ids.length) {id : ℕ}
    (hid : id ∈ ids) : ∃ v, (id, v) ∈ rows := by
  have hsub' : rows.map Prod.fst ⊆ ids := by
    intro i hi
    obtain ⟨r, hr, rfl⟩ := List.mem_map.mp hi
    exact hsub r hr
  have hperm := (hnd.subperm hsub').perm_of_length_le (by rw [List.length_map, hlen])
  obtain ⟨⟨i, v⟩, hr, rfl⟩ := List.mem_map.mp (hperm.mem_iff.mpr hid)
  exact ⟨v, hr⟩

/-- The replacements of a seller's remedy. -/
theorem Handles.replacements (h : Handles remedy w L d) (skipped : List ℕ)
    (seller variantId count : ℕ) (durationDays : Option ℕ) (ids : Option (List ℕ)) :
    (chooseReplacements cfg skipped o seller variantId count durationDays ids).wp lineRely
      (fun _ => True) (fun ids w L _ d => Handles remedy w L d ∧ ∀ r ∈ ids, Workable L d r) w L s d := by
  rcases ids with _ | ids
  · exact h.claim cfg o skipped _ _ _
  rw [chooseReplacements, Tx.wp_bind, Tx.wp_require]
  intro _ d' hd _
  have h' := h.stable (List.Subset.refl L) hd
  -- The rows that were asked for and are free.
  have hrest : ∀ rows : List (ℕ × Resource), (rows.map Prod.fst).Nodup → (∀ r ∈ rows, r.1 ∈ ids ∧
        (w d').resources.get? r.1 = some r.2 ∧ r.2.orderId = none) →
      (do Tx.require (rows.length = ids.length) (.http 409 "A selected replacement is unavailable")
          Tx.forEach ids fun r => Tx.modify (Db.modifyResource r (Resource.assign cfg o durationDays))
          pure ids : Tx (List ℕ)).wp lineRely (fun _ => True)
            (fun ids w L _ d => Handles remedy w L d ∧ ∀ r ∈ ids, Workable L d r) w
            (rows.map (fun r => RowKey.resource r.1) ++ L) (w d' :: s) d' := by
    intro rows hnd hrows
    rw [Tx.wp_bind, Tx.wp_require]
    intro hlen
    have hfree : ∀ r ∈ ids, .resource r ∈ rows.map (fun r => RowKey.resource r.1) ++ L ∧ d'.Unsold r := by
      intro r hr
      obtain ⟨v, hv⟩ := mem_of_length_eq hnd (fun r hr => (hrows r hr).1) hlen hr
      refine ⟨List.mem_append_left _ (List.mem_map.mpr ⟨_, hv, rfl⟩), h'.unsold fun u hu => ?_⟩
      obtain rfl : v = u := by simpa [(hrows _ hv).2.1] using hu
      exact (hrows _ hv).2.2
    have hlocked := h'.stable (List.subset_append_right (rows.map fun r => RowKey.resource r.1) L)
      (LineRel.refl _ d')
    rw [Tx.wp_bind, Tx.wp_forEach_modify]
    exact ⟨hlocked.takeAll id (fun _ => Resource.assign cfg o durationDays) hfree,
      fun r hr => Or.inl (hfree r hr)⟩
  refine hrest _ ((w d').resources.nodup.sublist (List.filter_sublist.map Prod.fst)) fun r hr => ?_
  rw [List.mem_filter] at hr
  have hcond := of_decide_eq_true hr.2
  exact ⟨hcond.1, Table.get?_eq_some_iff.mpr hr.1, hcond.2.2.2.2.1⟩

/-- The loop that records a remedy: the lines it is about are no good any more. -/
theorem Handles.record (h : Handles True w L d) (c : ℕ) (key : String) (action : RemedyAction)
    {α : Type} (original : α → ℕ × Resource) (replacement : α → Option ℕ) {as : List α}
    (hr : ∀ a ∈ as, Workable L d (original a).1) :
    (Tx.forEach as fun a => recordResourceAction c key action (original a) (replacement a)).wp lineRely
      (fun _ => True) (fun _ w L _ d => Handles True w L d) w L s d := by
  induction as generalizing w L s d with
  | nil => exact h
  | cons a as ih =>
    change (recordResourceAction c key action (original a) (replacement a) >>= fun _ => _).wp
      _ _ _ _ _ _ _
    rw [Tx.wp_bind, recordResourceAction, Tx.wp_bind, Tx.wp_modify]
    have hwork := h.work (hr a List.mem_cons_self) (f := fun r => { r with status := .error })
      (fun _ => rfl) fun _ _ => Or.inr trivial
    rw [addResourceAction, Tx.wp_bind, Tx.wp_read]
    intro d' hd _
    rw [Tx.wp_bind, Tx.wp_require]
    intro _
    rw [Tx.wp_modify]
    refine ih ((hwork.stable (List.Subset.refl L) hd).then fun _ => rfl) fun b hb => ?_
    exact (hr b (List.mem_cons_of_mem a hb)).stable (List.Subset.refl L) hd

theorem Handles.remedyLines (h : Handles True w L d) (skipped : List ℕ) (c seller : ℕ) (order : Order)
    (variantId : ℕ) (variant : ProductVariant) {originals : List (ℕ × Resource)}
    (hr : ∀ r ∈ originals, Workable L d r.1) (ids : Option (List ℕ)) (key : String)
    (action : RemedyAction) :
    (remedyResources cfg skipped c o seller order variantId variant originals ids key action).wp
      lineRely (fun _ => True) (fun _ w L _ d => Handles True w L d) w L s d := by
  have hkeep : ∀ v v', KeepsText v v' → AnyOrder v v' := fun _ _ _ => trivial
  cases action with
  | replace =>
    rw [remedyResources, Tx.wp_bind]
    have hstay : (chooseReplacements cfg skipped o seller variantId originals.length
        variant.durationDays ids).wp lineRely (fun _ => True)
          (fun _ _ L _ d => ∀ r ∈ originals, Workable L d r.1) w L s d := by
      refine Tx.wp_mono (Tx.wp_frame (P := fun _ => True) trivial (fun _ _ _ _ => trivial)
        ((writes_chooseReplacements (Q := AnyOrder) cfg o skipped _ _ _ _ _).mono fun _ _ => trivial)) ?_
      rintro _ w' L' s' d' ⟨g, -, -, hL, -, hd⟩ r hmem
      exact (hr r hmem).stable hL hd
    refine Tx.wp_mono (Tx.wp_and (h.replacements cfg o skipped seller variantId _ _ ids) hstay)
      fun replacements w L s d h => ?_
    obtain ⟨⟨h, hnew⟩, hr⟩ := h
    rw [Tx.wp_bind, Tx.wp_forEach_modify]
    have hnewest : ∀ r ∈ originals.zip replacements, Workable L d r.2 :=
      fun r hmem => hnew r.2 (List.of_mem_zip hmem).2
    have hcaps := h.workAll Prod.snd
      (fun (r : (ℕ × Resource) × ℕ) v => { v with refundAmountCap := r.1.2.refundAmountCap })
      hnewest (fun _ _ => rfl) fun _ _ => rfl
    exact hcaps.record c key .replace Prod.fst (fun r => some r.2)
      fun r hmem => hr r.1 (List.of_mem_zip hmem).1
  | refund =>
    rw [remedyResources, Tx.wp_bind]
    have hstay : ∀ x y, (Tx.when (x ≠ 0) (refundEscrow cfg o order.buyerId x y)).wp lineRely
        (fun _ => True) (fun _ w L _ d => Handles True w L d ∧ ∀ r ∈ originals, Workable L d r.1)
          w L s d := by
      intro x y
      have hwrites : (Tx.when (x ≠ 0) (refundEscrow cfg o order.buyerId x y)).Writes
          (LineWrite AnyOrder False True) := Tx.writes_when (lineWrites_refundEscrow lineFootprint cfg o hkeep _ _ _)
      refine Tx.wp_mono (Tx.wp_and (h.frame hwrites) (Tx.wp_frame (P := fun _ => True) trivial
        (fun _ _ _ _ => trivial) (hwrites.mono fun _ _ => trivial))) ?_
      rintro _ w' L' s' d' ⟨h, g, -, -, hL, -, hd⟩
      exact ⟨h, fun r hmem => (hr r hmem).stable hL hd⟩
    refine Tx.wp_mono (hstay _ _) fun _ w L s d h => ?_
    exact h.1.record c key .refund id (fun _ => none) h.2

theorem handles_sellerResolveResources (skipped : List ℕ) (c seller : ℕ) (resourceIds : List ℕ)
    (action : RemedyAction) (ids : Option (List ℕ)) (key : String) (note : Option String) :
    (sellerResolveResources cfg skipped c seller resourceIds action ids key note).wp lineRely
      (fun _ => True) (fun _ w L _ d => Handles True w L d) id [] [] d := by
  have hkeep : ∀ v v', KeepsText v v' → AnyOrder v v' := fun _ _ _ => trivial
  rw [sellerResolveResources, Tx.wp_bind]
  refine Tx.wp_mono ((handles_id True).frame (Q := AnyOrder) (lineWrites_lockDispute c))
    fun u w L s d h => ?_
  rw [Tx.wp_bind]
  refine Tx.wp_mono (h.frame (Q := AnyOrder) (lineWrites_lockOrder u.orderId)) fun order w L s d h => ?_
  rw [Tx.wp_bind, Tx.wp_getOrElse]
  intro order _
  rw [Tx.wp_bind, Tx.wp_require]
  intro _
  rw [Tx.wp_bind]
  refine Tx.wp_mono (h.frame (Q := AnyOrder) (lineWrites_modifyCase c _)) fun _ w L s d h => ?_
  rw [Tx.wp_bind, Tx.wp_read]
  intro d₁ hd₁ _
  rw [Tx.wp_bind, Tx.wp_require]
  intro _
  rw [Tx.wp_bind, Tx.wp_require]
  intro _
  rw [Tx.wp_bind, Tx.wp_read]
  intro d₂ hd₂ _
  rw [Tx.wp_bind, Tx.wp_getOrElse]
  rintro ⟨variantId, variant⟩ -
  rw [Tx.wp_bind, Tx.wp_require]
  intro _
  have h₂ := h.stable (List.Subset.refl L) (hd₁.trans hd₂)
  rw [Tx.wp_bind]
  refine Tx.wp_mono (h₂.originals u.orderId c resourceIds) fun originals w L s d h => ?_
  rw [Tx.wp_bind]
  refine Tx.wp_mono (h.1.remedyLines cfg u.orderId skipped c seller order variantId variant h.2 ids key action)
    fun _ w L s d h => ?_
  exact h.frame (Q := AnyOrder) (.bind (lineWrites_modifyOrder lineFootprint _ fun _ => trivial) fun _ =>
    .bind (Tx.writes_when (lineWrites_modifyCase c _)) fun _ =>
      lineWrites_closeRemedy lineFootprint cfg _ hkeep trivial order)

/-- **What a function about orders does to the lines.** -/
theorem OrderCall.handles (c : OrderCall) (d : Db) :
    c.code.wp lineRely (fun _ => True) (fun _ w L _ d => Handles c.IsRemedy w L d) id [] [] d := by
  have hkeep : ∀ v v', KeepsText v v' → AnyOrder v v' := fun _ _ _ => trivial
  have hany : ∀ v v', AnyOrder v v' := fun _ _ => trivial
  have hplain : ∀ t : Tx Unit, t.Writes (LineWrite AnyOrder False True) →
      t.wp lineRely (fun _ => True) (fun _ w L _ d => Handles False w L d) id [] [] d :=
    fun t ht => (handles_id False).frame ht
  cases c with
  | createOrder cfg skipped o p => exact handles_createOrder cfg o skipped p
  | createOrderWithAdapter cfg o p => exact handles_createOrderWithAdapter cfg o p
  | provisionPendingOrder cfg o provision providerId =>
    exact handles_provisionPendingOrder cfg o provision providerId
  | confirmOrder cfg o b => exact hplain _ (lineWrites_confirmOrder lineFootprint cfg o hkeep b)
  | acceptOrder cfg o seller => exact hplain _ (lineWrites_acceptOrder lineFootprint cfg o hkeep seller)
  | deliverOrder cfg o seller data => exact hplain _ (lineWrites_deliverOrder lineFootprint cfg o hany seller data)
  | releaseOrder cfg o => exact hplain _ (lineWrites_releaseOrder lineFootprint cfg o hkeep)
  | refundOrder cfg o message => exact hplain _ (lineWrites_refundOrder lineFootprint cfg o hkeep message)
  | extendEscrow cfg o days => exact hplain _ (lineWrites_extendEscrow lineFootprint cfg o hkeep days)
  | escrowRelease cfg o => exact hplain _ (lineWrites_escrowRelease lineFootprint cfg o hkeep)
  | slaCheck cfg o => exact hplain _ (lineWrites_slaCheck lineFootprint cfg o hkeep)
  | provisionSweep cfg o catalog => exact hplain _ (lineWrites_provisionSweep lineFootprint cfg o hkeep catalog)
  | updateTask cfg memory t u => exact hplain _ (lineWrites_updateTask lineFootprint cfg hany memory t u)
  | createDispute cfg c o b resourceIds lineNos key =>
    exact hplain _ (lineWrites_createDispute cfg o c b resourceIds lineNos key)
  | appendClaimBatch cfg o b resourceIds lineNos key =>
    exact hplain _ (lineWrites_appendClaimBatch cfg o b resourceIds lineNos key)
  | acceptDisputeResolution cfg o b =>
    exact hplain _ (lineWrites_acceptDisputeResolution cfg o hkeep b)
  | withdrawDispute cfg o b => exact hplain _ (lineWrites_withdrawDispute cfg o hkeep b)
  | requestMarketplaceReview cfg o a =>
    exact hplain _ (lineWrites_requestMarketplaceReview cfg o a)
  | sellerRespondDispute cfg c seller note =>
    exact hplain _ (lineWrites_sellerRespondDispute cfg c seller note)
  | sellerResolveResources cfg skipped c seller resourceIds action ids key note =>
    exact handles_sellerResolveResources cfg skipped c seller resourceIds action ids key note
  | sellerResolveProxies cfg c seller lineNos key note =>
    exact hplain _ (lineWrites_sellerResolveProxies cfg hany trivial c seller lineNos key note)
  | adminRefundProxies cfg c lineNos key note =>
    exact hplain _ (lineWrites_adminRefundProxies cfg hany trivial c lineNos key note)
  | refundDispute cfg c => exact hplain _ (lineWrites_refundDispute cfg hkeep c)
  | rejectDispute cfg c => exact hplain _ (lineWrites_rejectDispute cfg hkeep c)
  | partialRefundDispute cfg c x => exact hplain _ (lineWrites_partialRefundDispute cfg hkeep c x)
  | replaceDispute cfg skipped c => exact handles_replaceDispute cfg skipped c
  | extendWarrantyDispute cfg c days =>
    exact hplain _ (lineWrites_extendWarrantyDispute cfg hkeep c days)
  | disputeResolutionTimeout cfg o order =>
    exact hplain _ (lineWrites_disputeResolutionTimeout cfg o hkeep order)
  | disputeSellerTimeout cfg o order =>
    exact hplain _ (lineWrites_disputeSellerTimeout cfg o hkeep order)
  | disputeAbandonment cfg o order =>
    exact hplain _ (lineWrites_disputeAbandonment cfg o hkeep order)

end Calls

/-- `resource_expire_job`. -/
theorem handles_expire (now : ℕ) (batch : List ℕ) (d : Db) :
    (resourceExpireJob now batch).wp lineRely (fun _ => True)
      (fun _ w L _ d => Handles True w L d) id [] [] d := by
  intro d' _ _
  have hrest : ∀ due : List ℕ, (Tx.forEach due fun r =>
      Tx.modify (Db.modifyResource r fun v => { v with status := .expired }) : Tx Unit).wp lineRely
        (fun _ => True) (fun _ w L _ d => Handles True w L d) id (due.map RowKey.resource ++ [])
          [d'] d' := by
    intro due
    rw [Tx.wp_forEach_modify]
    -- A locked line is fit to be written to, sold or not.
    have hwork : ∀ r ∈ due, Workable (due.map RowKey.resource ++ []) d' r := by
      intro r hr
      by_cases hu : d'.Unsold r
      · exact Or.inl ⟨List.mem_append_left _ (List.mem_map_of_mem hr), hu⟩
      · simp only [Db.Unsold, not_forall] at hu
        obtain ⟨v, hv, ho⟩ := hu
        exact Or.inr ⟨v, hv, ho⟩
    have hall : ∀ (ids : List ℕ) (w : Db → Db),
        Handles True w (due.map RowKey.resource ++ []) d' →
        (∀ r ∈ ids, Workable (due.map RowKey.resource ++ []) d' r) →
        Handles True (fun d => ids.foldl (fun d r => d.modifyResource r fun v =>
          { v with status := .expired }) (w d)) (due.map RowKey.resource ++ []) d' := by
      intro ids
      induction ids with
      | nil => exact fun w h _ => h
      | cons r ids ih =>
        intro w h hr
        exact ih _ (h.work (hr r List.mem_cons_self) (fun _ => rfl) fun _ _ => Or.inr trivial)
          fun r' hr' => hr r' (List.mem_cons_of_mem r hr')
    exact hall due id (handles_id True) hwork
  exact hrest _

/-! ### Everybody at once -/

/-- The seller's operations. -/
inductive StockCall
  | updateResourceData (resourceId sellerId : ℕ) (data : String)
  | restockResource (resourceId sellerId : ℕ) (data : String)
  | archiveResource (resourceId sellerId : ℕ)
  | restoreResource (resourceId sellerId : ℕ)
  | deleteResource (resourceId sellerId : ℕ)
  | markResourceError (resourceId sellerId : ℕ)
  | bulkResourceAction (variantId sellerId : ℕ) (action : BulkAction) (selection : BulkSelection)
  | bulkAddResources (cfg : Settings) (variantId sellerId : ℕ) (items : List String)
      (numbers : List ℕ)

/-- The transaction itself. -/
def StockCall.code : StockCall → StockTx Unit
  | .updateResourceData r seller data => Marketplace.updateResourceData r seller data
  | .restockResource r seller data => Marketplace.restockResource r seller data
  | .archiveResource r seller => Marketplace.archiveResource r seller
  | .restoreResource r seller => Marketplace.restoreResource r seller
  | .deleteResource r seller => Marketplace.deleteResource r seller
  | .markResourceError r seller => Marketplace.markResourceError r seller
  | .bulkResourceAction v seller action selection =>
    Marketplace.bulkResourceAction v seller action selection
  | .bulkAddResources cfg v seller items numbers =>
    Marketplace.bulkAddResources cfg v seller items numbers

/-- Who works with the stock. -/
inductive StockClient
  /-- A function about orders: checkouts, remedies and all others. -/
  | order (c : OrderCall)
  /-- A batch of `resource_expire_job`. -/
  | expire (now : ℕ) (batch : List ℕ)
  /-- A seller. -/
  | seller (c : StockCall)

/-- The transaction itself. -/
def StockClient.code : StockClient → StockTx Unit
  | .order c => c.code.zoom stockBooks id
  | .expire now batch => (resourceExpireJob now batch).zoom stockBooks id
  | .seller c => c.code

/-- The line as the operation has loaded it. -/
def loadedLine (seen : List StockDb) (r : ℕ) : Option Resource :=
  seen.getLast?.bind fun s => s.db.resources.get? r

/-- What the operation checked on the line it has loaded is true of the committed line. -/
def StockCall.Timely (seen : List StockDb) (s : StockDb) : StockCall → Prop
  | .updateResourceData r _ _ => s.db.Unsold r
  | .restockResource r _ _ => s.db.Unsold r
  | .deleteResource r _ => (∃ v ∈ loadedLine seen r, v.Deletable) → s.db.Unsold r
  | .markResourceError r _ => (∃ v ∈ loadedLine seen r, v.status ≠ .error) →
      ∀ v, s.db.resources.get? r = some v → v.status = .assigned → v.orderId = none
  | _ => True

/-- The condition on a commit. -/
def StockClient.Timely (seen : List StockDb) (s : StockDb) : StockClient → Prop
  | .seller c => c.Timely seen s
  | _ => True

/-- All of them at once, where the seller's operations commit only in time. -/
def stockMachine : Machine StockDb RowKey Abort Unit StockClient where
  code := StockClient.code
  allows c seen s := c.Timely seen s

/-- The client may take a line from its buyer: a remedy of a case, or the expiry. -/
def StockClient.Releases : StockClient → Prop
  | .order c => c.IsRemedy
  | .expire _ _ => True
  | .seller _ => False

/-- What every change owes the buyers of the lines: a sold line stays, with its order and its content, and it
stays assigned unless it is taken back. -/
def SoldStays (released : Prop) (s s' : StockDb) : Prop :=
  ∀ r v, s.db.resources.get? r = some v → v.orderId ≠ none →
    ∃ v', s'.db.resources.get? r = some v' ∧ v'.orderId = v.orderId ∧ s'.data r = s.data r ∧
      (v.status = .assigned → v'.status = .assigned ∨ released)

/-- What the others may do to the stock: sold lines keep their content too. -/
structure StockRel (L : List RowKey) (s s' : StockDb) : Prop where
  lines : LineRel L s.db s'.db
  data : ∀ r v, s.db.resources.get? r = some v → v.orderId ≠ none → s'.data r = s.data r

theorem StockRel.refl (L : List RowKey) (s : StockDb) : StockRel L s s :=
  ⟨LineRel.refl L s.db, fun _ _ _ _ => rfl⟩

theorem StockRel.trans {L : List RowKey} {s₁ s₂ s₃ : StockDb} (h : StockRel L s₁ s₂)
    (h' : StockRel L s₂ s₃) : StockRel L s₁ s₃ := by
  refine ⟨h.lines.trans h'.lines, fun r v hv ho => ?_⟩
  obtain ⟨v', hv', ho'⟩ := h.lines.sold r v hv ho
  rw [h'.data r v' hv' (by rwa [ho']), h.data r v hv ho]

/-- What the others may do while some rows are locked. -/
def stockRely : Rely StockDb RowKey :=
  ⟨StockRel, StockRel.refl, StockRel.trans, fun hL h => ⟨h.lines.anti hL, h.data⟩⟩

/-- What a transaction on the stock has done to all lines. -/
def Leaves (released : Prop) (L : List RowKey) (s s' : StockDb) : Prop :=
  ∀ r, Handled released L s.db s'.db r ∧
    ∀ v, s.db.resources.get? r = some v → v.orderId ≠ none → s'.data r = s.data r

/-- What a client owes at its commit. -/
def stockOwes (c : StockClient) :
    Unit → (StockDb → StockDb) → List RowKey → List StockDb → StockDb → Prop :=
  Commits stockRely (fun _ => True) stockMachine (fun c _ => SoldStays c.Releases) c

section Owing

variable {c : StockClient} {w : StockDb → StockDb} {L : List RowKey} {seen : List StockDb} {s : StockDb}

/-- **What is left behind is what is owed.** -/
theorem owes_of_leaves (h : ∀ s', StockRel L s s' → c.Timely seen s' → Leaves c.Releases L s' (w s')) :
    stockOwes c () w L seen s := by
  intro s' hs _ hallow
  have hleaves := h s' hs hallow
  refine ⟨trivial, fun r v hv ho => ?_, fun L' hdisj => ⟨⟨fun r hr hu => ?_, fun r v hv ho => ?_⟩,
    fun r v hv ho => (hleaves r).2 v hv ho⟩⟩
  · obtain ⟨hhandled, hdata⟩ := hleaves r
    rcases hhandled with ⟨-, hu⟩ | ⟨-, hsold⟩
    · exact absurd (hu v hv) ho
    · obtain ⟨v', hv', ho', hs'⟩ := hsold v hv ho
      exact ⟨v', hv', ho', hdata v hv ho, hs'⟩
  · rcases (hleaves r).1 with ⟨hr', -⟩ | ⟨hsame, -⟩
    · exact absurd hr (hdisj _ hr')
    · exact hsame hu
  · rcases (hleaves r).1 with ⟨-, hu⟩ | ⟨-, hsold⟩
    · exact absurd (hu v hv) ho
    · obtain ⟨v', hv', ho', -⟩ := hsold v hv ho
      exact ⟨v', hv', ho'⟩

/-- Nothing is written. -/
theorem owes_of_id : stockOwes c () id L seen s :=
  owes_of_leaves fun _ _ _ _ => ⟨Or.inr ⟨fun _ => rfl, fun v hv _ => ⟨v, hv, rfl, Or.inl⟩⟩,
    fun _ _ _ => rfl⟩

/-- The change is one to the line `r` only. -/
def OnlyLine (r : ℕ) (w : StockDb → StockDb) : Prop :=
  ∀ s r', r' ≠ r → (w s).db.resources.get? r' = s.db.resources.get? r' ∧ (w s).data r' = s.data r'

theorem onlyLine_id (r : ℕ) : OnlyLine r id := fun _ _ _ => ⟨rfl, rfl⟩

theorem OnlyLine.write {r : ℕ} (h : OnlyLine r w) (loaded edited : Resource) (data : Option String) :
    OnlyLine r fun s => (w s).writeResource r loaded edited data := by
  intro s r' hr
  obtain ⟨hrow, hdata⟩ := h s r' hr
  refine ⟨(Table.get?_modify_of_ne _ hr _).trans hrow, ?_⟩
  rw [← hdata]
  cases data with
  | none => rfl
  | some text => exact Function.update_of_ne hr _ _

/-- **An operation on one locked line** owes only what is true of that line. -/
theorem owes_of_line {r : ℕ} (hw : OnlyLine r w) (hL : .resource r ∈ L)
    (hsold : ∀ s, c.Timely seen s → ∀ v, s.db.resources.get? r = some v → v.orderId ≠ none →
      ∃ v', (w s).db.resources.get? r = some v' ∧ v'.orderId = v.orderId ∧ (w s).data r = s.data r ∧
        (v.status = .assigned → v'.status = .assigned)) : stockOwes c () w L seen s := by
  refine owes_of_leaves fun s' _ hallow r' => ?_
  by_cases hr : r' = r
  · subst hr
    by_cases hu : s'.db.Unsold r'
    · exact ⟨Or.inl ⟨hL, hu⟩, fun v hv ho => absurd (hu v hv) ho⟩
    · refine ⟨Or.inr ⟨fun h => absurd h hu, fun v hv ho => ?_⟩, fun v hv ho => ?_⟩
      · obtain ⟨v', hv', ho', -, hs⟩ := hsold s' hallow v hv ho
        exact ⟨v', hv', ho', fun ha => Or.inl (hs ha)⟩
      · obtain ⟨-, -, -, hdata, -⟩ := hsold s' hallow v hv ho
        exact hdata
  · obtain ⟨hrow, hdata⟩ := hw s' r' hr
    exact ⟨Or.inr ⟨fun _ => hrow, fun v hv _ => ⟨v, by rw [hrow, hv], rfl, Or.inl⟩⟩, fun _ _ _ => hdata⟩

/-- The condition makes sure that the line is not sold. -/
theorem owes_of_unsold {r : ℕ} (hw : OnlyLine r w) (hL : .resource r ∈ L)
    (hu : ∀ s, c.Timely seen s → s.db.Unsold r) : stockOwes c () w L seen s :=
  owes_of_line hw hL fun s hallow v hv ho => absurd (hu s hallow v hv) ho

end Owing

/-! ### The seller's operations -/

section Seller

variable {R : Rely StockDb RowKey} {I : StockDb → Prop}
  {w : StockDb → StockDb} {L : List RowKey} {seen : List StockDb} {s : StockDb}

theorem wp_getResource {r : ℕ}
    {Q : Resource → (StockDb → StockDb) → List RowKey → List StockDb → StockDb → Prop} :
    (getResource r).wp R I Q w L seen s ↔ ∀ s', R.rel L s s' → I s' →
      ∀ v, (w s').db.resources.get? r = some v → Q v w L (w s' :: seen) s' := by
  simp only [getResource, Tx.wp_bind, Tx.wp_read, Tx.wp_getOrElse]

/-- The line comes back with an owner; nothing is locked and nothing written. -/
theorem wp_verifyResourceOwnership {loaded : Resource} {seller : ℕ}
    {Q : Resource → (StockDb → StockDb) → List RowKey → List StockDb → StockDb → Prop}
    (h : ∀ owner seen' s', seen <:+ seen' → Q { loaded with sellerId := owner } w L seen' s') :
    (verifyResourceOwnership loaded seller).wp R I Q w L seen s := by
  have hself : ∀ seen' s', seen <:+ seen' → Q loaded w L seen' s' := h loaded.sellerId
  rw [verifyResourceOwnership]
  simp only [Tx.wp_ite, Tx.wp_pure, Tx.wp_bind, Tx.wp_read, Tx.wp_require]
  refine ⟨fun _ => hself _ _ (List.suffix_refl seen), fun _ s' _ _ _ => ?_⟩
  by_cases ho : loaded.orderId = none
  · rw [if_pos ho]
    exact h seller _ _ (List.suffix_cons _ _)
  · rw [if_neg ho]
    exact hself _ _ (List.suffix_cons _ _)

theorem wp_flushResource {r : ℕ} {loaded edited : Resource} {data : Option String}
    {Q : Unit → (StockDb → StockDb) → List RowKey → List StockDb → StockDb → Prop}
    (hskip : edited = loaded → data = none → Q () w L seen s)
    (hwrite : ∀ s', Q () (fun s => (w s).writeResource r loaded edited data) (.resource r :: L)
      (w s' :: seen) s') : (flushResource r loaded edited data).wp R I Q w L seen s := by
  rw [flushResource]
  simp only [Tx.wp_ite, Tx.wp_pure, Tx.wp_bind, Tx.wp_lock, Tx.wp_require, Tx.wp_modify]
  exact ⟨fun h => hskip h.1 h.2, fun _ s' _ _ _ => hwrite s'⟩

theorem wp_checkResourceData {data : String}
    {Q : Unit → (StockDb → StockDb) → List RowKey → List StockDb → StockDb → Prop}
    (h : Q () w L seen s) : (checkResourceData data).wp R I Q w L seen s := by
  rw [checkResourceData]
  simp only [Tx.wp_bind, Tx.wp_require]
  exact fun _ _ => h

/-- The end of an operation with a new content: whatever was flushed before, only the line at hand is
written to, and it is locked. -/
theorem wp_newContent {c : StockClient} {r : ℕ} {loaded resource edited : Resource} {data : String}
    (hcommit : ∀ s, (∃ seen', c.Timely seen' s) → s.db.Unsold r) :
    (do flushResource r loaded resource none
        assertNotInShop data resource.sellerId r
        flushResource r resource edited (some (strip data)) : StockTx Unit).wp stockRely
      (fun _ => True) (stockOwes c) id [] seen s := by
  have hend : ∀ (w : StockDb → StockDb) L seen s, OnlyLine r w →
      (do assertNotInShop data resource.sellerId r
          flushResource r resource edited (some (strip data)) : StockTx Unit).wp stockRely
        (fun _ => True) (stockOwes c) w L seen s := by
    intro w L seen s hw
    rw [assertNotInShop]
    simp only [Tx.wp_bind, Tx.wp_read, Tx.wp_require]
    intro s' _ _ _
    refine wp_flushResource (fun _ h => absurd h (by simp)) fun s'' => ?_
    exact owes_of_unsold (hw.write _ _ _) List.mem_cons_self fun s h => hcommit s ⟨_, h⟩
  rw [Tx.wp_bind]
  refine wp_flushResource (fun _ _ => hend _ _ _ _ (onlyLine_id r)) fun s' => ?_
  exact hend _ _ _ _ ((onlyLine_id r).write _ _ _)

theorem updateResourceData_owes (r seller : ℕ) (data : String) (s : StockDb) :
    (updateResourceData r seller data).wp stockRely (fun _ => True)
      (stockOwes (.seller (.updateResourceData r seller data))) id [] [] s := by
  rw [updateResourceData, Tx.wp_bind, wp_getResource]
  intro s₁ _ _ loaded _
  rw [Tx.wp_bind]
  refine wp_verifyResourceOwnership fun owner seen s _ => ?_
  rw [Tx.wp_bind, Tx.wp_require]
  intro _
  rw [Tx.wp_bind]
  exact wp_checkResourceData (wp_newContent fun s h => h.elim fun _ h => h)

theorem restockResource_owes (r seller : ℕ) (data : String) (s : StockDb) :
    (restockResource r seller data).wp stockRely (fun _ => True)
      (stockOwes (.seller (.restockResource r seller data))) id [] [] s := by
  rw [restockResource, Tx.wp_bind, wp_getResource]
  intro s₁ _ _ loaded _
  rw [Tx.wp_bind]
  refine wp_verifyResourceOwnership fun owner seen s _ => ?_
  rw [Tx.wp_bind, Tx.wp_require]
  intro _
  rw [Tx.wp_bind]
  exact wp_checkResourceData (wp_newContent fun s h => h.elim fun _ h => h)

/-- An edit that changes neither the order nor the status of the line keeps what is owed, whatever the row
says by the time of the flush. -/
theorem wp_flush_harmless {c : StockClient} {r : ℕ} {loaded edited : Resource}
    (ho : edited.orderId = loaded.orderId) (hs : edited.status = loaded.status) :
    (flushResource r loaded edited none).wp stockRely (fun _ => True) (stockOwes c) id [] seen s := by
  refine wp_flushResource (fun _ _ => owes_of_id) fun s' => ?_
  refine owes_of_line ((onlyLine_id r).write _ _ _) List.mem_cons_self fun s _ v hv hv' => ?_
  refine ⟨loaded.write edited v, ?_, if_pos ho, rfl, fun ha => ?_⟩
  · change (s.db.modifyResource r (Resource.write loaded edited)).resources.get? r = _
    rw [Db.modifyResource_resources, Table.get?_modify_self, hv, Option.map_some]
  · exact (if_pos hs).trans ha

theorem archiveResource_owes (r seller : ℕ) (s : StockDb) :
    (archiveResource r seller).wp stockRely (fun _ => True)
      (stockOwes (.seller (.archiveResource r seller))) id [] [] s := by
  rw [archiveResource, Tx.wp_bind, wp_getResource]
  intro s₁ _ _ loaded _
  rw [Tx.wp_bind]
  refine wp_verifyResourceOwnership fun owner seen s _ => ?_
  rw [Tx.wp_bind, Tx.wp_require]
  exact fun _ => wp_flush_harmless rfl rfl

theorem restoreResource_owes (r seller : ℕ) (s : StockDb) :
    (restoreResource r seller).wp stockRely (fun _ => True)
      (stockOwes (.seller (.restoreResource r seller))) id [] [] s := by
  rw [restoreResource, Tx.wp_bind, wp_getResource]
  intro s₁ _ _ loaded _
  rw [Tx.wp_bind]
  exact wp_verifyResourceOwnership fun owner seen s _ => wp_flush_harmless rfl rfl

/-- What the operation has loaded is what its first statement saw. -/
theorem loadedLine_of_suffix {s₁ : StockDb} {seen : List StockDb} (h : [s₁] <:+ seen) (r : ℕ) :
    loadedLine seen r = s₁.db.resources.get? r := by
  obtain ⟨later, rfl⟩ := h
  rw [loadedLine, List.getLast?_append, List.getLast?_singleton]
  rfl

theorem deleteResource_owes (r seller : ℕ) (s : StockDb) :
    (deleteResource r seller).wp stockRely (fun _ => True)
      (stockOwes (.seller (.deleteResource r seller))) id [] [] s := by
  rw [deleteResource, Tx.wp_bind, wp_getResource]
  intro s₁ _ _ loaded hloaded
  rw [Tx.wp_bind]
  refine wp_verifyResourceOwnership fun owner seen s hseen => ?_
  rw [Tx.wp_bind, Tx.wp_require]
  intro hstatus
  rw [Tx.wp_ite]
  refine ⟨fun _ => wp_flush_harmless rfl rfl, fun hbranch => ?_⟩
  rw [removeResource]
  simp only [Tx.wp_bind, Tx.wp_lock, Tx.wp_require, Tx.wp_modify]
  intro s' _ _ _
  -- Only a line loaded as deletable is deleted.
  have hdel : loaded.Deletable := by
    simp only [not_or, not_not] at hbranch
    exact ⟨hbranch.1, hstatus.resolve_right hbranch.2⟩
  refine owes_of_unsold (fun s r' hr => ⟨?_, rfl⟩) List.mem_cons_self fun s htimely => ?_
  · exact (Table.get?_erase _ _ _).trans (if_neg hr)
  · refine htimely ⟨loaded, ?_, hdel⟩
    rw [loadedLine_of_suffix (hseen.trans (List.suffix_cons _ _))]
    exact hloaded

theorem markResourceError_owes (r seller : ℕ) (s : StockDb) :
    (markResourceError r seller).wp stockRely (fun _ => True)
      (stockOwes (.seller (.markResourceError r seller))) id [] [] s := by
  rw [markResourceError, Tx.wp_bind, wp_getResource]
  intro s₁ _ _ loaded hloaded
  rw [Tx.wp_bind, Tx.wp_require]
  intro _
  refine wp_flushResource (fun _ _ => owes_of_id) fun s' => ?_
  refine owes_of_line ((onlyLine_id r).write _ _ _) List.mem_cons_self fun s htimely v hv ho => ?_
  refine ⟨loaded.write { loaded with status := .error } v, ?_, if_pos rfl, rfl, fun ha => ?_⟩
  · change (s.db.modifyResource r (Resource.write loaded _)).resources.get? r = _
    rw [Db.modifyResource_resources, Table.get?_modify_self, hv, Option.map_some]
  · by_cases herror : loaded.status = .error
    · exact (if_pos herror.symm).trans ha
    · have hline : loadedLine [id s', id s₁] r = some loaded :=
        (loadedLine_of_suffix (List.suffix_cons _ _) r).trans hloaded
      exact absurd (htimely ⟨loaded, hline, herror⟩ v hv ha) ho

/-- A transaction on the stock in the middle of its work. -/
def Tends (w : StockDb → StockDb) (L : List RowKey) (s : StockDb) : Prop :=
  ∀ s', StockRel L s s' → Leaves False L s' (w s')

theorem Tends.stable {L' : List RowKey} {s' : StockDb} (h : Tends w L s) (hL : L ⊆ L')
    (hs : StockRel L s s') : Tends w L' s' := by
  intro s'' hs' r
  obtain ⟨hhandled, hdata⟩ := h s'' (hs.trans ⟨hs'.lines.anti hL, hs'.data⟩) r
  exact ⟨hhandled.mono hL, hdata⟩

theorem tends_id : Tends id L s :=
  fun _ _ _ => ⟨Or.inr ⟨fun _ => rfl, fun v hv _ => ⟨v, hv, rfl, Or.inl⟩⟩, fun _ _ _ => rfl⟩

/-- Any change to a line that is held and not sold. -/
theorem Tends.take (h : Tends w L s) {r : ℕ} (hr : .resource r ∈ L ∧ s.db.Unsold r)
    {g : StockDb → StockDb} (hg : OnlyLine r g) : Tends (fun s => g (w s)) L s := by
  intro s' hs r'
  by_cases he : r' = r
  · subst he
    have hu := (unsold_iff (hs.lines.held r' hr.1 hr.2)).mpr hr.2
    exact ⟨Or.inl ⟨hr.1, hu⟩, fun v hv ho => absurd (hu v hv) ho⟩
  · obtain ⟨hrow, hdata⟩ := hg (w s') r' he
    have hr' := h s' hs r'
    simpa only [Leaves, Handled, hrow, hdata] using hr'

/-- A change to a line's visibility. -/
theorem Tends.show (h : Tends w L s) {r : ℕ} (hr : Workable L s.db r) (archived : Bool) :
    Tends (fun s => { w s with db := (w s).db.modifyResource r fun v =>
      { v with isArchived := archived } }) L s := by
  intro s' hs r'
  obtain ⟨hhandled, hdata⟩ := h s' hs r'
  refine ⟨?_, hdata⟩
  rcases hhandled with hfree | ⟨hsame, hsold⟩
  · exact Or.inl hfree
  by_cases he : r' = r
  · subst he
    rcases hr.stable (List.Subset.refl L) hs.lines with hfree | ⟨u, hu, hne⟩
    · exact Or.inl hfree
    · refine Or.inr ⟨fun hfree => absurd (hfree u hu) hne, fun v hv ho => ?_⟩
      obtain ⟨v', hv', ho', hs'⟩ := hsold v hv ho
      exact ⟨{ v' with isArchived := archived }, by
        rw [Db.modifyResource_resources, Table.get?_modify_self, hv', Option.map_some], ho', hs'⟩
  · simpa only [Handled, Db.modifyResource_resources, Table.get?_modify_of_ne _ he] using
      Or.inr ⟨hsame, hsold⟩

/-- The loop of a bulk action over lines it has locked. -/
theorem Tends.bulk (h : Tends w L s) (action : BulkAction) {rows : List (ℕ × Resource)}
    (hr : ∀ r ∈ rows, Workable L s.db r.1 ∧
      (r.2.Deletable → .resource r.1 ∈ L ∧ s.db.Unsold r.1)) :
    (Tx.forEach rows (bulkOne action)).wp stockRely (fun _ => True)
      (fun _ w L _ s => Tends w L s) w L seen s := by
  induction rows generalizing w L seen s with
  | nil => exact h
  | cons r rows ih =>
    change (bulkOne action r >>= fun _ => _).wp _ _ _ _ _ _ _
    rw [Tx.wp_bind, bulkOne, Tx.wp_ite]
    obtain ⟨hwork, hdel⟩ := hr r List.mem_cons_self
    refine ⟨fun hbranch => ?_, fun _ => ?_⟩
    · rw [removeResource]
      simp only [Tx.wp_bind, Tx.wp_lock, Tx.wp_require, Tx.wp_modify]
      intro s' hs _ _
      have h' := h.stable (List.subset_cons_self (.resource r.1) L) hs
      obtain ⟨hlock, hu⟩ := hdel hbranch.2
      have hu' := (unsold_iff (hs.lines.held r.1 hlock hu)).mpr hu
      refine ih (h'.take ⟨List.mem_cons_self, hu'⟩ fun s r' hr' =>
        ⟨(Table.get?_erase _ _ _).trans (if_neg hr'), rfl⟩) fun r' hr' => ?_
      obtain ⟨hwork', hdel'⟩ := hr r' (List.mem_cons_of_mem r hr')
      refine ⟨hwork'.stable (List.subset_cons_self _ L) hs.lines, fun hd => ?_⟩
      obtain ⟨hlock', hu''⟩ := hdel' hd
      exact ⟨List.mem_cons_of_mem _ hlock', (unsold_iff (hs.lines.held _ hlock' hu'')).mpr hu''⟩
    · rw [Tx.wp_modify]
      exact ih (h.show hwork _) fun r' hr' => hr r' (List.mem_cons_of_mem r hr')

/-- The rows of a selection are rows of the table. -/
theorem mem_bulkRows {variantId : ℕ} {selection : BulkSelection} {r : ℕ × Resource}
    (h : r ∈ s.bulkRows variantId selection) : s.db.resources.get? r.1 = some r.2 := by
  rw [Table.get?_eq_some_iff]
  cases selection with
  | ids resourceIds => exact (List.mem_filter.mp h).1
  | matching clauses =>
    have h' := List.mem_of_mem_take h
    rw [List.mem_mergeSort] at h'
    exact (List.mem_filter.mp h').1

theorem bulkResourceAction_owes (variantId seller : ℕ) (action : BulkAction)
    (selection : BulkSelection) (s : StockDb) :
    (bulkResourceAction variantId seller action selection).wp stockRely (fun _ => True)
      (stockOwes (.seller (.bulkResourceAction variantId seller action selection))) id [] [] s := by
  rw [bulkResourceAction]
  simp only [Tx.wp_bind, Tx.wp_read, Tx.wp_getOrElse, Tx.wp_require]
  intro s₁ _ _ variant _ s₂ _ _ _ s₃ _ _
  -- The rows are locked; each of them is sold, or held while it is not.
  have hlocked : ∀ rows : List (ℕ × Resource), (∀ r ∈ rows, s₃.db.resources.get? r.1 = some r.2) →
      ∀ r ∈ rows, Workable (rows.map (fun r => RowKey.resource r.1) ++ []) s₃.db r.1 ∧
        (r.2.Deletable → .resource r.1 ∈ rows.map (fun r => RowKey.resource r.1) ++ [] ∧
          s₃.db.Unsold r.1) := by
    intro rows hrows r hr
    have hlock : RowKey.resource r.1 ∈ rows.map (fun r => RowKey.resource r.1) ++ [] :=
      List.mem_append_left _ (List.mem_map.mpr ⟨r, hr, rfl⟩)
    have hfree : r.2.orderId = none → s₃.db.Unsold r.1 := by
      intro ho v hv
      obtain rfl : r.2 = v := by simpa [hrows r hr] using hv
      exact ho
    refine ⟨?_, fun hdel => ⟨hlock, hfree hdel.1⟩⟩
    by_cases ho : r.2.orderId = none
    · exact Or.inl ⟨hlock, hfree ho⟩
    · exact Or.inr ⟨r.2, hrows r hr, ho⟩
  -- What is done with those of them the action is for.
  have hrest : ∀ rows targets : List (ℕ × Resource), targets ⊆ rows →
      (∀ r ∈ rows, s₃.db.resources.get? r.1 = some r.2) → ∀ seen : List StockDb,
      (Tx.forEach targets (bulkOne action)).wp stockRely (fun _ => True)
        (stockOwes (.seller (.bulkResourceAction variantId seller action selection))) id
          (rows.map (fun r => RowKey.resource r.1) ++ []) seen s₃ := by
    intro rows targets hsub hrows seen
    refine Tx.wp_mono (tends_id.bulk action fun r hr => hlocked rows hrows r (hsub hr))
      fun _ w L seen s h => ?_
    exact owes_of_leaves fun s' hs _ => h s' hs
  have hmem : ∀ r ∈ s₃.bulkRows variantId selection, s₃.db.resources.get? r.1 = some r.2 :=
    fun r hr => mem_bulkRows hr
  change (bulkTargets action (s₃.bulkRows variantId selection) selection).wp _ _ _ _ _ _ _
  rcases selection with resourceIds | clauses
  · rw [bulkTargets, Tx.wp_bind, Tx.wp_require]
    exact fun _ _ => hrest _ _ (List.Subset.refl _) hmem _
  · rw [bulkTargets, Tx.wp_pure]
    intro _
    refine hrest _ _ ?_ hmem _
    split_ifs
    · exact List.Subset.refl _
    · exact List.filter_sublist.subset

theorem bulkAddResources_owes (cfg : Settings) (variantId seller : ℕ) (items : List String)
    (numbers : List ℕ) (s : StockDb) :
    (bulkAddResources cfg variantId seller items numbers).wp stockRely (fun _ => True)
      (stockOwes (.seller (.bulkAddResources cfg variantId seller items numbers))) id [] [] s := by
  have hadd : ∀ (rows : List (ℕ × String)) (w : StockDb → StockDb) L seen s, Tends w L s →
      (Tx.forEach rows fun r => addResource cfg variantId seller r.1 r.2).wp stockRely
        (fun _ => True) (fun _ w L _ s => Tends w L s) w L seen s := by
    intro rows
    induction rows with
    | nil => exact fun w L seen s h => h
    | cons r rows ih =>
      intro w L seen s h
      change (addResource cfg variantId seller r.1 r.2 >>= fun _ => _).wp _ _ _ _ _ _ _
      rw [Tx.wp_bind, addResource]
      simp only [Tx.wp_bind, Tx.wp_lock, Tx.wp_require, Tx.wp_modify]
      intro s' hs _ hfresh
      have hnone : (w s').db.resources.get? r.1 = none := by
        by_contra hne
        exact of_decide_eq_false hfresh (Or.inl hne)
      have h' := h.stable (List.subset_cons_self (.resource r.1) L) hs
      -- The number is free in the view, so it is not a sold line's.
      have hu : s'.db.Unsold r.1 := by
        intro v hv
        by_contra ho
        rcases (h.stable (List.Subset.refl L) hs s' (StockRel.refl _ _) r.1).1 with ⟨-, hu⟩ | ⟨-, hsold⟩
        · exact ho (hu v hv)
        · obtain ⟨v', hv', -⟩ := hsold v hv ho
          rw [hnone] at hv'
          exact absurd hv' (by simp)
      refine ih _ _ _ _ (h'.take ⟨List.mem_cons_self, hu⟩ fun s r' hr' => ⟨?_, ?_⟩)
      · exact Table.get?_insert_of_ne hr' _
      · exact Function.update_of_ne hr' _ _
  rw [bulkAddResources]
  simp only [Tx.wp_bind, Tx.wp_lock, Tx.wp_read, Tx.wp_getOrElse, Tx.wp_require]
  intro s₁ _ _ variant _ s₂ _ _ _ _ _ s₃ _ _
  refine Tx.wp_mono (hadd _ _ _ _ _ tends_id) fun _ w L seen s h => ?_
  exact owes_of_leaves fun s' hs _ => h s' hs

end Seller

/-! ### The main theorem -/

theorem protects_stock : Tx.Protects stockBooks id stockRely lineRely :=
  fun _ _ _ _ hL h => h.lines.anti hL

/-- A function that has no access to the contents. -/
theorem owes_of_handles {c : StockClient} {t : Tx Unit} {s : StockDb}
    (ht : t.wp lineRely (fun _ => True) (fun _ w L _ d => Handles c.Releases w L d) id [] [] s.db) :
    (t.zoom stockBooks id).wp stockRely (fun _ => True) (stockOwes c) id [] [] s := by
  refine Tx.wp_mono (Tx.wp_zoom protects_stock (fun _ _ => trivial) ht
    (fun _ => rfl) fun _ h => h) ?_
  rintro _ w' L' seen' s' ⟨w, L, hw, hget, hL, -, hoff⟩
  refine owes_of_leaves fun s'' hs _ r => ⟨?_, fun v hv ho => ?_⟩
  · have hhandled := (hw s''.db (hs.lines.anti hL)) r
    rw [← show (w' s'').db = w s''.db from hget s''] at hhandled
    exact hhandled.mono hL
  · change (stockBooks.set s''.db (w' s'')).data r = _
    rw [hoff]
    rfl

theorem stockMachine_correct : stockMachine.Correct stockRely (fun _ => True)
    fun c _ => SoldStays c.Releases := by
  intro c s _
  cases c with
  | order c => exact owes_of_handles (c := .order c) (c.handles s.db)
  | expire now batch => exact owes_of_handles (c := .expire now batch) (handles_expire now batch s.db)
  | seller c =>
    cases c with
    | updateResourceData r seller data => exact updateResourceData_owes r seller data s
    | restockResource r seller data => exact restockResource_owes r seller data s
    | archiveResource r seller => exact archiveResource_owes r seller s
    | restoreResource r seller => exact restoreResource_owes r seller s
    | deleteResource r seller => exact deleteResource_owes r seller s
    | markResourceError r seller => exact markResourceError_owes r seller s
    | bulkResourceAction v seller action selection =>
      exact bulkResourceAction_owes v seller action selection s
    | bulkAddResources cfg v seller items numbers =>
      exact bulkAddResources_owes cfg v seller items numbers s

theorem SoldStays.refl (released : Prop) (s : StockDb) : SoldStays released s s :=
  fun _ v hv _ => ⟨v, hv, rfl, rfl, Or.inl⟩

/-- **Sold stock is immutable to its seller**, in the runs in which the seller's operations commit in
time. No step detaches a line from its order, deletes it or changes its content, and only the commit of a
remedy or of the expiry takes it out of `assigned`. Over a whole run, then, a line stays with the one
order it was sold to. -/
theorem sold_stock_immutable {ι : Type} [DecidableEq ι] {s : StockDb}
    {C : Config StockDb RowKey Abort Unit StockClient ι} (h : Reachable stockMachine s C) :
    (∀ l (C' : Config StockDb RowKey Abort Unit StockClient ι), Step stockMachine C l C' →
        SoldStays (∃ c, l = some (c, ()) ∧ c.Releases) C.db C'.db) ∧
      ∀ C' : Config StockDb RowKey Abort Unit StockClient ι,
        Relation.ReflTransGen (Steps stockMachine) C C' → ∀ r v, C.db.db.resources.get? r = some v → v.orderId ≠ none →
          ∃ v', C'.db.db.resources.get? r = some v' ∧ v'.orderId = v.orderId ∧
            C'.db.data r = C.db.data r := by
  have hstep : ∀ C₁ : Config StockDb RowKey Abort Unit StockClient ι, Reachable stockMachine s C₁ →
      ∀ l (C₂ : Config StockDb RowKey Abort Unit StockClient ι), Step stockMachine C₁ l C₂ →
      SoldStays (∃ c, l = some (c, ()) ∧ c.Releases) C₁.db C₂.db := by
    intro C₁ h₁ l C₂ hl
    rcases l with _ | ⟨c, ⟨⟩⟩
    · rw [hl.db_eq]
      exact SoldStays.refl _ _
    · intro r v hv ho
      obtain ⟨v', hv', ho', hdata, hs⟩ := stockMachine_correct.commit trivial h₁ hl r v hv ho
      exact ⟨v', hv', ho', hdata, fun ha => (hs ha).imp_right fun hrel => ⟨c, rfl, hrel⟩⟩
  refine ⟨hstep C h, fun C' hrun => ?_⟩
  induction hrun with
  | refl => exact fun r v hv _ => ⟨v, hv, rfl, rfl⟩
  | tail hrun hlast ih =>
    intro r v hv ho
    obtain ⟨v₁, hv₁, ho₁, hdata₁⟩ := ih r v hv ho
    obtain ⟨l, hl⟩ := hlast
    obtain ⟨v₂, hv₂, ho₂, hdata₂, -⟩ :=
      hstep _ (h.trans hrun) l _ hl r v₁ hv₁ (by rwa [ho₁])
    exact ⟨v₂, hv₂, ho₂.trans ho₁, hdata₂.trans hdata₁⟩

/-! ### Sample runs -/

section Sample

/-- A shop with two packages and one line of stock in each. -/
def sampleStock : StockDb where
  db :=
    { Db.sample with
      variants := ⟨[(1, ⟨1, 50000, .instant, 24, true, none, 1, none, none⟩),
        (2, ⟨1, 20000, .instant, 24, true, none, 1, none, none⟩)], by decide⟩
      resources := ⟨[(1, ⟨1, 1, .available, none, none, none, none, false, 1⟩),
        (2, ⟨2, 1, .available, none, none, none, none, false, 2⟩)], by decide⟩ }
  data r := if r = 1 then "user|pass" else "other|pass"
  dataHash r := if r = 1 then "user|pass" else "other|pass"

/-- Buyer 2 buys line 1. -/
def sampleCheckout : StockClient := .order (.createOrder (Settings.sample 10) [] 1 ⟨2, 1, 1, none, none⟩)

/-- The seller edits line 2. -/
def sampleEdit : StockClient := .seller (.updateResourceData 2 1 "new|pass")

/-- After the checkout. -/
def sampleSold : StockDb := sampleCheckout.code.exec sampleStock

example : sampleSold.data 1 = "user|pass" := by decide +kernel

theorem sampleCheckout_runs : sampleCheckout.code.run sampleStock = .ok ((), sampleSold) :=
  Tx.run_of_commits (by decide +kernel)

/-- Line 1 is sold. -/
theorem sampleSold_line :
    ∃ v, sampleSold.db.resources.get? 1 = some v ∧ v.orderId = some 1 ∧ v.status = .assigned := by
  have h : ∃ v ∈ sampleSold.db.resources.get? 1, v.orderId = some 1 ∧ v.status = .assigned := by
    decide +kernel
  exact h

/-- The seller edits the line that is left; the one that was sold stays as it is. -/
theorem sold_stock_immutable_sample :
    ∃ C C' : Config StockDb RowKey Abort Unit StockClient ℕ, Reachable stockMachine sampleStock C ∧
      Relation.ReflTransGen (Steps stockMachine) C C' ∧ C'.db.data 2 = "new|pass" ∧
      ∃ v v', C.db.db.resources.get? 1 = some v ∧ v.orderId = some 1 ∧
        C'.db.db.resources.get? 1 = some v' ∧ v'.orderId = some 1 ∧ C'.db.data 1 = C.db.data 1 := by
  have hsold : Reachable stockMachine sampleStock
      (Config.idle sampleSold : Config StockDb RowKey Abort Unit StockClient ℕ) :=
    reaches_of_code 0 (c := sampleCheckout) (fun _ => trivial) sampleCheckout_runs
  -- Line 2 is not sold, so the edit may commit.
  have hfree : sampleSold.db.Unsold 2 := by
    have h : ∀ v ∈ sampleSold.db.resources.get? 2, v.orderId = none := by decide +kernel
    exact h
  have hedit : (stockMachine.code sampleEdit).run sampleSold = .ok ((), sampleEdit.code.exec sampleSold) :=
    Tx.run_of_commits (by decide +kernel)
  have hmore : Relation.ReflTransGen (Steps stockMachine)
      (Config.idle sampleSold : Config StockDb RowKey Abort Unit StockClient ℕ)
      (Config.idle (sampleEdit.code.exec sampleSold)) :=
    reaches_of_code 0 (c := sampleEdit) (fun _ => hfree) hedit
  obtain ⟨v, hv, ho, -⟩ := sampleSold_line
  obtain ⟨v', hv', ho', hdata⟩ :=
    (sold_stock_immutable hsold).2 _ hmore 1 v hv (by rw [ho]; simp)
  exact ⟨_, _, hsold, hmore, by decide +kernel, v, v', hv, ho, hv', ho'.trans ho, hdata⟩

/-- Without the condition, the checkout of the sample goes the same way. -/
theorem sampleSold_reached :
    Reachable (Machine.ofCode StockClient.code) sampleStock
      (Config.idle sampleSold : Config StockDb RowKey Abort Unit StockClient ℕ) :=
  reaches_of_code 0 (c := sampleCheckout) (fun _ => trivial) sampleCheckout_runs

/-- **A sold line is marked faulty by its seller**, in one step and without any concurrency; the buyer's
claim on it is refused from then on. -/
theorem sold_line_marked_error :
    ∃ C C' : Config StockDb RowKey Abort Unit StockClient ℕ,
      Reachable (Machine.ofCode StockClient.code) sampleStock C ∧
      Step (Machine.ofCode StockClient.code) C (some (.seller (.markResourceError 1 1), ())) C' ∧
      (∃ v, C.db.db.resources.get? 1 = some v ∧ v.orderId = some 1 ∧ v.status = .assigned) ∧
      (∃ v, C'.db.db.resources.get? 1 = some v ∧ v.orderId = some 1 ∧ v.status = .error) ∧
      ¬SoldStays False C.db C'.db ∧
      (OrderCall.createDispute (Settings.sample 20) 1 1 2 [1] [] none).code.run C'.db.db =
        .error (.api 400 "DISPUTE_RESOURCE_NOT_CLAIMABLE") := by
  have hmark : (markResourceError 1 1).run sampleSold = .ok ((), (markResourceError 1 1).exec sampleSold) :=
    Tx.run_of_commits (by decide +kernel)
  obtain ⟨w, L, seen, hw, hreach⟩ := reaches_commit (M := Machine.ofCode StockClient.code) (i := 0)
    (C := (Config.idle sampleSold : Config StockDb RowKey Abort Unit StockClient ℕ))
    (c := .seller (.markResourceError 1 1)) (w := id) (L := []) (s := [])
    (fun _ _ _ _ h => absurd h (by simp [Config.idle])) hmark
  have hcommit := Step.commit (M := Machine.ofCode StockClient.code)
    (put_session_self (Config.idle sampleSold : Config StockDb RowKey Abort Unit StockClient ℕ) 0
      ⟨.seller (.markResourceError 1 1), .pure (), w, L, seen⟩) rfl trivial
  have hrun := sampleSold_reached.trans (Relation.ReflTransGen.head
    ⟨none, Step.begin (M := Machine.ofCode StockClient.code) (i := 0) (.seller (.markResourceError 1 1)) rfl⟩
    hreach)
  have hdb : w sampleSold = (markResourceError 1 1).exec sampleSold := hw
  obtain ⟨v, hv, ho, hs⟩ := sampleSold_line
  have hmarked : ∃ v ∈ ((markResourceError 1 1).exec sampleSold).db.resources.get? 1,
      v.orderId = some 1 ∧ v.status = .error := by decide +kernel
  obtain ⟨u, hu, ho', hs'⟩ := hmarked
  have hrow : (w sampleSold).db.resources.get? 1 = some u := by
    rw [hdb]
    exact hu
  refine ⟨_, _, hrun, hcommit, ⟨v, hv, ho, hs⟩, ⟨u, hrow, ho', hs'⟩, fun hstays => ?_, ?_⟩
  · obtain ⟨u', hu', -, -, hassigned⟩ := hstays 1 v hv (by rw [ho]; simp)
    obtain rfl : u = u' := Option.some.inj (hrow.symm.trans hu')
    rcases hassigned hs with h | h
    · rw [hs'] at h
      exact absurd h (by decide)
    · exact h
  · have hrefused : (OrderCall.createDispute (Settings.sample 20) 1 1 2 [1] [] none).code.run
        ((markResourceError 1 1).exec sampleSold).db =
          .error (.api 400 "DISPUTE_RESOURCE_NOT_CLAIMABLE") :=
      Tx.run_of_aborts (by decide +kernel)
    rw [← hdb] at hrefused
    exact hrefused

/-- **A sold line is edited**: the seller's edit reads a line that is on sale, the buyer's checkout commits, and
the edit goes on. -/
theorem sold_line_edited :
    ∃ C C' : Config StockDb RowKey Abort Unit StockClient ℕ,
      Reachable (Machine.ofCode StockClient.code) sampleStock C ∧
      Relation.ReflTransGen (Steps (Machine.ofCode StockClient.code)) C C' ∧
      (∃ v, C.db.db.resources.get? 1 = some v ∧ v.orderId = some 1 ∧ v.status = .assigned) ∧
      C.db.data 1 = "user|pass" ∧ C'.db.data 1 = "new|pass" := by
  obtain ⟨C, hC, hsold, hedited⟩ := reaches_overtaken (i := 0) (j := 1) (by decide)
    (M := Machine.ofCode StockClient.code) (d := sampleStock)
    (c := .seller (.updateResourceData 1 1 "new|pass")) (b := sampleCheckout)
    (fun _ _ _ => trivial) rfl rfl sampleCheckout_runs (Tx.run_of_commits (by decide +kernel))
  refine ⟨C, _, hsold, hedited, ?_, ?_, ?_⟩
  · rw [hC]
    exact sampleSold_line
  · rw [hC]
    decide +kernel
  · decide +kernel

end Sample

end Marketplace
