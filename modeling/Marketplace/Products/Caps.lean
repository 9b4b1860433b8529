import Marketplace.Products.Status
import Marketplace.Sql.Play
import Marketplace.Sql.Rely

/-!
# A suspension and the cap of a tier

Sellers and admins in any number of sessions, with the sellers and the rules of their tiers unchanged. A
product that is suspended is to be left alone by its seller, and the operations of sellers are to keep the number of a
seller's active products within the cap.

Both are decided on what a session has read. `suspension_lifted_and_cap_exceeded` has a run in which an admin suspends a
product between the two, and one in which two products are activated at once. The condition
`CatalogCall.Undisturbed` is that neither happens, and `suspension_and_cap_kept` what holds of the runs
whose commits meet it.
-/

namespace Marketplace

open Sql

/-! ### What is to hold -/

/-- The status of a product. -/
def CatalogDb.statusOf (d : CatalogDb) (p : ℕ) : Option ProductStatus :=
  (d.products.get? p).map ListedProduct.status

/-- The cap of a seller; an internal one has none. -/
def CatalogDb.cap (d : CatalogDb) (sellerId : ℕ) : Option ℕ :=
  match d.sellers.get? sellerId with
  | none => d.maxActiveProducts .new
  | some seller => if seller.isInternal then none else d.maxActiveProducts seller.tier

/-- **The seller has no more active products than the tier allows.** -/
def CatalogDb.WithinCap (d : CatalogDb) (sellerId : ℕ) : Prop :=
  underLimit (d.activeCount sellerId) (d.cap sellerId)

instance decidableWithinCap (d : CatalogDb) (sellerId : ℕ) : Decidable (d.WithinCap sellerId) :=
  decidableUnderLimit _ _

/-! ### The sessions -/

/-- The calls, and what the rest of the shop does. -/
inductive CatalogCall
  | createProduct (productId sellerId categoryId : ℕ) (active : Bool) (serviceType : Option String)
  | updateSellerProductStatus (productId sellerId : ℕ) (status : SaleStatus)
  | deleteProduct (productId sellerId : ℕ)
  | bulkUpdateSellerProductStatus (productIds : List ℕ) (sellerId : ℕ) (status : SaleStatus)
  | suspendProduct (productId : ℕ)
  | adminUpdateProduct (productId : ℕ) (categoryId : Option ℕ) (status : Option ProductStatus)
  | adminBulkUpdateProducts (ids : List ℕ) (action : CatalogAction)
  /-- Categories, providers and pricing configurations become anything. -/
  | elsewhere (shop : ListedShop)

/-- What a session runs. -/
def CatalogCall.code : CatalogCall → CatalogTx Unit
  | .createProduct productId sellerId categoryId active serviceType =>
    createListed productId sellerId categoryId active serviceType
  | .updateSellerProductStatus productId sellerId status =>
    Marketplace.updateSellerProductStatus productId sellerId status
  | .deleteProduct productId sellerId => deleteListed productId sellerId
  | .bulkUpdateSellerProductStatus productIds sellerId status => do
    let _ ← Marketplace.bulkUpdateSellerProductStatus productIds sellerId status
    pure ()
  | .suspendProduct productId => Marketplace.suspendProduct productId
  | .adminUpdateProduct productId categoryId status => Marketplace.adminUpdateProduct productId categoryId status
  | .adminBulkUpdateProducts ids action => do
    let _ ← Marketplace.adminBulkUpdateProducts ids action
    pure ()
  | .elsewhere shop => Tx.modify fun d => { d with shop }

/-- An admin's operation. -/
def CatalogCall.ByAdmin : CatalogCall → Prop
  | .suspendProduct .. | .adminUpdateProduct .. | .adminBulkUpdateProducts .. => True
  | _ => False

instance decidableByAdmin (c : CatalogCall) : Decidable c.ByAdmin := by
  cases c <;> unfold CatalogCall.ByAdmin <;> infer_instance

/-- A product of the seller that is suspended now was suspended when it was loaded, or had the status that is asked
for, so that it is not written. -/
def CatalogDb.Spared (loaded now : CatalogDb) (sellerId : ℕ) (status : SaleStatus) (p : ℕ) : Prop :=
  now.statusOf p = some .suspended → ∀ row ∈ loaded.products.get? p, row.sellerId = sellerId →
    row.status = .suspended ∨ row.status = status.status

instance decidableSpared (loaded now : CatalogDb) (sellerId : ℕ) (status : SaleStatus) (p : ℕ) :
    Decidable (loaded.Spared now sellerId status p) := by
  unfold CatalogDb.Spared
  infer_instance

/-- The seller has no cap, or no more active products now than when they were counted. -/
def CatalogDb.NoneActivated (counted now : CatalogDb) (sellerId : ℕ) : Prop :=
  now.cap sellerId = none ∨ now.activeCount sellerId ≤ counted.activeCount sellerId

instance decidableNoneActivated (counted now : CatalogDb) (sellerId : ℕ) :
    Decidable (counted.NoneActivated now sellerId) := by
  unfold CatalogDb.NoneActivated
  infer_instance

/-- **No other session has suspended the products since they were loaded, nor activated one since the active ones
were counted.** The products are loaded by the first statement; the count is in the second after it, or after the
begin for a new product. -/
def CatalogCall.Undisturbed : CatalogCall → List CatalogDb → CatalogDb → Prop
  | .createProduct _ sellerId .., seen, d => ∀ x ∈ seen.reverse[1]?, x.NoneActivated d sellerId
  | .updateSellerProductStatus productId sellerId status, seen, d =>
    (∀ x ∈ seen.getLast?, x.Spared d sellerId status productId) ∧
      ∀ x ∈ seen.reverse[2]?, x.NoneActivated d sellerId
  | .deleteProduct productId sellerId, seen, d => ∀ x ∈ seen.getLast?, x.Spared d sellerId .paused productId
  | .bulkUpdateSellerProductStatus productIds sellerId status, seen, d =>
    (∀ x ∈ seen.getLast?, ∀ p ∈ productIds, x.Spared d sellerId status p) ∧
      (status = .active → ∀ x ∈ seen.reverse[2]?, x.NoneActivated d sellerId)
  | _, _, _ => True

instance decidableUndisturbedCatalog (c : CatalogCall) (seen : List CatalogDb) (d : CatalogDb) :
    Decidable (c.Undisturbed seen d) := by
  cases c <;> unfold CatalogCall.Undisturbed <;> infer_instance

/-- The sessions, in the runs in which no decision is overtaken. -/
def catalogMachine : Machine CatalogDb ℕ Abort Unit CatalogCall := ⟨CatalogCall.code, CatalogCall.Undisturbed⟩

/-- What the commit of a seller's operation does. -/
structure CatalogPost (c : CatalogCall) (d d' : CatalogDb) : Prop where
  suspended : ¬c.ByAdmin → ∀ p, d.statusOf p = some .suspended → d'.statusOf p = some .suspended
  cap : ¬c.ByAdmin → ∀ s, d.WithinCap s → d'.WithinCap s

/-! ### What the others leave alone -/

/-- A product stays with its seller; sellers and rules stay as they are. -/
structure CatalogRel (d d' : CatalogDb) : Prop where
  owner : ∀ p row, d.products.get? p = some row →
    ∃ row', d'.products.get? p = some row' ∧ row'.sellerId = row.sellerId
  sellers : d'.sellers = d.sellers
  rules : d'.maxActiveProducts = d.maxActiveProducts

/-- What the others leave alone. -/
def catalogRely : Rely CatalogDb ℕ where
  rel _ := CatalogRel
  refl _ _ := ⟨fun _ row h => ⟨row, h, rfl⟩, rfl, rfl⟩
  trans h h' := by
    refine ⟨fun p row hrow => ?_, h'.sellers.trans h.sellers, h'.rules.trans h.rules⟩
    obtain ⟨row', hrow', hs⟩ := h.owner p row hrow
    obtain ⟨row'', hrow'', hs'⟩ := h'.owner p row' hrow'
    exact ⟨row'', hrow'', hs'.trans hs⟩
  anti _ h := h

namespace CatalogRel

variable {d d' d'' : CatalogDb}

theorem refl (d : CatalogDb) : CatalogRel d d := catalogRely.refl [] d

theorem trans (h : CatalogRel d d') (h' : CatalogRel d' d'') : CatalogRel d d'' :=
  catalogRely.trans (L := []) h h'

theorem cap (h : CatalogRel d d') (s : ℕ) : d'.cap s = d.cap s := by
  rw [CatalogDb.cap, CatalogDb.cap, h.sellers, h.rules]

theorem modifyProduct (p : ℕ) (loaded edited : ListedProduct) (d : CatalogDb) :
    CatalogRel d (d.modifyProduct p (loaded.write edited)) := by
  refine ⟨fun q row hrow => ?_, rfl, rfl⟩
  change ∃ row', (d.products.modify p _).get? q = some row' ∧ _
  rw [Table.get?_modify, hrow]
  split_ifs
  · exact ⟨_, rfl, rfl⟩
  · exact ⟨row, rfl, rfl⟩

theorem addProduct (p : ℕ) (product : ListedProduct) (d : CatalogDb) : CatalogRel d (d.addProduct p product) := by
  refine ⟨fun q row hrow => ⟨row, ?_, rfl⟩, rfl, rfl⟩
  change (d.products.insert p product).get? q = some row
  rw [Table.get?_insert_eq]
  split_ifs with hq
  · rw [← hq, hrow, Option.getD_some]
  · exact hrow

end CatalogRel

/-! ### What a list of updates does -/

/-- The updates of a session, one after the other: a product, what it was loaded as and what it has become. -/
def CatalogDb.writeAll (us : List (ℕ × ListedProduct × ListedProduct)) (d : CatalogDb) : CatalogDb :=
  us.foldl (fun d u => d.modifyProduct u.1 (u.2.1.write u.2.2)) d

/-- An update that activates. -/
def activates (u : ℕ × ListedProduct × ListedProduct) : Bool :=
  u.2.2.status = .active ∧ u.2.1.status ≠ .active

section WriteAll

variable {us : List (ℕ × ListedProduct × ListedProduct)} {d : CatalogDb} {p s : ℕ}

theorem CatalogRel.writeAll (us : List (ℕ × ListedProduct × ListedProduct)) (d : CatalogDb) :
    CatalogRel d (d.writeAll us) := by
  induction us generalizing d with
  | nil => exact .refl d
  | cons u us ih => exact (CatalogRel.modifyProduct u.1 u.2.1 u.2.2 d).trans (ih _)

/-- A product none of whose updates changes the status. -/
theorem statusOf_writeAll (h : ∀ u ∈ us, u.1 = p → u.2.2.status = u.2.1.status) :
    (d.writeAll us).statusOf p = d.statusOf p := by
  induction us generalizing d with
  | nil => rfl
  | cons u us ih =>
    change ((d.modifyProduct u.1 (u.2.1.write u.2.2)).writeAll us).statusOf p = _
    rw [ih fun v hv => h v (List.mem_cons_of_mem _ hv)]
    change ((d.products.modify u.1 _).get? p).map ListedProduct.status = _
    rw [Table.get?_modify]
    split_ifs with hp
    · rw [Option.map_map, CatalogDb.statusOf]
      congr 1
      funext row
      simp [ListedProduct.write, writeColumn, h u List.mem_cons_self hp.symm]
    · rfl

/-- **Each update that activates counts for one.** -/
theorem activeCount_writeAll_le (us : List (ℕ × ListedProduct × ListedProduct)) (d : CatalogDb) (s : ℕ) :
    (d.writeAll us).activeCount s ≤ d.activeCount s + us.countP activates := by
  induction us generalizing d with
  | nil => exact le_refl _
  | cons u us ih =>
    refine (ih (d.modifyProduct u.1 (u.2.1.write u.2.2))).trans ?_
    have hone : (d.modifyProduct u.1 (u.2.1.write u.2.2)).activeCount s ≤
        d.activeCount s + if activates u = true then 1 else 0 := by
      change (d.products.modify u.1 _).sum _ ≤ _
      rcases hrow : d.products.get? u.1 with _ | row
      · rw [Table.modify_of_none hrow]
        exact Nat.le_add_right _ _
      · have hsum := Table.sum_modify hrow (u.2.1.write u.2.2)
          fun _ product => if product.sellerId = s ∧ product.status = .active then 1 else 0
        have hle : (if (u.2.1.write u.2.2 row).sellerId = s ∧ (u.2.1.write u.2.2 row).status = .active then 1 else 0) ≤
            (if row.sellerId = s ∧ row.status = .active then 1 else 0) + if activates u = true then 1 else 0 := by
          simp only [ListedProduct.write, writeColumn, activates]
          split_ifs <;> simp_all
        change _ = d.activeCount s + _ at hsum
        omega
    rw [List.countP_cons]
    omega

/-- The other sellers' products are not counted. -/
theorem activeCount_writeAll_of_ne {a : ℕ}
    (h : ∀ u ∈ us, ∀ row, d.products.get? u.1 = some row → row.sellerId = a) (hs : s ≠ a) :
    (d.writeAll us).activeCount s = d.activeCount s := by
  induction us generalizing d with
  | nil => rfl
  | cons u us ih =>
    change ((d.modifyProduct u.1 (u.2.1.write u.2.2)).writeAll us).activeCount s = _
    have hrest : ∀ v ∈ us, ∀ row, (d.modifyProduct u.1 (u.2.1.write u.2.2)).products.get? v.1 = some row →
        row.sellerId = a := by
      intro v hv row hrow
      change (d.products.modify u.1 _).get? v.1 = some row at hrow
      rw [Table.get?_modify] at hrow
      split_ifs at hrow with hk
      · obtain ⟨row₀, hrow₀, rfl⟩ := Option.map_eq_some_iff.mp hrow
        exact h v (List.mem_cons_of_mem _ hv) row₀ hrow₀
      · exact h v (List.mem_cons_of_mem _ hv) row hrow
    rw [ih hrest]
    change (d.products.modify u.1 _).sum _ = d.products.sum _
    rcases hrow : d.products.get? u.1 with _ | row
    · rw [Table.modify_of_none hrow]
    · have hsum := Table.sum_modify hrow (u.2.1.write u.2.2)
        fun _ product => if product.sellerId = s ∧ product.status = .active then 1 else 0
      have hown : ¬row.sellerId = s := fun hc => hs (hc.symm.trans (h u List.mem_cons_self row hrow))
      have hown' : ¬(u.2.1.write u.2.2 row).sellerId = s := hown
      simpa [hown, hown'] using hsum

/-- A new product counts if it is active. -/
theorem activeCount_addProduct_le (product : ListedProduct) :
    (d.addProduct p product).activeCount s ≤
      d.activeCount s + if product.sellerId = s ∧ product.status = .active then 1 else 0 := by
  change (d.products.insert p product).sum _ ≤ _
  rcases hp : d.products.get? p with _ | row
  · rw [Table.sum_insert hp]
    rfl
  · rw [Table.insert, dif_pos (List.mem_map.mpr ⟨_, Table.get?_eq_some_iff.mp hp, rfl⟩)]
    exact Nat.le_add_right _ _

end WriteAll

/-! ### Every call owes it -/

section Owes

variable {c : CatalogCall} {us : List (ℕ × ListedProduct × ListedProduct)} {w : CatalogDb → CatalogDb} {L : List ℕ}
  {s : List CatalogDb} {d x e : CatalogDb} {I : CatalogDb → Prop} {a : ℕ} {status : SaleStatus}

/-- What a session owes. -/
def CatalogOwes (c : CatalogCall) : Unit → (CatalogDb → CatalogDb) → List ℕ → List CatalogDb → CatalogDb → Prop :=
  Commits catalogRely (fun _ => True) catalogMachine (fun c _ d d' => CatalogPost c d d') c

/-- An admin's commit owes nothing to the seller. -/
theorem owes_byAdmin (hc : c.ByAdmin) (hw : ∀ e, CatalogRel e (w e)) : CatalogOwes c () w L s d :=
  fun e _ _ _ => ⟨trivial, ⟨fun h => absurd hc h, fun h => absurd hc h⟩, fun _ _ => hw e⟩

variable (status) in
/-- **The updates of a seller's session**, when no product of them has been suspended since it was loaded and those
it activates are within the cap. -/
theorem catalogPost_writeAll
    (hload : ∀ u ∈ us, x.products.get? u.1 = some u.2.1 ∧ u.2.1.sellerId = a ∧ u.2.1.status ≠ .suspended ∧
      u.2.2.status = status.status)
    (hrel : CatalogRel x e) (hspared : ∀ u ∈ us, x.Spared e a status u.1)
    (hcap : e.WithinCap a → underLimit (e.activeCount a + us.countP activates) (e.cap a)) :
    CatalogPost c e (e.writeAll us) := by
  have hkept := CatalogRel.writeAll us e
  refine ⟨fun _ p hp => ?_, fun _ b hb => ?_⟩
  · rw [statusOf_writeAll, hp]
    rintro u hu rfl
    obtain ⟨hx, howner, hlive, hst⟩ := hload u hu
    have := hspared u hu hp u.2.1 hx howner
    exact hst.trans (this.resolve_left hlive).symm
  · by_cases hba : b = a
    · subst hba
      rw [CatalogDb.WithinCap, hkept.cap]
      exact fun l hl => (activeCount_writeAll_le us e b).trans (hcap hb l hl)
    · have hown : ∀ u ∈ us, ∀ row, e.products.get? u.1 = some row → row.sellerId = a := by
        intro u hu row hrow
        obtain ⟨hx, howner, -⟩ := hload u hu
        obtain ⟨row', hrow', hs⟩ := hrel.owner u.1 u.2.1 hx
        rw [Option.some.inj (hrow.symm.trans hrow'), hs, howner]
      rw [CatalogDb.WithinCap, activeCount_writeAll_of_ne hown hba, hkept.cap]
      exact hb

theorem wp_flushAll (us : List (ℕ × ListedProduct × ListedProduct)) :
    (Tx.forEach us fun u => flushListed u.1 u.2.1 u.2.2).wp catalogRely I
      (fun _ w' _ s' d' => (w' = fun e => (w e).writeAll us) ∧ s <:+ s' ∧ CatalogRel d d') w L s d := by
  induction us generalizing w L s d with
  | nil => exact ⟨rfl, List.suffix_refl s, .refl d⟩
  | cons u us ih =>
    change (flushListed u.1 u.2.1 u.2.2 >>= fun _ => Tx.forEach us fun u => flushListed u.1 u.2.1 u.2.2).wp
      catalogRely I _ w L s d
    simp only [flushListed, Tx.wp_bind]
    intro d₁ hd₁ _
    change (Tx.forEach us fun u => flushListed u.1 u.2.1 u.2.2).wp catalogRely I _
      (fun e => (w e).modifyProduct u.1 (u.2.1.write u.2.2)) _ _ _
    refine Tx.wp_mono ih ?_
    rintro _ w' L' s' d' ⟨rfl, hs, hd'⟩
    exact ⟨rfl, (List.suffix_cons _ _).trans hs, hd₁.trans hd'⟩

/-- **What the seller is allowed**: the count of the second of three statements, and the cap. -/
theorem wp_activeProductAllowance {Q : ℕ × Option ℕ → (CatalogDb → CatalogDb) → List ℕ → List CatalogDb → CatalogDb → Prop}
    (h : ∀ x₁ x d', CatalogRel d x → CatalogRel x d' →
      Q (x.activeCount a, d'.cap a) id L (d' :: x :: x₁ :: s) d') :
    (activeProductAllowance a).wp catalogRely I Q id L s d := by
  simp only [activeProductAllowance, Tx.wp_bind, Tx.wp_read]
  intro d₁ hd₁ _ d₂ hd₂ _ d₃ hd₃ _
  have hsellers : d₃.sellers = d₁.sellers := hd₃.sellers.trans hd₂.sellers
  have hQ := h d₁ d₂ d₃ (hd₁.trans hd₂) hd₃
  rw [CatalogDb.cap, hsellers] at hQ
  dsimp only [id]
  rcases hseller : d₁.sellers.get? a with _ | seller
  · rw [hseller] at hQ
    exact hQ
  · rw [hseller] at hQ
    exact hQ

theorem wp_canActivate {Q : Unit → (CatalogDb → CatalogDb) → List ℕ → List CatalogDb → CatalogDb → Prop}
    (h : ∀ x₁ x d', CatalogRel d x → CatalogRel x d' → underLimit (x.activeCount a + 1) (d'.cap a) →
      Q () id L (d' :: x :: x₁ :: s) d') :
    (assertCanActivateSeller a).wp catalogRely I Q id L s d := by
  rw [assertCanActivateSeller, Tx.wp_bind]
  refine wp_activeProductAllowance fun x₁ x d' hx hd' => ?_
  rw [Tx.wp_require]
  exact h x₁ x d' hx hd'

/-- **A new product.** -/
theorem createProduct_owes (productId sellerId categoryId : ℕ) (active : Bool) (serviceType : Option String) :
    (createListed productId sellerId categoryId active serviceType).wp catalogRely (fun _ => True)
      (CatalogOwes (.createProduct productId sellerId categoryId active serviceType)) id [] [] d := by
  rw [createListed, Tx.wp_bind, Tx.wp_when]
  -- what is committed, once the cap leaves room for an active product
  have hcommit : ∀ {L s d}, (∀ e, CatalogRel d e → CatalogCall.Undisturbed
      (.createProduct productId sellerId categoryId active serviceType) s e → e.WithinCap sellerId →
      active = true → underLimit (e.activeCount sellerId + 1) (e.cap sellerId)) →
      CatalogOwes (.createProduct productId sellerId categoryId active serviceType) ()
        (fun e => e.addProduct productId (newListed sellerId categoryId active serviceType)) L s d := by
    intro L s d hroom e he _ hallow
    refine ⟨trivial, ⟨fun _ p hp => ?_, fun _ b hb l hl => ?_⟩, fun _ _ => CatalogRel.addProduct _ _ e⟩
    · obtain ⟨row, hrow, hst⟩ := Option.map_eq_some_iff.mp hp
      change ((e.products.insert productId _).get? p).map ListedProduct.status = _
      rw [Table.get?_insert_eq]
      split_ifs with hid
      · rw [← hid, hrow, Option.getD_some, Option.map_some, hst]
      · rw [hrow, Option.map_some, hst]
    · refine (activeCount_addProduct_le _).trans ?_
      change l ∈ e.cap b at hl
      split_ifs with hnew
      · obtain ⟨rfl, hactive⟩ := hnew
        cases active with
        | true => exact hroom e he hallow hb rfl l hl
        | false => exact absurd hactive (by simp [newListed])
      · exact hb l hl
  refine ⟨fun _ => wp_canActivate fun x₁ x d' hx hd' hroom => ?_, fun hinactive => ?_⟩
  · refine hcommit fun e he hallow _ _ l hl => ?_
    rcases hallow x (by simp) with hnone | hle
    · rw [hnone] at hl
      exact absurd hl (by simp)
    · exact (Nat.add_le_add_right hle 1).trans (hroom l (by rwa [← CatalogRel.cap he]))
  · exact hcommit fun _ _ _ _ hactive => absurd hactive hinactive

/-- **A seller changes the status of a product.** -/
theorem updateSellerProductStatus_owes (hc : ∀ s e, c.Undisturbed s e → (∀ x ∈ s.getLast?, x.Spared e a status p) ∧
      (status = .active → ∀ x ∈ s.reverse[2]?, x.NoneActivated e a)) :
    (updateSellerProductStatus p a status).wp catalogRely (fun _ => True) (CatalogOwes c) id [] [] d := by
  simp only [updateSellerProductStatus, getListed, Tx.wp_bind, Tx.wp_read, Tx.wp_getOrElse, Tx.wp_require,
    Tx.wp_when]
  intro d₁ _ _ row hrow howner hlive
  -- what is committed, if the cap leaves room for the product in case it is activated
  have hcommit : ∀ {L s d}, d₁ ∈ s.getLast? → CatalogRel d₁ d → (∀ e, CatalogRel d e → c.Undisturbed s e →
      e.WithinCap a → status = .active ∧ row.status ≠ .active → underLimit (e.activeCount a + 1) (e.cap a)) →
      CatalogOwes c () (fun e => e.modifyProduct p (row.write { row with status := status.status })) L s d := by
    intro L s d hlast hd hroom e he _ hallow
    have hrel := hd.trans he
    refine ⟨trivial, ?_, fun _ _ => CatalogRel.modifyProduct _ _ _ e⟩
    change CatalogPost c e (e.writeAll [(p, row, { row with status := status.status })])
    refine catalogPost_writeAll (x := d₁) (a := a) status ?_ hrel ?_ fun hcap => ?_
    · simpa using ⟨hrow, howner, hlive⟩
    · simpa using (hc s e hallow).1 d₁ hlast
    · by_cases hact : status = .active ∧ row.status ≠ .active
      · have hone : activates (p, row, { row with status := status.status }) = true := by
          simp [activates, hact.1, hact.2, SaleStatus.status]
        simpa [hone] using hroom e he hallow hcap hact
      · have hzero : activates (p, row, { row with status := status.status }) = false := by
          cases status <;> simp_all [activates, SaleStatus.status]
        simpa [hzero, CatalogDb.WithinCap] using hcap
  refine ⟨fun hact => wp_canActivate fun x₁ x d' hx hd' hroom => ?_, fun hno => ?_⟩
  · simp only [flushListed, Tx.wp_bind]
    intro d₂ hd₂ _
    refine hcommit (by simp) (hx.trans (hd'.trans hd₂)) fun e he hallow _ _ l hl => ?_
    rcases (hc _ e hallow).2 hact.1 x (by simp) with hnone | hle
    · rw [hnone] at hl
      exact absurd hl (by simp)
    · exact (Nat.add_le_add_right hle 1).trans (hroom l (by rwa [← CatalogRel.cap (hd₂.trans he)]))
  · simp only [flushListed, Tx.wp_bind]
    intro d₂ hd₂ _
    exact hcommit (by simp) hd₂ fun _ _ _ _ hact => absurd hact hno

/-- What the loop of a seller updates. -/
theorem mem_sellerBulk {byId : ℕ → Option ListedProduct} {headroom : Option ℕ} {ids : List ℕ}
    {u : ℕ × ListedProduct × ListedProduct} (h : u ∈ (sellerBulk a status byId headroom ids).updated) :
    u.1 ∈ ids ∧ byId u.1 = some u.2.1 ∧ u.2.1.sellerId = a ∧ u.2.1.status ≠ .suspended ∧
      u.2.2.status = status.status := by
  induction ids generalizing headroom with
  | nil => exact absurd h (by simp [sellerBulk])
  | cons productId rest ih =>
    have hrest : ∀ {headroom}, u ∈ (sellerBulk a status byId headroom rest).updated →
        u.1 ∈ productId :: rest ∧ byId u.1 = some u.2.1 ∧ u.2.1.sellerId = a ∧ u.2.1.status ≠ .suspended ∧
          u.2.2.status = status.status := fun hu =>
      ⟨List.mem_cons_of_mem _ (ih hu).1, (ih hu).2⟩
    rw [sellerBulk] at h
    rcases hid : byId productId with _ | product
    · rw [hid] at h
      exact hrest h
    · rw [hid] at h
      dsimp only at h
      split_ifs at h with howner hlive hact hfull
      · exact hrest h
      · exact hrest h
      · exact hrest h
      · rcases List.mem_cons.mp h with rfl | h
        · exact ⟨List.mem_cons_self, hid, not_not.mp howner, hlive, rfl⟩
        · exact hrest h
      · rcases List.mem_cons.mp h with rfl | h
        · exact ⟨List.mem_cons_self, hid, not_not.mp howner, hlive, rfl⟩
        · exact hrest h

/-- **The loop activates no more products than there is headroom for.** -/
theorem countP_sellerBulk_le (a : ℕ) (status : SaleStatus) (byId : ℕ → Option ListedProduct)
    (room : ℕ) (ids : List ℕ) :
    (sellerBulk a status byId (some room) ids).updated.countP activates ≤ room := by
  induction ids generalizing room with
  | nil => exact Nat.zero_le _
  | cons productId rest ih =>
    rw [sellerBulk]
    rcases hid : byId productId with _ | product
    · exact ih _
    · dsimp only
      split_ifs with howner hlive hact hfull
      · exact ih _
      · exact ih _
      · exact ih _
      · -- one of the places is taken
        obtain ⟨room, rfl⟩ := Nat.exists_eq_succ_of_ne_zero fun hc => hfull (congrArg some hc)
        rw [BulkResult.update, List.countP_cons]
        split_ifs
        · exact Nat.succ_le_succ (ih _)
        · exact Nat.le_succ_of_le (ih _)
      · have hnot : activates (productId, product, { product with status := status.status }) = false := by
          cases status <;> simp_all [activates, SaleStatus.status]
        rw [BulkResult.update, List.countP_cons, hnot]
        exact ih _

/-- A session that pauses activates nothing. -/
theorem countP_paused {us : List (ℕ × ListedProduct × ListedProduct)}
    (h : ∀ u ∈ us, u.2.2.status = SaleStatus.paused.status) : us.countP activates = 0 := by
  rw [List.countP_eq_zero]
  intro u hu
  simp [activates, h u hu, SaleStatus.status]

/-- **A seller changes the status of many products.** -/
theorem bulkUpdateSellerProductStatus_owes (productIds : List ℕ) :
    (bulkUpdateSellerProductStatus productIds a status >>= fun _ => pure ()).wp catalogRely (fun _ => True)
      (CatalogOwes (.bulkUpdateSellerProductStatus productIds a status)) id [] [] d := by
  simp only [bulkUpdateSellerProductStatus, Tx.wp_bind, Tx.wp_read]
  intro d₁ _ _
  -- what is committed, once the updates that activate are within the cap
  have hcommit : ∀ {headroom L s d}, d₁ ∈ s.getLast? → CatalogRel d₁ d →
      (∀ e t, CatalogRel d e → CatalogCall.Undisturbed (.bulkUpdateSellerProductStatus productIds a status)
        (t ++ s) e → e.WithinCap a →
        underLimit (e.activeCount a +
          (sellerBulk a status d₁.products.get? headroom (fromKeys productIds)).updated.countP activates) (e.cap a)) →
      (sellerBulk a status d₁.products.get? headroom (fromKeys productIds)).flush.wp catalogRely (fun _ => True)
        (fun _ => CatalogOwes (.bulkUpdateSellerProductStatus productIds a status) ()) id L s d := by
    intro headroom L s d hlast hd hroom
    set r := sellerBulk a status d₁.products.get? headroom (fromKeys productIds) with hr
    have hperm := List.perm_insertionSort (fun a b : ℕ × ListedProduct × ListedProduct => a.1 ≤ b.1) r.updated
    refine Tx.wp_mono (wp_flushAll _) ?_
    rintro _ _ L' _ d' ⟨rfl, ⟨t, rfl⟩, hd'⟩ e he _ hallow
    have hlast' : d₁ ∈ (t ++ s).getLast? := by
      rw [List.getLast?_append, hlast]
      rfl
    refine ⟨trivial, ?_, fun _ _ => CatalogRel.writeAll _ e⟩
    refine catalogPost_writeAll (x := d₁) (a := a) status (fun u hu => ?_) (hd.trans (hd'.trans he))
      (fun u hu => ?_) fun hcap => ?_
    · exact (mem_sellerBulk (hperm.mem_iff.mp hu)).2
    · refine hallow.1 d₁ hlast' u.1 ?_
      have := (mem_sellerBulk (hperm.mem_iff.mp hu)).1
      simpa [fromKeys] using this
    · rw [hperm.countP_eq]
      exact hroom e t (hd'.trans he) hallow hcap
  cases status with
  | paused =>
    refine hcommit (by simp) (.refl d₁) fun e _ _ _ hcap => ?_
    rw [countP_paused fun u hu => (mem_sellerBulk hu).2.2.2.2]
    exact hcap
  | active =>
    simp only [sellerHeadroom, Tx.wp_bind]
    refine wp_activeProductAllowance fun x₁ x d' hx hd' => ?_
    refine hcommit (by simp) (hx.trans hd') fun e t he hallow hcap l hl => ?_
    have hl' : d'.cap a = some l := by rwa [← CatalogRel.cap he]
    change e.activeCount a + (sellerBulk a .active _ ((d'.cap a).map fun limit => limit - x.activeCount a) _
      ).updated.countP activates ≤ l
    rw [hl', Option.map_some]
    have hle := countP_sellerBulk_le a .active d₁.products.get? (l - x.activeCount a) (fromKeys productIds)
    rcases hallow.2 rfl x (by simp) with hnone | hcount
    · rw [hnone] at hl
      exact absurd hl (by simp)
    · have := hcap l hl
      omega

variable (us) in
/-- **An admin's updates** owe nothing. -/
theorem wp_flushAll_byAdmin (hc : c.ByAdmin) (hw : ∀ e, w e = e) :
    (Tx.forEach us fun u => flushListed u.1 u.2.1 u.2.2).wp catalogRely (fun _ => True)
      (fun _ => CatalogOwes c ()) w L s d := by
  refine Tx.wp_mono (wp_flushAll us) ?_
  rintro _ w' L' s' d' ⟨rfl, -⟩
  exact owes_byAdmin hc fun e => by
    rw [hw]
    exact CatalogRel.writeAll us e

/-- The category is looked up; nothing is written. -/
theorem wp_validateCategories {ids : List ℕ} :
    (Tx.forEach ids validateCategoryExists).wp catalogRely I (fun _ w' _ _ _ => w' = w) w L s d := by
  induction ids generalizing s d with
  | nil => rfl
  | cons categoryId ids ih =>
    change (validateCategoryExists categoryId >>= fun _ => Tx.forEach ids validateCategoryExists).wp _ _ _ _ _ _ _
    simp only [validateCategoryExists, Tx.wp_bind, Tx.wp_read, Tx.wp_require]
    exact fun _ _ _ _ => ih

theorem suspendProduct_owes (productId : ℕ) :
    (suspendProduct productId).wp catalogRely (fun _ => True) (CatalogOwes (.suspendProduct productId)) id [] [] d := by
  simp only [suspendProduct, getListed, Tx.wp_bind, Tx.wp_read, Tx.wp_getOrElse]
  intro d₁ _ _ row _
  exact wp_flushAll_byAdmin [(productId, row, { row with status := .suspended })] trivial fun _ => rfl

theorem adminUpdateProduct_owes (productId : ℕ) (categoryId : Option ℕ) (newStatus : Option ProductStatus) :
    (adminUpdateProduct productId categoryId newStatus).wp catalogRely (fun _ => True)
      (CatalogOwes (.adminUpdateProduct productId categoryId newStatus)) id [] [] d := by
  simp only [adminUpdateProduct, getListed, Tx.wp_bind, Tx.wp_read, Tx.wp_getOrElse]
  intro d₁ _ _ row _
  refine Tx.wp_mono wp_validateCategories ?_
  rintro _ _ L' s' d' rfl
  exact wp_flushAll_byAdmin [(productId, row, { row with
    categoryId := categoryId.getD row.categoryId, status := newStatus.getD row.status })] trivial fun _ => rfl

/-- The action is checked; nothing is written. -/
theorem wp_validate (action : CatalogAction) : action.validate.wp catalogRely I (fun _ w' _ _ _ => w' = w) w L s d := by
  cases action with
  | setCategory categoryId =>
    change (validateCategoryExists categoryId).wp _ _ _ _ _ _ _
    simp only [validateCategoryExists, Tx.wp_bind, Tx.wp_read, Tx.wp_require]
    exact fun _ _ _ _ => trivial
  | setStatus _ => exact rfl
  | hideAdmin => exact rfl
  | unhideAdmin => exact rfl

theorem adminBulkUpdateProducts_owes (ids : List ℕ) (action : CatalogAction) :
    (adminBulkUpdateProducts ids action >>= fun _ => pure ()).wp catalogRely (fun _ => True)
      (CatalogOwes (.adminBulkUpdateProducts ids action)) id [] [] d := by
  rw [adminBulkUpdateProducts, Tx.wp_bind, Tx.wp_bind]
  refine Tx.wp_mono (wp_validate action) ?_
  rintro _ _ L s d rfl
  simp only [Tx.wp_bind, Tx.wp_read]
  intro d₁ _ _ d₂ _ _
  exact wp_flushAll_byAdmin _ trivial fun _ => rfl

end Owes

theorem catalogMachine_correct :
    catalogMachine.Correct catalogRely (fun _ => True) fun c _ d d' => CatalogPost c d d' := by
  intro c d _
  cases c with
  | createProduct productId sellerId categoryId active serviceType =>
    exact createProduct_owes productId sellerId categoryId active serviceType
  | updateSellerProductStatus productId sellerId status =>
    exact updateSellerProductStatus_owes fun _ _ h => ⟨h.1, fun _ => h.2⟩
  | deleteProduct productId sellerId =>
    exact updateSellerProductStatus_owes fun _ _ h => ⟨h, fun hc => SaleStatus.noConfusion hc⟩
  | bulkUpdateSellerProductStatus productIds sellerId status => exact bulkUpdateSellerProductStatus_owes productIds
  | suspendProduct productId => exact suspendProduct_owes productId
  | adminUpdateProduct productId categoryId status => exact adminUpdateProduct_owes productId categoryId status
  | adminBulkUpdateProducts ids action => exact adminBulkUpdateProducts_owes ids action
  | elsewhere shop =>
    exact fun e _ _ _ => ⟨trivial, ⟨fun _ _ h => h, fun _ _ h => h⟩, fun _ _ => ⟨fun _ row h => ⟨row, h, rfl⟩, rfl, rfl⟩⟩

/-- A step that is not an admin's commit. -/
def SellerStep {ι : Type} [DecidableEq ι] (M : Machine CatalogDb ℕ Abort Unit CatalogCall)
    (C C' : Config CatalogDb ℕ Abort Unit CatalogCall ι) : Prop :=
  ∃ l, Step M C l C' ∧ ∀ r ∈ l, ¬r.1.ByAdmin

/-- **A suspension and the cap of a tier bind the seller.** From a state of a run in which no decision is overtaken, on
through steps of which none is an admin's commit, what is suspended stays suspended, and a seller within the cap stays
within the cap. -/
theorem suspension_and_cap_kept {ι : Type} [DecidableEq ι] {d : CatalogDb}
    {C C' : Config CatalogDb ℕ Abort Unit CatalogCall ι} (h : Reachable catalogMachine d C)
    (hsteps : Relation.ReflTransGen (SellerStep catalogMachine) C C') :
    (∀ p, C.db.statusOf p = some .suspended → C'.db.statusOf p = some .suspended) ∧
      ∀ s, C.db.WithinCap s → C'.db.WithinCap s := by
  suffices hall : Reachable catalogMachine d C' ∧
      (∀ p, C.db.statusOf p = some .suspended → C'.db.statusOf p = some .suspended) ∧
        ∀ s, C.db.WithinCap s → C'.db.WithinCap s from hall.2
  induction hsteps with
  | refl => exact ⟨h, fun _ hp => hp, fun _ hs => hs⟩
  | @tail C₁ C₂ _ hstep ih =>
    obtain ⟨l, hl, hseller⟩ := hstep
    obtain ⟨hreach, hsusp, hcap⟩ := ih
    refine ⟨hreach.tail ⟨l, hl⟩, ?_⟩
    rcases l with _ | ⟨c, ⟨⟩⟩
    · rw [hl.db_eq]
      exact ⟨hsusp, hcap⟩
    · have hpost := catalogMachine_correct.commit trivial hreach hl
      have hc := hseller _ rfl
      exact ⟨fun p hp => hpost.suspended hc p (hsusp p hp), fun s hs => hpost.cap hc s (hcap s hs)⟩

/-! ### An admin in between, and two activations at once -/

/-- A product that is not on sale. -/
def samplePaused : ListedProduct := { newListed 10 1 false none with status := .paused }

/-- A new seller, who may have one active product, with two that are paused. -/
def sampleCatalog : CatalogDb where
  products := ⟨[(1, samplePaused), (2, samplePaused)], by decide⟩
  sellers := ⟨[(10, ⟨.new, false⟩)], by decide⟩
  maxActiveProducts _ := some 1
  shop := ⟨.empty, .empty, .empty⟩

/-- The seller activates a product. -/
def sampleActivate (p : ℕ) : CatalogCall := .updateSellerProductStatus p 10 .active

/-- An admin suspends the second product, and the seller activates the first. -/
theorem suspension_and_cap_kept_sample :
    ∃ C C' : Config CatalogDb ℕ Abort Unit CatalogCall (Fin 2), Reachable catalogMachine sampleCatalog C ∧
      Relation.ReflTransGen (SellerStep catalogMachine) C C' ∧ C'.db.statusOf 1 = some .active ∧
      C'.db.statusOf 2 = some .suspended ∧ C'.db.WithinCap 10 := by
  obtain ⟨C, C', c, a, hC, hstep, hc, hsusp, hcap, hact⟩ := Machine.commits_of_play (M := catalogMachine) (ι := Fin 2)
    (d := sampleCatalog)
    (P := fun c _ d d' => ¬c.ByAdmin ∧ d.statusOf 2 = some .suspended ∧ d.WithinCap 10 ∧ d'.statusOf 1 = some .active)
    (fun c s d => decide (c.Undisturbed s d))
    (.begin 0 (sampleActivate 1) :: List.replicate 3 (.step 0) ++ .begin 1 (.suspendProduct 2) ::
      List.replicate 4 (.step 1) ++ List.replicate 3 (.step 0)) (.step 0)
    (fun c s d h => (of_decide_eq_true h : c.Undisturbed s d)) (by decide)
  have hsteps : Relation.ReflTransGen (SellerStep catalogMachine) C C' :=
    .single ⟨_, hstep, fun r hr => by obtain rfl := Option.some.inj hr; exact hc⟩
  have hkept := suspension_and_cap_kept hC hsteps
  exact ⟨C, C', hC, hsteps, hact, hkept.1 2 hsusp, hkept.2 10 hcap⟩

/-- **The seller overtakes both rules**: a product an admin has suspended is on sale again when the seller, who loaded
it before, commits, and of two activations at once each counts without the other. -/
theorem suspension_lifted_and_cap_exceeded :
    (∃ C C' : Config CatalogDb ℕ Abort Unit CatalogCall (Fin 2), ∃ c a,
      Reachable (Machine.ofCode CatalogCall.code) sampleCatalog C ∧
        Step (Machine.ofCode CatalogCall.code) C (some (c, a)) C' ∧ ¬c.ByAdmin ∧
          C.db.statusOf 1 = some .suspended ∧ C'.db.statusOf 1 = some .active) ∧
      ∃ C C' : Config CatalogDb ℕ Abort Unit CatalogCall (Fin 2), ∃ c a,
        Reachable (Machine.ofCode CatalogCall.code) sampleCatalog C ∧
          Step (Machine.ofCode CatalogCall.code) C (some (c, a)) C' ∧ ¬c.ByAdmin ∧
            C.db.WithinCap 10 ∧ ¬C'.db.WithinCap 10 := by
  constructor
  · exact Machine.commits_of_play (M := Machine.ofCode CatalogCall.code) (ι := Fin 2) (d := sampleCatalog)
      (P := fun c _ d d' => ¬c.ByAdmin ∧ d.statusOf 1 = some .suspended ∧ d'.statusOf 1 = some .active)
      (fun _ _ _ => true)
      (.begin 0 (sampleActivate 1) :: List.replicate 4 (.step 0) ++ .begin 1 (.suspendProduct 1) ::
        List.replicate 4 (.step 1) ++ List.replicate 2 (.step 0)) (.step 0)
      (fun _ _ _ _ => trivial) (by decide)
  · exact Machine.commits_of_play (M := Machine.ofCode CatalogCall.code) (ι := Fin 2) (d := sampleCatalog)
      (P := fun c _ d d' => ¬c.ByAdmin ∧ d.WithinCap 10 ∧ ¬d'.WithinCap 10) (fun _ _ _ => true)
      (.begin 0 (sampleActivate 1) :: .begin 1 (sampleActivate 2) :: List.replicate 4 (.step 0) ++
        List.replicate 4 (.step 1) ++ List.replicate 3 (.step 0) ++ List.replicate 2 (.step 1)) (.step 1)
      (fun _ _ _ _ => trivial) (by decide)

end Marketplace
