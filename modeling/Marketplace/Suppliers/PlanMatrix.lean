import Marketplace.Suppliers.ProxySources

/-!
# What was sold keeps its plan

An import may move a source from its single plan to a matrix, and then the keys the source sells have to
be in the matrix. `mergePlanIds` puts the keys there that the tables of its products list, and the plans of
the import over them.

That leaves out the products priced by a formula, which list nothing until they are edited, and the check
against another plan under a key looks at the matrix there was, which is empty. `KeepsPlan` is what it
takes for a key to keep its plan, and `import_keeps_plans` that an import keeps the plans of what was sold
exactly when every key does; `formula_key_loses_plan` is an import that leaves an ordered key without a
plan.
-/

namespace Marketplace

open Sql

/-! ### What is sold, and what it delivers -/

/-- The plan an order of a key buys, if one is configured. -/
def SourceDb.planOf (d : SourceDb) (pid : ℕ) (k : String) : Option String :=
  (d.providers.get? pid).bind fun provider => truthy (resolvePlanId provider.config k)

/-- The product is a configured one of the provider. -/
def SourceProduct.IsConfig (p : SourceProduct) (pid : ℕ) : Prop :=
  p.providerId = some pid ∧ p.pricingStrategy = some "config"

instance (p : SourceProduct) (pid : ℕ) : Decidable (p.IsConfig pid) :=
  inferInstanceAs (Decidable (_ ∧ _))

/-- A product of the provider accepts a configuration with this key. -/
def SourceDb.Sells (d : SourceDb) (pid : ℕ) (k : String) : Prop :=
  ∃ row ∈ d.products.rows, row.2.IsConfig pid ∧ ∃ cfg, validate row.2.pricingParams cfg = true ∧
    (normalizeUserConfig row.2.pricingParams cfg).selectionKey = k

/-- The key an item is sold under. -/
def PlanImportItem.key? (spec : PlanImportItem) (d : SourceDb) (pid : ℕ) : Option String :=
  (d.catalog.get? (pid, spec.externalId)).map fun item =>
    planKey (spec.plan item).1 (spec.plan item).2.1 (spec.plan item).2.2

section Condition

variable (F : Floats)

/-- The parameters a product goes into the migration with: an edited one has a table. -/
def shownParams (items : List PlanImportItem) (row : ℕ × SourceProduct) : PricingParams :=
  if ∃ spec ∈ items, spec.target = some row.1 then row.2.pricingParams.tabled F else row.2.pricingParams

/-- A product of the provider lists the key, as it goes into the migration. -/
def SourceDb.Shows (d : SourceDb) (pid : ℕ) (items : List PlanImportItem) (k : String) : Prop :=
  ∃ row ∈ d.products.rows, row.2.IsConfig pid ∧ (shownParams F items row).Lists k

/-- **What it takes for a key to keep its plan**: the source is not moved to a matrix, or no item gives the key
another plan and an item or the table of a product has it. -/
def KeepsPlan (d : SourceDb) (pid : ℕ) (config : DProxyConfig) (items : List PlanImportItem) (k : String) : Prop :=
  config.planIds.rows ≠ [] ∨ items = [] ∨ ∀ legacy ∈ truthy config.planId,
    (∀ spec ∈ items, spec.key? d pid = some k → spec.externalId = legacy) ∧
      ((∃ spec ∈ items, spec.key? d pid = some k) ∨ d.Shows F pid items k)

end Condition

/-! ### One item -/

section Items

variable {F : Floats} {pid : ℕ} {provider : Source} {scope : SourceScope} {sellerId : Option ℕ}

/-- The codes of an item that passes the checks are those of a key in its normal form. -/
theorem run_validateItem {item : CatalogItem} {spec : PlanImportItem} {d d' : SourceDb} {r : String × String × ℕ}
    (h : (validateItem item spec).run d = .ok (r, d')) :
    d' = d ∧ r = spec.plan item ∧ (r.1 ≠ "" ∧ r.2.1 ≠ "" ∧ 1 ≤ r.2.2) ∧
      '|' ∉ r.1.toList ∧ '|' ∉ r.2.1.toList := by
  simp only [validateItem, Tx.run_bind_eq_ok, Tx.run_require_eq_ok, Tx.run_pure] at h
  obtain ⟨_, d1, ⟨_, rfl⟩, _, d2, ⟨_, rfl⟩, _, d3, ⟨_, rfl⟩, _, d4, ⟨hne, rfl⟩, _, d5, ⟨hbar, rfl⟩, h⟩ := h
  obtain ⟨rfl, rfl⟩ : _ ∧ _ := by simpa using h
  exact ⟨rfl, rfl, hne, hbar⟩

theorem run_requireMargin {price : ℤ} {cost : Option ℤ} {margin : ℚ} {d d' : SourceDb} {u : Unit}
    (h : (requireMargin F price cost margin).run d = .ok (u, d')) : d' = d := by
  rw [requireMargin, Tx.run_require_eq_ok] at h
  exact h.2

theorem strip_toList (s : String) : (strip s).toList = stripChars isSpace s.toList := by
  rw [strip, String.toList_ofList]

/-- A plan of an item is stripped. -/
theorem plan_stripped (spec : PlanImportItem) (item : CatalogItem) :
    strip (spec.plan item).1 = (spec.plan item).1 ∧ strip (spec.plan item).2.1 = (spec.plan item).2.1 := by
  have hs : ∀ s : String, strip (strip s) = strip s := fun s => by
    rw [← String.toList_inj, strip_toList, strip_toList, stripChars_idem]
  refine ⟨?_, hs _⟩
  simp only [PlanImportItem.plan]
  split_ifs <;> exact hs _

/-- The key of an item that passes the checks is an offer under its normal key. -/
theorem planRow_plan {item : CatalogItem} {spec : PlanImportItem}
    (hne : (spec.plan item).1 ≠ "" ∧ (spec.plan item).2.1 ≠ "" ∧ 1 ≤ (spec.plan item).2.2)
    (hbar : '|' ∉ (spec.plan item).1.toList ∧ '|' ∉ (spec.plan item).2.1.toList) {price : ℤ} (hp : 0 < price) :
    planRow (planKey (spec.plan item).1 (spec.plan item).2.1 (spec.plan item).2.2, .int price) =
      some (planKey (spec.plan item).1 (spec.plan item).2.1 (spec.plan item).2.2, price) := by
  obtain ⟨h1, h2⟩ := plan_stripped spec item
  have hparts : KeyParts (spec.plan item).1 (spec.plan item).2.1 ((spec.plan item).2.2 : ℤ) := by
    refine ⟨fun s hs => ?_, by exact_mod_cast hne.2.2⟩
    simp only [List.mem_cons, List.not_mem_nil, or_false] at hs
    obtain rfl | rfl := hs
    · exact ⟨fun h => hne.1 (String.toList_inj.mp (by simpa using h)), by rw [← strip_toList, h1], hbar.1⟩
    · exact ⟨fun h => hne.2.1 (String.toList_inj.mp (by simpa using h)), by rw [← strip_toList, h2], hbar.2⟩
  have hparse := parsePlanPriceKey_joinKey hparts
  simp only [planKey, h1, h2, planRow, hparse, if_neg (not_le.mpr hp)]

/-- The display names of a product are not what it offers. -/
theorem lists_withLabels {params : PricingParams} {t n : String} {spec : PlanImportItem} {k : String} :
    (params.withLabels t n spec).Lists k ↔ params.Lists k := Iff.rfl

/-- Where an item goes: to a product that is there, or to a new one without offers. -/
structure ProductChoice (d : SourceDb) (spec : PlanImportItem) (acc : Importing) (id : ℕ)
    (groups : Table String ℕ) (between : SourceDb) : Prop where
  providers : between.providers = d.providers
  catalog : between.catalog = d.catalog
  kept : ∀ i p, d.products.get? i = some p → between.products.get? i = some p
  added : ∀ i p, between.products.get? i = some p → d.products.get? i = some p ∨
    i = id ∧ p.pricingParams = .empty
  /-- The product an item names is the one it goes to. -/
  named : ∀ i, spec.target = some i → i = id
  /-- A product that is not named is a new one. -/
  unnamed : spec.target ≠ some id → (∃ g, acc.newProducts.get? g = some id) ∨ d.products.get? id = none
  groups : ∀ g i, groups.get? g = some i → acc.newProducts.get? g = some i ∨
    i = id ∧ d.products.get? id = none

/-- An item goes to a product that is there. -/
theorem ProductChoice.existing {d : SourceDb} {spec : PlanImportItem} {acc : Importing} {id : ℕ}
    (hnamed : ∀ i, spec.target = some i → i = id)
    (hunnamed : spec.target ≠ some id → ∃ g, acc.newProducts.get? g = some id) :
    ProductChoice d spec acc id acc.newProducts d where
  providers := rfl
  catalog := rfl
  kept _ _ h := h
  added _ _ h := Or.inl h
  named := hnamed
  unnamed h := Or.inl (hunnamed h)
  groups _ _ h := Or.inl h

theorem freshProduct_free (d : SourceDb) : d.products.get? d.freshProduct = none := by
  rw [Table.get?_eq_none_iff]
  intro h
  have := List.single_le_sum (fun _ _ => Nat.zero_le _) _ h
  rw [SourceDb.freshProduct] at this
  omega

theorem run_createSourceProduct {product : SourceProduct} {d d' : SourceDb} {id : ℕ}
    (h : (createSourceProduct product).run d = .ok (id, d')) :
    d.products.get? id = none ∧ d' = { d with products := d.products.insert id product } := by
  simp only [createSourceProduct, Tx.run_bind_eq_ok, Tx.run_read, Tx.run_modify, Tx.run_pure] at h
  obtain ⟨_, d1, hwhen, id', d2, hid, _, d3, hd3, h⟩ := h
  have hd1 : d1 = d := by
    rw [Tx.run_when] at hwhen
    split_ifs at hwhen
    · simp only [assertCanActivate, Tx.run_bind_eq_ok, Tx.run_read, Tx.run_require_eq_ok] at hwhen
      obtain ⟨n, d4, hd4, a, d5, hd5, hl⟩ := hwhen
      obtain rfl : d = d4 := (Prod.mk.inj (Except.ok.inj hd4)).2
      obtain rfl : d = d5 := (Prod.mk.inj (Except.ok.inj hd5)).2
      exact hl.2
    · exact ((Prod.mk.inj (Except.ok.inj hwhen)).2).symm
  subst hd1
  obtain ⟨rfl, rfl⟩ := Prod.mk.inj (Except.ok.inj hid)
  obtain ⟨-, rfl⟩ := Prod.mk.inj (Except.ok.inj hd3)
  obtain ⟨rfl, rfl⟩ := Prod.mk.inj (Except.ok.inj h)
  exact ⟨freshProduct_free d1, rfl⟩

theorem run_productFor {item : CatalogItem} {spec : PlanImportItem} {acc : Importing} {d d' : SourceDb} {id : ℕ}
    {groups : Table String ℕ}
    (h : (productFor pid scope sellerId item spec acc).run d = .ok ((id, groups), d')) :
    ProductChoice d spec acc id groups d' := by
  rw [productFor] at h
  split at h
  · next _ id' htarget =>
    simp only [Tx.run_bind_eq_ok, Tx.run_read, Tx.run_getOrElse_eq_ok, Tx.run_require_eq_ok, Tx.run_pure] at h
    obtain ⟨o, d1, ho, p, d2, ⟨_, rfl⟩, _, d3, ⟨_, rfl⟩, h⟩ := h
    obtain rfl := (Prod.mk.inj (Except.ok.inj ho)).2
    obtain ⟨⟨rfl, rfl⟩, rfl⟩ : (id' = id ∧ acc.newProducts = groups) ∧ _ = d' := by simpa using h
    exact .existing (fun i hi => Option.some.inj (hi.symm.trans htarget)) fun hn => absurd htarget hn
  · next htarget =>
    split at h
    · next id' hgroup =>
      obtain ⟨⟨rfl, rfl⟩, rfl⟩ : (id' = id ∧ acc.newProducts = groups) ∧ d = d' := by simpa using h
      obtain ⟨g, -, hg⟩ := Option.bind_eq_some_iff.mp hgroup
      exact .existing (fun i hi => absurd hi (by simp [htarget])) fun _ => ⟨g, hg⟩
    · simp only [Tx.run_bind_eq_ok, Tx.run_read, Tx.run_getOrElse_eq_ok, Tx.run_require_eq_ok, Tx.run_pure] at h
      obtain ⟨c, d1, hc, _, d2, ⟨_, rfl⟩, owner, d3, ⟨_, rfl⟩, id', d4, hcreate, h⟩ := h
      obtain rfl := (Prod.mk.inj (Except.ok.inj hc)).2
      obtain ⟨hfree, rfl⟩ := run_createSourceProduct hcreate
      obtain ⟨⟨rfl, rfl⟩, rfl⟩ : (id' = id ∧ _ = groups) ∧ _ = d' := by simpa using h
      refine ⟨rfl, rfl, fun i p hp => ?_, fun i p hp => ?_, fun i hi => absurd hi (by simp [htarget]),
        fun _ => Or.inr hfree, fun g i hg => ?_⟩
      · have hne : i ≠ id' := fun he => absurd hp (by simp [he, hfree])
        exact (Table.get?_insert_of_ne hne _).trans hp
      · rw [Table.get?_insert hfree] at hp
        split_ifs at hp with hi
        · exact Or.inr ⟨hi, by rw [← Option.some.inj hp]⟩
        · exact Or.inl hp
      · split at hg
        · rw [Table.get?_put] at hg
          split_ifs at hg
          · exact Or.inr ⟨(Option.some.inj hg).symm, hfree⟩
          · exact Or.inl hg
        · exact Or.inl hg

/-- What the tables are after an item. -/
structure ItemStep (F : Floats) (pid : ℕ) (spec : PlanImportItem) (acc acc' : Importing) (d d' : SourceDb)
    (key : String) (id : ℕ) (between : SourceDb) : Prop where
  hasKey : spec.key? d pid = some key
  /-- No other plan was to be sold under the key. -/
  agrees : ∀ plan ∈ acc.patch.get? key, plan = spec.externalId
  patch : acc'.patch = acc.patch.put key spec.externalId
  choice : ProductChoice d spec acc id acc'.newProducts between
  /-- The product is given the offer, and goes on otherwise with the table it had or its formula made. -/
  edits : ∃ edit : SourceProduct → SourceProduct, d' = between.modifyProduct id edit ∧
    ∀ p, (edit p).providerId = p.providerId ∧ (edit p).pricingStrategy = p.pricingStrategy ∧
      ∀ k, (edit p).pricingParams.Lists k ↔ k = key ∨ (p.pricingParams.tabled F).Lists k

theorem run_importItem {acc acc' : Importing} {spec : PlanImportItem} {d d' : SourceDb}
    (h : (importItem F pid provider scope sellerId acc spec).run d = .ok (acc', d')) :
    ∃ key id between, ItemStep F pid spec acc acc' d d' key id between := by
  simp only [importItem, Tx.run_bind_eq_ok, Tx.run_read, Tx.run_getOrElse_eq_ok, Tx.run_require_eq_ok,
    Tx.run_modify, Tx.run_pure] at h
  obtain ⟨o, d1, ho, item, d2, ⟨hitem, rfl⟩, plan, d3, hplan, _, d4, ⟨hagree, rfl⟩, _, d5, ⟨hprice, rfl⟩, _, d6,
    hmargin, ⟨id, groups⟩, d7, hchoice, o', d8, ho', product, d9, ⟨hproduct, rfl⟩, _, d10, hd10, h⟩ := h
  obtain ⟨rfl, rfl⟩ := Prod.mk.inj (Except.ok.inj ho)
  obtain ⟨rfl, rfl, hne, hbar⟩ := run_validateItem hplan
  obtain rfl := run_requireMargin hmargin
  obtain ⟨-, rfl⟩ := Prod.mk.inj (Except.ok.inj ho')
  obtain ⟨-, rfl⟩ := Prod.mk.inj (Except.ok.inj hd10)
  obtain ⟨rfl, rfl⟩ := Prod.mk.inj (Except.ok.inj h)
  refine ⟨_, id, _, ?_, hagree, rfl, run_productFor hchoice, _, rfl, fun p => ⟨rfl, rfl, fun k => ?_⟩⟩
  · rw [PlanImportItem.key?, hitem, Option.map_some]
  · exact lists_withLabels.trans (lists_withPlan_iff (planRow_plan hne hbar hprice))

/-! ### All items -/

/-- An item names the product. -/
def Edited (items : List PlanImportItem) (id : ℕ) : Prop := ∃ spec ∈ items, spec.target = some id

/-- How a product that was there comes through the items. -/
structure Carried (F : Floats) (edited : Prop) (patch : Table String String) (p₀ p : SourceProduct) : Prop where
  providerId : p.providerId = p₀.providerId
  strategy : p.pricingStrategy = p₀.pricingStrategy
  /-- An edited product has a table: the one its parameters made, and offers of the import. -/
  table : edited → (∃ k, p.pricingParams.Lists k) ∧
    ∀ k, patch.get? k = none → (p.pricingParams.Lists k ↔ (p₀.pricingParams.tabled F).Lists k)
  rest : ¬edited → p.pricingParams = p₀.pricingParams

/-- **What the items have done so far.** -/
structure Imported (F : Floats) (d₀ : SourceDb) (pid : ℕ) (items : List PlanImportItem) (acc : Importing)
    (d : SourceDb) : Prop where
  providers : d.providers = d₀.providers
  catalog : d.catalog = d₀.catalog
  patch : ∀ k v, acc.patch.get? k = some v ↔
    ∃ spec ∈ items, spec.key? d₀ pid = some k ∧ spec.externalId = v
  keyed : ∀ spec ∈ items, (spec.key? d₀ pid).isSome
  kept : ∀ id p₀, d₀.products.get? id = some p₀ →
    ∃ p, d.products.get? id = some p ∧ Carried F (Edited items id) acc.patch p₀ p
  /-- A new product lists offers of the import, and only these. -/
  added : ∀ id p, d.products.get? id = some p → d₀.products.get? id = none →
    (∃ k, p.pricingParams.Lists k) ∧ ∀ k, p.pricingParams.Lists k → (acc.patch.get? k).isSome
  groups : ∀ g id, acc.newProducts.get? g = some id → d₀.products.get? id = none

variable {d₀ d d' : SourceDb} {items : List PlanImportItem} {acc acc' : Importing} {spec : PlanImportItem}

theorem key?_congr (h : d.catalog = d'.catalog) : spec.key? d pid = spec.key? d' pid := by
  rw [PlanImportItem.key?, PlanImportItem.key?, h]

theorem Imported.start (d₀ : SourceDb) : Imported F d₀ pid [] ⟨[], .empty, [], .empty⟩ d₀ where
  providers := rfl
  catalog := rfl
  patch k v := by simp
  keyed spec h := absurd h List.not_mem_nil
  kept id p₀ h := ⟨p₀, h, rfl, rfl, fun he => absurd he (by simp [Edited]), fun _ => rfl⟩
  added id p h hnone := absurd h (by simp [hnone])
  groups g id h := absurd h (by simp)

/-- A product an item is not put into comes through it as it came to it. -/
theorem Carried.other {patch : Table String String} {p₀ p : SourceProduct} {key ext : String} {id : ℕ}
    (h : Carried F (Edited items id) patch p₀ p) (ht : spec.target ≠ some id) :
    Carried F (Edited (items ++ [spec]) id) (patch.put key ext) p₀ p := by
  have hiff : Edited (items ++ [spec]) id ↔ Edited items id := by simp [Edited, ht]
  refine ⟨h.providerId, h.strategy, fun he => ?_, fun he => h.rest fun he' => he (hiff.mpr he')⟩
  obtain ⟨hex, hk⟩ := h.table (hiff.mp he)
  refine ⟨hex, fun k hnone => hk k ?_⟩
  rw [Table.get?_put] at hnone
  split_ifs at hnone
  exact hnone

/-- A product an item is put into goes on with the table its first parameters made. -/
theorem Carried.edit {patch : Table String String} {p₀ p q : SourceProduct} {key ext : String} {id : ℕ}
    (h : Carried F (Edited items id) patch p₀ p) (ht : spec.target = some id)
    (hq : q.providerId = p.providerId ∧ q.pricingStrategy = p.pricingStrategy ∧
      ∀ k, q.pricingParams.Lists k ↔ k = key ∨ (p.pricingParams.tabled F).Lists k) :
    Carried F (Edited (items ++ [spec]) id) (patch.put key ext) p₀ q := by
  obtain ⟨hprov, hstrat, hlists⟩ := hq
  have hedited : Edited (items ++ [spec]) id := ⟨spec, by simp, ht⟩
  refine ⟨hprov.trans h.providerId, hstrat.trans h.strategy, fun _ => ⟨⟨key, (hlists key).mpr (Or.inl rfl)⟩, ?_⟩,
    fun hn => absurd hedited hn⟩
  intro k hnone
  rw [Table.get?_put] at hnone
  split_ifs at hnone with hk
  rw [hlists k, or_iff_right hk]
  by_cases he : Edited items id
  · obtain ⟨⟨k₀, hk₀⟩, htable⟩ := h.table he
    rw [lists_tabled_of_lists hk₀, htable k hnone]
  · rw [h.rest he]

theorem not_lists_tabled_empty {k : String} : ¬(PricingParams.empty.tabled F).Lists k := by
  rw [lists_tabled_iff]
  rintro ⟨r, hr, -⟩
  simp [effectivePrices, planPricesMap, formulaPrices, PricingParams.empty] at hr

theorem Imported.unknown (h : Imported F d₀ pid items acc d) {id : ℕ} (hfree : d.products.get? id = none) :
    d₀.products.get? id = none := by
  rcases hp₀ : d₀.products.get? id with _ | p₀
  · rfl
  · obtain ⟨p, hp, -⟩ := h.kept id p₀ hp₀
    exact absurd hp (by simp [hfree])

/-- **One more item.** -/
theorem Imported.step {key : String} {id : ℕ} {between : SourceDb} (h : Imported F d₀ pid items acc d)
    (hs : ItemStep F pid spec acc acc' d d' key id between) :
    Imported F d₀ pid (items ++ [spec]) acc' d' := by
  obtain ⟨edit, rfl, hedit⟩ := hs.edits
  have hkey : spec.key? d₀ pid = some key := (key?_congr h.catalog.symm).trans hs.hasKey
  have hpatch : ∀ k, (acc.patch.get? k).isSome → (acc'.patch.get? k).isSome := fun k hk => by
    rw [hs.patch, Table.get?_put]
    split_ifs
    · rfl
    · exact hk
  have hpatchKey : (acc'.patch.get? key).isSome := by rw [hs.patch, Table.get?_put, if_pos rfl]; rfl
  -- a product the item is put into without being named is none of those there were
  have hfresh : spec.target ≠ some id → d₀.products.get? id = none := by
    intro hne
    rcases hs.choice.unnamed hne with ⟨g, hg⟩ | hfree
    · exact h.groups g id hg
    · exact h.unknown hfree
  have hget := fun i => Table.get?_modify between.products id i edit
  refine ⟨hs.choice.providers.trans h.providers, hs.choice.catalog.trans h.catalog, fun k v => ?_,
    fun spec' hspec' => ?_, fun i p₀ hp₀ => ?_, fun i p hp hnone => ?_, fun g i hg => ?_⟩
  · rw [hs.patch, Table.get?_put]
    simp only [List.mem_append, List.mem_singleton, or_and_right, exists_or, exists_eq_left, hkey, Option.some.injEq]
    split_ifs with hk
    · subst hk
      constructor
      · intro hv
        exact Or.inr ⟨rfl, Option.some.inj hv⟩
      · rintro (hold | ⟨-, rfl⟩)
        · rw [hs.agrees v ((h.patch k v).mpr hold)]
        · rfl
    · rw [h.patch k v, or_iff_left]
      rintro ⟨rfl, -⟩
      exact hk rfl
  · rcases List.mem_append.mp hspec' with hold | hnew
    · exact h.keyed spec' hold
    · rw [List.mem_singleton.mp hnew, hkey]
      rfl
  · obtain ⟨p, hp, hcarried⟩ := h.kept i p₀ hp₀
    specialize hget i
    rw [hs.choice.kept i p hp] at hget
    rw [hs.patch]
    by_cases hi : i = id
    · subst hi
      have ht : spec.target = some i := by
        by_contra hne
        exact absurd hp₀ (by simp [hfresh hne])
      rw [if_pos rfl, Option.map_some] at hget
      exact ⟨edit p, hget, hcarried.edit ht (hedit p)⟩
    · rw [if_neg hi] at hget
      exact ⟨p, hget, hcarried.other fun ht => hi (hs.choice.named i ht)⟩
  · change (between.products.modify id edit).get? i = some p at hp
    specialize hget i
    rw [hp] at hget
    by_cases hi : i = id
    · rw [if_pos hi] at hget
      obtain ⟨q, hq, rfl⟩ := Option.map_eq_some_iff.mp hget.symm
      refine ⟨⟨key, ((hedit q).2.2 key).mpr (Or.inl rfl)⟩, fun k hk => ?_⟩
      rcases ((hedit q).2.2 k).mp hk with rfl | hk
      · exact hpatchKey
      · rcases hs.choice.added i q hq with hq | ⟨-, hempty⟩
        · obtain ⟨⟨k₀, hk₀⟩, hall⟩ := h.added i q hq hnone
          exact hpatch k (hall k ((lists_tabled_of_lists hk₀).mp hk))
        · rw [hempty] at hk
          exact absurd hk not_lists_tabled_empty
    · rw [if_neg hi] at hget
      rcases hs.choice.added i p hget.symm with hq | ⟨rfl, -⟩
      · obtain ⟨hex, hall⟩ := h.added i p hq hnone
        exact ⟨hex, fun k hk => hpatch k (hall k hk)⟩
      · exact absurd rfl hi
  · rcases hs.choice.groups g i hg with hg | ⟨rfl, hfree⟩
    · exact h.groups g i hg
    · exact h.unknown hfree

/-- **The loop over the items.** -/
theorem run_importItems (done : List PlanImportItem) (h : Imported F d₀ pid done acc d)
    (hrun : (importItems F pid provider scope sellerId items acc).run d = .ok (acc', d')) :
    Imported F d₀ pid (done ++ items) acc' d' := by
  induction items generalizing done acc d with
  | nil =>
    obtain ⟨rfl, rfl⟩ := Prod.mk.inj (Except.ok.inj hrun)
    rwa [List.append_nil]
  | cons spec items ih =>
    rw [importItems, Tx.run_bind_eq_ok] at hrun
    obtain ⟨acc₁, d₁, hitem, hrest⟩ := hrun
    obtain ⟨key, id, between, hstep⟩ := run_importItem hitem
    rw [← List.singleton_append, ← List.append_assoc]
    exact ih (done ++ [spec]) (h.step hstep) hrest

/-- What the products of the provider list when the matrix is written, but for the keys of the import. -/
theorem Imported.shows (h : Imported F d₀ pid items acc d) {k : String} (hk : acc.patch.get? k = none) :
    (∃ p ∈ d.configProducts pid, p.pricingParams.Lists k) ↔ d₀.Shows F pid items k := by
  have hmem : ∀ p : SourceProduct, p ∈ d.configProducts pid ↔
      ∃ id, d.products.get? id = some p ∧ p.IsConfig pid := by
    intro p
    simp only [SourceDb.configProducts, List.mem_filter, List.mem_map, Prod.exists, exists_eq_right,
      ← Table.get?_eq_some_iff, Bool.and_eq_true, decide_eq_true_eq, SourceProduct.IsConfig, exists_and_right]
  -- a product that was there lists now what it shows
  have hcarry : ∀ {id : ℕ} {p₀ p : SourceProduct}, Carried F (Edited items id) acc.patch p₀ p →
      (p.IsConfig pid ↔ p₀.IsConfig pid) ∧ (p.pricingParams.Lists k ↔ (shownParams F items (id, p₀)).Lists k) := by
    intro id p₀ p hc
    refine ⟨by rw [SourceProduct.IsConfig, SourceProduct.IsConfig, hc.providerId, hc.strategy], ?_⟩
    rw [shownParams]
    split_ifs with he
    · exact (hc.table he).2 k hk
    · rw [hc.rest he]
  constructor
  · rintro ⟨p, hp, hlists⟩
    obtain ⟨id, hget, hconfig⟩ := (hmem p).mp hp
    rcases hp₀ : d₀.products.get? id with _ | p₀
    · exact absurd ((h.added id p hget hp₀).2 k hlists) (by simp [hk])
    · obtain ⟨p', hget', hc⟩ := h.kept id p₀ hp₀
      obtain rfl : p = p' := Option.some.inj (hget.symm.trans hget')
      obtain ⟨hconf, hlist⟩ := hcarry hc
      exact ⟨(id, p₀), Table.get?_eq_some_iff.mp hp₀, hconf.mp hconfig, hlist.mp hlists⟩
  · rintro ⟨⟨id, p₀⟩, hrow, hconfig, hlists⟩
    obtain ⟨p, hget, hc⟩ := h.kept id p₀ (Table.get?_eq_some_iff.mpr hrow)
    obtain ⟨hconf, hlist⟩ := hcarry hc
    exact ⟨p, (hmem p).mpr ⟨id, hget, hconf.mpr hconfig⟩, hlist.mpr hlists⟩

/-- An import with items writes the matrix. -/
theorem Imported.patch_ne_nil (h : Imported F d₀ pid items acc d) : acc.patch.rows ≠ [] ↔ items ≠ [] := by
  constructor
  · rintro hne rfl
    obtain ⟨⟨k, v⟩, hr⟩ := List.exists_mem_of_ne_nil _ hne
    obtain ⟨spec, hspec, -⟩ := (h.patch k v).mp (Table.get?_eq_some_iff.mpr hr)
    exact absurd hspec List.not_mem_nil
  · intro hne
    obtain ⟨spec, hspec⟩ := List.exists_mem_of_ne_nil _ hne
    obtain ⟨k, hk⟩ := Option.isSome_iff_exists.mp (h.keyed spec hspec)
    have hget := (h.patch k spec.externalId).mpr ⟨spec, hspec, hk, rfl⟩
    exact Table.rows_ne_nil (k := k) (by rw [hget]; rfl)

/-! ### The matrix -/

/-- The keys the migration enters are those the products list. -/
theorem get?_migratePlanIds (config : DProxyConfig) (products : List SourceProduct) {legacy : String}
    (hlegacy : truthy config.planId = some legacy) (hnil : config.planIds.rows = []) (k : String) :
    (migratePlanIds config products).get? k = some legacy ↔ ∃ p ∈ products, p.pricingParams.Lists k := by
  have hnone : config.planIds.get? k = none := by
    rw [Table.get?_eq_none_iff, hnil]
    exact List.not_mem_nil
  have hkeys : k ∈ (products.flatMap fun product => (planPricesMap product.pricingParams).rows.map Prod.fst) ↔
      ∃ p ∈ products, p.pricingParams.Lists k := by
    simp only [List.mem_flatMap, PricingParams.Lists, Option.isSome_iff_ne_none, ne_eq, Table.get?_eq_none_iff,
      not_not]
  simp only [migratePlanIds, hlegacy, hnil, if_true, Table.get?_insertAll, hnone, Option.getD_none, hkeys,
    ite_eq_left_iff, reduceCtorEq, imp_false, not_not]

/-- **What an order of a key buys after the matrix is written.** -/
theorem run_mergePlanIds {patch : Table String String} {u : Unit} (hp : d.providers.get? pid = some provider)
    (hne : patch.rows ≠ []) (h : (mergePlanIds F pid patch).run d = .ok (u, d')) :
    (∀ k v, patch.get? k = some v → ∀ current ∈ provider.config.planIds.get? k, current = v) ∧
      ∀ k, d'.planOf pid k = truthy ((patch.get? k).or
        ((migratePlanIds provider.config (d.configProducts pid)).get? k)) := by
  simp only [mergePlanIds, Tx.run_bind_eq_ok, Tx.run_lock, Tx.run_read, Tx.run_getOrElse_eq_ok,
    Tx.run_require_eq_ok] at h
  obtain ⟨o, d1, ho, locked, d2, ⟨hlocked, rfl⟩, _, d3, ⟨hagree, rfl⟩, products, d4, hproducts, h⟩ := h
  obtain ⟨rfl, rfl⟩ := Prod.mk.inj (Except.ok.inj ho)
  obtain ⟨rfl, rfl⟩ := Prod.mk.inj (Except.ok.inj hproducts)
  obtain rfl : provider = locked := Option.some.inj (hp.symm.trans hlocked)
  refine ⟨fun k v hkv => hagree (k, v) (Table.get?_eq_some_iff.mp hkv), fun k => ?_⟩
  obtain ⟨⟨k₀, v₀⟩, hr₀⟩ := List.exists_mem_of_ne_nil _ hne
  split_ifs at h with hsame
  · -- nothing is written: the keys were there, under a matrix
    obtain ⟨-, rfl⟩ := Prod.mk.inj (Except.ok.inj h)
    obtain ⟨hlegacy, hrows⟩ := hsame
    have hmigrate : ∀ products, migratePlanIds provider.config products = provider.config.planIds := fun products => by
      rw [migratePlanIds, hlegacy]
    rw [hmigrate] at hrows
    have hnil : provider.config.planIds.rows ≠ [] :=
      Table.rows_ne_nil (k := k₀) (by rw [hrows (k₀, v₀) hr₀]; rfl)
    rw [SourceDb.planOf, hp, Option.bind_some, resolvePlanId, if_pos hnil, hmigrate]
    rcases hk : patch.get? k with _ | v
    · rw [Option.none_or]
    · rw [hrows (k, v) (Table.get?_eq_some_iff.mp hk), Option.some_or]
  · simp only [Tx.run_bind_eq_ok, Tx.run_require_eq_ok, Tx.run_modify] at h
    obtain ⟨_, d5, ⟨-, rfl⟩, h⟩ := h
    obtain ⟨-, rfl⟩ := Prod.mk.inj (Except.ok.inj h)
    have hget : ∀ k, ((migratePlanIds provider.config (d5.configProducts pid)).putAll patch.rows).get? k =
        (patch.get? k).or ((migratePlanIds provider.config (d5.configProducts pid)).get? k) :=
      fun k => Table.get?_putAll_rows _ _ k
    have hnil : ((migratePlanIds provider.config (d5.configProducts pid)).putAll patch.rows).rows ≠ [] :=
      Table.rows_ne_nil (k := k₀) (by rw [hget, Table.get?_eq_some_iff.mpr hr₀]; rfl)
    rw [SourceDb.planOf, SourceDb.setConfig, Table.get?_modify_self, hp, Option.map_some, Option.bind_some,
      resolvePlanId, if_pos hnil, hget]

/-! ### The products -/

/-- A loop whose steps keep a property keeps it. -/
theorem run_forEach_keeps {α : Type} {P : SourceDb → Prop} {f : α → SourceTx Unit}
    (hf : ∀ a d d' u, (f a).run d = .ok (u, d') → P d → P d') (as : List α) {u : Unit}
    (h : (Tx.forEach as f).run d = .ok (u, d')) (hP : P d) : P d' := by
  induction as generalizing d with
  | nil =>
    obtain ⟨-, rfl⟩ := Prod.mk.inj (Except.ok.inj h)
    exact hP
  | cons a as ih =>
    obtain ⟨d₁, h₁, h₂⟩ := (Tx.run_forEach_cons_eq_ok _ _ _ _).mp h
    exact ih h₂ (hf a d d₁ _ h₁ hP)

/-- Saving a product leaves the sources alone. -/
theorem run_updateProductOperations {id : ℕ} {u : Unit}
    (h : (updateProductOperations F pid id).run d = .ok (u, d')) : d'.providers = d.providers := by
  simp only [updateProductOperations, Tx.run_bind_eq_ok, Tx.run_read, Tx.run_getOrElse_eq_ok,
    Tx.run_require_eq_ok, Tx.run_modify] at h
  obtain ⟨o, d1, ho, product, d2, ⟨-, rfl⟩, o', d3, ho', p, d4, ⟨-, rfl⟩, _, d5, ⟨-, rfl⟩, _, d6, ⟨-, rfl⟩, n, d7, hn,
    _, d8, ⟨-, rfl⟩, _, d9, ⟨-, rfl⟩, _, d10, ⟨-, rfl⟩, c, d11, hc, _, d12, hmargins, hmod⟩ := h
  obtain ⟨-, rfl⟩ := Prod.mk.inj (Except.ok.inj ho)
  obtain ⟨-, rfl⟩ := Prod.mk.inj (Except.ok.inj ho')
  obtain ⟨-, rfl⟩ := Prod.mk.inj (Except.ok.inj hn)
  obtain ⟨-, rfl⟩ := Prod.mk.inj (Except.ok.inj hc)
  obtain ⟨-, rfl⟩ := Prod.mk.inj (Except.ok.inj hmod)
  have hsame : d12.providers = d.providers := by
    refine run_forEach_keeps (P := fun e => e.providers = d.providers) (fun row e e' _ hrow hP => ?_) _ hmargins rfl
    rw [run_requireMargin hrow]
    exact hP
  exact hsame

/-! ### The import -/

theorem run_importOwner {owner sellerId : Option ℕ}
    (h : (importOwner provider scope items owner).run d = .ok (sellerId, d')) : d' = d := by
  rw [importOwner] at h
  split_ifs at h
  · simp only [Tx.run_bind_eq_ok] at h
    obtain ⟨o, d1, ho, _, d2, hreq, h⟩ := h
    obtain ⟨-, rfl⟩ := Prod.mk.inj (Except.ok.inj h)
    have h1 : d1 = d := by
      rcases scope with _ | s
      · exact ((Tx.run_getOrElse_eq_ok _ _ _).mp ho).2
      · exact (Prod.mk.inj (Except.ok.inj ho)).2.symm
    subst h1
    simp only [requireInternalOwner, Tx.run_bind_eq_ok, Tx.run_read, Tx.run_require_eq_ok] at hreq
    obtain ⟨a, d3, ha, _, d4, ⟨-, rfl⟩, -, h4⟩ := hreq
    obtain ⟨-, rfl⟩ := Prod.mk.inj (Except.ok.inj ha)
    exact h4
  · exact (Prod.mk.inj (Except.ok.inj h)).2.symm

/-- **What a committed import has done**: the items went through, and a source of which plans were put on
sale has its matrix written. -/
theorem run_importPlansTx {owner : Option ℕ} {created : List CreatedOffer}
    (h : (importPlansTx F pid provider scope items owner).run d = .ok (created, d')) :
    ∃ acc d₁ d₂, Imported F d pid items acc d₁ ∧ d'.providers = d₂.providers ∧
      if items = [] then d₂ = d₁ else ∃ u, (mergePlanIds F pid acc.patch).run d₁ = .ok (u, d₂) := by
  simp only [importPlansTx, Tx.run_bind_eq_ok, Tx.run_require_eq_ok] at h
  obtain ⟨s, d1, hs, _, d2, ⟨-, rfl⟩, acc, d3, hitems, u, d4, hmerge, _, d5, hops, h⟩ := h
  obtain rfl := run_importOwner hs
  obtain ⟨-, rfl⟩ := Prod.mk.inj (Except.ok.inj h)
  have himp : Imported F d2 pid items acc d3 := by
    simpa using run_importItems [] (Imported.start d2) hitems
  refine ⟨acc, d3, d4, himp, ?_, ?_⟩
  · refine run_forEach_keeps (P := fun e => e.providers = d4.providers) (fun id e e' _ hrow hP => ?_) _ hops rfl
    rw [run_updateProductOperations hrow, hP]
  · rw [Tx.run_when] at hmerge
    split_ifs with hnil
    · rw [if_neg fun hne => himp.patch_ne_nil.mp hne hnil] at hmerge
      exact (Prod.mk.inj (Except.ok.inj hmerge)).2.symm
    · rw [if_pos (himp.patch_ne_nil.mpr hnil)] at hmerge
      exact ⟨u, hmerge⟩

/-- A key that has a plan keeps it exactly when the condition holds of it. -/
theorem keepsPlan_iff {owner : Option ℕ} {created : List CreatedOffer}
    (hp : d.providers.get? pid = some provider)
    (h : (importPlansTx F pid provider scope items owner).run d = .ok (created, d')) {k plan : String}
    (hplan : d.planOf pid k = some plan) :
    d'.planOf pid k = some plan ↔ KeepsPlan F d pid provider.config items k := by
  obtain ⟨acc, d₁, d₂, himp, hprov, hmerge⟩ := run_importPlansTx h
  have hplan' := hplan
  rw [SourceDb.planOf, hp, Option.bind_some, resolvePlanId] at hplan'
  have hsame : d'.planOf pid k = d₂.planOf pid k := by rw [SourceDb.planOf, SourceDb.planOf, hprov]
  rw [hsame]
  by_cases hnil : items = []
  · -- nothing was put on sale, and the matrix was not touched
    rw [if_pos hnil] at hmerge
    rw [hmerge, SourceDb.planOf, himp.providers, ← SourceDb.planOf, hplan]
    exact iff_of_true rfl (Or.inr (Or.inl hnil))
  rw [if_neg hnil] at hmerge
  obtain ⟨u, hmerge⟩ := hmerge
  obtain ⟨hagree, hnew⟩ := run_mergePlanIds (himp.providers ▸ hp) (himp.patch_ne_nil.mpr hnil) hmerge
  rw [hnew k]
  by_cases hmatrix : provider.config.planIds.rows = []
  · rw [if_neg (not_not.mpr hmatrix)] at hplan'
    rw [KeepsPlan, or_iff_right (not_not.mpr hmatrix), or_iff_right hnil, hplan']
    have hne : plan ≠ "" := by simpa using (Option.filter_eq_some_iff.mp hplan').2
    have htruthy : ∀ o : Option String, truthy o = some plan ↔ o = some plan := fun o => by
      rw [truthy, Option.filter_eq_some_iff]
      simp [hne]
    rw [htruthy]
    rcases hk : acc.patch.get? k with _ | v
    · have hnone : ¬∃ spec ∈ items, spec.key? d pid = some k := by
        rintro ⟨spec, hspec, hkey⟩
        have := (himp.patch k spec.externalId).mpr ⟨spec, hspec, hkey, rfl⟩
        exact absurd this (by simp [hk])
      rw [Option.none_or, get?_migratePlanIds _ _ hplan' hmatrix, himp.shows hk]
      constructor
      · intro hshows legacy _
        exact ⟨fun spec hspec hkey => absurd ⟨spec, hspec, hkey⟩ hnone, Or.inr hshows⟩
      · intro hall
        exact (hall plan rfl).2.resolve_left hnone
    · obtain ⟨spec, hspec, hkey, hext⟩ := (himp.patch k v).mp hk
      rw [Option.some_or, Option.some.injEq]
      constructor
      · rintro rfl legacy hl
        obtain rfl := Option.some.inj hl
        refine ⟨fun spec' hspec' hkey' => ?_, Or.inl ⟨spec, hspec, hkey⟩⟩
        have := (himp.patch k spec'.externalId).mpr ⟨spec', hspec', hkey', rfl⟩
        exact Option.some.inj (this.symm.trans hk)
      · intro hall
        rw [← hext]
        exact (hall plan rfl).1 spec hspec hkey
  · refine iff_of_true ?_ (Or.inl hmatrix)
    rw [if_pos hmatrix] at hplan'
    obtain ⟨hget, -⟩ := Option.filter_eq_some_iff.mp hplan'
    have hmigrate : ∀ products, migratePlanIds provider.config products = provider.config.planIds := fun products => by
      rw [migratePlanIds]
      split
      · rw [if_neg hmatrix]
      · rfl
    rw [hmigrate]
    rcases hk : acc.patch.get? k with _ | v
    · rw [Option.none_or]
      exact hplan'
    · rw [Option.some_or, ← hagree k v hk plan hget]
      rwa [hget] at hplan'

/-- **What was sold keeps its plan exactly when each of its keys does, and an import that fails changes
nothing.** -/
theorem import_keeps_plans (F : Floats) {d : SourceDb} {pid : ℕ} {provider : Source}
    (hp : d.providers.get? pid = some provider) (scope : SourceScope) (items : List PlanImportItem)
    (owner : Option ℕ) :
    (∀ e d', importPlans F pid provider scope items owner d = (.error e, d') → d' = d) ∧
      ∀ created d', importPlans F pid provider scope items owner d = (.ok created, d') →
        ((∀ k, d.Sells pid k → ∀ plan, d.planOf pid k = some plan → d'.planOf pid k = some plan) ↔
          ∀ k, d.Sells pid k → (d.planOf pid k).isSome → KeepsPlan F d pid provider.config items k) := by
  constructor
  · intro e d' h
    rw [importPlans] at h
    split at h
    · exact absurd (Prod.mk.inj h).1 (by simp)
    · exact (Prod.mk.inj h).2.symm
  · intro created d' h
    rw [importPlans] at h
    split at h
    · next created' d'' hrun =>
      obtain ⟨-, rfl⟩ := Prod.mk.inj h
      refine forall₂_congr fun k _ => ?_
      constructor
      · intro hkeep hsome
        obtain ⟨plan, hplan⟩ := Option.isSome_iff_exists.mp hsome
        exact (keepsPlan_iff hp hrun hplan).mp (hkeep plan hplan)
      · intro hkeep plan hplan
        exact (keepsPlan_iff hp hrun hplan).mpr (hkeep (by rw [hplan]; rfl))
    · exact absurd (Prod.mk.inj h).1 (by simp)

end Items

/-! ### A product priced by a formula -/

/-- The arithmetic of the sample, exact. -/
def sampleFloats : Floats where
  float
    | .int n => some n
    | .float q _ => some q
    | _ => none
  formula base t n days := ⌊base * t * n * days / 30 + 1 / 2⌋
  withMargin cost margin := cost * (1 + margin / 100)
  quotient raw step := raw / step

/-- A source with a single plan. -/
def legacySource : Source where
  sellerId := none
  reviewStatus := "approved"
  config :=
    { planId := some "11111111-1111-4111-8111-111111111111", planIds := .empty, minMarginPct := none
      connection :=
        { scheme := "https", hostname := some "dproxy.example", hasCredentials := false
          hasQueryOrFragment := false, authType := none, authHeader := none, rotateMethod := none
          timeoutSeconds := none, expiryToleranceHours := none, lowCreditUsd := none } }

/-- The source with one product, sold by a formula, and a catalog of one plan. -/
def formulaShop : SourceDb where
  providers := Table.empty.insert 1 legacySource
  products := Table.empty.insert 5
    { sellerId := 2, categoryId := 3, title := "VN", escrowHours := 24, status := .active, providerId := some 1
      pricingStrategy := some "config"
      pricingParams :=
        { basePrice := some (.int 30000), typeMult := some (Table.empty.insert "residential" (.int 1))
          networkMult := some (Table.empty.insert "VN" (.int 1))
          durationOptions := some [.dict (some (.int 7))], planPrices := none, typeDisplay := .empty
          networkDisplay := .empty } }
  catalog := Table.empty.insert (1, "22222222-2222-4222-8222-222222222222")
    { name := "Viettel", costPrice := 1000, proxyType := some "residential", durationDays := some 7
      isActive := some true, proxyCount := none, minQuantity := none }
  accounts := Table.empty.insert 2 ⟨true, true, none⟩
  categories := [3]
  variants := .empty

/-- The plan put on sale in a new product. -/
def viettelItem : PlanImportItem where
  externalId := "22222222-2222-4222-8222-222222222222"
  type := "residential"
  network := "viettel"
  days := none
  price := some 9000
  typeLabel := none
  networkLabel := none
  title := none
  categoryId := some 3
  status := .draft
  escrowHours := none
  productId := none
  groupKey := none

/-- The order of the product that is there. -/
def vnOrder : UserConfig := ⟨some (.str "residential"), some (.str "VN"), some (.int 7), some (.int 1), none⟩

theorem import_keeps_plans_sample :
    formulaShop.providers.get? 1 = some legacySource ∧
      ((∀ e d', importPlans sampleFloats 1 legacySource none [viettelItem] (some 2) formulaShop = (.error e, d') →
          d' = formulaShop) ∧
        ∀ created d',
          importPlans sampleFloats 1 legacySource none [viettelItem] (some 2) formulaShop = (.ok created, d') →
          ((∀ k, formulaShop.Sells 1 k → ∀ plan, formulaShop.planOf 1 k = some plan → d'.planOf 1 k = some plan) ↔
            ∀ k, formulaShop.Sells 1 k → (formulaShop.planOf 1 k).isSome →
              KeepsPlan sampleFloats formulaShop 1 legacySource.config [viettelItem] k)) :=
  ⟨rfl, import_keeps_plans sampleFloats (d := formulaShop) rfl none [viettelItem] (some 2)⟩

/-- **A plan that was sold is lost**: the import commits, an order of the product that was there could be
placed before it, its key had the single plan, and has none after it. -/
theorem formula_key_loses_plan :
    ∃ created d',
      importPlans sampleFloats 1 legacySource none [viettelItem] (some 2) formulaShop = (.ok created, d') ∧
        formulaShop.Sells 1 "residential|VN|7" ∧
          formulaShop.planOf 1 "residential|VN|7" = some "11111111-1111-4111-8111-111111111111" ∧
            d'.planOf 1 "residential|VN|7" = none := by
  have hsells : formulaShop.Sells 1 "residential|VN|7" := by
    refine ⟨_, List.mem_cons_self, by decide, vnOrder, by decide, by decide⟩
  have hrun : (match (importPlans sampleFloats 1 legacySource none [viettelItem] (some 2) formulaShop).1 with
      | .ok _ => true
      | .error _ => false) = true ∧
      (importPlans sampleFloats 1 legacySource none [viettelItem] (some 2) formulaShop).2.planOf 1
        "residential|VN|7" = none := by decide +kernel
  rcases h : importPlans sampleFloats 1 legacySource none [viettelItem] (some 2) formulaShop with ⟨r, d'⟩
  rw [h] at hrun
  rcases r with e | created
  · exact absurd hrun.1 (by simp)
  · exact ⟨created, d', rfl, hsells, by decide, hrun.2⟩

end Marketplace
