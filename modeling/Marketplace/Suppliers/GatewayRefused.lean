import Marketplace.Suppliers.GatewaySources

/-!
# What a refused update of packages leaves

A call of `update_packages` that raises is to leave the product and the provider as they were. What it has staged is
dropped with the session, unless `update_provider` has committed it: a new cost is stored together with the new
packages, and category and packages are looked at after that.

`closed_updatePackages` is the call by its parts, `refused_unchanged_iff` says when nothing is left of a
refused one.
-/

namespace Marketplace.GatewaySources

open Python Sql Credit

variable (host : GatewayHost) (req : GatewayPackagesUpdate) (s : GatewaySource)

/-- What is staged before the provider is updated. -/
def staged : Except Refusal GatewaySource := (ensureProduct host s).bind (setPackages host req.packages)

/-- What is staged before title, category and status. -/
def priced : Except Refusal GatewaySource :=
  (staged host req s).bind fun s =>
    match req.costPerRequest with
    | none => .ok s
    | some cost => setCost host cost s

/-- The category of the request is known, if it has one. -/
def KnownCategory : Prop :=
  ∀ categoryId, req.categoryId = some categoryId → categoryId ≠ 0 → (s.categories.get? categoryId).isSome = true

/-- There is a package to publish the product with, if that is asked for. -/
def Publishable : Prop :=
  req.publish = some true → ∃ product, s.product = some product ∧ ∃ p ps, activePackages product = .ok (p :: ps)

/-- If the call raises, all is committed as it was before. -/
def RefusedUnchanged : Prop := ∀ e s', (updatePackages host req).closed s = (.error e, s') → s' = s

variable {host req s} {s₁ s₂ s₃ : GatewaySource}

/-! ### The parts -/

theorem product_of_ensureProduct (h : ensureProduct host s = .ok s₁) :
    s₁.provider = s.provider ∧ s₁.categories = s.categories := by
  rw [ensureProduct] at h
  split at h
  · obtain rfl := Except.ok.inj h
    exact ⟨rfl, rfl⟩
  · obtain rfl := Except.ok.inj h
    exact ⟨rfl, rfl⟩
  · obtain ⟨_, -, h⟩ := bind_eq_ok.mp h
    obtain ⟨_, -, h⟩ := bind_eq_ok.mp h
    obtain rfl := Except.ok.inj h
    exact ⟨rfl, rfl⟩

/-- There is a product where one is edited, before and after. -/
theorem editProduct_eq_ok {f : GatewayProduct → Except Refusal GatewayProduct} :
    editProduct f s = .ok s₁ ↔
      ∃ product product', s.product = some product ∧ f product = .ok product' ∧
        s₁ = { s with product := some product' } := by
  rw [editProduct]
  rcases s.product with _ | product
  · simp
  · constructor
    · intro h
      obtain ⟨product', hf, h⟩ := bind_eq_ok.mp h
      exact ⟨product, product', rfl, hf, (Except.ok.inj h).symm⟩
    · rintro ⟨_, product', hproduct, hf, rfl⟩
      obtain rfl := Option.some.inj hproduct
      exact bind_eq_ok.mpr ⟨product', hf, rfl⟩

/-- A source with a product keeps it. -/
theorem ensureProduct_of_some {product : GatewayProduct} (h : s.product = some product) :
    ensureProduct host s = .ok s := by
  rw [ensureProduct, h]

theorem setStatus_eq_ok_iff {publish : Option Bool} {product : GatewayProduct} :
    (∃ product', setStatus publish product = .ok product') ↔
      (publish = some true → ∃ p ps, activePackages product = .ok (p :: ps)) := by
  rcases publish with _ | _ | _
  · simp [setStatus]
  · simp [setStatus]
  · simp only [setStatus]
    rcases activePackages product with e | _ | ⟨p, ps⟩
    · simp [bind, Except.bind]
    · simp [bind, Except.bind]
    · simp [bind, Except.bind, pure, Except.pure]

theorem setCategory_eq_ok_iff {categories : Table ℤ GatewayCategory} {product : GatewayProduct} :
    (∃ product', setCategory categories req.categoryId product = .ok product') ↔
      ∀ categoryId, req.categoryId = some categoryId → categoryId ≠ 0 →
        (categories.get? categoryId).isSome = true := by
  rw [setCategory]
  rcases req.categoryId with _ | categoryId
  · simp
  · by_cases hzero : categoryId = 0
    · simp [Option.filter, hzero]
    · by_cases hknown : (categories.get? categoryId).isSome = true
      · simp [Option.filter, hzero, hknown]
      · simp [Option.filter, hzero, hknown]

/-- Packages are not touched by a title or a category. -/
theorem activePackages_setCategory {categories : Table ℤ GatewayCategory} {categoryId : Option ℤ}
    {product product' : GatewayProduct} {title : Option String}
    (h : setCategory categories categoryId (setTitle title product) = .ok product') :
    activePackages product' = activePackages product := by
  have htitle : (setTitle title product).pricingParams = product.pricingParams := by
    rw [setTitle]
    split <;> rfl
  have hcategory : product'.pricingParams = (setTitle title product).pricingParams := by
    rw [setCategory] at h
    split at h
    · split at h
      · obtain rfl := Except.ok.inj h
        rfl
      · cases h
    · obtain rfl := Except.ok.inj h
      rfl
  rw [activePackages, activePackages, hcategory, htitle]

/-- **The last part goes through** where the category is known and there is something to publish. -/
theorem setRest_eq_ok_iff {product : GatewayProduct} (hproduct : s.product = some product) :
    (∃ s', setRest req s = .ok s') ↔ KnownCategory req s ∧ Publishable req s := by
  have hedit : (∃ s', setRest req s = .ok s') ↔
      ∃ product', setCategory s.categories req.categoryId (setTitle req.title product) = .ok product' ∧
        ∃ product'', setStatus req.publish product' = .ok product'' := by
    simp only [setRest, editProduct_eq_ok, hproduct, Option.some.injEq]
    constructor
    · rintro ⟨_, _, _, rfl, h, -⟩
      obtain ⟨product', hcategory, hstatus⟩ := bind_eq_ok.mp h
      exact ⟨product', hcategory, _, hstatus⟩
    · rintro ⟨product', hcategory, product'', hstatus⟩
      exact ⟨_, product, product'', rfl, bind_eq_ok.mpr ⟨product', hcategory, hstatus⟩, rfl⟩
  have hcategory : (∃ product', setCategory s.categories req.categoryId (setTitle req.title product) = .ok product') ↔
      KnownCategory req s := setCategory_eq_ok_iff
  rw [hedit, ← hcategory, Publishable]
  constructor
  · rintro ⟨product', hcategory, hstatus⟩
    refine ⟨⟨product', hcategory⟩, fun hpublish => ⟨product, hproduct, ?_⟩⟩
    rw [← activePackages_setCategory hcategory]
    exact setStatus_eq_ok_iff.mp hstatus hpublish
  · rintro ⟨⟨product', hcategory⟩, hpublish⟩
    refine ⟨product', hcategory, setStatus_eq_ok_iff.mpr fun htrue => ?_⟩
    obtain ⟨_, hsome, hactive⟩ := hpublish htrue
    obtain rfl := Option.some.inj (hproduct.symm.trans hsome)
    rwa [activePackages_setCategory hcategory]

/-! ### The call -/

variable (host req s) in
/-- The call from the last part on, with what has been committed before it. -/
def concluded (committed : GatewaySource) : Except Refusal Unit × GatewaySource :=
  match setRest req s with
  | .error e => (.error e, committed)
  | .ok s' => (host.overview s', s')

/-- **What a call comes to**, and what is committed at its end. -/
theorem closed_updatePackages :
    (updatePackages host req).closed s =
      match staged host req s with
      | .error e => (.error e, s)
      | .ok s₁ =>
        match req.costPerRequest with
        | none => concluded host req s₁ s
        | some cost =>
          match setCost host cost s₁ with
          | .error e => (.error e, s)
          | .ok s₂ => concluded host req s₂ s₂ := by
  have hlast : ∀ v : View GatewaySource,
      (((Work.edit (setRest req) >>= fun _ => Work.commit >>= fun _ => getGateway host) v).1,
        ((Work.edit (setRest req) >>= fun _ => Work.commit >>= fun _ => getGateway host) v).2.committed) =
          concluded host req v.pending v.committed := by
    intro v
    rw [Work.edit_bind, concluded]
    rcases hrest : setRest req v.pending with e | s'
    · rfl
    · obtain ⟨_, product, -, -, rfl⟩ := editProduct_eq_ok.mp hrest
      have hensure : ensureProduct host { v.pending with product := some product } =
          .ok { v.pending with product := some product } := ensureProduct_of_some rfl
      simp only [Work.commit_bind, getGateway, Work.edit_bind, hensure, Work.answer]
  rw [Work.closed, updatePackages, Work.edit_bind, staged]
  rcases ensureProduct host s with e | s₀
  · rfl
  simp only [Except.bind, Work.edit_bind]
  rcases setPackages host req.packages s₀ with e | s₁
  · rfl
  rcases hcost : req.costPerRequest with _ | cost
  · simp only [updateCost, pure]
    exact hlast _
  · simp only [updateCost]
    rcases hset : setCost host cost s₁ with e | s₂
    · simp [Work.bind_eq, Work.edit, hset]
    · simp only [Work.bind_eq, Work.edit, hset, Work.commit]
      exact hlast ⟨_, _, _⟩

/-- Before the last part there is a product, and the categories are as they were. -/
theorem exists_product_of_staged (h : staged host req s = .ok s₁) :
    (∃ product, s₁.product = some product) ∧ s₁.categories = s.categories := by
  obtain ⟨s₀, hensure, hset⟩ := bind_eq_ok.mp h
  obtain ⟨_, product, -, -, rfl⟩ := editProduct_eq_ok.mp hset
  exact ⟨⟨product, rfl⟩, (product_of_ensureProduct hensure).2⟩

theorem setCost_eq_ok {cost : Value} (h : setCost host cost s = .ok s₁) :
    s₁.product = s.product ∧ s₁.categories = s.categories := by
  obtain ⟨_, -, h⟩ := bind_eq_ok.mp h
  obtain rfl := Except.ok.inj h
  exact ⟨rfl, rfl⟩

/-- **A refused call leaves all as it was** exactly when it is not refused for its category or for what it is
to publish after a cost has been stored, and its result can be shown, unless what it has staged by then is
what is stored. -/
theorem refused_unchanged_iff :
    RefusedUnchanged host req s ↔
      (∀ s₁, staged host req s = .ok s₁ → ∀ cost, req.costPerRequest = some cost →
        ∀ s₂, setCost host cost s₁ = .ok s₂ → KnownCategory req s ∧ Publishable req s₁ ∨ s₂ = s) ∧
      ∀ s₂, priced host req s = .ok s₂ → ∀ s₃, setRest req s₂ = .ok s₃ → host.overview s₃ = .ok () ∨ s₃ = s := by
  -- the last part after a stage, by its condition
  have hrest : ∀ {s₁ s₂ : GatewaySource}, staged host req s = .ok s₁ → s₂.product = s₁.product →
      s₂.categories = s₁.categories →
      ((∃ s₃, setRest req s₂ = .ok s₃) ↔ KnownCategory req s ∧ Publishable req s₁) := by
    intro s₁ s₂ hstaged hproduct hcategories
    obtain ⟨⟨product, hsome⟩, hcategories'⟩ := exists_product_of_staged hstaged
    rw [setRest_eq_ok_iff (hproduct.trans hsome), KnownCategory, KnownCategory, Publishable, Publishable, hproduct,
      hcategories, hcategories']
  -- what is left by the last part
  have hconcluded : ∀ committed s₂ : GatewaySource,
      (∀ e s', concluded host req s₂ committed = (.error e, s') → s' = s) ↔
        ((∃ s₃, setRest req s₂ = .ok s₃) ∨ committed = s) ∧
          ∀ s₃, setRest req s₂ = .ok s₃ → host.overview s₃ = .ok () ∨ s₃ = s := by
    intro committed s₂
    rw [concluded]
    rcases setRest req s₂ with e | s₃
    · simp
    · rcases hshow : host.overview s₃ with e | _
      · simp [hshow]
      · simp [hshow]
  rw [RefusedUnchanged, closed_updatePackages, priced]
  rcases hstaged : staged host req s with e | s₁
  · simp [Except.bind]
  rcases hcost : req.costPerRequest with _ | cost
  · simp only [hconcluded s s₁, Except.bind]
    simp
  · rcases hset : setCost host cost s₁ with e | s₂
    · simp [Except.bind, hset]
    -- the cost is stored, and all that was staged with it
    · obtain ⟨hproduct, hcategories⟩ := setCost_eq_ok hset
      simp only [hset, hconcluded s₂ s₂, hrest hstaged hproduct hcategories, Except.bind]
      simp [hset]

/-! ### A refused call that leaves its packages -/

/-- A host whose adapter has no checks of its own. -/
def plainHost : GatewayHost where
  py := ⟨Text.DigitClass.ascii, fun _ => "", fun _ => none⟩
  lower := String.toLower
  endpointNames _ := .ok ["fb_collect"]
  getSpec _ := some ⟨false, none⟩
  nonce := 0
  overview _ := .ok ()

/-- A source that sells a package of a hundred requests. -/
def sellingSource : GatewaySource where
  provider := ⟨"Facebook", "ghlab_fb", some 1, Table.empty⟩
  product := some
    { title := "Facebook"
      categoryId := 1
      status := .active
      pricingStrategy := some "credit"
      pricingParams := some (paramsOf (.int 50) [⟨"100 request", 100, 5000, true⟩] ["fb_collect"]) }
  categories := Table.empty.insert 1 ⟨"Facebook", true⟩

/-- No packages any more, at a new cost and in a category that does not exist. -/
def emptiedUpdate : GatewayPackagesUpdate := ⟨some [], some (.int 150), none, some 99, none⟩

/-- The category is not known, and the packages and the cost are stored. -/
theorem unknown_category_keeps_packages :
    ¬ RefusedUnchanged plainHost emptiedUpdate sellingSource := by
  intro h
  have hrefused : ((updatePackages plainHost emptiedUpdate).closed sellingSource).1 =
      .error (.abort (.api 404 "CATEGORY_NOT_FOUND")) := by
    decide
  have hcost : ((updatePackages plainHost emptiedUpdate).closed sellingSource).2.provider.config.get?
      "cost_per_request" = some (.plain (.int 150)) := by
    decide
  have hleft : ((updatePackages plainHost emptiedUpdate).closed sellingSource).2 = sellingSource :=
    h _ _ (Prod.ext hrefused rfl)
  rw [hleft] at hcost
  cases hcost

end Marketplace.GatewaySources
