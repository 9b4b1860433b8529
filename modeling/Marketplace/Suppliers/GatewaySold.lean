import Marketplace.Sql.Jsonb
import Marketplace.Suppliers.GatewayRefused

/-!
# Packages are sold as they were set

While the product of a source is active, a buyer is to get a package that is active, at its price, and to be offered
just these packages. `CreditPricing` holds this as long as one package is active, and falls back to any size at a
price for each request where none is. Only the branch of `update_packages` that publishes asks for one.

`SourceInv` is what holds at every moment of the runs whose calls hand in an active package, or leave the product
out of sale (`KeepsPackage`); `sold_as_set` is what buyers get then.
-/

namespace Marketplace.GatewaySources

open Python Sql Credit

/-! ### Prices of stored packages -/

section Prices

variable {py : Language} {creditPrice : Json} {ps : List Package} {names : List String}

theorem mapM_eq_ok {α β ε : Type} {f : α → Except ε β} {g : α → β} {l : List α} (h : ∀ a ∈ l, f a = .ok (g a)) :
    l.mapM f = .ok (l.map g) := by
  induction l with
  | nil => rfl
  | cons a l ih =>
    rw [List.mapM_cons, h a List.mem_cons_self, ih fun b hb => h b (List.mem_cons_of_mem _ hb)]
    rfl

theorem packages_paramsOf : packages (paramsOf creditPrice ps names) = .ok (ps.map Package.fields) := by
  have hlookup : (paramsOf creditPrice ps names).lookup "packages" =
      some (.arr (ps.map fun p => .obj p.fields)) := rfl
  rw [packages, hlookup]
  simp only [List.mapM_map]
  exact mapM_eq_ok fun p _ => rfl

@[simp] theorem isActive_fields (p : Package) : isActive p.fields = p.active := rfl

@[simp] theorem hasPrice_fields (p : Package) : hasPrice p.fields = true := rfl

theorem intItem_size (p : Package) : intItem py p.fields "size" = .ok p.size := rfl

theorem intItem_price (p : Package) : intItem py p.fields "price" = .ok p.price := rfl

/-- The packages with a price that are active are the active ones. -/
theorem pricedPackages_paramsOf :
    pricedPackages (paramsOf creditPrice ps names) = .ok ((ps.filter Package.active).map Package.fields) := by
  have hfilter : (ps.map Package.fields).filter (fun p => hasPrice p ∧ isActive p) =
      (ps.filter Package.active).map Package.fields := by
    rw [List.filter_map]
    congr 1
    refine List.filter_congr fun p _ => ?_
    simp
  rw [pricedPackages, packages_paramsOf, ← hfilter]
  rfl

/-- The size of a stored package is looked up. -/
theorem pricedAt_fields {n : ℤ} (l : List Package) :
    pricedAt py n (l.map Package.fields) = .ok ((l.find? fun p => p.size = n).map Package.price) := by
  induction l with
  | nil => rfl
  | cons p l ih =>
    rw [List.map_cons, pricedAt, intItem_size]
    by_cases hn : p.size = n
    · simp [bind, Except.bind, hn, intItem_price, pure, Except.pure]
    · simp [bind, Except.bind, hn, ih]

/-- **What is let through**, where a package is active. -/
theorem validate_paramsOf (hactive : ∃ p ∈ ps, p.active = true) (userConfig : Fields) :
    Credit.validate py (paramsOf creditPrice ps names) userConfig = .ok true ↔
      ∃ n, (userConfig.lookup "package_size").bind wholeNumber = some n ∧ 1 ≤ n ∧
        ∃ p ∈ ps, p.active = true ∧ p.size = n := by
  rw [Credit.validate]
  rcases (userConfig.lookup "package_size").bind wholeNumber with _ | n
  · simp
  have hne : ((ps.filter Package.active).map Package.fields).isEmpty = false := by
    obtain ⟨p, hp, hpa⟩ := hactive
    rw [List.isEmpty_eq_false_iff]
    exact List.ne_nil_of_mem (List.mem_map_of_mem (List.mem_filter.mpr ⟨hp, hpa⟩))
  have hsizes : ((ps.filter Package.active).map Package.fields).mapM (fun p => intItem py p "size") =
      .ok ((ps.filter Package.active).map Package.size) := by
    rw [List.mapM_map]
    exact mapM_eq_ok fun p _ => intItem_size p
  simp only [pricedPackages_paramsOf, bind, Except.bind, hne, hsizes, pure, Except.pure]
  by_cases hn : n < 1
  · refine iff_of_false (by simp [hn]) ?_
    rintro ⟨_, hsize, hle, -⟩
    obtain rfl := Option.some.inj hsize
    omega
  · simp only [hn, if_false, Bool.false_eq_true, Except.ok.injEq, List.contains_iff_mem, List.mem_map,
      List.mem_filter, Option.some.injEq, exists_eq_left']
    simp only [not_lt.mp hn, true_and, and_assoc]

/-- The price of a package that is let through. -/
theorem quote_paramsOf {volume : ℤ → ℤ → Json → Except PricingError ℤ} {n : ℤ} {p : Package} (hp : p ∈ ps)
    (hactive : p.active = true) (hn : p.size = n) :
    ∃ p' ∈ ps, p'.active = true ∧ p'.size = n ∧ quote py volume (paramsOf creditPrice ps names) n = .ok p'.price := by
  rcases hfind : (ps.filter Package.active).find? (fun p => p.size = n) with _ | p'
  · have hnone := List.find?_eq_none.mp hfind p (List.mem_filter.mpr ⟨hp, hactive⟩)
    simp [hn] at hnone
  · obtain ⟨hmem, hactive'⟩ := List.mem_filter.mp (List.mem_of_find?_eq_some hfind)
    refine ⟨p', hmem, hactive', by simpa using List.find?_some hfind, ?_⟩
    have hsubtotal : subtotal py (paramsOf creditPrice ps names) n = .ok p'.price := by
      simp [subtotal, pricedPackages_paramsOf, bind, Except.bind, pricedAt_fields, hfind, pure, Except.pure]
    rw [quote, hsubtotal]
    rfl

/-- The choice for a stored package. -/
theorem choice_fields {p : Package} (hdiv : ∃ q, trueDiv p.price (max p.size 1) = .ok q) :
    ∃ c, choice py p.fields = .ok c ∧ c.value = .int p.size := by
  obtain ⟨q, hq⟩ := hdiv
  refine ⟨⟨.int p.size, .str p.label, some p.price, some (roundTwo q)⟩, ?_, rfl⟩
  have hsize : item p.fields "size" = .ok (.int p.size) := rfl
  simp only [choice, hsize, hasPrice_fields, intItem_price, intItem_size, bind, Except.bind, hq]
  rfl

/-- **What is offered**, where a package is active. -/
theorem getOptions_paramsOf (hactive : ∃ p ∈ ps, p.active = true)
    (hdiv : ∀ p ∈ ps, p.active = true → ∃ q, trueDiv p.price (max p.size 1) = .ok q) :
    ∃ field, getOptions py (paramsOf creditPrice ps names) = .ok field ∧
      ∀ n, field.Offers n ↔ ∃ p ∈ ps, p.active = true ∧ p.size = n := by
  have hne : ((ps.filter Package.active).map Package.fields).isEmpty = false := by
    obtain ⟨p, hp, hpa⟩ := hactive
    rw [List.isEmpty_eq_false_iff]
    exact List.ne_nil_of_mem (List.mem_map_of_mem (List.mem_filter.mpr ⟨hp, hpa⟩))
  have hchoices : ∀ p ∈ ps.filter Package.active, ∃ c, choice py p.fields = .ok c ∧ c.value = .int p.size :=
    fun p hp => choice_fields (hdiv p (List.mem_filter.mp hp).1 (List.mem_filter.mp hp).2)
  obtain ⟨choices, hmap⟩ : ∃ choices, (ps.filter Package.active).mapM (fun p => choice py p.fields) = .ok choices :=
    exists_mapM_eq_ok fun p hp => (hchoices p hp).imp fun _ h => h.1
  refine ⟨.select (.str "Gói request") choices, ?_, fun n => ?_⟩
  · have hlabels : (paramsOf creditPrice ps names).lookup "field_labels" =
        some (.obj [("package_size", .str "Gói request")]) := rfl
    simp only [getOptions, hlabels, pricedPackages_paramsOf, packages_paramsOf, bind, Except.bind, asFields,
      Option.getD_some, hne, Bool.false_eq_true, if_false, List.mapM_map]
    rw [show (choice py ∘ Package.fields) = fun p => choice py p.fields from rfl, hmap]
    rfl
  · simp only [Field.Offers, mem_of_mapM_eq_ok hmap]
    constructor
    · rintro ⟨c, ⟨p, hp, hc⟩, hn⟩
      obtain ⟨c', hc', hvalue⟩ := hchoices p hp
      obtain rfl := Except.ok.inj (hc.symm.trans hc')
      rw [hvalue] at hn
      exact ⟨p, (List.mem_filter.mp hp).1, (List.mem_filter.mp hp).2, by simpa [Json.isInt] using hn⟩
    · rintro ⟨p, hp, hpa, rfl⟩
      have hmem : p ∈ ps.filter Package.active := List.mem_filter.mpr ⟨hp, hpa⟩
      obtain ⟨c, hc, hvalue⟩ := hchoices p hmem
      exact ⟨c, ⟨p, hmem, hc⟩, by simp [hvalue, Json.isInt]⟩

end Prices

/-! ### What a buyer gets -/

variable (py : Language) (volume : ℤ → ℤ → Json → Except PricingError ℤ)
  (others : GatewayProduct → Fields → Except Refusal ℤ)

/-- `quote_product`, the amount. Products without parameters of their own for `credit` are priced by `others`. -/
def quoteProduct (product : GatewayProduct) (userConfig : Fields) : Except Refusal ℤ :=
  match product.pricingStrategy, product.pricingParams with
  | some strategy, some params =>
    if strategy = "credit" ∧ params ≠ [] then
      match (userConfig.lookup "package_size").bind wholeNumber, Credit.validate py params userConfig with
      | some n, .ok true => (quote py volume params n).mapError .pricing
      | _, .error e => .error (.pricing e)
      | _, _ => .error (.abort (.api 400 "INVALID_PRODUCT_CONFIG"))
    else others product userConfig
  | _, _ => others product userConfig

/-- While the product is active, what is sold is a package that is active, at its price, and the sizes on offer are the
sizes that are let through. -/
def SoldAsSet (s : GatewaySource) : Prop :=
  ∀ product, s.product = some product → product.status = .active →
    (∀ userConfig amount, quoteProduct py volume others product userConfig = .ok amount →
      ∃ n, (userConfig.lookup "package_size").bind wholeNumber = some n ∧
        ∃ all, packages (product.pricingParams.getD []) = .ok all ∧
          ∃ p ∈ all, isActive p = true ∧ intItem py p "size" = .ok n ∧ intItem py p "price" = .ok amount) ∧
    ∃ field, getOptions py (product.pricingParams.getD []) = .ok field ∧
      ∀ n, field.Offers n ↔
        Credit.validate py (product.pricingParams.getD []) [("package_size", .int n)] = .ok true

/-! ### The invariant -/

/-- The parameters are those of packages, and what is active has a size and a price for each request. -/
def Shaped (product : GatewayProduct) (ps : List Package) : Prop :=
  product.pricingStrategy = some "credit" ∧
    (∃ price names, product.pricingParams = some (paramsOf price ps names)) ∧
    ∀ p ∈ ps, p.active = true → 1 ≤ p.size ∧ ∃ q, trueDiv p.price p.size = .ok q

/-- The product is that of packages, and while it is active, so is one of them. -/
def SourceInv (s : GatewaySource) : Prop :=
  ∀ product, s.product = some product →
    ∃ ps, Shaped product ps ∧ (product.status = .active → ∃ p ∈ ps, p.active = true)

variable {py volume others} {host : GatewayHost} {req : GatewayPackagesUpdate} {s s' : GatewaySource}
  {product : GatewayProduct}

theorem Shaped.activePackages {ps : List Package} (h : Shaped product ps) :
    activePackages product = .ok ((ps.filter Package.active).map Package.fields) := by
  obtain ⟨-, ⟨price, names, hparams⟩, -⟩ := h
  have hfilter : (ps.map Package.fields).filter (fun p => isActive p) = (ps.filter Package.active).map Package.fields := by
    rw [List.filter_map]
    congr 1
  rw [GatewaySources.activePackages, hparams, Option.getD_some, packages_paramsOf, ← hfilter]
  rfl

/-- **With the invariant, buyers get what was set.** -/
theorem SourceInv.soldAsSet (hinv : SourceInv s) : SoldAsSet py volume others s := by
  intro product hproduct hstatus
  obtain ⟨ps, ⟨hstrategy, ⟨price, names, hparams⟩, hps⟩, hactive⟩ := hinv product hproduct
  have hactive := hactive hstatus
  rw [hparams, Option.getD_some]
  refine ⟨fun userConfig amount hquote => ?_, ?_⟩
  · have hne : paramsOf price ps names ≠ [] := List.cons_ne_nil _ _
    rw [quoteProduct, hstrategy, hparams] at hquote
    simp only [hne, ne_eq, not_false_eq_true, and_self, if_true] at hquote
    split at hquote
    next n hsize hvalid =>
      obtain ⟨n', hsize', -, p, hp, hpa, hpn⟩ := (validate_paramsOf hactive userConfig).mp hvalid
      obtain rfl := Option.some.inj (hsize.symm.trans hsize')
      have hsold : ∃ p' ∈ ps, p'.active = true ∧ p'.size = n ∧
          quote py volume (paramsOf price ps names) n = .ok p'.price := quote_paramsOf hp hpa hpn
      obtain ⟨p', hp', hpa', hpn', hprice⟩ := hsold
      rw [hprice] at hquote
      refine ⟨n, hsize, _, packages_paramsOf, p'.fields, List.mem_map_of_mem hp', hpa', ?_, ?_⟩
      · rw [intItem_size, hpn']
      · rw [intItem_price]
        exact congrArg Except.ok (Except.ok.inj hquote)
    next => cases hquote
    next => cases hquote
  · have hdiv : ∀ p ∈ ps, p.active = true → ∃ q, trueDiv p.price (max p.size 1) = .ok q := by
      intro p hp hpa
      obtain ⟨hsize, hdiv⟩ := hps p hp hpa
      rwa [max_eq_left hsize]
    have hoptions : ∃ field, getOptions py (paramsOf price ps names) = .ok field ∧
        ∀ n, field.Offers n ↔ ∃ p ∈ ps, p.active = true ∧ p.size = n := getOptions_paramsOf hactive hdiv
    obtain ⟨field, hfield, hoffers⟩ := hoptions
    refine ⟨field, hfield, fun n => ?_⟩
    rw [hoffers n, validate_paramsOf hactive]
    constructor
    · rintro ⟨p, hp, hpa, rfl⟩
      exact ⟨p.size, rfl, (hps p hp hpa).1, p, hp, hpa, rfl⟩
    · rintro ⟨n', hsize, -, p, hp, hpa, hpn⟩
      obtain rfl := Option.some.inj hsize
      exact ⟨p, hp, hpa, hpn⟩

/-! ### The calls -/

variable (host s) in
/-- The packages of the request have sizes from one on, and one of them is active, unless the product is not, or the
request says whether it is to be published and no cost is stored before that. -/
def KeepsPackage (req : GatewayPackagesUpdate) : Prop :=
  ∀ packages, req.packages = some packages →
    (∀ p ∈ packages, p.clean.active = true → 1 ≤ p.size) ∧
    ((∃ p ∈ packages, p.clean.active = true) ∨
      (∀ product, s.product = some product → product.status ≠ .active) ∨
      req.publish.isSome = true ∧
        ∀ cost, req.costPerRequest = some cost → ∃ e, newConfig host s.provider cost = .error e)

/-- What packages are stored as. -/
theorem shaped_of_pricingParams {provider : GatewayProvider} {packages : List Package} {params : Fields}
    (h : pricingParams host provider packages = .ok params)
    (hsize : ∀ p ∈ packages, p.active = true → 1 ≤ p.size) (hstrategy : product.pricingStrategy = some "credit")
    (hparams : product.pricingParams = some params) : Shaped product packages := by
  obtain ⟨perUnit, hper, h⟩ := bind_eq_ok.mp h
  obtain ⟨names, -, h⟩ := bind_eq_ok.mp h
  obtain rfl := Except.ok.inj h
  refine ⟨hstrategy, ⟨_, names, hparams⟩, fun p hp hpa => ⟨hsize p hp hpa, ?_⟩⟩
  rcases hmap : (packages.filter fun p => p.size ≠ 0).mapM fun p => trueDiv p.price p.size with e | quotients
  · rw [hmap] at hper
    cases hper
  · have hnonzero : p.size ≠ 0 := by
      have hle := hsize p hp hpa
      omega
    exact exists_of_mapM_eq_ok hmap (List.mem_filter.mpr ⟨hp, by simpa using hnonzero⟩)

theorem sourceInv_ensureProduct (hinv : SourceInv s) (h : ensureProduct host s = .ok s') :
    SourceInv s' ∧ s'.provider = s.provider ∧
      ((∀ product, s.product = some product → product.status ≠ .active) →
        ∀ product, s'.product = some product → product.status ≠ .active) := by
  rw [ensureProduct] at h
  split at h
  · obtain rfl := Except.ok.inj h
    exact ⟨hinv, rfl, id⟩
  · obtain rfl := Except.ok.inj h
    exact ⟨hinv, rfl, id⟩
  · obtain ⟨categoryId, -, h⟩ := bind_eq_ok.mp h
    obtain ⟨params, hparams, h⟩ := bind_eq_ok.mp h
    obtain rfl := Except.ok.inj h
    -- a draft without packages
    refine ⟨fun product hproduct => ⟨[], ?_, ?_⟩, rfl, fun _ product hproduct => ?_⟩
    · obtain rfl := Option.some.inj hproduct
      exact shaped_of_pricingParams hparams (by simp) rfl rfl
    · obtain rfl := Option.some.inj hproduct
      intro hactive
      cases hactive
    · obtain rfl := Option.some.inj hproduct
      simp

variable (req) in
/-- What holds until the status is set: the invariant, or a status is to be set before anything is committed. -/
def StagedInv (s : GatewaySource) : Prop :=
  ∀ product, s.product = some product → ∃ ps, Shaped product ps ∧
    ((product.status = .active → ∃ p ∈ ps, p.active = true) ∨ req.publish.isSome = true)

theorem SourceInv.staged (hinv : SourceInv s) : StagedInv req s := by
  intro product hproduct
  obtain ⟨ps, hshaped, hactive⟩ := hinv product hproduct
  exact ⟨ps, hshaped, .inl hactive⟩

/-- **The packages of a request that keeps one** leave the invariant, or no cost is stored and the status comes. -/
theorem sourceInv_setPackages (hinv : SourceInv s) (hkeeps : KeepsPackage host s req)
    (h : setPackages host req.packages s = .ok s') :
    s'.provider = s.provider ∧ (SourceInv s' ∨ StagedInv req s' ∧
      ∀ cost, req.costPerRequest = some cost → ∃ e, newConfig host s.provider cost = .error e) := by
  obtain ⟨product, product', hproduct, hset, rfl⟩ := editProduct_eq_ok.mp h
  refine ⟨rfl, ?_⟩
  rcases hpackages : req.packages with _ | packages
  · rw [hpackages] at hset
    obtain rfl := Except.ok.inj hset
    refine .inl fun product' hproduct' => ?_
    obtain rfl := Option.some.inj hproduct'
    exact hinv _ hproduct
  · rw [hpackages] at hset
    simp only at hset
    split at hset
    next =>
      obtain ⟨params, hparams, hset⟩ := bind_eq_ok.mp hset
      obtain rfl := Except.ok.inj hset
      obtain ⟨hsize, hactive⟩ := hkeeps packages hpackages
      have hshaped : Shaped { product with pricingParams := some params, pricingStrategy := some "credit" }
          (packages.map PackageInput.clean) := by
        refine shaped_of_pricingParams hparams (fun p hp hpa => ?_) rfl rfl
        obtain ⟨p', hp', rfl⟩ := List.mem_map.mp hp
        exact hsize p' hp' hpa
      rcases hactive with ⟨p, hp, hpa⟩ | hdraft | ⟨hpublish, hrefused⟩
      · refine .inl fun product' hproduct' => ?_
        obtain rfl := Option.some.inj hproduct'
        exact ⟨_, hshaped, fun _ => ⟨p.clean, List.mem_map_of_mem hp, hpa⟩⟩
      · refine .inl fun product' hproduct' => ?_
        obtain rfl := Option.some.inj hproduct'
        exact ⟨_, hshaped, fun hstatus => absurd hstatus (hdraft product hproduct)⟩
      · refine .inr ⟨fun product' hproduct' => ?_, hrefused⟩
        obtain rfl := Option.some.inj hproduct'
        exact ⟨_, hshaped, .inr hpublish⟩
    next => cases hset

/-- Title and category change no packages. -/
theorem setCategory_eq_ok {categories : Table ℤ GatewayCategory} {categoryId : Option ℤ} {title : Option String}
    {product' : GatewayProduct} (h : setCategory categories categoryId (setTitle title product) = .ok product') :
    product'.status = product.status ∧ product'.pricingStrategy = product.pricingStrategy ∧
      product'.pricingParams = product.pricingParams := by
  have htitle : (setTitle title product).status = product.status ∧
      (setTitle title product).pricingStrategy = product.pricingStrategy ∧
      (setTitle title product).pricingParams = product.pricingParams := by
    rw [setTitle]
    split <;> exact ⟨rfl, rfl, rfl⟩
  rw [setCategory] at h
  split at h
  · split at h
    · obtain rfl := Except.ok.inj h
      exact htitle
    · cases h
  · obtain rfl := Except.ok.inj h
    exact htitle

/-- **Once the status is set**, the invariant holds. -/
theorem sourceInv_setRest (hstaged : StagedInv req s) (h : setRest req s = .ok s') : SourceInv s' := by
  obtain ⟨product, product', hproduct, hset, rfl⟩ := editProduct_eq_ok.mp h
  obtain ⟨categorised, hcategory, hstatus⟩ := bind_eq_ok.mp hset
  obtain ⟨hs, hstrategy, hparams⟩ := setCategory_eq_ok hcategory
  obtain ⟨ps, ⟨hcredit, hstored, hps⟩, hactive⟩ := hstaged product hproduct
  have hshaped : Shaped categorised ps := ⟨hstrategy.trans hcredit, by rwa [hparams], hps⟩
  intro product'' hproduct''
  obtain rfl := Option.some.inj hproduct''
  rcases hpublish : req.publish with _ | _ | _
  · rw [hpublish] at hstatus hactive
    obtain rfl := Except.ok.inj hstatus
    refine ⟨ps, hshaped, fun hs' => ?_⟩
    rcases hactive with hactive | hnone
    · exact hactive (hs ▸ hs')
    · cases hnone
  · rw [hpublish] at hstatus
    obtain rfl := Except.ok.inj hstatus
    refine ⟨ps, hshaped, fun hs' => ?_⟩
    cases hs'
  · rw [hpublish] at hstatus
    obtain ⟨active, hall, hstatus⟩ := bind_eq_ok.mp hstatus
    rw [hshaped.activePackages] at hall
    obtain rfl := Except.ok.inj hall
    split at hstatus
    next => cases hstatus
    next hne =>
      obtain rfl := Except.ok.inj hstatus
      refine ⟨ps, hshaped, fun _ => ?_⟩
      rcases hfilter : ps.filter Package.active with _ | ⟨p, rest⟩
      · rw [hfilter] at hne
        simp at hne
      · have hp : p ∈ ps.filter Package.active := by rw [hfilter]; exact List.mem_cons_self
        exact ⟨p, (List.mem_filter.mp hp).1, (List.mem_filter.mp hp).2⟩

/-! ### Runs -/

/-- A call of the routes of a source. -/
inductive SourceCall
  | overview
  | update (req : GatewayPackagesUpdate)

/-- What a call runs. -/
def SourceCall.work (host : GatewayHost) : SourceCall → Work GatewaySource Refusal Unit
  | .overview => getGateway host
  | .update req => updatePackages host req

/-- An update keeps a package. -/
def SourceCall.Keeps (host : GatewayHost) (s : GatewaySource) : SourceCall → Prop
  | .overview => True
  | .update req => KeepsPackage host s req

theorem commits_getGateway : Work.Commits SourceInv SourceInv (getGateway host) fun _ => SourceInv :=
  Work.Commits.bind (Work.Commits.edit fun _ _ hinv h => (sourceInv_ensureProduct hinv h).1) fun _ =>
    Work.Commits.bind (Work.Commits.commit (fun _ h => h) fun _ h => h) fun _ =>
      Work.Commits.answer fun _ _ h _ => h

/-- **An update commits nothing but the invariant**, at its end and on the way. -/
theorem commits_updatePackages (hkeeps : KeepsPackage host s req) :
    Work.Commits SourceInv (fun s' => s' = s ∧ SourceInv s) (updatePackages host req) fun _ => SourceInv := by
  -- what is staged: the invariant, or no cost is to be stored and the status is to come
  let mid : GatewaySource → Prop := fun s' => SourceInv s' ∨ StagedInv req s' ∧
    ∀ cost, req.costPerRequest = some cost → ∃ e, newConfig host s'.provider cost = .error e
  have hstaged : ∀ s', mid s' → StagedInv req s' := fun s' h => h.elim SourceInv.staged And.left
  have hcost : Work.Commits SourceInv mid (updateCost host req.costPerRequest) fun _ => StagedInv req := by
    rcases hreq : req.costPerRequest with _ | cost
    · exact Work.Commits.pure hstaged
    · refine Work.Commits.bind (Work.Commits.edit fun s₁ s₂ hmid hset => ?_) fun _ =>
        Work.Commits.commit (fun _ h => h) fun _ h => SourceInv.staged h
      obtain ⟨config, hconfig, h⟩ := bind_eq_ok.mp hset
      obtain rfl := Except.ok.inj h
      rcases hmid with hinv | ⟨-, hrefused⟩
      · exact hinv
      · obtain ⟨e, he⟩ := hrefused cost hreq
        rw [he] at hconfig
        cases hconfig
  have hensure : Work.Commits SourceInv (fun s' => s' = s ∧ SourceInv s) (Work.edit (ensureProduct host))
      fun _ s₁ => SourceInv s₁ ∧ KeepsPackage host s₁ req := by
    refine Work.Commits.edit ?_
    rintro _ s₁ ⟨rfl, hinv⟩ hensure
    obtain ⟨hinv₁, hprovider, hdraft⟩ := sourceInv_ensureProduct hinv hensure
    refine ⟨hinv₁, fun packages hpackages => ?_⟩
    obtain ⟨hsize, hactive⟩ := hkeeps packages hpackages
    rw [hprovider]
    exact ⟨hsize, hactive.imp_right (.imp_left hdraft)⟩
  have hset : Work.Commits SourceInv (fun s₁ => SourceInv s₁ ∧ KeepsPackage host s₁ req)
      (Work.edit (setPackages host req.packages)) fun _ => mid := by
    refine Work.Commits.edit ?_
    rintro s₁ s₂ ⟨hinv, hkeeps₁⟩ hset
    obtain ⟨hprovider, hmid⟩ := sourceInv_setPackages hinv hkeeps₁ hset
    show SourceInv s₂ ∨ _
    rw [hprovider]
    exact hmid
  exact hensure.bind fun _ => hset.bind fun _ => hcost.bind fun _ =>
    Work.Commits.bind (Work.Commits.edit fun _ _ h hset => sourceInv_setRest h hset) fun _ =>
      Work.Commits.bind (Work.Commits.commit (fun _ h => h) fun _ h => h) fun _ => commits_getGateway

/-- What a call commits. -/
theorem SourceCall.moments {call : SourceCall} (hkeeps : call.Keeps host s) (hinv : SourceInv s) :
    ∀ d ∈ (call.work host).moments s, SourceInv d := by
  cases call with
  | overview => exact commits_getGateway.moments hinv hinv
  | update req => exact (commits_updatePackages hkeeps).moments hinv ⟨rfl, hinv⟩

/-- One call after the other, each of which keeps a package. -/
def Calls (host : GatewayHost) : GatewaySource → GatewaySource → Prop :=
  Relation.ReflTransGen fun s s' => ∃ call : SourceCall, call.Keeps host s ∧ ((call.work host).closed s).2 = s'

theorem Calls.sourceInv {start : GatewaySource} (hstart : start.product = none) (hcalls : Calls host start s) :
    SourceInv s := by
  induction hcalls with
  | refl =>
    intro product hproduct
    rw [hstart] at hproduct
    cases hproduct
  | tail _ hcall ih =>
    obtain ⟨call, hkeeps, rfl⟩ := hcall
    exact SourceCall.moments hkeeps ih _ (Work.closed_mem_moments _ _)

/-- **Packages are sold as they were set**: after any calls on a new source that keep a package each, at every moment
of the next such call. -/
theorem sold_as_set {start : GatewaySource} (hstart : start.product = none) (hcalls : Calls host start s)
    {call : SourceCall} (hkeeps : call.Keeps host s) :
    ∀ d ∈ (call.work host).moments s, SoldAsSet py volume others d :=
  fun d hd => (SourceCall.moments hkeeps (hcalls.sourceInv hstart) d hd).soldAsSet

/-- A source that has just been made. -/
def newSource : GatewaySource where
  provider := ⟨"Facebook", "ghlab_fb", some 1, Table.empty⟩
  product := none
  categories := Table.empty.insert 1 ⟨"Facebook", true⟩

/-- A hundred requests for 5000, at once on sale. -/
def firstUpdate : GatewayPackagesUpdate := ⟨some [⟨none, 100, 5000, none⟩], some (.int 20), none, none, some true⟩

/-- The products of other strategies are not on sale. -/
def noOthers : GatewayProduct → Fields → Except Refusal ℤ := fun _ _ => .error (.abort .notCommitted)

/-- No discount for a volume. -/
def noVolume : ℤ → ℤ → Json → Except PricingError ℤ := fun amount _ _ => .ok amount

/-- The overview, and then the first packages. -/
theorem sold_as_set_first :
    ∃ d ∈ (SourceCall.work plainHost (.update firstUpdate)).moments ((getGateway plainHost).closed newSource).2,
      d.product.map GatewayProduct.status = some .active ∧ SoldAsSet plainHost.py noVolume noOthers d := by
  have hcalls : Calls plainHost newSource ((getGateway plainHost).closed newSource).2 :=
    .single ⟨.overview, trivial, rfl⟩
  have hkeeps : SourceCall.Keeps plainHost ((getGateway plainHost).closed newSource).2 (.update firstUpdate) := by
    intro packages hpackages
    obtain rfl := Option.some.inj hpackages
    exact ⟨by simp, .inl ⟨_, List.mem_cons_self, rfl⟩⟩
  exact ⟨_, Work.closed_mem_moments _ _, by decide +kernel,
    sold_as_set rfl hcalls hkeeps _ (Work.closed_mem_moments _ _)⟩

/-- The packages are taken off the shelf, and the product stays where it is. -/
def emptyUpdate : GatewayPackagesUpdate := ⟨some [⟨none, 100, 5000, some false⟩], none, none, none, none⟩

/-- With its only package switched off, an active product sells seven requests, at the price of one times seven. -/
theorem seven_requests_sold :
    ∃ s s', ((updatePackages plainHost firstUpdate).closed newSource).2 = s ∧
      ((updatePackages plainHost emptyUpdate).closed s).2 = s' ∧ ¬ SoldAsSet plainHost.py noVolume noOthers s' := by
  refine ⟨_, _, rfl, rfl, fun h => ?_⟩
  have hfacts : ((updatePackages plainHost emptyUpdate).closed
      ((updatePackages plainHost firstUpdate).closed newSource).2).2.product.map (fun product =>
        (product.status, (quoteProduct plainHost.py noVolume noOthers product [("package_size", .int 7)]).toOption,
          (packages (product.pricingParams.getD [])).toOption.map fun all => all.any isActive)) =
      some (.active, some 350, some false) := by
    decide +kernel
  obtain ⟨product, hproduct, hfacts⟩ := Option.map_eq_some_iff.mp hfacts
  simp only [Prod.mk.injEq, Option.map_eq_some_iff] at hfacts
  obtain ⟨hstatus, hquote, all, hall, hnone⟩ := hfacts
  have hok : ∀ {ε α : Type} {x : Except ε α} {a : α}, x.toOption = some a → x = .ok a := by
    intro ε α x a hx
    cases x with
    | error e => cases hx
    | ok b => exact congrArg Except.ok (Option.some.inj hx)
  obtain ⟨n, -, all', hall', p, hp, hactive, -⟩ := (h product hproduct hstatus).1 _ _ (hok hquote)
  obtain rfl := Except.ok.inj ((hok hall).symm.trans hall')
  rw [List.any_eq_false] at hnone
  exact hnone p hp hactive

end Marketplace.GatewaySources
