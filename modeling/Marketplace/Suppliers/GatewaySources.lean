import Marketplace.Pricing.Credit
import Marketplace.Providers.Review
import Marketplace.Sql.Commits
import Marketplace.Suppliers.ProxySources

/-!
# Sources that are sold by request packages

`suppliers/gateway_sources.py`: an internal seller runs the source and sells one product, whose packages an admin sets.
`update_packages` stages the packages on the product, lets `update_provider` store a new cost, which commits the
session with all that is staged, and goes on with title, category and status; `ensure_product` makes
the product as a draft the first time.

The state is that of one source: its provider, the one product `ensure_product` finds, and the categories. The keys of
the endpoint map, the checks of the adapter and what `get_gateway` shows are given by a `GatewayHost`; the business log is
left out.
-/

namespace Marketplace.GatewaySources

open Python Sql Credit

/-- Why a call is refused. -/
inductive Refusal
  | abort (e : Abort)
  | pricing (e : PricingError)
  deriving DecidableEq, Repr

/-- A package of the request. -/
structure PackageInput where
  label : Option String
  size : ℤ
  price : ℤ
  active : Option Bool
  deriving DecidableEq, Repr

/-- A package as it is stored. -/
structure Package where
  label : String
  size : ℤ
  price : ℤ
  active : Bool
  deriving DecidableEq, Repr

/-- The body of the request: what is not set is `none`. -/
structure GatewayPackagesUpdate where
  packages : Option (List PackageInput)
  costPerRequest : Option Value
  title : Option String
  categoryId : Option ℤ
  publish : Option Bool

/-- The provider of the source. -/
structure GatewayProvider where
  name : String
  adapterType : String
  sellerId : Option ℕ
  config : ProviderConfig

/-- The product of the source. -/
structure GatewayProduct where
  title : String
  categoryId : ℤ
  status : ProductStatus
  pricingStrategy : Option String
  pricingParams : Option Fields

/-- A row of `categories`. -/
structure GatewayCategory where
  name : String
  isActive : Bool

/-- What a call reads and writes. -/
structure GatewaySource where
  provider : GatewayProvider
  product : Option GatewayProduct
  categories : Table ℤ GatewayCategory

/-- The fields of `AdapterSpec` that say what a configuration has to be. -/
structure AdapterSpec where
  requiresWebhookSecret : Bool
  validateConfig : Option (ProviderConfig → Except Abort Unit)

/-- What a call rests on. -/
structure GatewayHost where
  py : Language
  /-- `str.lower` -/
  lower : String → String
  /-- The names in the endpoint map of a configuration. -/
  endpointNames : ProviderConfig → Except Refusal (List String)
  /-- `get_spec`. -/
  getSpec : String → Option AdapterSpec
  nonce : ℕ
  /-- What `get_gateway` makes of the rows, if it can. -/
  overview : GatewaySource → Except Refusal Unit

variable (host : GatewayHost)

/-! ### Packages -/

/-- `ENDPOINT_DOCS`, the units. -/
def endpointUnits : List (String × ℤ) := [("fb_collect", 1)]

/-- A package of the request, as it is stored. -/
def PackageInput.clean (p : PackageInput) : Package where
  label :=
    let text := (p.label.filter (· ≠ "")).getD (toString p.size ++ " request")
    String.ofList ((Text.stripChars Text.isSpace text.toList).take 60)
  size := p.size
  price := p.price
  active := p.active.getD true

/-- The dict of a package. -/
def Package.fields (p : Package) : Fields :=
  [("label", .str p.label), ("size", .int p.size), ("price", .int p.price), ("active", .bool p.active)]

/-- The dict `_pricing_params` returns. -/
def paramsOf (creditPrice : Json) (packages : List Package) (names : List String) : Fields :=
  [("credit_price", creditPrice),
    ("packages", .arr (packages.map fun p => .obj p.fields)),
    ("field_labels", .obj [("package_size", .str "Gói request")]),
    ("endpoint_rates", .obj (names.map fun name => (name, .int ((endpointUnits.lookup name).getD 1)))),
    ("default_rate", .int 1)]

/-- `round(min(per_unit), 2) if per_unit else 0` -/
def creditPrice (perUnit : List ℚ) : Json :=
  match perUnit.min? with
  | some q => .float (roundTwo q)
  | none => .int 0

/-- `_pricing_params`. -/
def pricingParams (provider : GatewayProvider) (packages : List Package) : Except Refusal Fields := do
  let perUnit ← ((packages.filter fun p => p.size ≠ 0).mapM fun p => trueDiv p.price p.size).mapError .pricing
  let names ← host.endpointNames provider.config
  pure (paramsOf (creditPrice perUnit) packages names)

/-! ### The product -/

/-- `_guess_category`. -/
def guessCategory (categories : Table ℤ GatewayCategory) : Except Refusal ℤ :=
  let rows := (categories.rows.filter fun r => r.2.isActive).mergeSort fun r r' => r.1 ≤ r'.1
  match rows.find? fun r => decide ("facebook".toList <:+: (host.lower r.2.name).toList) with
  | some r => .ok r.1
  | none =>
    match rows.head? with
    | some r => .ok r.1
    | none => .error (.abort (.api 400 "INVALID_PRODUCT_CONFIG"))

/-- `ensure_product`. -/
def ensureProduct (s : GatewaySource) : Except Refusal GatewaySource :=
  match s.product, s.provider.sellerId with
  | some _, _ | none, none => .ok s
  | none, some _ => do
    let categoryId ← guessCategory host s.categories
    let params ← pricingParams host s.provider []
    pure
      { s with
        product := some
          { title := s.provider.name
            categoryId := categoryId
            status := .draft
            pricingStrategy := some "credit"
            pricingParams := some params } }

/-- An assignment to the product, which has to be there. -/
def editProduct (f : GatewayProduct → Except Refusal GatewayProduct) (s : GatewaySource) :
    Except Refusal GatewaySource :=
  match s.product with
  | some product => do
    let product ← f product
    pure { s with product := some product }
  | none => .error (.abort (.api 400 "INVALID_PRODUCT_CONFIG"))

/-- The packages of the request are put on the product. -/
def setPackages (packages : Option (List PackageInput)) (s : GatewaySource) : Except Refusal GatewaySource :=
  editProduct (fun product =>
    match packages with
    | none => .ok product
    | some packages =>
      if (packages.map PackageInput.size).Nodup then do
        let params ← pricingParams host s.provider (packages.map PackageInput.clean)
        pure { product with pricingParams := some params, pricingStrategy := some "credit" }
      else .error (.abort (.api 400 "INVALID_PRODUCT_CONFIG"))) s

/-! ### The provider -/

/-- `_validate_adapter_config`. -/
def validateConfig (adapterType : String) (config : ProviderConfig) : Except Abort Unit :=
  match host.getSpec adapterType with
  | none => .ok ()
  | some spec =>
    if spec.requiresWebhookSecret = true ∧ (config.get? "webhook_secret").any ConfigValue.truthy = false then
      .error (.http 400 ("adapter_type '" ++ adapterType ++ "' bắt buộc phải có config.webhook_secret"))
    else
      match spec.validateConfig with
      | none => .ok ()
      | some check => check config

/-- What `update_provider` stores for a new cost. -/
def newConfig (provider : GatewayProvider) (cost : Value) : Except Abort ProviderConfig := do
  let config ← mergeMaskedSecrets (some provider.config) sensitiveConfigKeys
    (provider.config.put "cost_per_request" (.plain cost))
  validateConfig host provider.adapterType config
  pure (encryptConfig host.nonce config)

/-- `update_provider` with the configuration of the source and a new cost, up to its commit. -/
def setCost (cost : Value) (s : GatewaySource) : Except Refusal GatewaySource := do
  let config ← (newConfig host s.provider cost).mapError .abort
  pure { s with provider := { s.provider with config := config } }

/-! ### Title, category and status -/

/-- A title, if there is one. -/
def setTitle (title : Option String) (product : GatewayProduct) : GatewayProduct :=
  match title.filter (· ≠ "") with
  | some title =>
    { product with title := String.ofList ((Text.stripChars Text.isSpace title.toList).take 255) }
  | none => product

/-- A category, which has to be known. -/
def setCategory (categories : Table ℤ GatewayCategory) (categoryId : Option ℤ) (product : GatewayProduct) :
    Except Refusal GatewayProduct :=
  match categoryId.filter (· ≠ 0) with
  | some categoryId =>
    if (categories.get? categoryId).isSome then .ok { product with categoryId := categoryId }
    else .error (.abort (.api 404 "CATEGORY_NOT_FOUND"))
  | none => .ok product

/-- The packages a product could be published with. -/
def activePackages (product : GatewayProduct) : Except Refusal (List Fields) := do
  let all ← (packages (product.pricingParams.getD [])).mapError .pricing
  pure (all.filter fun p => isActive p)

/-- The status. -/
def setStatus (publish : Option Bool) (product : GatewayProduct) : Except Refusal GatewayProduct :=
  match publish with
  | none => .ok product
  | some false => .ok { product with status := .draft }
  | some true => do
    let active ← activePackages product
    if active.isEmpty then .error (.abort (.api 400 "INVALID_PRODUCT_CONFIG"))
    else pure { product with status := .active }

/-- What follows the provider. -/
def setRest (req : GatewayPackagesUpdate) (s : GatewaySource) : Except Refusal GatewaySource :=
  editProduct (fun product => do
    let product ← setCategory s.categories req.categoryId (setTitle req.title product)
    setStatus req.publish product) s

/-! ### The calls -/

/-- `update_provider`, if there is a new cost. -/
def updateCost (cost : Option Value) : Work GatewaySource Refusal Unit :=
  match cost with
  | none => pure ()
  | some cost => do
    Work.edit (setCost host cost)
    Work.commit

/-- `get_gateway`. -/
def getGateway : Work GatewaySource Refusal Unit := do
  Work.edit (ensureProduct host)
  Work.commit
  Work.answer host.overview

/-- `update_packages`. -/
def updatePackages (req : GatewayPackagesUpdate) : Work GatewaySource Refusal Unit := do
  Work.edit (ensureProduct host)
  Work.edit (setPackages host req.packages)
  updateCost host req.costPerRequest
  Work.edit (setRest req)
  Work.commit
  getGateway host

end Marketplace.GatewaySources
