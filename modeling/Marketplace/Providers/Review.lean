import Marketplace.Model.Db
import Marketplace.Pricing.Config

/-!
# Testing and reviewing a seller's integration

`providers/service.py` and the test of `providers/router.py`: a seller connects a backend of their own, tests it,
and submits it to an admin, who approves or rejects it and may disable it later.

No operation locks the row. The provider is loaded once, and what a test finds is written through the object
that was loaded before the calls to the backend. The flush writes the columns that differ from what was loaded.

The secrets of a configuration are encrypted; the same secret entered twice is stored as two texts
(`ConfigValue.encrypted`). Whether a base URL is safe to call, and what a backend answers to a test, come from
outside. Names, mails and the business log are left out, and so are the fields of the administrator's own providers.
-/

namespace Marketplace

open Sql

/-! ### The rows -/

instance decidableEqTable {K V : Type} [DecidableEq K] [DecidableEq V] : DecidableEq (Table K V) := fun t u =>
  decidable_of_iff (t.rows = u.rows) Table.ext_iff.symm

/-- A value of a configuration: as it was sent, or encrypted, which gives another text each time. -/
inductive ConfigValue
  | plain (v : Value)
  | encrypted (text : String) (nonce : ℕ)
  deriving DecidableEq, Repr

/-- The `config` of a provider. -/
abbrev ProviderConfig : Type := Table String ConfigValue

/-- `review_status`. -/
inductive ReviewStatus
  | draft | tested | testFailed | pendingReview | approved | rejected | disabled
  deriving DecidableEq, Repr

/-- What a test has come to: the health, and the provisioning if it was tried. -/
structure TestOutcome where
  healthStatus : Option String
  healthMessage : Option String
  healthProbe : Option String
  /-- `provision_test`: the success and the error. -/
  provision : Option (Bool × Option String)
  skippedReason : Option String
  deriving DecidableEq

/-- `last_test_result`. -/
structure TestResult where
  passed : Bool
  healthStatus : Option String
  healthMessage : Option String
  provision : Option (Bool × Option String)
  skippedReason : Option String
  deriving DecidableEq

/-- A row of `providers`. -/
structure Integration where
  adapterType : String
  config : ProviderConfig
  isActive : Bool
  sellerId : Option ℕ
  reviewStatus : ReviewStatus
  reviewNote : Option String
  lastTestedAt : Option ℕ
  lastTestResult : Option TestResult
  deriving DecidableEq

/-- What no column keeps: the configurations that passed a test, the one a provider was last submitted with, and how
often the configuration or the status of a provider has changed. -/
structure ReviewHistory where
  passed : List (ℕ × ProviderConfig)
  submitted : ℕ → Option ProviderConfig
  changes : ℕ → ℕ

/-- The tables. -/
structure IntegrationDb where
  providers : Table ℕ Integration
  history : ReviewHistory

/-- A function on these tables inside a session, which locks providers. -/
abbrev IntegrationTx (α : Type) : Type := Sql.Tx IntegrationDb ℕ Abort α

/-- The `UPDATE` of a provider that was loaded and edited. -/
def Integration.write (loaded edited row : Integration) : Integration :=
  { row with
    config := writeColumn loaded.config edited.config row.config
    isActive := writeColumn loaded.isActive edited.isActive row.isActive
    reviewStatus := writeColumn loaded.reviewStatus edited.reviewStatus row.reviewStatus
    reviewNote := writeColumn loaded.reviewNote edited.reviewNote row.reviewNote
    lastTestedAt := writeColumn loaded.lastTestedAt edited.lastTestedAt row.lastTestedAt
    lastTestResult := writeColumn loaded.lastTestResult edited.lastTestResult row.lastTestResult }

/-- What the review is about: the configuration and the status. -/
def Integration.core (provider : Integration) : ProviderConfig × ReviewStatus :=
  (provider.config, provider.reviewStatus)

namespace IntegrationDb

/-- Add a provider. -/
def addProvider (providerId : ℕ) (provider : Integration) (d : IntegrationDb) : IntegrationDb where
  providers := d.providers.insert providerId provider
  history :=
    { d.history with changes := Function.update d.history.changes providerId (d.history.changes providerId + 1) }

/-- Write what has been edited. -/
def updateProvider (providerId : ℕ) (loaded edited : Integration) (d : IntegrationDb) : IntegrationDb where
  providers := d.providers.modify providerId (loaded.write edited)
  history :=
    { d.history with
      changes :=
        if edited.core = loaded.core then d.history.changes
        else Function.update d.history.changes providerId (d.history.changes providerId + 1) }

/-- A test with this configuration has passed. -/
def notePassed (providerId : ℕ) (config : ProviderConfig) (d : IntegrationDb) : IntegrationDb :=
  { d with history := { d.history with passed := (providerId, config) :: d.history.passed } }

/-- The provider has been submitted as it is. -/
def noteSubmitted (providerId : ℕ) (d : IntegrationDb) : IntegrationDb :=
  { d with
    history :=
      { d.history with
        submitted := Function.update d.history.submitted providerId
          ((d.providers.get? providerId).map Integration.config) } }

end IntegrationDb

/-! ### Loading and flushing -/

/-- The flush of a provider; without a change there is no `UPDATE`, and the row is not taken. -/
def flushIntegration (providerId : ℕ) (loaded edited : Integration) : IntegrationTx Unit := do
  Tx.stmt (fun _ => if edited = loaded then [] else [providerId]) fun _ => Tx.pure ()
  Tx.modify (IntegrationDb.updateProvider providerId loaded edited)

/-- `get_seller_provider`. -/
def getSellerProvider (sellerId providerId : ℕ) : IntegrationTx Integration := do
  let provider ← Tx.read fun d => d.providers.get? providerId
  let provider ← Tx.getOrElse provider (.api 403 "NOT_OWNER")
  Tx.require (provider.sellerId = some sellerId) (.api 403 "NOT_OWNER")
  pure provider

/-! ### Configurations -/

/-- `SENSITIVE_CONFIG_KEYS`. -/
def sensitiveConfigKeys : List String := ["api_key", "api_secret", "secret_key", "token", "webhook_secret"]

/-- `MASKED_SECRET`. -/
def maskedSecret : ConfigValue := .plain (.str "********")

/-- Whether the value counts as true. -/
def ConfigValue.truthy : ConfigValue → Bool
  | .plain .null => false
  | .plain (.bool b) => b
  | .plain (.int n) => n ≠ 0
  | .plain (.float q _) => q ≠ 0
  | .plain (.str s) => s ≠ ""
  | .plain (.other text) => text ∉ ["[]", "\x7b\x7d"]
  | .encrypted _ _ => true

/-- One key of `_merge_masked_secrets`. -/
def mergeSecret (existing : Option ProviderConfig) (key : String) (config : ProviderConfig) :
    Except Abort ProviderConfig :=
  match config.get? key with
  | none => .ok config
  | some submitted =>
    match (existing.bind fun e => e.get? key).filter ConfigValue.truthy with
    | some previous =>
      if submitted = maskedSecret then .ok (config.put key previous)
      else if submitted = .plain .null ∨ submitted = .plain (.str "") then .ok (config.erase key)
      else .ok config
    | none =>
      if submitted = maskedSecret then .error (.http 400 ("config." ++ key ++ " phải được nhập lại"))
      else if submitted = .plain .null ∨ submitted = .plain (.str "") then .ok (config.erase key)
      else .ok config

/-- `_merge_masked_secrets`. -/
def mergeMaskedSecrets (existing : Option ProviderConfig) : List String → ProviderConfig → Except Abort ProviderConfig
  | [], config => .ok config
  | key :: keys, config => (mergeSecret existing key config).bind (mergeMaskedSecrets existing keys)

/-- `_seller_config`. -/
def sellerConfig (raw : Table String Value) (existing : Option ProviderConfig) : Except Abort ProviderConfig :=
  if ((raw.get? "skip_health_probe").isSome || (raw.get? "skip_provision_handshake").isSome) = true then
    .error (.http 400 "Seller không được bỏ qua contract test")
  else mergeMaskedSecrets existing sensitiveConfigKeys (raw.mapValues .plain)

/-- A text that is not encrypted yet is. -/
def ConfigValue.encrypt (nonce : ℕ) : ConfigValue → ConfigValue
  | .plain (.str s) => if s = "" then .plain (.str s) else .encrypted s nonce
  | v => v

/-- `encrypt_config`. -/
def encryptConfig (nonce : ℕ) (config : ProviderConfig) : ProviderConfig :=
  sensitiveConfigKeys.foldl (fun config key => config.modify key (ConfigValue.encrypt nonce)) config

/-- `SELLER_ALLOWED_ADAPTER_TYPES`: the adapters with `seller_registrable`. -/
def sellerAllowedAdapterTypes : List String := ["seller_gateway", "seller_task_webhook"]

/-- `_validate_adapter_config` for these: one of them needs a secret, and neither has a check of its own. -/
def validateAdapterConfig (adapterType : String) (config : ProviderConfig) : IntegrationTx Unit :=
  Tx.require (adapterType = "seller_task_webhook" → (config.get? "webhook_secret").any ConfigValue.truthy = true)
    (.http 400 "adapter_type 'seller_task_webhook' bắt buộc phải có config.webhook_secret")

/-- A check without a statement. -/
def checked {α : Type} : Except Abort α → IntegrationTx α
  | .ok a => Tx.pure a
  | .error e => Tx.throw e

/-- `config.get("base_url", "")`, if it is a text. -/
def baseUrl (config : ProviderConfig) : String :=
  match config.get? "base_url" with
  | some (.plain (.str s)) => s
  | _ => ""

/-! ### A seller's operations -/

/-- `create_seller_provider`; the sequence has given the provider its key. -/
def createSellerProvider (providerId sellerId : ℕ) (adapterType : String) (raw : Table String Value)
    (safe : String → Bool) (nonce : ℕ) : IntegrationTx Unit := do
  Tx.require (adapterType ∈ sellerAllowedAdapterTypes)
    (.http 400 "Seller chỉ tự đăng ký được adapter_type: seller_gateway, seller_task_webhook")
  let config ← checked (sellerConfig raw none)
  validateAdapterConfig adapterType config
  Tx.require (safe (baseUrl config) = true) (.http 400 "base_url không hợp lệ")
  Tx.modify (IntegrationDb.addProvider providerId
    { adapterType, config := encryptConfig nonce config, isActive := true, sellerId := some sellerId
      reviewStatus := .draft, reviewNote := none, lastTestedAt := none, lastTestResult := none })

/-- `_require_seller_managed`. -/
def requireSellerManaged (provider : Integration) : IntegrationTx Unit :=
  Tx.require (provider.adapterType ∈ sellerAllowedAdapterTypes)
    (.http 403 "Nguồn này do admin quản lý — liên hệ admin để thay đổi")

/-- The configuration an update leaves: checked, and encrypted if it is a new one. -/
def updatedConfig (provider : Integration) (raw : Option (Table String Value)) (safe : String → Bool) (nonce : ℕ) :
    IntegrationTx ProviderConfig :=
  match raw with
  | none => do
    validateAdapterConfig provider.adapterType provider.config
    pure provider.config
  | some raw => do
    Tx.require (provider.reviewStatus ≠ .approved) (.http 409
      "Tích hợp đã duyệt đang được bảo vệ. Hãy tạo tích hợp mới để thay đổi kết nối.")
    let config ← checked (sellerConfig raw (some provider.config))
    validateAdapterConfig provider.adapterType config
    Tx.require (safe (baseUrl config) = true) (.http 400 "base_url không hợp lệ")
    pure (encryptConfig nonce config)

/-- A provider with a new configuration, or with the one it has. -/
def Integration.updated (provider : Integration) (isNew : Bool) (config : ProviderConfig) (isActive : Option Bool) :
    Integration :=
  { provider with
    config
    isActive := isActive.getD provider.isActive
    reviewStatus := if isNew then .draft else provider.reviewStatus
    reviewNote := if isNew then none else provider.reviewNote
    lastTestedAt := if isNew then none else provider.lastTestedAt
    lastTestResult := if isNew then none else provider.lastTestResult }

/-- `update_seller_provider`. -/
def updateSellerProvider (sellerId providerId : ℕ) (raw : Option (Table String Value)) (isActive : Option Bool)
    (safe : String → Bool) (nonce : ℕ) : IntegrationTx Unit := do
  let provider ← getSellerProvider sellerId providerId
  requireSellerManaged provider
  let config ← updatedConfig provider raw safe nonce
  flushIntegration providerId provider (provider.updated raw.isSome config isActive)

/-- Whether a test has passed. -/
def TestOutcome.passed (result : TestOutcome) : Bool :=
  result.healthStatus = some "healthy" && result.healthProbe ≠ some "skipped" &&
    result.provision.any fun provision => provision.1

/-- `record_seller_provider_test`, to the provider. -/
def Integration.recorded (provider : Integration) (result : TestOutcome) (now : ℕ) : Integration :=
  { provider with
    lastTestedAt := some now
    lastTestResult := some
      { passed := result.passed, healthStatus := result.healthStatus, healthMessage := result.healthMessage
        provision := result.provision, skippedReason := result.skippedReason }
    reviewStatus :=
      if provider.reviewStatus = .approved ∨ provider.reviewStatus = .disabled then provider.reviewStatus
      else if result.passed then .tested else .testFailed }

/-- `test_seller_provider`. What the backend answers to the configuration that was loaded is `run`; the provider that
is recorded is the object that was loaded. -/
def testSellerProvider (sellerId providerId : ℕ) (run : ProviderConfig → TestOutcome) (now : ℕ) :
    IntegrationTx Unit := do
  let provider ← getSellerProvider sellerId providerId
  Tx.require (provider.reviewStatus ≠ .pendingReview) (.http 409 "Tích hợp đang chờ admin duyệt")
  flushIntegration providerId provider (provider.recorded (run provider.config) now)
  Tx.when ((run provider.config).passed = true)
    (Tx.modify (IntegrationDb.notePassed providerId provider.config))

/-- `submit_seller_provider`. -/
def submitSellerProvider (sellerId providerId : ℕ) : IntegrationTx Unit := do
  let provider ← getSellerProvider sellerId providerId
  requireSellerManaged provider
  Tx.require (provider.reviewStatus = .tested) (.http 409 "Hãy test kết nối thành công trước khi gửi duyệt")
  flushIntegration providerId provider { provider with reviewStatus := .pendingReview, reviewNote := none }
  Tx.modify (IntegrationDb.noteSubmitted providerId)

/-! ### An admin's decision -/

/-- What an admin may decide. -/
inductive ReviewDecision
  | approved | rejected | disabled
  deriving DecidableEq, Repr

/-- The status a decision gives. -/
def ReviewDecision.status : ReviewDecision → ReviewStatus
  | .approved => .approved
  | .rejected => .rejected
  | .disabled => .disabled

/-- `review_provider`. -/
def reviewProvider (providerId : ℕ) (decision : ReviewDecision) (note : Option String) : IntegrationTx Unit := do
  let provider ← Tx.read fun d => d.providers.get? providerId
  let provider ← Tx.getOrElse provider (.http 404 "Không tìm thấy nhà cung cấp")
  Tx.require (provider.sellerId ≠ none) (.http 400 "Provider này do admin tạo, không cần quy trình duyệt")
  Tx.require (decision ≠ .disabled → provider.reviewStatus = .pendingReview)
    (.http 409 "Seller chưa gửi tích hợp này để admin duyệt")
  Tx.require (decision = .rejected → strip (note.getD "") ≠ "")
    (.http 400 "Từ chối provider phải kèm lý do để seller sửa cấu hình")
  flushIntegration providerId provider { provider with reviewStatus := decision.status, reviewNote := note }

end Marketplace
