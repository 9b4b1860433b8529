import Marketplace.Orders.Moving
import Marketplace.Sql.FlowRely
import Marketplace.Sql.Zoom

/-!
# Provisioning

`provision_pending_order` and `provision_sweep_job`, for any supplier. Both call the supplier over
the network while they hold the order's row, so they are tasks and not transactions: a call
happens even when the session is rolled back later, and a process may die between any two steps.

`Supply` is the platform's database with the tables only the adapters use, and the supplier. What
comes back from outside is an `Answer`; a row that is written in a session of its own is a call as well.
-/

namespace Marketplace.Adapters

open Sql

/-! ### The state -/

/-- A row of `provider_call_logs`. -/
structure ProviderCallLog where
  orderId : ℕ
  operation : String
  deriving DecidableEq, Repr

/-- `PURCHASE_DISPATCHED_OPERATION`. -/
def purchaseDispatchedOperation : String := "purchase_dispatched"

/-- What a row of `proxy_allocations` is bound to; keyed by the row, written with it and never
changed. -/
structure ProxyBinding where
  orderId : ℕ
  lineNo : ℕ
  providerId : ℕ
  externalId : String
  partnerOrderId : Option String
  deriving DecidableEq, Repr

/-- A row of the outbox `upstream_revocations`. -/
structure UpstreamRevocation where
  providerId : ℕ
  orderId : ℕ
  partnerOrderId : String
  reason : String
  deriving DecidableEq, Repr

/-- The platform and the supplier `U`. -/
structure Supply (U : Type) where
  db : Db
  callLogs : List ProviderCallLog
  bindings : Table ℕ ProxyBinding
  revocations : List UpstreamRevocation
  upstream : U

variable {U B : Type}

/-- The platform before anything was provisioned. -/
def Supply.start (d : Db) (u : U) : Supply U := ⟨d, [], .empty, [], u⟩

/-- The platform's database in it. -/
def Supply.database : Part (Supply U) Db where
  get w := w.db
  set d w := { w with db := d }
  get_set _ _ := rfl
  set_get _ := rfl
  set_set _ _ _ := rfl

/-- Write a call log. -/
@[simps] def Supply.addCallLog (r : ProviderCallLog) (w : Supply U) : Supply U :=
  { w with callLogs := w.callLogs ++ [r] }

/-- Bind a row of `proxy_allocations`. -/
@[simps] def Supply.insertBinding (a : ℕ) (b : ProxyBinding) (w : Supply U) : Supply U :=
  { w with bindings := w.bindings.insert a b }

/-- Move the supplier. -/
@[simps] def Supply.setUpstream (f : U → U) (w : Supply U) : Supply U :=
  { w with upstream := f w.upstream }

/-- The calls of a kind that are logged for an order. -/
def Supply.logged (w : Supply U) (orderId : ℕ) (operation : String) : Bool :=
  w.callLogs.any fun r => r.orderId = orderId && r.operation = operation

/-! ### Tasks -/

/-- The rows a task can lock. -/
inductive SupplyKey
  | row (k : RowKey)
  /-- An entry of the unique index on `provider_id` and `external_id`. -/
  | external (providerId : ℕ) (externalId : String)
  deriving DecidableEq, Repr

/-- What comes back from outside of a session; `B` is what a supplier may answer. -/
inductive Answer (B : Type)
  /-- `skip_locked`: whether nobody else holds the row. -/
  | free (yes : Bool)
  /-- Whether `get_adapter` builds the adapter. -/
  | adapter (built : Bool)
  /-- The next number of a sequence. -/
  | nextval (n : ℕ)
  /-- A call log written on a session of its own: whether it is there, and whether an error was
  raised. -/
  | logged (stored raised : Bool)
  | upstream (b : B)

/-- A task that provisions. -/
abbrev Provisioning (U B : Type) (α : Type) : Type :=
  Flow (Supply U) SupplyKey (Answer B) Abort α

/-- A transaction over the adapters' tables. -/
abbrev SupplyTx (U : Type) (α : Type) : Type := Sql.Tx (Supply U) SupplyKey Abort α

/-- Statements on the platform's own tables. -/
def inDatabase {α : Type} (t : Marketplace.Tx α) : SupplyTx U α := t.zoom Supply.database .row

/-- `skip_locked`. -/
def rowIsFree : Provisioning U B Bool := do
  match ← Flow.ask (fun a w => match a with
    | .free _ => some w
    | _ => none) with
  | .free yes => pure yes
  | _ => pure false

/-- `get_adapter`. -/
def getAdapter : Provisioning U B Unit := do
  match ← Flow.ask (fun a w => match a with
    | .adapter _ => some w
    | _ => none) with
  | .adapter true => pure ()
  | _ => Flow.throw (.valueError "Provider not found")

/-- The next number of a sequence. -/
def nextval : Provisioning U B ℕ := do
  match ← Flow.ask (fun a w => match a with
    | .nextval _ => some w
    | _ => none) with
  | .nextval n => pure n
  | _ => pure 0

/-- Write a call log on a session of its own; the answer says whether that raised. A row that is
not there was not written without an error. -/
def writeCallLog (row : ProviderCallLog) : Provisioning U B Bool := do
  match ← Flow.ask (fun a w => match a with
    | .logged stored raised =>
      if stored = true then some (w.addCallLog row)
      else if raised = true then some w
      else none
    | _ => none) with
  | .logged _ raised => pure raised
  | _ => pure true

/-- `record_provider_call`, which never raises. -/
def recordProviderCall (orderId : ℕ) (operation : String) : Provisioning U B Unit := do
  let _ ← writeCallLog ⟨orderId, operation⟩
  pure ()

/-- `record_purchase_dispatch`, for whether it raised. -/
def recordPurchaseDispatch (orderId : ℕ) : Provisioning U B Bool :=
  writeCallLog ⟨orderId, purchaseDispatchedOperation⟩

/-- `bind_purchased_assignment`: a row under the unique keys of the table. -/
def bindPurchasedAssignment (id : ℕ) (b : ProxyBinding) (text : Option String) : SupplyTx U Unit := do
  let taken ← Sql.Tx.lock (.external b.providerId b.externalId) fun w =>
    w.bindings.rows.any fun r =>
      r.2.providerId = b.providerId && r.2.externalId = b.externalId
  Sql.Tx.require (taken = false) .integrity
  inDatabase (bindAllocation b.orderId id b.lineNo text)
  Sql.Tx.modify (Supply.insertBinding id b)

/-! ### The two entry points -/

/-- What an adapter contributes. -/
structure Supplier (U B : Type) where
  /-- `adapter.provision(order.id, …)`. -/
  provision : Settings → ℕ → Order → Provisioning U B ProvisionResult
  /-- What `provision_sweep_job` does for the supplier when it gives an order up. -/
  deadline : Settings → ℕ → Order → Provisioning U B Unit
  /-- The order's product comes from a catalogue supplier. -/
  catalog : ℕ → Bool

variable (s : Supplier U B) (cfg : Settings)

/-- `provision_pending_order` for an order it has locked at `pending`; `providerId` is the product's. -/
def provisionLocked (orderId : ℕ) (order : Order) (providerId : ℕ) : Provisioning U B Unit := do
  let result ← Flow.handle
    (do
      getAdapter
      let result ← s.provision cfg orderId order
      pure (some result))
    fun _ => do
      -- The order stays at `pending`, for the sweep to retry.
      Flow.undo
      pure none
  match result with
  | none => pure ()
  | some result => do
    Flow.ofTx (inDatabase (applyProvisionResult cfg orderId order (some providerId) result))
    Flow.save

/-- `provision_pending_order`. -/
def provisionPendingOrder (orderId : ℕ) : Provisioning U B Unit := do
  let free ← rowIsFree
  if free = true then do
    let order ← Flow.lock (.row (.order orderId)) fun w => w.db.orders.get? orderId
    match order with
    | none => Flow.undo
    | some order =>
      if order.status = .pending then do
        let product ← Flow.read fun w => order.productId.bind w.db.products.get?
        match product.bind Product.providerId with
        | none => Flow.undo
        | some providerId => provisionLocked s cfg orderId order providerId
      else Flow.undo
  else Flow.undo

/-- `stuck`: an order the sweep looks after. -/
def stuck (orderId : ℕ) (order : Order) : Bool :=
  order.status = .pending && order.productId.isSome && (order.variantId.isNone || s.catalog orderId)

/-- `_due_order_ids`. The pages of the source are one query here. -/
def dueOrderIds (due : Supply U → ℕ → Order → Bool) : Provisioning U B (List ℕ) :=
  Flow.read fun w => (w.db.orders.rows.filter fun r => due w r.1 r.2).map Prod.fst

/-- `provision_sweep_job` for an order past its deadline, as it read it under the lock. -/
def giveUp (orderId : ℕ) (order : Order) : Provisioning U B Unit := do
  Flow.ofTx (inDatabase (provisionSweep cfg orderId (s.catalog orderId)))
  s.deadline cfg orderId order
  Flow.save

/-- An order `provision_sweep_job` gives up. -/
def provisionDeadline (orderId : ℕ) : Provisioning U B Unit := do
  let free ← rowIsFree
  if free = true then
    Flow.handle
      (do
        let order ← Flow.lock (.row (.order orderId)) fun w => w.db.orders.get? orderId
        match order with
        | none => Flow.undo
        | some order => giveUp s cfg orderId order)
      fun _ => Flow.undo
  else Flow.undo

/-- `provision_sweep_job`: give up what is past the deadline, then retry the rest, unless its purchase
has been dispatched. -/
def provisionSweepJob : Provisioning U B Unit := do
  let expired ← dueOrderIds fun _ o order =>
    stuck s o order && order.createdAt + 900 ≤ cfg.now
  Flow.undo
  Flow.forEach expired fun o => provisionDeadline s cfg o
  let retryable ← dueOrderIds fun w o order =>
    stuck s o order && order.createdAt + 120 ≤ cfg.now && cfg.now < order.createdAt + 900 &&
      !w.logged o purchaseDispatchedOperation
  Flow.undo
  Flow.forEach retryable fun o => provisionPendingOrder s cfg o

/-! ### Everything side by side -/

/-- What runs: the background task of a checkout or of an administrator's retry, the sweep, and the
transactions `P` of the rest of the platform. -/
inductive ProvisionCall (P : Type)
  | task (cfg : Settings) (orderId : ℕ)
  | sweep (cfg : Settings)
  | platform (p : P)

/-- The program of each. -/
def ProvisionCall.code {P : Type} (platform : P → Marketplace.Tx Unit) :
    ProvisionCall P → Provisioning U B Unit
  | .task cfg orderId => provisionPendingOrder s cfg orderId
  | .sweep cfg => provisionSweepJob s cfg
  | .platform p => do
    Flow.ofTx (inDatabase (platform p))
    Flow.save

/-! ### Reasoning

A task holds nothing and has nothing pending wherever it starts over: before an order and after it.
What a supplier has to be known to do in between is the business of `wp_provisionPendingOrder`'s
hypotheses. -/

section Rules

variable {R : Rely (Supply U) SupplyKey} {I : Supply U → Prop}
  {G : FlowEvent (Answer B) → List (Supply U) → Supply U → Prop}

/-- Nothing is pending. -/
abbrev Afresh (U α : Type) : Flow.Post (Supply U) SupplyKey α := fun _ w _ _ _ => w = id

/-- Nothing is asked where an exception ends a task. -/
abbrev Ended (U : Type) : Flow.Post (Supply U) SupplyKey Abort := fun _ _ _ _ _ => True

variable {w : Supply U → Supply U} {L : List SupplyKey} {seen : List (Supply U)} {d : Supply U}

/-- A call that changes nothing owes nothing. -/
theorem wp_ask_quiet {act : Answer B → Supply U → Option (Supply U)}
    (hact : ∀ a d d', act a d = some d' → d' = d) {α : Type}
    {next : Answer B → Provisioning U B α} {Q : Flow.Post (Supply U) SupplyKey α}
    {X : Flow.Post (Supply U) SupplyKey Abort}
    (h : ∀ a d', R.rel L d d' → I d' → (next a).wp R I G Q X w L seen d') :
    (Flow.ask act >>= next).wp R I G Q X w L seen d := by
  refine Flow.wp_bind.mpr (Flow.wp_ask.mpr fun d' hd hI a d'' ha _ => ?_)
  obtain rfl := hact a d' d'' ha
  exact ⟨Owed.refl hI, h a d'' hd hI⟩

theorem wp_rowIsFree {Q : Flow.Post (Supply U) SupplyKey Bool}
    {X : Flow.Post (Supply U) SupplyKey Abort}
    (h : ∀ b d', R.rel L d d' → I d' → Q b w L seen d') :
    (rowIsFree : Provisioning U B Bool).wp R I G Q X w L seen d := by
  refine wp_ask_quiet (fun a d d' ha => ?_) fun a d' hd hI => ?_
  · cases a <;> simp_all
  · cases a <;> exact h _ d' hd hI

theorem wp_getAdapter {Q : Flow.Post (Supply U) SupplyKey Unit}
    {X : Flow.Post (Supply U) SupplyKey Abort} (hX : ∀ e w L s d, X e w L s d)
    (h : ∀ d', R.rel L d d' → I d' → Q () w L seen d') :
    (getAdapter : Provisioning U B Unit).wp R I G Q X w L seen d := by
  refine wp_ask_quiet (fun a d d' ha => ?_) fun a d' hd hI => ?_
  · cases a <;> simp_all
  · cases a with
    | adapter built => cases built <;> first | exact hX _ _ _ _ _ | exact h d' hd hI
    | _ => exact hX _ _ _ _ _

theorem wp_nextval {Q : Flow.Post (Supply U) SupplyKey ℕ}
    {X : Flow.Post (Supply U) SupplyKey Abort}
    (h : ∀ n d', R.rel L d d' → I d' → Q n w L seen d') :
    (nextval : Provisioning U B ℕ).wp R I G Q X w L seen d := by
  refine wp_ask_quiet (fun a d d' ha => ?_) fun a d' hd hI => ?_
  · cases a <;> simp_all
  · cases a <;> exact h _ d' hd hI

/-- **Provisioning an order.** `Seen` is what is known of the order while its row is locked, `Done` what
the supplier leaves behind. -/
theorem wp_provisionPendingOrder {su : Supplier U B} {cfg : Settings} {o : ℕ}
    (Seen : Order → Supply U → Prop) (Done : Order → Flow.Post (Supply U) SupplyKey ProvisionResult)
    (hseen : ∀ order L d d', .row (.order o) ∈ L → R.rel L d d' → Seen order d → Seen order d')
    (hlock : ∀ order d, I d → d.db.orders.get? o = some order → order.status = .pending →
      Seen order d)
    (hprov : ∀ order L s d, .row (.order o) ∈ L → Seen order d →
      (su.provision cfg o order).wp R I G (Done order) (Ended U) id L s d)
    (hdone : ∀ order p result w L s d, Done order result w L s d →
      (Flow.ofTx (inDatabase (applyProvisionResult cfg o order (some p) result)) >>= fun _ =>
        Flow.save : Provisioning U B Unit).wp R I G (Afresh U Unit) (Ended U) w L s d) :
    (provisionPendingOrder su cfg o).wp R I G (Afresh U Unit) (Ended U) id L seen d := by
  refine Flow.wp_bind.mpr (wp_rowIsFree fun b d' _ _ => Flow.wp_ite.mpr ⟨fun _ => ?_, fun _ => rfl⟩)
  refine Flow.wp_bind.mpr (Flow.wp_lock.mpr fun d₁ _ hI _ => ?_)
  rcases horder : d₁.db.orders.get? o with _ | order
  · simp only [id_eq, horder]
    rfl
  simp only [id_eq, horder]
  refine Flow.wp_ite.mpr ⟨fun hpending => ?_, fun _ => rfl⟩
  have hs₁ : Seen order d₁ := hlock order d₁ hI horder hpending
  refine Flow.wp_bind.mpr (Flow.wp_read.mpr fun d₂ hd₂ _ _ => ?_)
  have hs₂ : Seen order d₂ := hseen order _ d₁ d₂ List.mem_cons_self hd₂ hs₁
  rcases ((order.productId.bind (id d₂).db.products.get?).bind Product.providerId) with _ | p
  · rfl
  refine Flow.wp_bind.mpr (Flow.wp_handle.mpr ?_)
  refine Flow.wp_bind.mpr (wp_getAdapter (fun _ _ _ _ _ => rfl) fun d₃ hd₃ _ => ?_)
  have hs₃ : Seen order d₃ := hseen order _ d₂ d₃ List.mem_cons_self hd₃ hs₂
  refine Flow.wp_bind.mpr (Flow.wp_mono (hprov order _ _ d₃ List.mem_cons_self hs₃) ?_ ?_)
  · exact fun result w L s d h => hdone order p result w L s d h
  · exact fun _ _ _ _ _ _ => rfl

/-- **The sweep**, order by order. -/
theorem wp_provisionSweepJob {su : Supplier U B} {cfg : Settings}
    (hprov : ∀ o L s d, (provisionPendingOrder su cfg o).wp R I G (Afresh U Unit) (Ended U) id L s d)
    (hdeadline : ∀ o L s d, (provisionDeadline su cfg o).wp R I G (Afresh U Unit) (Ended U) id L s d) :
    (provisionSweepJob su cfg).wp R I G (Afresh U Unit) (Ended U) id L seen d := by
  have hloop : ∀ (os : List ℕ) (f : ℕ → Provisioning U B Unit) (s : List (Supply U)) (d : Supply U),
      (∀ o L s d, (f o).wp R I G (Afresh U Unit) (Ended U) id L s d) →
      (Flow.forEach os f).wp R I G (Afresh U Unit) (Ended U) id [] s d := by
    intro os f s d hf
    refine Flow.wp_forEach (J := fun w _ _ _ => w = id) rfl fun o _ w L s d hw => ?_
    obtain rfl : w = id := hw
    exact hf o L s d
  refine Flow.wp_bind.mpr (Flow.wp_read.mpr fun d₁ _ _ _ => ?_)
  refine Flow.wp_bind.mpr (Flow.wp_bind.mpr (Flow.wp_imp (hloop _ _ _ _ hdeadline) ?_))
  rintro _ w L s d rfl
  refine Flow.wp_bind.mpr (Flow.wp_read.mpr fun d₂ _ _ _ => ?_)
  exact Flow.wp_bind.mpr (hloop _ _ _ _ hprov)

/-- **An order given up.** -/
theorem wp_provisionDeadline {su : Supplier U B} {cfg : Settings} {o : ℕ}
    (h : ∀ order L s d, .row (.order o) ∈ L → I d → d.db.orders.get? o = some order →
      (giveUp su cfg o order).wp R I G (Afresh U Unit) (Ended U) id L s d) :
    (provisionDeadline su cfg o).wp R I G (Afresh U Unit) (Ended U) id L seen d := by
  refine Flow.wp_bind.mpr (wp_rowIsFree fun b d' _ _ => Flow.wp_ite.mpr ⟨fun _ => ?_, fun _ => rfl⟩)
  refine Flow.wp_handle.mpr (Flow.wp_bind.mpr (Flow.wp_lock.mpr fun d₁ _ hI _ => ?_))
  rcases horder : d₁.db.orders.get? o with _ | order
  · simp only [id_eq, horder]
    rfl
  simp only [id_eq, horder]
  exact Flow.wp_mono (h order _ _ d₁ List.mem_cons_self hI horder) (fun _ _ _ _ _ h => h)
    fun _ _ _ _ _ _ => rfl

end Rules

end Marketplace.Adapters
