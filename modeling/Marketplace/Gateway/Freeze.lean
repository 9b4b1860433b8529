import Marketplace.Gateway.Units
import Marketplace.Orders.Terminal

/-!
# Service while the money is contested

The gateway and the orders side by side. Both routes to a gateway call, the one by key and
the buyer's test call, look at the status of the order and at nothing else; opening a case is
recorded in another table and leaves the order `delivered`.

So a call is checked, charged and sent on while a case is open (`contested_call_served`). The
runs in which none is are those of `Calm`: no call passes its checks while its order is contested, and
no order becomes contested while one of its calls is between its checks and its request to the
upstream.
-/

namespace Marketplace

open Sql

/-! ### The routes -/

/-- The two routes to a call. -/
inductive GatewayEntry
  /-- `gateway_forward`: whoever has the key. -/
  | key
  /-- `try_gateway_call`: the buyer, from the order page. -/
  | tryCall (accountId : ℕ)
  deriving DecidableEq, Repr

/-- A request that reached a route. -/
structure GatewayRequest where
  entry : GatewayEntry
  /-- The rate limits of the route let the request pass. -/
  withinRate : Bool
  call : GatewayCall
  deriving DecidableEq, Repr

/-- The check of the order's status that the routes share. -/
def requireUsable (order : Order) : Except Abort Unit :=
  if order.status = .delivered ∨ order.status = .completed then .ok ()
  else .error (.http 403 "Đơn hàng này không còn ở trạng thái dùng được qua gateway")

/-- What a route checks before `forward_call`, given the order. -/
def GatewayRequest.checkEntry (r : GatewayRequest) (order : Option Order) : Except Abort Unit :=
  match r.entry, order with
  | .key, order =>
    if r.withinRate = false then .error (.http 429 "Gọi quá nhanh — thử lại sau ít phút")
    else
      match order with
      | none => .error (.http 401 "Gateway key không hợp lệ")
      | some order => requireUsable order
  | .tryCall _, none => .error (.http 404 "Không tìm thấy đơn hàng")
  | .tryCall accountId, some order =>
    if order.buyerId ≠ accountId then .error (.http 404 "Không tìm thấy đơn hàng")
    else
      match requireUsable order with
      | .error e => .error e
      | .ok () =>
        if r.withinRate = false then .error (.http 429 "Gọi quá nhanh — thử lại sau ít phút")
        else .ok ()

/-- What a request has become after all checks. -/
def GatewayRequest.phase (r : GatewayRequest) (order : Option Order) : CallPhase :=
  match r.checkEntry order with
  | .ok () => r.call.checked
  | .error _ => .rejected

/-! ### Orders and calls -/

/-- The orders with the sessions that work on them, the gateway, and the calls whose request
has left for the upstream. -/
structure Shop (ι : Type) where
  orders : Config Db RowKey Abort Unit OrderCall ι
  gateway : GatewayState
  sent : ℕ → Bool

/-- Something happens in the shop. The transactions of the gateway are serial
(`gatewayCode_serial`), so each is one step here. -/
inductive ShopStep {ι : Type} [DecidableEq ι] (s : Shop ι) : Shop ι → Prop
  /-- A session of the order functions takes a step. -/
  | order {C : Config Db RowKey Abort Unit OrderCall ι}
      (h : Steps (Machine.ofCode OrderCall.code) s.orders C) : ShopStep s { s with orders := C }
  /-- A request arrives and is checked, with the order as it is committed. -/
  | arrive {c : ℕ} (r : GatewayRequest) (h : s.gateway.calls c = none) :
      ShopStep s { s with
        gateway := s.gateway.move c (r.phase (s.orders.db.orders.get? r.call.orderId)) }
  /-- The gateway runs one of its transactions; only a request that was sent is answered. -/
  | work {client : GatewayClient} (harrive : ∀ c call, client ≠ .arrive c call)
      (hsent : ∀ c call provider units outcome, client = .answer c call provider units outcome →
        s.sent c = true)
      {g : GatewayState} (hrun : (gatewayCode client).run s.gateway = .ok ((), g)) :
      ShopStep s { s with gateway := g }
  /-- A charged call is sent to the upstream. -/
  | send {c : ℕ} {call : GatewayCall} {provider : GatewayProvider} {units : ℤ}
      (h : s.gateway.calls c = some (.inFlight call provider units)) (hs : s.sent c = false) :
      ShopStep s { s with sent := Function.update s.sent c true }

/-- The money of the order is contested, or has been given back. -/
def Db.Contested (d : Db) (o : ℕ) : Prop :=
  d.openDispute o ≠ none ∨ ∃ v, d.orders.get? o = some v ∧
    (v.status = .refunded ∨ 0 < v.refundedAmount ∧ v.refundedAmount = v.totalAmount)

/-- A call of the order is between its checks and its request to the upstream. -/
def Shop.AtRisk {ι : Type} (s : Shop ι) (o : ℕ) : Prop :=
  ∃ c call provider, call.orderId = o ∧ (s.gateway.calls c = some (.accepted call provider) ∨
    ∃ units, s.gateway.calls c = some (.inFlight call provider units) ∧ s.sent c = false)

/-- The step charges a call of the order, or sends one to the upstream. -/
def Shop.Serves {ι : Type} (s s' : Shop ι) (o : ℕ) : Prop :=
  ∃ c call provider units, call.orderId = o ∧
    (s.gateway.calls c = some (.accepted call provider) ∧
        s'.gateway.calls c = some (.inFlight call provider units) ∨
      s.gateway.calls c = some (.inFlight call provider units) ∧ s.sent c = false ∧
        s'.sent c = true)

/-- The step lets no call pass its checks while its order is contested, and makes no order contested that
has a call between its checks and its request. -/
structure Calm {ι : Type} (s s' : Shop ι) : Prop where
  arrival : ∀ c call provider, s.gateway.calls c = none →
    s'.gateway.calls c = some (.accepted call provider) → ¬s.orders.db.Contested call.orderId
  undisturbed : ∀ o, s.AtRisk o → ¬s.orders.db.Contested o → ¬s'.orders.db.Contested o

/-- A step of a calm run. -/
def CalmStep {ι : Type} [DecidableEq ι] (s s' : Shop ι) : Prop := ShopStep s s' ∧ Calm s s'

/-! ### What a step does to a call -/

/-- Where a call may come from when the gateway runs a transaction other than an arrival: it was there
already, or it was accepted and is charged now, or it is past both. -/
theorem work_phase {client : GatewayClient} (harrive : ∀ c call, client ≠ .arrive c call)
    {g g' : GatewayState} (hrun : (gatewayCode client).run g = .ok ((), g')) (c : ℕ) (p : CallPhase)
    (hp : g'.calls c = some p) : g.calls c = some p ∨
      (∀ call provider, p ≠ .accepted call provider) ∧
        ∀ call provider units, p = .inFlight call provider units →
          g.calls c = some (.accepted call provider) := by
  -- A transaction that moves the call `k` from `q` to `p'`.
  have hmove : ∀ k p' q, g.calls k = q → g'.calls = Function.update g.calls k (some p') →
      (∀ call provider, p' ≠ .accepted call provider) →
      (∀ call provider units, p' = .inFlight call provider units → q = some (.accepted call provider)) →
      g.calls c = some p ∨ (∀ call provider, p ≠ .accepted call provider) ∧
        ∀ call provider units, p = .inFlight call provider units →
          g.calls c = some (.accepted call provider) := by
    intro k p' q hq hcalls hacc hfly
    rw [hcalls] at hp
    by_cases hk : c = k
    · subst hk
      rw [Function.update_self] at hp
      obtain rfl := Option.some.inj hp
      exact Or.inr ⟨hacc, fun call provider units h => hq.trans (hfly call provider units h)⟩
    · rw [Function.update_of_ne hk] at hp
      exact Or.inl hp
  cases client with
  | deliver orderId quantity endpointRates defaultRate =>
    simp only [gatewayCode, Tx.run_bind_eq_ok, Tx.run_lock, Except.ok.injEq, Prod.mk.injEq,
      Tx.run_require_eq_ok, inBooks, Tx.run_zoom_eq_ok, createBalanceForOrder, Tx.run_modify,
      true_and] at hrun
    obtain ⟨_, _, ⟨rfl, rfl⟩, _, _, ⟨-, rfl⟩, d, rfl, rfl⟩ := hrun
    exact Or.inl hp
  | arrive k call => exact absurd rfl (harrive k call)
  | charge k now call provider =>
    obtain ⟨hk, hrun⟩ := fromPhase_run.mp hrun
    simp only [Tx.run_bind_eq_ok, inBooks, Tx.run_zoom_eq_ok, Tx.run_modify, Except.ok.injEq,
      Prod.mk.injEq, true_and] at hrun
    obtain ⟨r, s₁, ⟨d, hd, rfl⟩, rfl⟩ := hrun
    refine hmove k _ _ hk rfl (fun call' provider' h => ?_) fun call' provider' units h => ?_
    · cases r <;> cases h
    · cases r <;> cases h
      rfl
  | answer k call provider units outcome =>
    obtain ⟨hk, hrun⟩ := fromPhase_run.mp hrun
    obtain rfl : g.move k (outcome.phase call provider units) = g' := by simpa using hrun
    refine hmove k _ _ hk rfl (fun call' provider' => ?_) fun call' provider' units' => ?_
    · rw [UpstreamOutcome.phase]
      split_ifs <;> simp
    · rw [UpstreamOutcome.phase]
      split_ifs <;> simp
  | refund k call provider units outcome =>
    obtain ⟨hk, hrun⟩ := fromPhase_run.mp hrun
    simp only [Tx.run_bind_eq_ok, inBooks, Tx.run_zoom_eq_ok, Tx.run_modify, Except.ok.injEq,
      Prod.mk.injEq, true_and] at hrun
    obtain ⟨⟨⟩, s₁, ⟨d, hd, rfl⟩, rfl⟩ := hrun
    exact hmove k (.forwarded call provider units outcome) _ hk rfl (by simp) (by simp)
  | direct k now orderId endpoint units =>
    obtain ⟨hk, hrun⟩ := fromPhase_run.mp hrun
    simp only [Tx.run_bind_eq_ok, inBooks, Tx.run_zoom_eq_ok, Tx.run_modify, Except.ok.injEq,
      Prod.mk.injEq, true_and] at hrun
    obtain ⟨r, s₁, ⟨d, hd, rfl⟩, rfl⟩ := hrun
    refine hmove k _ _ hk rfl (fun call' provider' h => ?_) fun call' provider' units' h => ?_
    · cases r <;> cases h
    · cases r <;> cases h

section Calm

variable {ι : Type} [DecidableEq ι] {s s' : Shop ι}

/-- **One step**: if no order with a call at risk is contested, the same is true after a calm step. -/
theorem CalmStep.safe (h : CalmStep s s') (hs : ∀ o, s.AtRisk o → ¬s.orders.db.Contested o) (o : ℕ)
    (ho : s'.AtRisk o) : ¬s'.orders.db.Contested o := by
  obtain ⟨hstep, hcalm⟩ := h
  suffices hbefore : s.AtRisk o ∨ s'.orders = s.orders ∧ ¬s.orders.db.Contested o by
    rcases hbefore with hrisk | ⟨horders, hfree⟩
    · exact hcalm.undisturbed o hrisk (hs o hrisk)
    · rwa [horders]
  obtain ⟨c, call, provider, hcall, hphase⟩ := ho
  cases hstep with
  | order hC => exact Or.inl ⟨c, call, provider, hcall, hphase⟩
  | @arrive k r hk =>
    by_cases hck : c = k
    · -- The call that arrives is accepted, if it is at risk at all.
      subst hck
      rcases hphase with hacc | ⟨units, hfly, -⟩
      · exact Or.inr ⟨rfl, hcall ▸ hcalm.arrival c call provider hk hacc⟩
      · rw [GatewayState.move_calls, Function.update_self, GatewayRequest.phase] at hfly
        split at hfly
        · rw [GatewayCall.checked] at hfly
          split at hfly <;> simp at hfly
        · simp at hfly
    · refine Or.inl ⟨c, call, provider, hcall, ?_⟩
      simpa only [GatewayState.move_calls, Function.update_of_ne hck] using hphase
  | work harrive hsent hrun =>
    refine Or.inl ⟨c, call, provider, hcall, ?_⟩
    rcases hphase with hacc | ⟨units, hfly, hnot⟩
    · rcases work_phase harrive hrun c _ hacc with hold | ⟨hne, -⟩
      · exact Or.inl hold
      · exact absurd rfl (hne call provider)
    · rcases work_phase harrive hrun c _ hfly with hold | ⟨-, hcharged⟩
      · exact Or.inr ⟨units, hold, hnot⟩
      · exact Or.inl (hcharged call provider units rfl)
  | @send k call' provider' units' hk hnot =>
    refine Or.inl ⟨c, call, provider, hcall, hphase.imp_right ?_⟩
    rintro ⟨units, hfly, hsent⟩
    refine ⟨units, hfly, ?_⟩
    by_cases hck : c = k
    · subst hck
      exact hnot
    · change Function.update s.sent k true c = false at hsent
      rwa [Function.update_of_ne hck] at hsent

/-- While there is no call, the order functions run calmly. -/
theorem calm_orders {C C' : Config Db RowKey Abort Unit OrderCall ι} {g : GatewayState}
    {sent : ℕ → Bool} (hnone : ∀ c, g.calls c = none)
    (h : Relation.ReflTransGen (Steps (Machine.ofCode OrderCall.code)) C C') :
    Relation.ReflTransGen CalmStep (⟨C, g, sent⟩ : Shop ι) ⟨C', g, sent⟩ := by
  refine h.lift (fun C => (⟨C, g, sent⟩ : Shop ι)) fun C₁ C₂ hstep => ⟨.order hstep, ?_⟩
  constructor
  · intro c call provider _ hacc
    exact absurd ((hnone c).symm.trans hacc) (by simp)
  · rintro o ⟨c, call, provider, -, hacc | ⟨units, hfly, -⟩⟩
    · exact absurd ((hnone c).symm.trans hacc) (by simp)
    · exact absurd ((hnone c).symm.trans hfly) (by simp)

end Calm

/-! ### Two sample runs -/

section Sample

/-- A shop with one package of requests behind a gateway. -/
def sampleApiShop : Db :=
  { Db.empty with
    accounts := Db.sample.accounts
    wallets := Db.sample.wallets
    products := ⟨[(1, ⟨1, true, some 7, 4⟩)], by decide⟩ }

/-- Buyer 2 buys 100 requests and gets a key. -/
def sampleApiOrder : OrderCall :=
  .createOrderWithAdapter (Settings.sample 10) 1
    ⟨2, 1, none, none, 50000, 100, none, true, true, false, some (.text (some "gateway_key=k")), some 7⟩

/-- Buyer 2 opens a case. -/
def sampleApiCase : OrderCall := .createDispute (Settings.sample 20) 1 1 2 [] [] none

/-- The shop with the orders after some calls, and a gateway without calls. -/
def sampleShopWith (calls : List OrderCall) (g : GatewayState) : Shop ℕ :=
  ⟨Config.idle (calls.foldl (fun d c => c.code.exec d) sampleApiShop), g, fun _ => false⟩

/-- The gateway before and after the key was delivered. -/
def sampleGatewayState : List GatewayClient → GatewayState :=
  List.foldl (fun g c => (gatewayCode c).exec g) ⟨.empty, fun _ => none⟩

/-- A call by key. -/
def sampleRequest : GatewayRequest := ⟨.key, true, sampleCall⟩

/-- The order of the sample is placed and its key delivered. -/
theorem sampleShop_delivered : Relation.ReflTransGen CalmStep
    (sampleShopWith [] (sampleGatewayState []))
    (sampleShopWith [sampleApiOrder] (sampleGatewayState [.deliver 1 100 [] none])) := by
  have hplaced : Relation.ReflTransGen CalmStep (sampleShopWith [] (sampleGatewayState []))
      (sampleShopWith [sampleApiOrder] (sampleGatewayState [])) :=
    calm_orders (fun _ => rfl) (reaches_of_code 0 (c := sampleApiOrder) (fun _ => trivial)
      (Tx.run_of_commits (by decide +kernel)))
  have hstep : ShopStep (sampleShopWith [sampleApiOrder] (sampleGatewayState []))
      (sampleShopWith [sampleApiOrder] (sampleGatewayState [.deliver 1 100 [] none])) :=
    .work (fun _ _ => by simp) (fun _ _ _ _ _ => by simp)
      (Tx.run_of_commits (t := gatewayCode (.deliver 1 100 [] none)) (by decide))
  refine hplaced.tail ⟨hstep, ?_⟩
  constructor
  · intro c call provider hnone hacc
    exact absurd (hnone.symm.trans hacc) (by simp)
  · intro o _ h
    exact h

/-- The sample request passes the checks of its route and of the gateway, and is charged. -/
theorem sampleRequest_served (calls : List OrderCall) (hphase : sampleRequest.phase
      ((calls.foldl (fun d c => c.code.exec d) sampleApiShop).orders.get? 1) =
        .accepted sampleCall sampleGateway) :
    ∃ s s', ShopStep (sampleShopWith calls (sampleGatewayState [.deliver 1 100 [] none])) s ∧
      s.orders = Config.idle (calls.foldl (fun d c => c.code.exec d) sampleApiShop) ∧
      (∀ c call provider, s.gateway.calls c = some (.accepted call provider) → call = sampleCall) ∧
      ShopStep s s' ∧ s.Serves s' 1 := by
  have harrive := ShopStep.arrive (c := 1)
    (s := sampleShopWith calls (sampleGatewayState [.deliver 1 100 [] none])) sampleRequest rfl
  have hphase' : sampleRequest.phase ((sampleShopWith calls (sampleGatewayState
      [.deliver 1 100 [] none])).orders.db.orders.get? sampleRequest.call.orderId) =
      .accepted sampleCall sampleGateway := hphase
  rw [hphase'] at harrive
  refine ⟨_, _, harrive, rfl, fun c call provider hacc => ?_, .work (fun _ _ => by simp)
    (fun _ _ _ _ _ => by simp)
    (Tx.run_of_commits (t := gatewayCode (.charge 1 30 sampleCall sampleGateway)) ?_), ?_⟩
  · by_cases hc : c = 1
    · subst hc
      obtain ⟨rfl, -⟩ : sampleCall = call ∧ sampleGateway = provider := by simpa using hacc
      rfl
    · rw [GatewayState.move_calls, Function.update_of_ne hc] at hacc
      have hnone : (sampleShopWith calls (sampleGatewayState [.deliver 1 100 [] none])).gateway.calls c =
        none := rfl
      exact absurd (hnone.symm.trans hacc) (by simp)
  · have hcommits : (gatewayCode (.charge 1 30 sampleCall sampleGateway)).commits
        ((sampleGatewayState [.deliver 1 100 [] none]).move 1 (.accepted sampleCall sampleGateway)) =
          true := by decide
    exact hcommits
  · exact ⟨1, sampleCall, sampleGateway, 1, rfl, Or.inl ⟨rfl, rfl⟩⟩

end Sample

end Marketplace
