import Marketplace.Adapters.Supplier

/-!
# One purchase for an order

A supplier that takes no idempotency key is to be asked once: a catalogue supplier once for an order,
the rotating keys once for each line, and all of them in one attempt. The row of `provider_call_logs` is
there to make sure of it, and it is not enough in two places.

* `provision_pending_order` never looks for a catalogue supplier's dispatch marker. Only the sweep's
  list does, and it is read before the orders on it are locked, one by one.
* The row of a key's purchase is written after the request, so a process that dies in between, or an
  insertion that fails, leaves the next attempt without it.

`purchased_twice` is a run of each kind. `Remembered` is the condition under which an attempt may begin,
`purchased_once` what holds of the runs in which every attempt meets it.

What the lock of an order protects is its part of the log and of the requests, `Supply.purchases`.
-/

namespace Marketplace.Adapters

open Sql

/-! ### What an order's row protects -/

/-- The calls logged for an order. -/
def Supply.logsOf (w : Supply Market) (orderId : ℕ) : List ProviderCallLog :=
  w.callLogs.filter fun r => r.orderId = orderId

/-- The requests and the logs of an order. -/
def Supply.purchases (o : ℕ) (w : Supply Market) : List PurchaseRequest × List ProviderCallLog :=
  (w.requestsOf o, w.logsOf o)

/-- What the others leave alone while an order is locked. -/
abbrev marketRely : Rely (Supply Market) SupplyKey :=
  viewRely (fun o => .row (.order o)) Supply.purchases

/-- A change inside of a session: the logs and the suppliers are outside of it. -/
def Inside (f : Supply Market → Supply Market) : Prop :=
  ∀ w, (f w).callLogs = w.callLogs ∧ (f w).upstream = w.upstream

/-- A task has the order `o` locked and sees `v`. -/
abbrev Buys (o : ℕ) (v : List PurchaseRequest × List ProviderCallLog)
    (w : Supply Market → Supply Market) (L : List SupplyKey) (d : Supply Market) : Prop :=
  Holding (fun o => .row (.order o)) Supply.purchases Inside o v w L d

theorem Inside.id : Inside id := fun _ => ⟨rfl, rfl⟩

theorem Inside.comp (f g : Supply Market → Supply Market) (hf : Inside f) (hg : Inside g) :
    Inside fun d => g (f d) :=
  fun w => ⟨(hg (f w)).1.trans (hf w).1, (hg (f w)).2.trans (hf w).2⟩

theorem Inside.purchases {f : Supply Market → Supply Market} (hf : Inside f) (o : ℕ)
    (w : Supply Market) : (f w).purchases o = w.purchases o := by
  rw [Supply.purchases, Supply.purchases, Supply.requestsOf, Supply.requestsOf, Supply.logsOf,
    Supply.logsOf, (hf w).1, (hf w).2]

theorem writes_inDatabase {α : Type} (t : Marketplace.Tx α) :
    (inDatabase t : SupplyTx Market α).Writes Inside :=
  Tx.writes_zoom (fun _ _ => ⟨rfl, rfl⟩) t

theorem writes_bindPurchasedAssignment (id : ℕ) (b : ProxyBinding) (text : Option String) :
    (bindPurchasedAssignment id b text : SupplyTx Market Unit).Writes Inside :=
  .bind (Tx.writes_lock _ _) fun _ => .bind (Tx.writes_require _ _) fun _ =>
    .bind (writes_inDatabase _) fun _ => Tx.writes_modify.mpr fun _ => ⟨rfl, rfl⟩

/-- A call of a kind is among the logs. -/
def isLogged (logs : List ProviderCallLog) (operation : String) : Bool :=
  logs.any fun r => r.operation = operation

theorem logged_eq_isLogged (w : Supply Market) (o : ℕ) (operation : String) :
    w.logged o operation = isLogged (w.logsOf o) operation := by
  simp only [Supply.logged, isLogged, Supply.logsOf, List.any_filter]

theorem purchases_addCallLog (w : Supply Market) (o : ℕ) (operation : String) :
    (w.addCallLog ⟨o, operation⟩).purchases o =
      ((w.purchases o).1, (w.purchases o).2 ++ [⟨o, operation⟩]) := by
  simp [Supply.purchases, Supply.requestsOf, Supply.logsOf]

theorem purchases_addCallLog_of_ne (w : Supply Market) {o o' : ℕ} (h : o' ≠ o) (operation : String) :
    (w.addCallLog ⟨o, operation⟩).purchases o' = w.purchases o' := by
  simp [Supply.purchases, Supply.requestsOf, Supply.logsOf, Ne.symm h]

theorem purchases_addRequest (w : Supply Market) (o n : ℕ) :
    (w.addRequest ⟨o, n⟩).purchases o =
      ((w.purchases o).1 ++ [⟨o, n⟩], (w.purchases o).2) := by
  simp [Supply.purchases, Supply.requestsOf, Supply.logsOf, Supply.addRequest]

theorem purchases_addRequest_of_ne (w : Supply Market) {o o' : ℕ} (h : o' ≠ o) (n : ℕ) :
    (w.addRequest ⟨o, n⟩).purchases o' = w.purchases o' := by
  simp [Supply.purchases, Supply.requestsOf, Supply.logsOf, Supply.addRequest, Ne.symm h]

/-! ### What is to hold -/

/-- What has been bought for an order: for a catalogue order at most one request, and a marker with it;
for an order of keys at most one request for each, all by one attempt. -/
def Source.Bought (source : Source) (quantity : ℕ)
    (v : List PurchaseRequest × List ProviderCallLog) : Prop :=
  match source with
  | .catalog _ =>
    v.1.length ≤ 1 ∧ (v.1 ≠ [] → isLogged v.2 purchaseDispatchedOperation = true)
  | .keys _ => v.1.length ≤ quantity ∧ ∃ n, ∀ r ∈ v.1, r.attempt = n

/-- An attempt that finds `v` learns from the log whether something was bought before: a catalogue order
has no dispatch marker, and an order of keys that something was bought for has a row that says so. -/
def Source.Remembered (source : Source) (v : List PurchaseRequest × List ProviderCallLog) : Prop :=
  match source with
  | .catalog _ => isLogged v.2 purchaseDispatchedOperation = false
  | .keys _ => v.1 ≠ [] → isLogged v.2 muaKeyxoayOperation = true

instance (source : Source) (v : List PurchaseRequest × List ProviderCallLog) :
    Decidable (source.Remembered v) := by
  unfold Source.Remembered
  split <;> infer_instance

variable (source : ℕ → Source) (user : ℕ → UserConfig)

/-- Every order is bought for as it should be. -/
def MarketInv (w : Supply Market) : Prop :=
  ∀ o, (source o).Bought (user o).quantity (w.purchases o)

/-- The tasks, and which attempts may begin. -/
def marketMachine : FlowMachine (Supply Market) SupplyKey (Answer MarketAnswer) Abort
    (ProvisionCall OrderCall) where
  code := ProvisionCall.code (market source user) OrderCall.code
  allows _ e _ d := match e with
    | .call (.upstream (.attempt o _)) => (source o).Remembered (d.purchases o)
    | _ => True

/-! ### Every program keeps it -/

section Owes

variable {source user} {o n : ℕ} {v : List PurchaseRequest × List ProviderCallLog}
  {w : Supply Market → Supply Market} {L : List SupplyKey} {s : List (Supply Market)}
  {d : Supply Market} {G : FlowEvent (Answer MarketAnswer) → List (Supply Market) → Supply Market → Prop}

/-- The postcondition of a part in the middle of an attempt. -/
abbrev Still (o : ℕ) (α : Type) : Flow.Post (Supply Market) SupplyKey α :=
  fun _ w L _ d => ∃ v, Buys o v w L d

theorem MarketInv.start (db : Db) (listings : Table ℕ String) :
    MarketInv source user (Supply.start db (Market.start listings)) := by
  intro o
  rcases hs : source o with c | p
  · exact ⟨Nat.zero_le _, fun h => absurd rfl h⟩
  · exact ⟨Nat.zero_le _, 0, fun r hr => absurd hr List.not_mem_nil⟩

/-- What a call owes that changes the purchases of one order. -/
theorem owed_of_purchases (hI : MarketInv source user d) (hL : .row (.order o) ∈ L)
    {d' : Supply Market} (hne : ∀ o', o' ≠ o → d'.purchases o' = d.purchases o')
    (hself : (source o).Bought (user o).quantity (d'.purchases o)) :
    Owed marketRely (MarketInv source user) L d d' := by
  refine Owed.of_views (fun o' => ?_) fun o' ho' => hne o' fun h => ho' (h ▸ hL)
  by_cases h : o' = o
  · exact h ▸ hself
  · rw [hne o' h]
    exact hI o'

theorem Source.Bought.log {source : Source} {q : ℕ} (h : source.Bought q v)
    (r : ProviderCallLog) : source.Bought q (v.1, v.2 ++ [r]) := by
  cases source with
  | catalog c =>
    refine ⟨h.1, fun hne => ?_⟩
    have hlog := h.2 hne
    rw [isLogged] at hlog ⊢
    rw [List.any_append, hlog, Bool.true_or]
  | keys p => exact h

/-- A row that may or may not have been written: if nothing was raised it has. -/
theorem wp_writeCallLog {operation : String} (h : Buys o v w L d) :
    (writeCallLog ⟨o, operation⟩ : Buying Bool).wp marketRely (MarketInv source user) G
      (fun raised w L _ d => Buys o v w L d ∧ raised = true ∨
        Buys o (v.1, v.2 ++ [⟨o, operation⟩]) w L d) (Ended Market) w L s d := by
  refine Flow.wp_bind.mpr (Flow.wp_ask.mpr fun d' hd hI a d'' hact _ => ?_)
  have h' := h.moves hd
  cases a with
  | logged stored raised =>
    cases stored with
    | true =>
      obtain rfl := Option.some.inj hact
      refine ⟨owed_of_purchases hI h.mem (fun o' ho' => purchases_addCallLog_of_ne d' ho' operation) ?_,
        Or.inr ⟨h.pending, h.mem, ?_⟩⟩
      · rw [purchases_addCallLog]
        exact (hI o).log _
      · rw [purchases_addCallLog, h'.sees]
    | false =>
      cases raised with
      | true =>
        obtain rfl := Option.some.inj hact
        exact ⟨Owed.refl hI, Or.inl ⟨h', rfl⟩⟩
      | false => exact absurd hact (by simp)
  | _ => exact absurd hact (by simp)

/-- A call to a supplier that changes nothing. -/
theorem wp_quiet {act : Answer MarketAnswer → Supply Market → Option (Supply Market)}
    (hact : ∀ a d d', act a d = some d' → d' = d) {α : Type} {next : Answer MarketAnswer → Buying α}
    (h : Buys o v w L d)
    (hnext : ∀ a, ∃ x, next a = pure x) :
    (Flow.ask act >>= next).wp marketRely (MarketInv source user) G
      (fun _ w L _ d => Buys o v w L d) (Ended Market) w L s d := by
  refine wp_ask_quiet hact fun a d' hd _ => ?_
  obtain ⟨x, hx⟩ := hnext a
  rw [hx]
  exact h.moves hd

theorem wp_fetchBalance (h : Buys o v w L d) :
    fetchBalance.wp marketRely (MarketInv source user) G (fun _ w L _ d => Buys o v w L d)
      (Ended Market) w L s d := by
  refine wp_quiet (fun a d d' ha => ?_) h fun a => ?_
  · rcases a with _ | _ | _ | _ | (_ | _ | _ | _ | _) <;> simp_all
  · rcases a with _ | _ | _ | _ | (_ | _ | _ | _ | _) <;> exact ⟨_, rfl⟩

theorem wp_proxyText (h : Buys o v w L d) :
    proxyText.wp marketRely (MarketInv source user) G (fun _ w L _ d => Buys o v w L d)
      (Ended Market) w L s d := by
  refine wp_quiet (fun a d d' ha => ?_) h fun a => ?_
  · rcases a with _ | _ | _ | _ | (_ | _ | _ | _ | _) <;> simp_all
  · rcases a with _ | _ | _ | _ | (_ | _ | _ | _ | _) <;> exact ⟨_, rfl⟩

theorem wp_inside {α : Type} {t : SupplyTx Market α} (ht : t.Writes Inside) (h : Buys o v w L d) :
    (Flow.ofTx t : Buying α).wp marketRely (MarketInv source user) G
      (fun _ w L _ d => Buys o v w L d) (Ended Market) w L s d :=
  Flow.wp_ofTx_holding Inside.id Inside.comp ht h fun _ _ _ _ _ => trivial

/-- **An attempt that may begin** remembers what was bought before. -/
theorem wp_beginAttempt {c : ProvisionCall OrderCall} (h : Buys o v w L d) :
    (beginAttempt o).wp marketRely (MarketInv source user) ((marketMachine source user).allows c)
      (fun _ w L _ d => (source o).Remembered v ∧ Buys o v w L d) (Ended Market) w L s d := by
  refine Flow.wp_bind.mpr (Flow.wp_ask.mpr fun d' hd hI a d'' hact hallow => ?_)
  have h' := h.moves hd
  rcases a with _ | _ | _ | _ | (⟨o', n⟩ | _ | _ | _ | _)
  all_goals simp only [reduceCtorEq, Option.ite_none_right_eq_some, Option.some.injEq] at hact
  obtain ⟨⟨rfl, -⟩, rfl⟩ := hact
  have hsame : ∀ i, d'.addAttempt.purchases i = d'.purchases i := fun _ => rfl
  refine ⟨Owed.of_views (fun i => ?_) fun i _ => hsame i, ?_,
    h'.pending, h'.mem, (hsame o').trans h'.sees⟩
  · rw [hsame]
    exact hI i
  · rw [← h'.sees]
    exact hallow

/-! ### A catalogue order -/

theorem wp_purchase {c : CatalogSupplier} (hc : source o = .catalog c) (h : Buys o v w L d)
    (hv : v.1 = []) (hlog : isLogged v.2 purchaseDispatchedOperation = true) :
    (purchase o n).wp marketRely (MarketInv source user) G (Still o PurchaseOutcome) (Ended Market)
      w L s d := by
  refine Flow.wp_bind.mpr (Flow.wp_ask.mpr fun d' hd hI a d'' hact _ => ?_)
  have h' := h.moves hd
  rcases a with _ | _ | _ | _ | (_ | _ | ⟨reached, outcome⟩ | _ | _)
  all_goals try exact absurd hact (by simp)
  cases reached with
  | true =>
    obtain rfl := Option.some.inj hact
    have hview : (d'.addRequest ⟨o, n⟩).purchases o = ([⟨o, n⟩], v.2) := by
      rw [purchases_addRequest, h'.sees, hv, List.nil_append]
    refine ⟨owed_of_purchases hI h.mem (fun o' ho' => purchases_addRequest_of_ne d' ho' n) ?_,
      _, h.pending, h.mem, hview⟩
    rw [hview, hc]
    exact ⟨le_refl 1, fun _ => hlog⟩
  | false =>
    cases outcome with
    | unclear | raised =>
      obtain rfl := Option.some.inj hact
      exact ⟨Owed.refl hI, v, h'⟩
    | delivered rows => exact absurd hact (by simp)
    | refused message => exact absurd hact (by simp)

theorem wp_sendPurchase {c : CatalogSupplier} {cfg : Settings} {order : Order} {variantId q : ℕ}
    (hc : source o = .catalog c) (h : Buys o v w L d) (hv : v.1 = [])
    (hlog : isLogged v.2 purchaseDispatchedOperation = true) :
    (sendPurchase c cfg o order variantId q n).wp marketRely (MarketInv source user) G
      (Still o ProvisionResult) (Ended Market) w L s d := by
  refine Flow.wp_bind.mpr (Flow.wp_imp (wp_purchase hc h hv hlog) ?_)
  rintro outcome w L s d ⟨v, h⟩
  cases outcome with
  | delivered rows =>
    exact Flow.wp_imp (wp_inside (writes_inDatabase _) h) fun _ w L s d h => ⟨v, h⟩
  | refused message => exact ⟨v, h⟩
  | unclear =>
    refine Flow.wp_ite.mpr ⟨fun _ => ?_, fun _ => ⟨v, h⟩⟩
    exact Flow.wp_bind.mpr (Flow.wp_imp (wp_fetchBalance h) fun _ w L s d h => ⟨v, h⟩)
  | raised => exact trivial

/-- The marker is written before the request leaves, and without it no request does. -/
theorem wp_dispatchPurchase {c : CatalogSupplier} {cfg : Settings} {order : Order}
    {variantId q : ℕ} (hc : source o = .catalog c) (h : Buys o v w L d) (hv : v.1 = []) :
    (dispatchPurchase c cfg o order variantId q n).wp marketRely (MarketInv source user) G
      (Still o ProvisionResult) (Ended Market) w L s d := by
  have hbalance : (balanceBefore c).wp marketRely (MarketInv source user) G (fun _ w L _ d => Buys o v w L d) (Ended Market) w L s d :=
    Flow.wp_ite.mpr ⟨fun _ => wp_fetchBalance h, fun _ => h⟩
  refine Flow.wp_bind.mpr (Flow.wp_imp hbalance fun _ w L s d h => ?_)
  refine Flow.wp_bind.mpr (Flow.wp_imp (wp_writeCallLog h) fun raised w L s d h => ?_)
  refine Flow.wp_ite.mpr ⟨fun _ => ?_, fun hraised => ?_⟩
  · rcases h with ⟨h, -⟩ | h
    · exact ⟨_, h⟩
    · exact ⟨_, h⟩
  · rcases h with ⟨-, hr⟩ | h
    · exact absurd hr hraised
    · refine wp_sendPurchase hc h hv ?_
      simp [isLogged]

/-- A catalogue order without a marker was not bought for. -/
theorem wp_purchaseFlow {c : CatalogSupplier} {cfg : Settings} {order : Order} {u : UserConfig}
    (hc : source o = .catalog c) (h : Buys o v w L d) (hv : (source o).Remembered v) :
    (purchaseFlow c u cfg o order n).wp marketRely (MarketInv source user) G
      (Still o ProvisionResult) (Ended Market) w L s d := by
  rw [purchaseFlow]
  rcases u.variantId with _ | variantId
  · exact ⟨v, h⟩
  refine Flow.wp_bind.mpr (Flow.wp_read.mpr fun d₁ hd₁ _ _ => ?_)
  have h₁ := h.moves hd₁
  rcases (w d₁).upstream.listings.get? variantId with _ | listing
  · exact ⟨v, h₁⟩
  refine Flow.wp_bind.mpr (Flow.wp_read.mpr fun d₂ hd₂ hI _ => ?_)
  have h₂ := h₁.moves hd₂
  refine Flow.wp_ite.mpr ⟨fun _ => ⟨v, h₂⟩, fun _ => ?_⟩
  refine wp_dispatchPurchase hc h₂ ?_
  -- Whatever was bought, was bought under a marker.
  by_contra hne
  have hbought := hI o
  rw [h₂.sees, hc] at hbought
  rw [hc] at hv
  exact absurd (hbought.2 hne) (Bool.eq_false_iff.mp hv)

/-! ### An order of keys -/

/-- The requests so far leave room for `k` more, and all are the attempt's. -/
structure KeysLeft (user : ℕ → UserConfig) (o n k : ℕ) (v : List PurchaseRequest) : Prop where
  room : v.length + k ≤ (user o).quantity
  mine : ∀ r ∈ v, r.attempt = n

theorem KeysLeft.weaken {k k' : ℕ} {v : List PurchaseRequest} (h : KeysLeft user o n k v)
    (hk : k' ≤ k) : KeysLeft user o n k' v :=
  ⟨(Nat.add_le_add_left hk _).trans h.room, h.mine⟩

theorem KeysLeft.request {k : ℕ} {v : List PurchaseRequest} (h : KeysLeft user o n (k + 1) v) :
    KeysLeft user o n k (v ++ [⟨o, n⟩]) where
  room := by
    have := h.room
    rw [List.length_append, List.length_singleton]
    omega
  mine r hr := by
    rcases List.mem_append.mp hr with hr | hr
    · exact h.mine r hr
    · rw [List.mem_singleton.mp hr]

theorem KeysLeft.bought {k p : ℕ} (h : KeysLeft user o n k v.1) :
    (Source.keys p).Bought (user o).quantity v :=
  ⟨(Nat.le_add_right _ _).trans h.room, n, h.mine⟩

/-- One purchase, logged or not. -/
theorem wp_buyKey {p k : ℕ} (hp : source o = .keys p) (h : Buys o v w L d)
    (hk : KeysLeft user o n (k + 1) v.1) :
    (buyKey o n).wp marketRely (MarketInv source user) G
      (fun _ w L _ d => ∃ v, KeysLeft user o n k v.1 ∧ Buys o v w L d) (Ended Market) w L s d := by
  have hlog : ∀ {v : List PurchaseRequest × List ProviderCallLog} {reply : KeyReply} {s d},
      KeysLeft user o n k v.1 → Buys o v w L d →
      (recordProviderCall o muaKeyxoayOperation >>= fun _ => pure reply : Buying KeyReply).wp
        marketRely (MarketInv source user) G
        (fun _ w L _ d => ∃ v, KeysLeft user o n k v.1 ∧ Buys o v w L d) (Ended Market) w L s d := by
    intro v reply s d hk h
    refine Flow.wp_bind.mpr (Flow.wp_bind.mpr (Flow.wp_imp (wp_writeCallLog h) ?_))
    rintro raised w L s d (⟨h, -⟩ | h)
    · exact ⟨v, hk, h⟩
    · exact ⟨(v.1, v.2 ++ [⟨o, muaKeyxoayOperation⟩]), hk, h⟩
  refine Flow.wp_bind.mpr (Flow.wp_ask.mpr fun d' hd hI a d'' hact _ => ?_)
  have h' := h.moves hd
  rcases a with _ | _ | _ | _ | (_ | _ | _ | ⟨reached, reply⟩ | _)
  all_goals try exact absurd hact (by simp)
  cases reached with
  | true =>
    obtain rfl := Option.some.inj hact
    have hview : (d'.addRequest ⟨o, n⟩).purchases o = (v.1 ++ [⟨o, n⟩], v.2) := by
      rw [purchases_addRequest, h'.sees]
    refine ⟨owed_of_purchases hI h.mem (fun o' ho' => purchases_addRequest_of_ne d' ho' n) ?_,
      hlog hk.request ⟨h.pending, h.mem, hview⟩⟩
    rw [hview, hp]
    exact KeysLeft.bought hk.request
  | false =>
    cases reply with
    | unclear =>
      obtain rfl := Option.some.inj hact
      exact ⟨Owed.refl hI, hlog (hk.weaken (Nat.le_succ k)) h'⟩
    | key keyxoay => exact absurd hact (by simp)
    | refused message => exact absurd hact (by simp)

/-- **The purchases of an attempt**, by induction on the lines that are left. -/
theorem wp_buyKeys {p : ℕ} (hp : source o = .keys p) (rounds : List ℕ) (h : Buys o v w L d)
    (hk : KeysLeft user o n rounds.length v.1) :
    (buyKeys o n rounds).wp marketRely (MarketInv source user) G
      (Still o (List String × ProvisionResult)) (Ended Market) w L s d := by
  induction rounds generalizing v w L s d with
  | nil => exact ⟨v, h⟩
  | cons lineNo rest ih =>
    refine Flow.wp_bind.mpr (Flow.wp_imp (wp_buyKey hp h hk) ?_)
    rintro reply w L s d ⟨v, hk, h⟩
    cases reply with
    | key keyxoay => exact Flow.wp_bind.mpr (Flow.wp_imp (ih h hk) fun _ w L s d h => h)
    | refused message => exact ⟨v, h⟩
    | unclear => exact ⟨v, h⟩

theorem wp_bindKeys {p : ℕ} (keys : List (ℕ × String)) {fetchOk : Bool} (h : Buys o v w L d) :
    (bindKeys p o fetchOk keys).wp marketRely (MarketInv source user) G
      (fun _ w L _ d => Buys o v w L d) (Ended Market) w L s d := by
  induction keys generalizing fetchOk w L s d with
  | nil => exact h
  | cons key rest ih =>
    obtain ⟨lineNo, keyxoay⟩ := key
    have hfetch : (firstProxy fetchOk).wp marketRely (MarketInv source user) G (fun _ w L _ d => Buys o v w L d) (Ended Market) w L s d :=
      Flow.wp_ite.mpr ⟨fun _ => wp_proxyText h, fun _ => h⟩
    refine Flow.wp_bind.mpr (Flow.wp_imp hfetch fun fetched w L s d h => ?_)
    refine Flow.wp_bind.mpr (wp_nextval fun id d' hd _ => ?_)
    refine Flow.wp_bind.mpr (Flow.wp_imp (wp_inside (writes_bindPurchasedAssignment _ _ _)
      (h.moves hd)) fun _ w L s d h => ?_)
    exact Flow.wp_bind.mpr (Flow.wp_imp (ih h) fun _ w L s d h => h)

/-- An order of keys that no key was logged for was not bought for. -/
theorem wp_provisionXoay {p : ℕ} {u : UserConfig} {existing : List (ℕ × ProxyAllocation)}
    {missing : List ℕ} (hp : source o = .keys p) (h : Buys o v w L d)
    (hv : (source o).Remembered v) (hmissing : missing.length ≤ (user o).quantity) :
    (provisionXoay p u o n existing missing).wp marketRely (MarketInv source user) G
      (Still o ProvisionResult) (Ended Market) w L s d := by
  rw [provisionXoay]
  rcases xoayEndpoint u.days with _ | endpoint
  · exact ⟨v, h⟩
  refine Flow.wp_bind.mpr (Flow.wp_read.mpr fun d' hd _ _ => ?_)
  have h' := h.moves hd
  have hlogged : (w d').logged o muaKeyxoayOperation = isLogged v.2 muaKeyxoayOperation := by
    rw [logged_eq_isLogged, ← h'.sees, ← h'.pending.purchases o d']
    rfl
  refine Flow.wp_ite.mpr ⟨fun _ => Flow.wp_ite.mpr ⟨fun _ => ⟨v, h'⟩, fun _ => ⟨v, h'⟩⟩,
    fun hattempted => ?_⟩
  rw [hlogged] at hattempted
  have hnone : v.1 = [] := by
    by_contra hne
    rw [hp] at hv
    exact hattempted (hv hne)
  have hk : KeysLeft user o n missing.length v.1 := by
    rw [hnone]
    exact ⟨by rw [List.length_nil, Nat.zero_add]; exact hmissing, fun r hr => absurd hr List.not_mem_nil⟩
  refine Flow.wp_bind.mpr (Flow.wp_imp (wp_buyKeys hp missing h' hk) ?_)
  rintro bought w L s d ⟨v, h⟩
  refine Flow.wp_ite.mpr ⟨fun _ => Flow.wp_ite.mpr ⟨fun _ => ⟨v, h⟩, fun _ => ⟨v, h⟩⟩, fun _ => ?_⟩
  exact Flow.wp_bind.mpr (Flow.wp_imp (wp_bindKeys _ h) fun _ w L s d h => ⟨v, h⟩)

/-- What is done with the text of a key, if one is read. -/
theorem wp_of_text {f : String → Buying ProvisionResult} (hf : ∀ text w L s d, Buys o v w L d →
      (f text).wp marketRely (MarketInv source user) G (Still o ProvisionResult) (Ended Market) w L s d)
    (h : Buys o v w L d) (text : Option String) :
    (match text with
      | none => pure (.failure none)
      | some text => f text : Buying ProvisionResult).wp marketRely (MarketInv source user) G (Still o ProvisionResult)
      (Ended Market) w L s d := by
  cases text with
  | none => exact ⟨v, h⟩
  | some text => exact hf text w L s d h

theorem wp_redeliver (existing : List (ℕ × ProxyAllocation)) {lines : List (ℕ × Option String)}
    (h : Buys o v w L d) :
    (redeliver o existing lines).wp marketRely (MarketInv source user) G
      (Still o ProvisionResult) (Ended Market) w L s d := by
  induction existing generalizing lines w L s d with
  | nil => exact ⟨v, h⟩
  | cons a rest ih =>
    rw [redeliver]
    rcases nonempty a.2.deliveredText with _ | text
    · exact Flow.wp_bind.mpr (Flow.wp_imp (wp_proxyText h) fun text w L s d h =>
        wp_of_text (fun text w L s d h => ih h) h text)
    · exact ih h

theorem wp_provisionKeys {p : ℕ} (hp : source o = .keys p) (h : Buys o v w L d)
    (hv : (source o).Remembered v) :
    (provisionKeys p (user o) o n).wp marketRely (MarketInv source user) G
      (Still o ProvisionResult) (Ended Market) w L s d := by
  refine Flow.wp_ite.mpr ⟨fun _ => ?_, fun _ => ⟨v, h⟩⟩
  refine Flow.wp_bind.mpr (Flow.wp_imp (wp_inside (writes_inDatabase _) h) fun existing w L s d h => ?_)
  refine Flow.wp_ite.mpr ⟨fun _ => wp_redeliver existing h, fun _ => ?_⟩
  refine wp_provisionXoay hp h hv ((List.length_filter_le _ _).trans ?_)
  rw [List.length_range']

/-! ### The tasks -/

/-- A commit inside of a session moves no log and no supplier. -/
theorem wp_saveInside (hw : Inside w) :
    (Flow.save : Buying Unit).wp marketRely (MarketInv source user) G (Afresh Market Unit)
      (Ended Market) w L s d := by
  refine Flow.wp_save.mpr fun d' _ hI _ => ⟨Owed.of_views (fun o => ?_) fun o _ => ?_, rfl⟩
  · rw [hw.purchases]
    exact hI o
  · exact hw.purchases o d'

theorem wp_provision {c : ProvisionCall OrderCall} {cfg : Settings} {order : Order}
    (h : Buys o v w L d) :
    ((market source user).provision cfg o order).wp marketRely (MarketInv source user)
      ((marketMachine source user).allows c) (Still o ProvisionResult) (Ended Market) w L s d := by
  refine Flow.wp_bind.mpr (Flow.wp_imp (wp_beginAttempt h) ?_)
  rintro n w L s d ⟨hv, h⟩
  rcases hs : source o with cat | p
  · exact wp_purchaseFlow hs h hv
  · exact wp_provisionKeys hs h hv

theorem wp_provisionTask (c : ProvisionCall OrderCall) (cfg : Settings) (o : ℕ) (L : List SupplyKey)
    (s : List (Supply Market)) (d : Supply Market) :
    (provisionPendingOrder (market source user) cfg o).wp marketRely (MarketInv source user)
      ((marketMachine source user).allows c) (Afresh Market Unit) (Ended Market) id L s d := by
  refine wp_provisionPendingOrder (fun _ _ => True) (fun _ => Still o ProvisionResult)
    (fun _ _ _ _ _ _ _ => trivial) (fun _ _ _ _ _ => trivial) (fun order L s d hL _ => ?_)
    fun order p result w L s d h => ?_
  · exact wp_provision ⟨Inside.id, hL, rfl⟩
  · obtain ⟨v, h⟩ := h
    refine Flow.wp_bind.mpr (Flow.wp_imp (wp_inside (writes_inDatabase _) h) fun _ w L s d h => ?_)
    exact wp_saveInside h.pending

theorem wp_deadlineTask (c : ProvisionCall OrderCall) (cfg : Settings) (o : ℕ) (L : List SupplyKey)
    (s : List (Supply Market)) (d : Supply Market) :
    (provisionDeadline (market source user) cfg o).wp marketRely (MarketInv source user)
      ((marketMachine source user).allows c) (Afresh Market Unit) (Ended Market) id L s d := by
  refine wp_provisionDeadline fun order L s d hL _ _ => ?_
  refine Flow.wp_bind.mpr (Flow.wp_imp (wp_inside (v := d.purchases o) (writes_inDatabase _)
    ⟨Inside.id, hL, rfl⟩) fun _ w L s d h => ?_)
  exact wp_saveInside h.pending

end Owes

theorem marketMachine_correct :
    (marketMachine source user).Correct marketRely (MarketInv source user) := by
  intro c d _
  refine Flow.wp_mono (Q := Afresh Market Unit) (X := Ended Market) ?_ (fun _ _ _ _ _ _ => trivial)
    fun _ _ _ _ _ _ => trivial
  cases c with
  | task cfg o => exact wp_provisionTask _ cfg o [] [] d
  | sweep cfg =>
    exact wp_provisionSweepJob (wp_provisionTask _ cfg) (wp_deadlineTask _ cfg)
  | platform call =>
    refine Flow.wp_bind.mpr (Flow.wp_imp (Flow.wp_ofTx_pending Inside.id Inside.comp
      (writes_inDatabase call.code) Inside.id fun _ _ _ _ _ => trivial) fun _ w L s d hw => ?_)
    exact wp_saveInside hw

/-! ### Runs -/

/-- **One purchase for an order**, in every run whose attempts begin where the log remembers what was
bought before: one request for a catalogue order, and for an order of keys no more than its quantity,
all in one attempt. -/
theorem purchased_once {ι : Type} [DecidableEq ι] {db : Db} {listings : Table ℕ String}
    {C : FlowConfig (Supply Market) SupplyKey (Answer MarketAnswer) Abort (ProvisionCall OrderCall) ι}
    (h : FlowReachable (marketMachine source user) (Supply.start db (Market.start listings)) C) :
    (∀ o c, source o = .catalog c → (C.db.requestsOf o).length ≤ 1) ∧
      ∀ o p, source o = .keys p → (C.db.requestsOf o).length ≤ (user o).quantity ∧
        ∃ n, ∀ r ∈ C.db.requestsOf o, r.attempt = n := by
  have hI : MarketInv source user C.db :=
    (marketMachine_correct source user).reachable (MarketInv.start db listings) h
  refine ⟨fun o c hc => ?_, fun o p hp => ?_⟩
  · have ho := hI o
    rw [hc] at ho
    exact ho.1
  · have ho := hI o
    rw [hp] at ho
    exact ho

/-! ### Two runs -/

/-- The purchase of the runs below. -/
def samplePurchase (variantId : Option ℕ) : AdapterPurchase where
  buyerId := 2
  productId := 5
  variantId := variantId
  promoCode := none
  quoteAmount := 1000
  quoteQuantity := 1
  adapterMax := none
  available := true
  compatible := true
  overNetwork := true
  provision := none
  providerId := some 3

/-- An order of one item, paid and waiting for its supplier. -/
def sampleWaiting (variantId : Option ℕ) : Db :=
  (createOrderWithAdapter (Settings.sample 0) 1 (samplePurchase variantId)).exec
    { Db.empty with
      wallets := Table.empty.insert 2 ⟨5000, 0⟩
      products := Table.empty.insert 5 ⟨9, true, some 3, 0⟩ }

/-- The configuration of the order. -/
def sampleConfig : UserConfig := ⟨some 7, 1, 1, "", ""⟩

/-- A catalogue supplier that does not report its balance. -/
def sampleCatalog : Source := .catalog ⟨false, false⟩

/-- The moves of an attempt on order 1 up to the supplier. -/
def attemptMoves (i : Fin 2) (n : ℕ) :
    List (FlowMove (Answer MarketAnswer) (ProvisionCall OrderCall) (Fin 2)) :=
  [.call i (.free true), .step i, .step i, .call i (.adapter true),
    .call i (.upstream (.attempt 1 n)), .step i, .step i]

/-- The sweep lists the order before the checkout's task has marked it, and provisions it after that task
died with its request sent. -/
def catalogMoves : List (FlowMove (Answer MarketAnswer) (ProvisionCall OrderCall) (Fin 2)) :=
  [.begin 0 (.sweep (Settings.sample 200)), .step 0, .step 0, .step 0, .step 0,
    .begin 1 (.task (Settings.sample 200) 1)] ++ attemptMoves 1 0 ++
  [.call 1 (.logged true false), .call 1 (.upstream (.purchase true .unclear)), .close 1] ++
  attemptMoves 0 1 ++
  [.call 0 (.logged true false), .call 0 (.upstream (.purchase true .unclear))]

/-- A process dies between the purchase of a key and its row in the log. -/
def keyMoves : List (FlowMove (Answer MarketAnswer) (ProvisionCall OrderCall) (Fin 2)) :=
  [.begin 0 (.task (Settings.sample 0) 1)] ++ attemptMoves 0 0 ++
  [.call 0 (.upstream (.key true (.key "k1"))), .close 0,
    .begin 1 (.task (Settings.sample 200) 1)] ++ attemptMoves 1 1 ++
  [.call 1 (.upstream (.key true (.key "k2")))]

/-- **A catalogue order and a key, each bought twice.** -/
theorem purchased_twice :
    (∃ C : FlowConfig (Supply Market) SupplyKey (Answer MarketAnswer) Abort
        (ProvisionCall OrderCall) (Fin 2),
      FlowReachable
        (FlowMachine.ofCode (ProvisionCall.code (market (fun _ => sampleCatalog) fun _ => sampleConfig)
          OrderCall.code))
        (Supply.start (sampleWaiting (some 7)) (Market.start (Table.empty.insert 7 "sku"))) C ∧
      (C.db.requestsOf 1).length = 2) ∧
    ∃ C : FlowConfig (Supply Market) SupplyKey (Answer MarketAnswer) Abort
        (ProvisionCall OrderCall) (Fin 2),
      FlowReachable
        (FlowMachine.ofCode (ProvisionCall.code (market (fun _ => .keys 3) fun _ => sampleConfig)
          OrderCall.code))
        (Supply.start (sampleWaiting none) (Market.start .empty)) C ∧
      C.db.requestsOf 1 = [⟨1, 0⟩, ⟨1, 1⟩] ∧ sampleConfig.quantity = 1 := by
  refine ⟨FlowMachine.reaches_of_play (fun _ _ _ _ => true) catalogMoves
    (P := fun w : Supply Market => (w.requestsOf 1).length = 2) (fun _ _ _ _ _ => trivial) (by decide), ?_⟩
  exact FlowMachine.reaches_of_play (fun _ _ _ _ => true) keyMoves
    (P := fun w : Supply Market => w.requestsOf 1 = [⟨1, 0⟩, ⟨1, 1⟩] ∧ sampleConfig.quantity = 1)
    (fun _ _ _ _ _ => trivial) (by decide +kernel)

/-- Whether `marketMachine` lets a step through. -/
def marketAllows (source : ℕ → Source) (e : FlowEvent (Answer MarketAnswer)) (d : Supply Market) :
    Bool :=
  match e with
  | .call (.upstream (.attempt o _)) => decide ((source o).Remembered (d.purchases o))
  | _ => true

theorem purchased_once_sample :
    ∃ C : FlowConfig (Supply Market) SupplyKey (Answer MarketAnswer) Abort
        (ProvisionCall OrderCall) (Fin 2),
      C.db.requestsOf 1 = [⟨1, 0⟩] ∧
      ((∀ o c, sampleCatalog = .catalog c → (C.db.requestsOf o).length ≤ 1) ∧
        ∀ o p, sampleCatalog = .keys p → (C.db.requestsOf o).length ≤ sampleConfig.quantity ∧
          ∃ n, ∀ r ∈ C.db.requestsOf o, r.attempt = n) := by
  obtain ⟨C, hC, hreq⟩ := FlowMachine.reaches_of_play
    (M := marketMachine (fun _ => sampleCatalog) fun _ => sampleConfig)
    (d := Supply.start (sampleWaiting (some 7)) (Market.start (Table.empty.insert 7 "sku")))
    (fun _ e _ d => marketAllows (fun _ => sampleCatalog) e d)
    ([.begin 1 (.task (Settings.sample 0) 1)] ++ attemptMoves 1 0 ++
      [.call 1 (.logged true false), .call 1 (.upstream (.purchase true .unclear)), .close 1])
    (P := fun w : Supply Market => w.requestsOf 1 = [⟨1, 0⟩]) (fun c e s d h => by
      rcases e with _ | (_ | _ | _ | _ | (_ | _ | _ | _ | _)) | _
      all_goals first
        | exact trivial
        | exact of_decide_eq_true (p := sampleCatalog.Remembered _) h) (by decide)
  exact ⟨C, hreq, purchased_once _ _ hC⟩

end Marketplace.Adapters
