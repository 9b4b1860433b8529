import Marketplace.Gateway.Forward
import Marketplace.Arith.Journal

/-!
# Units are conserved

`GatewayInv` ties the three records of a charge together: where each call is, the journal, and the
counter of the balance. A call has exactly the journal rows its phase says, and the counter
of an order is what the journal holds for it.

Everything about the counter then follows from the journal. A call has at most put back what it took
(`callRecords_nonneg`), so what the journal holds for an order is at least what any one call has
out (`journal_group_le`): the counter is never negative and the clamp of `refund_usage` never
fires.
-/

namespace Marketplace

open Sql

/-- The units a row takes from the balance. -/
def UsageRecord.held (r : UsageRecord) : ℤ :=
  match r.status with
  | .ok => r.units
  | .refunded => -r.units
  | .rejectedQuota => 0
  | .rejectedExpired => 0

/-- The units of an order that are taken, after the journal: `ok` rows less `refunded` ones. -/
def unitsHeld (o : ℕ) (rows : List UsageRecord) : ℤ :=
  journalSum (fun r => if r.orderId = o then r.held else 0) rows

/-- The rows of a call. -/
def UsageDb.callRecords (d : UsageDb) (c : ℕ) : List UsageRecord :=
  d.records.filter fun r => r.requestId = c

namespace CallPhase

/-- The row of the call's charge. -/
def chargeRecord (c : ℕ) (call : GatewayCall) (units : ℤ) : UsageRecord :=
  ⟨call.orderId, c, call.endpoint, units, .ok⟩

/-- The row of the call's refund. -/
def refundRecord (c : ℕ) (call : GatewayCall) (units : ℤ) : UsageRecord :=
  ⟨call.orderId, c, call.endpoint, units, .refunded⟩

/-- The rows a call has in the journal, after its phase. -/
def Journaled (c : ℕ) : Option CallPhase → List UsageRecord → Prop
  | none, rows => rows = []
  | some (accepted _ _), rows => rows = []
  | some (inFlight call _ units), rows => 1 ≤ units ∧ rows = [chargeRecord c call units]
  | some (refunding call provider units outcome), rows =>
      1 ≤ units ∧ outcome.refunds provider = true ∧ rows = [chargeRecord c call units]
  | some (forwarded call provider units outcome), rows =>
      1 ≤ units ∧ rows = if outcome.refunds provider = true then
        [chargeRecord c call units, refundRecord c call units] else [chargeRecord c call units]
  | some (charged orderId units), rows =>
      1 ≤ units ∧ ∃ endpoint, rows = [⟨orderId, c, endpoint, units, .ok⟩]
  | some rejected, rows =>
      ∀ r ∈ rows, r.status = .rejectedQuota ∨ r.status = .rejectedExpired

end CallPhase

/-- The link between the calls, the journal and the counters. -/
structure GatewayInv (s : GatewayState) : Prop where
  /-- The counter of an order is what the journal holds for it, within the quota. -/
  counted : ∀ o b, s.usage.balances.get? o = some b →
    b.unitsUsed = unitsHeld o s.usage.records ∧ b.unitsUsed ≤ b.unitsTotal
  /-- Only an order with a balance has rows. -/
  covered : ∀ r ∈ s.usage.records, ∃ b, s.usage.balances.get? r.orderId = some b
  /-- A call has the rows its phase says. -/
  called : ∀ c, CallPhase.Journaled c (s.calls c) (s.usage.callRecords c)

/-! ### What follows from the invariant -/

theorem unitsHeld_append (o : ℕ) (rows rows' : List UsageRecord) :
    unitsHeld o (rows ++ rows') = unitsHeld o rows + unitsHeld o rows' :=
  journalSum_append _ rows rows'

theorem unitsHeld_singleton (o : ℕ) (r : UsageRecord) :
    unitsHeld o [r] = if r.orderId = o then r.held else 0 := by
  simp [unitsHeld]

/-- No call has put back more than it took. -/
theorem CallPhase.Journaled.nonneg {c : ℕ} {p : Option CallPhase} {rows : List UsageRecord}
    (h : CallPhase.Journaled c p rows) (o : ℕ) : 0 ≤ unitsHeld o rows := by
  have hcharge : ∀ r : UsageRecord, r.status = .ok → 1 ≤ r.units → 0 ≤ unitsHeld o [r] := by
    intro r hr hu
    rw [unitsHeld_singleton]
    split_ifs
    · rw [UsageRecord.held, hr]
      exact le_trans zero_le_one hu
    · exact le_refl 0
  match p, h with
  | none, h => exact h ▸ le_refl _
  | some (.accepted _ _), h => exact h ▸ le_refl _
  | some (.inFlight _ _ _), ⟨hu, h⟩ => exact h ▸ hcharge _ rfl hu
  | some (.refunding _ _ _ _), ⟨hu, _, h⟩ => exact h ▸ hcharge _ rfl hu
  | some (.forwarded call provider units outcome), ⟨hu, h⟩ =>
    rw [h]
    split_ifs with hr
    · -- The refund cancels the charge.
      have hsplit : unitsHeld o [CallPhase.chargeRecord c call units,
          CallPhase.refundRecord c call units] = 0 := by
        by_cases ho : call.orderId = o <;>
          simp [unitsHeld, CallPhase.chargeRecord, CallPhase.refundRecord, UsageRecord.held, ho]
      exact hsplit.ge
    · exact hcharge _ rfl hu
  | some (.charged _ _), ⟨hu, _, h⟩ => exact h ▸ hcharge _ rfl hu
  | some .rejected, h =>
    refine (journalSum_eq_zero _ fun r hr => ?_).ge
    rcases h r hr with hs | hs <;> simp [UsageRecord.held, hs]

namespace GatewayInv

variable {s : GatewayState} (h : GatewayInv s)
include h

/-- What a call has out is at most what its order's counter shows. -/
theorem callRecords_le {o : ℕ} {b : OrderBalance} (hb : s.usage.balances.get? o = some b) (c : ℕ) :
    unitsHeld o (s.usage.callRecords c) ≤ b.unitsUsed := by
  rw [(h.counted o b hb).1]
  exact journal_group_le UsageRecord.requestId (fun k => (h.called k).nonneg o) c

theorem unitsUsed_nonneg {o : ℕ} {b : OrderBalance} (hb : s.usage.balances.get? o = some b) :
    0 ≤ b.unitsUsed :=
  ((h.called 0).nonneg o).trans (h.callRecords_le hb 0)

/-- **The clamp does not fire**: a call that is about to be refunded finds its units in the
counter. -/
theorem refundable {c : ℕ} {call : GatewayCall} {provider : GatewayProvider} {units : ℤ}
    {outcome : UpstreamOutcome} (hc : s.calls c = some (.refunding call provider units outcome)) :
    1 ≤ units ∧ ∃ b, s.usage.balances.get? call.orderId = some b ∧ units ≤ b.unitsUsed := by
  have hj := h.called c
  rw [hc] at hj
  obtain ⟨hu, -, hrows⟩ := hj
  have hmem : CallPhase.chargeRecord c call units ∈ s.usage.callRecords c := by
    rw [hrows]
    exact List.mem_singleton_self _
  obtain ⟨b, hb⟩ := h.covered _ (List.mem_of_mem_filter hmem)
  have hle := h.callRecords_le hb c
  rw [hrows, unitsHeld_singleton, if_pos rfl] at hle
  exact ⟨hu, b, hb, hle⟩

/-- An order without a balance has nothing in the journal. -/
theorem unitsHeld_eq_zero {o : ℕ} (ho : s.usage.balances.get? o = none) :
    unitsHeld o s.usage.records = 0 := by
  refine journalSum_eq_zero _ fun r hr => ?_
  obtain ⟨b, hb⟩ := h.covered r hr
  rw [if_neg]
  rintro rfl
  rw [ho] at hb
  exact absurd hb (by simp)

end GatewayInv

/-! ### One step -/

namespace GatewayInv

variable {s s' : GatewayState} {c : ℕ} {p : CallPhase}

/-- The calls and the journal of a call that moves on, with new rows or without. -/
theorem journaled_update {rows : List UsageRecord} (h : GatewayInv s)
    (hrecords : s'.usage.records = s.usage.records ++ rows)
    (hrows : ∀ r ∈ rows, r.requestId = c) (hcalls : s'.calls = Function.update s.calls c (some p))
    (hp : CallPhase.Journaled c (some p) (s.usage.callRecords c ++ rows)) (k : ℕ) :
    CallPhase.Journaled k (s'.calls k) (s'.usage.callRecords k) := by
  have happend : s'.usage.callRecords k =
      s.usage.callRecords k ++ rows.filter fun r => r.requestId = k := by
    rw [UsageDb.callRecords, UsageDb.callRecords, hrecords, List.filter_append]
  rw [happend, hcalls]
  by_cases hk : k = c
  · subst hk
    rw [Function.update_self, List.filter_eq_self.mpr fun r hr => by simpa using hrows r hr]
    exact hp
  · rw [Function.update_of_ne hk, List.filter_eq_nil_iff.mpr fun r hr => ?_, List.append_nil]
    · exact h.called k
    · have hc := hrows r hr
      simp only [hc, decide_eq_true_eq]
      exact fun hck => hk hck.symm

/-- A call moves on and leaves the books alone. -/
theorem move (h : GatewayInv s) (hp : CallPhase.Journaled c (some p) (s.usage.callRecords c)) :
    GatewayInv (s.move c p) := by
  refine ⟨h.counted, h.covered, ?_⟩
  refine h.journaled_update (List.append_nil _).symm (by simp) rfl ?_
  rwa [List.append_nil]

/-- A call moves on, with a row in the journal and its units in the counter. -/
theorem book (h : GatewayInv s) {o : ℕ} {b : OrderBalance} {r : UsageRecord}
    (hb : s.usage.balances.get? o = some b) (hro : r.orderId = o) (hrc : r.requestId = c)
    (hrecords : s'.usage.records = s.usage.records ++ [r])
    (hbalances : ∀ k, s'.usage.balances.get? k =
      if k = o then some { b with unitsUsed := b.unitsUsed + r.held }
      else s.usage.balances.get? k)
    (hle : b.unitsUsed + r.held ≤ b.unitsTotal)
    (hcalls : s'.calls = Function.update s.calls c (some p))
    (hp : CallPhase.Journaled c (some p) (s.usage.callRecords c ++ [r])) : GatewayInv s' := by
  refine ⟨fun k e he => ?_, fun x hx => ?_, ?_⟩
  · rw [hbalances] at he
    rw [hrecords, unitsHeld_append, unitsHeld_singleton, hro]
    split_ifs at he with hk
    · subst hk
      obtain rfl : { b with unitsUsed := b.unitsUsed + r.held } = e := by simpa using he
      rw [if_pos rfl, ← (h.counted k b hb).1]
      exact ⟨rfl, hle⟩
    · rw [if_neg (Ne.symm hk), add_zero]
      exact h.counted k e he
  · rw [hbalances]
    split_ifs with hk
    · exact ⟨_, rfl⟩
    · rw [hrecords] at hx
      rcases List.mem_append.mp hx with hx | hx
      · exact h.covered x hx
      · obtain rfl : x = r := by simpa using hx
        exact absurd hro hk
  · refine h.journaled_update hrecords (fun x hx => ?_) hcalls hp
    obtain rfl : x = r := by simpa using hx
    exact hrc

/-- A call is turned away, with a row in the journal that takes nothing. -/
theorem reject (h : GatewayInv s) {b : OrderBalance} {r : UsageRecord}
    (hb : s.usage.balances.get? r.orderId = some b)
    (hr : r.status = .rejectedQuota ∨ r.status = .rejectedExpired)
    (hrows : s.usage.callRecords r.requestId = []) :
    GatewayInv (({ s with usage := s.usage.addRecord r } : GatewayState).move r.requestId .rejected) := by
  have hheld : r.held = 0 := by rcases hr with hr | hr <;> simp [UsageRecord.held, hr]
  refine h.book (p := .rejected) hb rfl rfl rfl (fun k => ?_) ?_ rfl ?_
  · rw [hheld, add_zero]
    split_ifs with hk
    · rw [hk]
      exact hb
    · rfl
  · rw [hheld, add_zero]
    exact (h.counted _ b hb).2
  · rw [hrows]
    intro x hx
    obtain rfl : x = r := by simpa using hx
    exact hr

/-- An order without a balance gets one. -/
theorem deliver (h : GatewayInv s) {o quantity : ℕ} {rates : List (String × ℤ)} {rate : Option ℤ}
    (ho : s.usage.balances.get? o = none)
    (hbalances : s'.usage = s.usage.insertBalance o ⟨quantity, 0, none, rates, rate⟩)
    (hcalls : s'.calls = s.calls) : GatewayInv s' := by
  refine ⟨fun k e he => ?_, fun x hx => ?_, fun k => ?_⟩
  · rw [hbalances, UsageDb.insertBalance_balances, Table.get?_insert ho] at he
    rw [hbalances, UsageDb.insertBalance_records]
    split_ifs at he with hk
    · subst hk
      obtain rfl : (⟨quantity, 0, none, rates, rate⟩ : OrderBalance) = e := by simpa using he
      exact ⟨(h.unitsHeld_eq_zero ho).symm, Int.natCast_nonneg quantity⟩
    · exact h.counted k e he
  · rw [hbalances, UsageDb.insertBalance_records] at hx
    rw [hbalances, UsageDb.insertBalance_balances, Table.get?_insert ho]
    split_ifs with hk
    · exact ⟨_, rfl⟩
    · exact h.covered x hx
  · rw [hcalls, UsageDb.callRecords, hbalances, UsageDb.insertBalance_records]
    exact h.called k

end GatewayInv

/-! ### One transaction -/

/-- What a transaction locks. -/
def GatewayClient.locks : GatewayClient → List GatewayKey
  | deliver orderId _ _ _ => [.balance orderId]
  | arrive c _ => [.call c]
  | charge c _ call _ => [.balance call.orderId, .call c]
  | answer c _ _ _ _ => [.call c]
  | refund c call _ _ _ => [.balance call.orderId, .call c]
  | direct c _ orderId _ _ => [.balance orderId, .call c]

/-- A session changes only the balances and the calls it has locked. -/
def gatewayRely : Rely GatewayState GatewayKey where
  rel L s s' := (∀ o, .balance o ∈ L → s'.usage.balances.get? o = s.usage.balances.get? o) ∧
    ∀ c, .call c ∈ L → s'.calls c = s.calls c
  refl _ _ := ⟨fun _ _ => rfl, fun _ _ => rfl⟩
  trans h h' := ⟨fun o ho => (h'.1 o ho).trans (h.1 o ho), fun c hc => (h'.2 c hc).trans (h.2 c hc)⟩
  anti hL h := ⟨fun o ho => h.1 o (hL ho), fun c hc => h.2 c (hL hc)⟩

theorem books_protected :
    Tx.Protects GatewayState.books GatewayKey.balance gatewayRely usageRely :=
  fun _ _ _ _ hL h o ho => h.1 o (hL o ho)

/-- What a commit may do to the counters: nothing, if a call ends up rejected; and a refund takes off
exactly what its call was charged. -/
structure GatewayCommit (client : GatewayClient) (s s' : GatewayState) : Prop where
  rejected : ∀ c, s.calls c ≠ some .rejected → s'.calls c = some .rejected →
    s'.usage.balances = s.usage.balances
  refund : ∀ c call provider units outcome, client = .refund c call provider units outcome →
    ∃ b, s.usage.balances.get? call.orderId = some b ∧
      s'.usage.balances.get? call.orderId =
        some { b with unitsUsed := b.unitsUsed - units }

/-- What a transaction that locks `L` leaves alone. -/
def GatewayFrame (L : List GatewayKey) (s s' : GatewayState) : Prop :=
  (∀ o, .balance o ∉ L → s'.usage.balances.get? o = s.usage.balances.get? o) ∧
    ∀ c, .call c ∉ L → s'.calls c = s.calls c

section Runs

variable {s s' : GatewayState} {c : ℕ} {p : CallPhase} {q : Option CallPhase}

theorem fromPhase_run {t : GatewayTx Unit} {r : Unit × GatewayState} :
    (fromPhase c q t).run s = .ok r ↔ s.calls c = q ∧ t.run s = .ok r := by
  simp only [fromPhase, Tx.run_bind_eq_ok, Tx.run_lock, Except.ok.injEq, Prod.mk.injEq,
    Tx.run_require_eq_ok]
  constructor
  · rintro ⟨_, _, ⟨rfl, rfl⟩, _, _, ⟨hq, rfl⟩, h⟩
    exact ⟨hq, h⟩
  · rintro ⟨hq, h⟩
    exact ⟨_, s, ⟨rfl, rfl⟩, (), s, ⟨hq, rfl⟩, h⟩

/-- Only the call `c` moves. -/
theorem calls_update_ne {L : List GatewayKey} (hc : .call c ∈ L)
    (hcalls : s'.calls = Function.update s.calls c (some p)) (k : ℕ) (hk : .call k ∉ L) :
    s'.calls k = s.calls k := by
  rw [hcalls, Function.update_of_ne]
  rintro rfl
  exact hk hc

/-- A call that is rejected now and was not before is the one that moved. -/
theorem phase_of_rejected (hcalls : s'.calls = Function.update s.calls c (some p)) {k : ℕ}
    (hk : s.calls k ≠ some .rejected) (hk' : s'.calls k = some .rejected) : p = .rejected := by
  rw [hcalls] at hk'
  by_cases hkc : k = c
  · subst hkc
    rw [Function.update_self] at hk'
    exact Option.some.inj hk'
  · rw [Function.update_of_ne hkc] at hk'
    exact absurd hk' hk

/-- **A charge**, from the gateway or not. `charged` is what the call becomes if it is charged. -/
theorem charge_run {now o : ℕ} {endpoint : String} {units : Option ℤ} (charged : ℤ → CallPhase)
    (h : GatewayInv s) (hrows : s.usage.callRecords c = [])
    (hp : ∀ u, 1 ≤ u → CallPhase.Journaled c (some (charged u)) [⟨o, c, endpoint, u, .ok⟩])
    (hcharged : ∀ u, charged u ≠ .rejected)
    (hrun : (do let r ← inBooks (chargeUsage now o endpoint units c)
                Tx.modify (GatewayState.move c (r.phase charged)) : GatewayTx Unit).run s =
      .ok ((), s')) :
    GatewayInv s' ∧ GatewayFrame [.balance o, .call c] s s' ∧
      ∀ k, s.calls k ≠ some .rejected → s'.calls k = some .rejected →
        s'.usage.balances = s.usage.balances := by
  simp only [Tx.run_bind_eq_ok, inBooks, Tx.run_zoom_eq_ok, Tx.run_modify, Except.ok.injEq,
    Prod.mk.injEq, true_and] at hrun
  obtain ⟨r, s₁, ⟨d, hd, rfl⟩, rfl⟩ := hrun
  obtain ⟨b, u, hb, hu, hcases⟩ := chargeUsage_cases hd
  have hb : s.usage.balances.get? o = some b := hb
  rcases hcases with ⟨rfl, hle, rfl⟩ | ⟨rfl, rfl⟩ | ⟨rfl, rfl⟩
  · -- Charged: the units go to the counter, an `ok` row to the journal.
    refine ⟨h.book (r := ⟨o, c, endpoint, u, .ok⟩) hb rfl rfl rfl (fun k => ?_) hle rfl ?_, ⟨fun k hk => ?_, ?_⟩,
      fun k hk hk' => ?_⟩
    · change ((s.usage.balances.modify o _).get? k) = _
      rw [Table.get?_modify]
      split_ifs with hk
      · rw [hk, hb]
        rfl
      · rfl
    · rw [hrows]
      exact hp u hu
    · change ((s.usage.balances.modify o _).get? k) = _
      refine Table.get?_modify_of_ne _ ?_ _
      rintro rfl
      simp at hk
    · exact calls_update_ne (p := charged u) (by simp) rfl
    · exact absurd (phase_of_rejected (p := charged u) rfl hk hk') (hcharged u)
  · exact ⟨h.reject (r := ⟨o, c, endpoint, u, .rejectedExpired⟩) hb (Or.inr rfl) hrows,
      ⟨fun k _ => rfl, calls_update_ne (p := .rejected) (by simp) rfl⟩, fun k _ _ => rfl⟩
  · exact ⟨h.reject (r := ⟨o, c, endpoint, u, .rejectedQuota⟩) hb (Or.inl rfl) hrows,
      ⟨fun k _ => rfl, calls_update_ne (p := .rejected) (by simp) rfl⟩, fun k _ _ => rfl⟩

/-- **A refund.** The units are in the counter, so it goes down by exactly these. -/
theorem refund_run {call : GatewayCall} {provider : GatewayProvider} {units : ℤ}
    {outcome : UpstreamOutcome} (h : GatewayInv s)
    (hc : s.calls c = some (.refunding call provider units outcome))
    (hrun : (do inBooks (refundUsage call.orderId units c call.endpoint)
                Tx.modify (GatewayState.move c (.forwarded call provider units outcome)) :
                  GatewayTx Unit).run s = .ok ((), s')) :
    GatewayInv s' ∧ GatewayFrame [.balance call.orderId, .call c] s s' ∧
      (∃ b, s.usage.balances.get? call.orderId = some b ∧
        s'.usage.balances.get? call.orderId = some { b with unitsUsed := b.unitsUsed - units }) ∧
      s'.calls = Function.update s.calls c (some (.forwarded call provider units outcome)) := by
  obtain ⟨hu, b, hb, hle⟩ := h.refundable hc
  simp only [Tx.run_bind_eq_ok, inBooks, Tx.run_zoom_eq_ok, Tx.run_modify, Except.ok.injEq,
    Prod.mk.injEq, true_and] at hrun
  obtain ⟨⟨⟩, s₁, ⟨d, hd, rfl⟩, rfl⟩ := hrun
  have hget : (GatewayState.books.get s).balances.get? call.orderId = some b := hb
  rw [refundUsage_run hu hget, max_eq_right (sub_nonneg.mpr hle)] at hd
  obtain ⟨-, rfl⟩ : _ ∧ _ = d := by simpa only [Except.ok.injEq, Prod.mk.injEq] using hd
  have hbalances : ∀ k, (s.usage.balances.modify call.orderId fun e =>
      { e with unitsUsed := b.unitsUsed - units }).get? k =
      if k = call.orderId then some { b with unitsUsed := b.unitsUsed - units }
      else s.usage.balances.get? k := fun k => by
    rw [Table.get?_modify]
    split_ifs with hk
    · rw [hk, hb]
      rfl
    · rfl
  have hj := h.called c
  rw [hc] at hj
  obtain ⟨-, hrefunds, hrows⟩ := hj
  refine ⟨h.book (p := .forwarded call provider units outcome)
      (r := CallPhase.refundRecord c call units) hb rfl rfl rfl hbalances ?_ rfl ?_,
    ⟨fun k hk => ?_, calls_update_ne (p := .forwarded call provider units outcome) (by simp) rfl⟩,
    ⟨b, hb, (hbalances _).trans (if_pos rfl)⟩, rfl⟩
  · have hcounted := (h.counted _ b hb).2
    change b.unitsUsed - units ≤ b.unitsTotal
    linarith
  · change 1 ≤ units ∧ s.usage.callRecords c ++ [CallPhase.refundRecord c call units] = _
    rw [hrows, if_pos hrefunds]
    exact ⟨hu, rfl⟩
  · refine (hbalances k).trans (if_neg ?_)
    rintro rfl
    simp at hk

/-- A call that is to be refunded can be. -/
theorem GatewayInv.refund_enabled {call : GatewayCall} {provider : GatewayProvider} {units : ℤ}
    {outcome : UpstreamOutcome} (h : GatewayInv s)
    (hc : s.calls c = some (.refunding call provider units outcome)) :
    ∃ s', (gatewayCode (.refund c call provider units outcome)).run s = .ok ((), s') := by
  obtain ⟨hu, b, hb, -⟩ := h.refundable hc
  have hget : (GatewayState.books.get s).balances.get? call.orderId = some b := hb
  have hbooks : (inBooks (refundUsage call.orderId units c call.endpoint)).run s = .ok ((), _) :=
    (Tx.run_zoom_eq_ok _ s ((), _)).mpr ⟨_, refundUsage_run hu hget, rfl⟩
  exact ⟨_, fromPhase_run.mpr ⟨hc, (Tx.run_bind_eq_ok _ _ _).mpr ⟨(), _, hbooks, rfl⟩⟩⟩

/-- **What a committed transaction did**: the link between calls, journal and counters is kept. -/
theorem gatewayCode_run {client : GatewayClient} (h : GatewayInv s)
    (hrun : (gatewayCode client).run s = .ok ((), s')) :
    GatewayInv s' ∧ GatewayCommit client s s' ∧ GatewayFrame client.locks s s' := by
  cases client with
  | deliver orderId quantity endpointRates defaultRate =>
    simp only [gatewayCode, Tx.run_bind_eq_ok, Tx.run_lock, Except.ok.injEq, Prod.mk.injEq,
      Tx.run_require_eq_ok, inBooks, Tx.run_zoom_eq_ok, createBalanceForOrder, Tx.run_modify,
      true_and] at hrun
    obtain ⟨_, _, ⟨rfl, rfl⟩, _, _, ⟨⟨hnone, -⟩, rfl⟩, d, rfl, rfl⟩ := hrun
    refine ⟨h.deliver hnone rfl rfl, ⟨fun k hk hk' => absurd hk' hk, by simp⟩, fun k hk => ?_,
      fun _ _ => rfl⟩
    refine Table.get?_insert_of_ne ?_ _
    rintro rfl
    simp [GatewayClient.locks] at hk
  | arrive c call =>
    obtain ⟨hc, hrun⟩ := fromPhase_run.mp hrun
    obtain rfl : s.move c call.checked = s' := by simpa using hrun
    have hj := h.called c
    rw [hc] at hj
    refine ⟨h.move ?_, ⟨fun k _ _ => rfl, by simp⟩, fun k _ => rfl, calls_update_ne
      (p := call.checked) (by simp [GatewayClient.locks]) rfl⟩
    rw [GatewayCall.checked]
    rcases call.check with e | provider
    · rw [show s.usage.callRecords c = [] from hj]
      exact fun r hr => absurd hr List.not_mem_nil
    · exact hj
  | charge c now call provider =>
    obtain ⟨hc, hrun⟩ := fromPhase_run.mp hrun
    have hj := h.called c
    rw [hc] at hj
    obtain ⟨hinv, hframe, hrej⟩ := charge_run (.inFlight call provider) h hj
      (fun u hu => ⟨hu, rfl⟩) (by simp) hrun
    exact ⟨hinv, ⟨hrej, by simp⟩, hframe⟩
  | answer c call provider units outcome =>
    obtain ⟨hc, hrun⟩ := fromPhase_run.mp hrun
    obtain rfl : s.move c (outcome.phase call provider units) = s' := by simpa using hrun
    have hj := h.called c
    rw [hc] at hj
    obtain ⟨hu, hrows⟩ := hj
    refine ⟨h.move ?_, ⟨fun k _ _ => rfl, by simp⟩, fun k _ => rfl, calls_update_ne
      (p := outcome.phase call provider units) (by simp [GatewayClient.locks]) rfl⟩
    rw [UpstreamOutcome.phase]
    split_ifs with hr
    · exact ⟨hu, hr, hrows⟩
    · exact ⟨hu, by rw [if_neg hr]; exact hrows⟩
  | refund c call provider units outcome =>
    obtain ⟨hc, hrun⟩ := fromPhase_run.mp hrun
    obtain ⟨hinv, hframe, hoff, hcalls⟩ := refund_run h hc hrun
    refine ⟨hinv, ⟨fun k hk hk' => ?_, ?_⟩, hframe⟩
    · exact absurd (phase_of_rejected hcalls hk hk') (by simp)
    · rintro _ _ _ _ _ ⟨⟩
      exact hoff
  | direct c now orderId endpoint units =>
    obtain ⟨hc, hrun⟩ := fromPhase_run.mp hrun
    have hj := h.called c
    rw [hc] at hj
    obtain ⟨hinv, hframe, hrej⟩ := charge_run (.charged orderId) h hj
      (fun u hu => ⟨hu, endpoint, rfl⟩) (by simp) hrun
    exact ⟨hinv, ⟨hrej, by simp⟩, hframe⟩

end Runs

/-! ### Every interleaving -/

/-- The transaction has the locks of its client. -/
def GatewayHolds (client : GatewayClient) (_ : Unit) (L : List GatewayKey) : Prop :=
  ∀ k ∈ client.locks, k ∈ L

section Interleaving

variable {I : GatewayState → Prop} {c o : ℕ} {p : Option CallPhase} {s : GatewayState}

theorem fromPhase_serial {t : GatewayTx Unit} {P : List GatewayKey → Prop}
    (ht : ∀ s, t.Serial gatewayRely I (fun _ L => P L) id [.call c] s) :
    (fromPhase c p t).Serial gatewayRely I (fun _ L => P L) id [] s := by
  refine Tx.Serial.lock_bind (fun d d' h => h.2 c List.mem_cons_self) fun phase d => ?_
  by_cases hp : phase = p
  · rw [Tx.require, if_pos hp]
    exact ht d
  · rw [Tx.require, if_neg hp]
    exact trivial

/-- A function of the usage module that is serial stays so in the gateway, with the call locked. -/
theorem inBooks_serial {α : Type} {t : UsageTx α} {f : α → GatewayTx Unit}
    (ht : t.Serial usageRely (fun _ => True) (fun _ L => o ∈ L) id [] s.usage)
    (hf : ∀ a, (f a).Straight) :
    (inBooks t >>= f).Serial gatewayRely I
      (fun _ L => ∀ k ∈ [GatewayKey.balance o, .call c], k ∈ L) id [.call c] s := by
  have hzoom : (inBooks t).Serial gatewayRely I (fun _ M' => ∃ M, o ∈ M ∧
      (∀ k ∈ M, GatewayKey.balance k ∈ M') ∧ [GatewayKey.call c] ⊆ M') id [.call c] s :=
    Tx.Serial.zoom books_protected (fun _ _ => trivial) ht (fun _ => rfl) (by simp)
  refine (hzoom.bind_straight hf).mono ?_
  rintro - L ⟨a, M, ho, hkey, hsub⟩ k hk
  rcases List.mem_cons.mp hk with rfl | hk
  · exact hkey o ho
  · exact hsub hk

/-- **Every transaction of the gateway is serial.** -/
theorem gatewayCode_serial (client : GatewayClient) :
    (gatewayCode client).Serial gatewayRely I (GatewayHolds client) id [] s := by
  cases client with
  | deliver orderId quantity endpointRates defaultRate =>
    refine Tx.Serial.lock_bind (fun d d' h => h.1 orderId List.mem_cons_self) fun balance d => ?_
    have hinsert : (inBooks (createBalanceForOrder orderId quantity endpointRates
        defaultRate)).Straight := trivial
    exact ((Tx.straight_require _ _).bind fun _ => hinsert).serial
      (P := fun L => ∀ k ∈ [GatewayKey.balance orderId], k ∈ L) fun k hk => hk
  | arrive c call =>
    exact fromPhase_serial (P := fun L => ∀ k ∈ [GatewayKey.call c], k ∈ L) fun s =>
      (Tx.straight_modify _).serial (P := fun L => ∀ k ∈ [GatewayKey.call c], k ∈ L) fun k hk => hk
  | charge c now call provider =>
    exact fromPhase_serial (P := fun L => ∀ k ∈ [GatewayKey.balance call.orderId, .call c], k ∈ L)
      fun s => inBooks_serial (chargeUsage_serial _ _ _ _ _ _) fun r => Tx.straight_modify _
  | answer c call provider units outcome =>
    exact fromPhase_serial (P := fun L => ∀ k ∈ [GatewayKey.call c], k ∈ L) fun s =>
      (Tx.straight_modify _).serial (P := fun L => ∀ k ∈ [GatewayKey.call c], k ∈ L) fun k hk => hk
  | refund c call provider units outcome =>
    exact fromPhase_serial (P := fun L => ∀ k ∈ [GatewayKey.balance call.orderId, .call c], k ∈ L)
      fun s => inBooks_serial (refundUsage_serial _ _ _ _ _) fun r => Tx.straight_modify _
  | direct c now orderId endpoint units =>
    exact fromPhase_serial (P := fun L => ∀ k ∈ [GatewayKey.balance orderId, .call c], k ∈ L)
      fun s => inBooks_serial (chargeUsage_serial _ _ _ _ _ _) fun r => Tx.straight_modify _

end Interleaving

/-- The gateway in any number of sessions. -/
def gatewayMachine : Machine GatewayState GatewayKey Abort Unit GatewayClient :=
  .ofCode gatewayCode

/-- **The gateway is correct.** -/
theorem gatewayMachine_correct : gatewayMachine.Correct gatewayRely GatewayInv
    fun client _ => GatewayCommit client := by
  refine Machine.correct_of_serial GatewayHolds (fun client s _ => gatewayCode_serial client) ?_
  rintro client s ⟨⟩ s' hs hrun
  obtain ⟨hinv, hcommit, hframe⟩ := gatewayCode_run hs hrun
  refine ⟨hinv, hcommit, fun L L' hL hdisj => ⟨fun o ho => hframe.1 o ?_, fun c hc => hframe.2 c ?_⟩⟩
  · exact fun hmem => hdisj _ (hL _ hmem) ho
  · exact fun hmem => hdisj _ (hL _ hmem) hc

/-- No call was made, nothing is in the journal and no unit is used. -/
structure GatewayState.Unused (s : GatewayState) : Prop where
  calls : ∀ c, s.calls c = none
  records : s.usage.records = []
  balances : ∀ o b, s.usage.balances.get? o = some b → b.unitsUsed = 0 ∧ 0 ≤ b.unitsTotal

theorem GatewayState.Unused.inv {s : GatewayState} (h : s.Unused) : GatewayInv s := by
  refine ⟨fun o b hb => ?_, fun r hr => ?_, fun c => ?_⟩
  · obtain ⟨hused, htotal⟩ := h.balances o b hb
    rw [h.records, hused]
    exact ⟨rfl, htotal⟩
  · rw [h.records] at hr
    exact absurd hr List.not_mem_nil
  · rw [h.calls, UsageDb.callRecords, h.records]
    rfl

/-- **Units are neither lost nor minted.** Whatever calls are made in whatever interleaving: the
counter of an order is between zero and the quota and is what the journal says; a
call that is over has its charge and, if its outcome is refunded, one refund of the same units;
a rejected call has taken nothing and changes no counter; and a refund that is due can be made, finds
its units in the counter and takes off exactly these. -/
theorem gateway_units_conserved {ι : Type} [DecidableEq ι] {s₀ : GatewayState} (h₀ : s₀.Unused)
    {C : Config GatewayState GatewayKey Abort Unit GatewayClient ι}
    (h : Reachable gatewayMachine s₀ C) :
    (∀ o b, C.db.usage.balances.get? o = some b →
      0 ≤ b.unitsUsed ∧ b.unitsUsed ≤ b.unitsTotal ∧ b.unitsUsed = unitsHeld o C.db.usage.records) ∧
    (∀ c call provider units outcome,
      C.db.calls c = some (.forwarded call provider units outcome) →
      1 ≤ units ∧ C.db.usage.callRecords c = if outcome.refunds provider = true then
        [CallPhase.chargeRecord c call units, CallPhase.refundRecord c call units]
        else [CallPhase.chargeRecord c call units]) ∧
    (∀ c, C.db.calls c = some .rejected → ∀ r ∈ C.db.usage.callRecords c,
      r.status = .rejectedQuota ∨ r.status = .rejectedExpired) ∧
    (∀ c call provider units outcome,
      C.db.calls c = some (.refunding call provider units outcome) →
      (∃ b, C.db.usage.balances.get? call.orderId = some b ∧ units ≤ b.unitsUsed) ∧
        ∃ s, (gatewayCode (.refund c call provider units outcome)).run C.db = .ok ((), s)) ∧
    (∀ l C', Step gatewayMachine C l C' →
      (∀ c, C.db.calls c ≠ some .rejected → C'.db.calls c = some .rejected →
        C'.db.usage.balances = C.db.usage.balances) ∧
      ∀ c call provider units outcome, l = some (.refund c call provider units outcome, ()) →
        ∃ b, C.db.usage.balances.get? call.orderId = some b ∧
          C'.db.usage.balances.get? call.orderId =
            some { b with unitsUsed := b.unitsUsed - units }) := by
  have hinv : GatewayInv C.db := (gatewayMachine_correct.reachable h₀.inv h).inv
  refine ⟨fun o b hb => ?_, fun c call provider units outcome hc => ?_, fun c hc => ?_,
    fun c call provider units outcome hc => ⟨(hinv.refundable hc).2, hinv.refund_enabled hc⟩,
    fun l C' hstep => ?_⟩
  · obtain ⟨heq, hle⟩ := hinv.counted o b hb
    exact ⟨hinv.unitsUsed_nonneg hb, hle, heq⟩
  · have hj := hinv.called c
    rw [hc] at hj
    exact hj
  · have hj := hinv.called c
    rw [hc] at hj
    exact hj
  · rcases l with _ | ⟨client, ⟨⟩⟩
    · -- Nothing but a commit changes the books or the calls.
      refine ⟨fun c _ _ => by rw [hstep.db_eq], by simp⟩
    · have hcommit := gatewayMachine_correct.commit h₀.inv h hstep
      refine ⟨hcommit.rejected, fun c call provider units outcome hl => ?_⟩
      have hclient : client = .refund c call provider units outcome := by simpa using hl
      exact hcommit.refund c call provider units outcome hclient

/-! ### A sample run -/

section Sample

/-- A source without an `endpoint_map` and without a limit, that keeps the charge of an error. -/
def sampleGateway : GatewayProvider := ⟨true, true, true, [], 0, false⟩

/-- A call of the endpoint `search` on order 1. -/
def sampleCall : GatewayCall := ⟨1, "search", "GET", some (some sampleGateway), true⟩

/-- Two units are delivered. Of three calls the first is lost in transport and refunded, the
second is answered with an error and keeps its charge, and the third is over the quota. -/
def sampleCalls : List GatewayClient :=
  [.deliver 1 2 [] none, .arrive 1 sampleCall, .arrive 2 sampleCall, .arrive 3 sampleCall,
    .charge 1 100 sampleCall sampleGateway, .charge 2 100 sampleCall sampleGateway,
    .charge 3 100 sampleCall sampleGateway,
    .answer 1 sampleCall sampleGateway 1 .transport,
    .answer 2 sampleCall sampleGateway 1 (.response 500 10),
    .refund 1 sampleCall sampleGateway 1 .transport]

/-- What the sample run leaves. -/
def sampleCallsEnd : GatewayState :=
  sampleCalls.foldl (fun s client => (gatewayCode client).exec s) ⟨.empty, fun _ => none⟩

theorem sampleCalls_unused : GatewayState.Unused ⟨.empty, fun _ => none⟩ :=
  ⟨fun _ => rfl, rfl, fun o b hb => absurd hb (by simp [UsageDb.empty])⟩

theorem gateway_units_conserved_sample :
    sampleCallsEnd.usage.balances.get? 1 = some ⟨2, 1, none, [], none⟩ ∧
      sampleCallsEnd.calls 1 = some (.forwarded sampleCall sampleGateway 1 .transport) ∧
      sampleCallsEnd.usage.callRecords 1 =
        [CallPhase.chargeRecord 1 sampleCall 1, CallPhase.refundRecord 1 sampleCall 1] ∧
      sampleCallsEnd.calls 3 = some .rejected := by
  have hreach : Reachable gatewayMachine ⟨.empty, fun _ => none⟩
      (Config.idle sampleCallsEnd : Config GatewayState GatewayKey Abort Unit GatewayClient ℕ) :=
    Runs.reachable 0 (Runs.exec_list gatewayCode sampleCalls _)
  obtain ⟨-, hforwarded, -⟩ := gateway_units_conserved sampleCalls_unused hreach
  have hcall : sampleCallsEnd.calls 1 = some (.forwarded sampleCall sampleGateway 1 .transport) := by
    decide
  exact ⟨by decide, hcall, (hforwarded 1 _ _ _ _ hcall).2, by decide⟩

end Sample

end Marketplace
