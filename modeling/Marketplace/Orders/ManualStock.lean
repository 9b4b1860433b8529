import Marketplace.Orders.Quiet
import Marketplace.Protocol.Pool

/-!
# Packages made to order

A package that is made to order may be limited to a number of units (`manual_stock`). A checkout takes
its units off and holds them on the order, the delivery uses them up, and an order that is closed before
its delivery gives them back. So the units of a package are a pool (`Protocol.Pool`) whose lots are its
orders: `poolOf` reads it off the tables, and `stock_step` is that every transaction on
orders is a step of it. What holds of pools is then what holds of packages (`units_conserved`).

An order that an adapter fulfils is not made to order, so the transactions that place, provision and
finish those are not among the ones here (`OrderCall.ByHand`), nor are the seller's edits of a package.
-/

namespace Marketplace

open Sql Protocol

/-! ### The pool of a package -/

/-- What became of the units an order took off package `p`. -/
def lotOf (p : ℕ) (v : Order) : Option Lot :=
  if v.variantId = some p then
    some (if v.deliveredAt.isSome = true then .used v.quantity
      else if v.stockHeld = 0 then .returned else .held v.stockHeld)
  else none

/-- The units of package `p`. -/
def poolOf (p : ℕ) (d : Db) : Pool ℕ where
  free := ((d.variants.get? p).bind ProductVariant.manualStock).getD 0
  lots := d.orders.filterMap (lotOf p)

theorem lotOf_eq_none {p : ℕ} {v : Order} (h : v.variantId ≠ some p) : lotOf p v = none := if_neg h

theorem lotOf_congr {p : ℕ} {v v' : Order} (h : v'.unitRow = v.unitRow) : lotOf p v' = lotOf p v := by
  simp only [Order.unitRow, Prod.mk.injEq] at h
  obtain ⟨h₁, h₂, h₃, h₄⟩ := h
  rw [lotOf, lotOf, h₁, h₂, h₃, h₄]

theorem variantId_of_lotOf {p : ℕ} {v : Order} {l : Lot} (h : lotOf p v = some l) :
    v.variantId = some p := by
  by_contra hp
  rw [lotOf_eq_none hp] at h
  cases h

/-- What each lot says about its order. -/
theorem lotOf_cases {p : ℕ} {v : Order} {l : Lot} (h : lotOf p v = some l) :
    (v.deliveredAt.isSome = true ∧ l = .used v.quantity) ∨
    (v.deliveredAt = none ∧ v.stockHeld = 0 ∧ l = .returned) ∨
    (v.deliveredAt = none ∧ v.stockHeld ≠ 0 ∧ l = .held v.stockHeld) := by
  rw [lotOf, if_pos (variantId_of_lotOf h)] at h
  rcases hdel : v.deliveredAt with _ | t
  · by_cases hheld : v.stockHeld = 0
    · exact .inr (.inl ⟨rfl, hheld, by simpa [hdel, hheld, eq_comm] using h⟩)
    · exact .inr (.inr ⟨rfl, hheld, by simpa [hdel, hheld, eq_comm] using h⟩)
  · exact .inl ⟨rfl, by simpa [hdel, eq_comm] using h⟩

/-- Package `p` is made to order, up to a number of units. -/
def Limited (p : ℕ) (d : Db) : Prop :=
  ∃ v, d.variants.get? p = some v ∧ v.deliveryMode = .manual ∧ v.manualStock ≠ none

/-- Package `p` is limited; an order that took units of it holds all it ordered until its delivery, and an
order that waits holds them. The orders in `E` are in the middle of a transaction that closes them. -/
structure StockInv (p : ℕ) (E : ℕ → Prop) (d : Db) : Prop where
  limited : Limited p d
  all : ∀ o v, d.orders.get? o = some v → v.variantId = some p → v.stockHeld ≠ 0 →
    v.stockHeld = v.quantity ∧ v.deliveredAt = none
  waiting : ∀ o v, d.orders.get? o = some v → v.variantId = some p → v.IsWaiting → ¬E o →
    v.stockHeld ≠ 0

/-- No order is in the middle of anything. -/
def AtRest : ℕ → Prop := fun _ => False

namespace StockQuiet

variable {p : ℕ} {E : ℕ → Prop} {d d' : Db}

/-- The units of one order. -/
theorem unitRow_eq (h : StockQuiet d d') (o : ℕ) :
    (d'.orders.get? o).map Order.unitRow = (d.orders.get? o).map Order.unitRow := by
  have hget := congrArg (fun t => t.get? o)
    (h.units (fun v => some v.unitRow) fun _ _ hu => congrArg some hu)
  have hbind : ∀ x : Option Order, (x.bind fun v => some v.unitRow) = x.map Order.unitRow :=
    fun x => by cases x <;> rfl
  rwa [Table.get?_filterMap, Table.get?_filterMap, hbind, hbind] at hget

/-- The row an order had. -/
theorem exists_row (h : StockQuiet d d') {o : ℕ} {v' : Order} (hv' : d'.orders.get? o = some v') :
    ∃ v, d.orders.get? o = some v ∧ v'.unitRow = v.unitRow := by
  have hu := h.unitRow_eq o
  rw [hv', Option.map_some] at hu
  obtain ⟨v, hv, hvu⟩ := Option.map_eq_some_iff.mp hu.symm
  exact ⟨v, hv, hvu.symm⟩

/-- Quiet transactions leave the pool of every package as it is. -/
theorem poolOf_eq (h : StockQuiet d d') (p : ℕ) : poolOf p d' = poolOf p d := by
  ext1
  · rw [poolOf, poolOf, h.variants]
  · exact h.units (lotOf p) fun _ _ => lotOf_congr

theorem inv (h : StockQuiet d d') (hinv : StockInv p E d) : StockInv p E d' where
  limited := by
    rw [Limited, h.variants]
    exact hinv.limited
  all o v' hv' hp hne := by
    obtain ⟨v, hv, hu⟩ := h.exists_row hv'
    simp only [Order.unitRow, Prod.mk.injEq] at hu
    obtain ⟨hu₁, hu₂, hu₃, hu₄⟩ := hu
    have hall := hinv.all o v hv (hu₁ ▸ hp) (hu₃ ▸ hne)
    refine ⟨by rw [hu₂, hu₃, hall.1], ?_⟩
    rw [hall.2] at hu₄
    exact Option.isSome_eq_false_iff.mp hu₄ |> Option.isNone_iff_eq_none.mp
  waiting o v' hv' hp hw hE := by
    obtain ⟨v, hv, hu⟩ := h.exists_row hv'
    simp only [Order.unitRow, Prod.mk.injEq] at hu
    obtain ⟨v₀, hv₀, hw₀⟩ := h.waiting o v' hv' hw
    obtain rfl : v₀ = v := Option.some.inj (hv₀.symm.trans hv)
    rw [hu.2.2.1]
    exact hinv.waiting o v₀ hv₀ (hu.1 ▸ hp) hw₀ hE

end StockQuiet

namespace StockInv

variable {p o : ℕ} {E : ℕ → Prop} {d d' : Db}

/-- One order changed, and is taken out until it is closed. -/
theorem of_others (h : StockInv p E d) (hlim : Limited p d')
    (hothers : ∀ o', o' ≠ o → d'.orders.get? o' = d.orders.get? o')
    (hall : ∀ v', d'.orders.get? o = some v' → v'.variantId = some p → v'.stockHeld ≠ 0 →
      v'.stockHeld = v'.quantity ∧ v'.deliveredAt = none) :
    StockInv p (fun o' => E o' ∨ o' = o) d' where
  limited := hlim
  all o' v' hv' hp hne := by
    by_cases ho : o' = o
    · subst ho
      exact hall v' hv' hp hne
    · exact h.all o' v' (hothers o' ho ▸ hv') hp hne
  waiting o' v' hv' hp hw hE := by
    obtain ⟨hE, ho⟩ := not_or.mp hE
    exact h.waiting o' v' (hothers o' ho ▸ hv') hp hw hE

/-- The order that was taken out does not wait, or holds its units. -/
theorem close (h : StockInv p (fun o' => E o' ∨ o' = o) d)
    (ho : ∀ v, d.orders.get? o = some v → v.variantId = some p → v.IsWaiting → v.stockHeld ≠ 0) :
    StockInv p E d where
  limited := h.limited
  all := h.all
  waiting o' v hv hp hw hE := by
    by_cases hoo : o' = o
    · subst hoo
      exact ho v hv hp hw
    · exact h.waiting o' v hv hp hw (not_or.mpr ⟨hE, hoo⟩)

/-- An order that waits holds what it ordered. -/
theorem lotOf_eq_held (h : StockInv p E d) {v : Order} (hv : d.orders.get? o = some v)
    (hp : v.variantId = some p) (hne : v.stockHeld ≠ 0) :
    lotOf p v = some (.held v.stockHeld) := by
  rw [lotOf, if_pos hp, (h.all o v hv hp hne).2, if_neg (by simp), if_neg hne]

end StockInv

theorem poolOf_lots_get? (p : ℕ) (d : Db) (o : ℕ) :
    (poolOf p d).lots.get? o = (d.orders.get? o).bind (lotOf p) := Table.get?_filterMap _ _ _

/-- The number of units of one package changes. -/
theorem limited_modifyVariant {p : ℕ} {d : Db} (h : Limited p d) (q : ℕ) (f : ℕ → ℕ) :
    Limited p (d.modifyVariant q fun v => { v with manualStock := v.manualStock.map f }) := by
  obtain ⟨v, hv, hmode, hstock⟩ := h
  rw [Limited, Db.modifyVariant_variants, Table.get?_modify, hv]
  split_ifs
  · exact ⟨_, rfl, hmode, by simpa using hstock⟩
  · exact ⟨v, rfl, hmode, hstock⟩

theorem poolOf_modifyVariant {p : ℕ} {d : Db} (h : Limited p d) (f : ℕ → ℕ) :
    poolOf p (d.modifyVariant p fun v => { v with manualStock := v.manualStock.map f }) =
      ⟨f (poolOf p d).free, (poolOf p d).lots⟩ := by
  obtain ⟨v, hv, -, hstock⟩ := h
  obtain ⟨m, hm⟩ := Option.ne_none_iff_exists'.mp hstock
  ext1
  · simp [poolOf, hv, hm]
  · rfl

theorem poolOf_modifyVariant_of_ne {p q : ℕ} (hq : q ≠ p) (d : Db)
    (f : ProductVariant → ProductVariant) : poolOf p (d.modifyVariant q f) = poolOf p d := by
  ext1
  · rw [poolOf, poolOf, Db.modifyVariant_variants, Table.get?_modify_of_ne _ (Ne.symm hq)]
  · rfl

/-- The lot of one order changes. -/
theorem poolOf_modifyOrder {p o : ℕ} {d : Db} {v : Order} (hv : d.orders.get? o = some v)
    {f : Order → Order} {l : Lot} (hl : lotOf p v ≠ none) (h : lotOf p (f v) = some l) :
    poolOf p (d.modifyOrder o f) =
      ⟨(poolOf p d).free, (poolOf p d).lots.modify o fun _ => l⟩ := by
  obtain ⟨l₀, hl₀⟩ := Option.ne_none_iff_exists'.mp hl
  ext1
  · rfl
  · exact Table.filterMap_modify (g := lotOf p) hv (by rw [h, hl₀, Option.map_some])

theorem poolOf_modifyOrder_self {p o : ℕ} {d : Db} {f : Order → Order}
    (h : ∀ v, d.orders.get? o = some v → lotOf p (f v) = lotOf p v) :
    poolOf p (d.modifyOrder o f) = poolOf p d := by
  ext1
  · rfl
  · exact Table.filterMap_modify_self h

/-! ### The transactions that move units -/

/-- Whatever the row of the order is, the order does not wait. -/
def Closed (o : ℕ) (d : Db) : Prop := ∀ v, d.orders.get? o = some v → ¬v.IsWaiting

namespace StockQuiet

variable {o : ℕ} {d d' : Db}

theorem closed (h : StockQuiet d d') (hc : Closed o d) : Closed o d' := by
  intro v' hv' hw
  obtain ⟨v, hv, hwv⟩ := h.waiting o v' hv' hw
  exact hc v hv hwv

/-- The row an order has now. -/
theorem row_after (h : StockQuiet d d') {v : Order} (hv : d.orders.get? o = some v) :
    ∃ v', d'.orders.get? o = some v' ∧ v'.unitRow = v.unitRow := by
  have hu := h.unitRow_eq o
  rw [hv, Option.map_some] at hu
  exact Option.map_eq_some_iff.mp hu

end StockQuiet

theorem closed_setOrderStatus {cfg : Settings} {o : ℕ} {status : OrderStatus} {d d' : Db} {a : Unit}
    (h : status.IsTerminal) (hrun : (setOrderStatus cfg o status).run d = .ok (a, d')) :
    Closed o d' := by
  obtain rfl : d.modifyOrder o (Order.setStatus cfg status) = d' := by
    simpa [setOrderStatus] using hrun
  intro v hv hw
  rw [Db.modifyOrder_orders, Table.get?_modify_self] at hv
  obtain ⟨v₀, -, rfl⟩ := Option.map_eq_some_iff.mp hv
  exact hw.1 h

section Moves

variable {p o : ℕ} {E : ℕ → Prop} {d d' : Db} {a : Unit} {cfg : Settings}

/-- **A closed order gives its units back.** -/
theorem stock_release {v v₁ : Order} (h : StockInv p E d) (hv₁ : d.orders.get? o = some v₁)
    (hu : v₁.unitRow = v.unitRow) (hrun : (releaseManualStock o v).run d = .ok (a, d')) :
    StockInv p (fun o' => E o' ∨ o' = o) d' ∧ (poolOf p d).Step (poolOf p d') ∧
      ∃ v', d'.orders.get? o = some v' ∧ v'.status = v₁.status := by
  simp only [Order.unitRow, Prod.mk.injEq] at hu
  have hsame : d = d' → StockInv p (fun o' => E o' ∨ o' = o) d' ∧
      (poolOf p d).Step (poolOf p d') ∧ ∃ v', d'.orders.get? o = some v' ∧ v'.status = v₁.status := by
    rintro rfl
    exact ⟨h.of_others h.limited (fun _ _ => rfl) fun v hv => h.all o v hv, .idle _, v₁, hv₁, rfl⟩
  rw [releaseManualStock] at hrun
  rcases hq : v.variantId with _ | q
  · rw [hq] at hrun
    exact hsame (by simpa using hrun)
  · simp only [hq, Tx.run_when] at hrun
    split_ifs at hrun with hheld
    · obtain ⟨d₁, hd₁, rfl⟩ : ∃ d₁, d₁ = (d.modifyVariant q fun r =>
          { r with manualStock := r.manualStock.map fun left => left + v.stockHeld }) ∧
          d₁.modifyOrder o (fun r => { r with stockHeld := 0 }) = d' := ⟨_, rfl, by simpa using hrun⟩
      have hlim : Limited p d₁ := hd₁ ▸ limited_modifyVariant h.limited q _
      have hv₂ : d₁.orders.get? o = some v₁ := by
        rw [hd₁]
        exact hv₁
      have hget : (d₁.modifyOrder o fun r => { r with stockHeld := 0 }).orders.get? o =
          some { v₁ with stockHeld := 0 } := by
        rw [Db.modifyOrder_orders, Table.get?_modify_self, hv₂, Option.map_some]
      refine ⟨h.of_others hlim (fun o' ho => ?_) fun v' hv' _ hne => ?_, ?_, _, hget, rfl⟩
      · rw [Db.modifyOrder_orders, Table.get?_modify_of_ne _ ho, hd₁]
        rfl
      · rw [hget] at hv'
        exact absurd (by rw [← Option.some.inj hv']) hne
      · by_cases hp : q = p
        · subst hp
          have hvar : v₁.variantId = some q := hu.1.trans hq
          have hne : v₁.stockHeld ≠ 0 := by omega
          have hlot := h.lotOf_eq_held hv₁ hvar hne
          have hreturned : lotOf q { v₁ with stockHeld := 0 } = some .returned := by
            rw [lotOf, if_pos hvar, (h.all o v₁ hv₁ hvar hne).2]
            rfl
          rw [poolOf_modifyOrder hv₂ (by simp [hlot]) hreturned, hd₁,
            poolOf_modifyVariant h.limited, ← hu.2.2.1]
          exact .giveBack _ o _ (by rw [poolOf_lots_get?, hv₁, Option.bind_some, hlot])
        · have hne : v₁.variantId ≠ some p := by
            rw [hu.1, hq]
            exact fun h => hp (Option.some.inj h)
          rw [poolOf_modifyOrder_self, hd₁, poolOf_modifyVariant_of_ne hp]
          · exact .idle _
          · intro r hr
            obtain rfl := Option.some.inj (hv₂.symm.trans hr)
            rw [lotOf_eq_none hne, lotOf_eq_none (v := { v₁ with stockHeld := 0 }) hne]
    · exact hsame (by simpa using hrun)

/-- The order that was late is closed, and its units go back. -/
theorem stock_slaCheck (h : StockInv p AtRest d) (hrun : (slaCheck cfg o).run d = .ok (a, d')) :
    StockInv p AtRest d' ∧ (poolOf p d).Step (poolOf p d') := by
  simp only [slaCheck, lockDueOrder, Tx.run_bind_eq_ok, Tx.run_lock, Tx.run_getOrElse_eq_ok] at hrun
  obtain ⟨v, d₀, ⟨row, _, hrow, hv, rfl⟩, _, d₁, hrefund, _, d₂, hrelease, hcancel⟩ := hrun
  obtain ⟨rfl, rfl⟩ := Prod.mk.inj (Except.ok.inj hrow)
  have hq₁ := stockQuiet_of_run (still_refundEscrow cfg o _ _ _) hrefund
  obtain ⟨v₁, hv₁, hu⟩ := hq₁.row_after (Option.filter_eq_some_iff.mp hv).1
  obtain ⟨hinv, hstep, -⟩ := stock_release (hq₁.inv h) hv₁ hu hrelease
  have hq₂ := stockQuiet_of_run (still_cancelOrder cfg o _) hcancel
  refine ⟨(hq₂.inv hinv).close fun v hv _ hw => ?_, ?_⟩
  · simp only [cancelOrder, Tx.run_bind_eq_ok] at hcancel
    obtain ⟨_, d₃, hstatus, hreason⟩ := hcancel
    exact absurd hw ((stockQuiet_of_run (still_reason o _) hreason).closed
      (closed_setOrderStatus (.inl rfl) hstatus) v hv)
  · rwa [hq₂.poolOf_eq, ← hq₁.poolOf_eq]

/-- An administrator's refund gives back the units of an order that was not delivered. -/
theorem stock_refundOrder {message : Option String} (h : StockInv p AtRest d)
    (hrun : (refundOrder cfg o message).run d = .ok (a, d')) :
    StockInv p AtRest d' ∧ (poolOf p d).Step (poolOf p d') := by
  simp only [refundOrder, Tx.run_bind_eq_ok, Tx.run_require_eq_ok] at hrun
  obtain ⟨v, _, hrow, _, d₁, ⟨-, rfl⟩, _, _, hopen, _, d₂, ⟨-, rfl⟩, _, d₃, hrefund, _, d₄, hclose, _,
    d₅, hrelease, _, d₆, hreason, hclawback⟩ := hrun
  -- Until the order is closed nothing touches its units.
  have hq₁ := stockQuiet_of_run (lineWrites_lockOrderRow o) hrow
  have hv : d₁.orders.get? o = some v := by
    simp only [lockOrderRow, lockOrder, Tx.run_bind_eq_ok, Tx.run_lock, Tx.run_getOrElse_eq_ok] at hrow
    obtain ⟨row, _, hrow, hv, rfl⟩ := hrow
    obtain ⟨rfl, rfl⟩ := Prod.mk.inj (Except.ok.inj hrow)
    exact hv
  have hterminal : (if v.status = .delivered then OrderStatus.refunded else .cancelled).IsTerminal := by
    split_ifs
    · exact .inr (.inl rfl)
    · exact .inl rfl
  have hq₄ := ((stockQuiet_of_run (writes_requireNoOpenDispute o) hopen).trans
    (stockQuiet_of_run (still_refundEscrow cfg o _ _ _) hrefund)).trans
    (stockQuiet_of_run (still_setOrderStatus cfg o hterminal) hclose)
  have hclosed : Closed o d₄ := closed_setOrderStatus hterminal hclose
  obtain ⟨v₄, hv₄, hu⟩ := hq₄.row_after hv
  have hinv₄ : StockInv p AtRest d₄ := (hq₁.trans hq₄).inv h
  -- Nor does anything after that, apart from the release.
  have hq₆ := (stockQuiet_of_run (still_reason o _) hreason).trans
    (stockQuiet_of_run (still_clawbackPrograms cfg o) hclawback)
  have hrest : StockInv p AtRest d₅ ∧ (poolOf p d₄).Step (poolOf p d₅) := by
    rw [Tx.run_when] at hrelease
    split_ifs at hrelease with hdelivered
    · obtain ⟨hinv, hstep, v₅, hv₅, hs⟩ := stock_release hinv₄ hv₄ hu hrelease
      refine ⟨hinv.close fun v' hv' _ hw => ?_, hstep⟩
      obtain rfl := Option.some.inj (hv₅.symm.trans hv')
      exact absurd (by rwa [Order.IsWaiting, hs] at hw) (hclosed v₄ hv₄)
    · obtain rfl : d₄ = d₅ := (Prod.mk.inj (Except.ok.inj hrelease)).2
      exact ⟨hinv₄, .idle _⟩
  refine ⟨hq₆.inv hrest.1, ?_⟩
  rw [hq₆.poolOf_eq, ← (hq₁.trans hq₄).poolOf_eq p]
  exact hrest.2

/-- A seller who takes an order on moves no units. -/
theorem still_acceptOrder {seller : ℕ} (hrun : (acceptOrder cfg o seller).run d = .ok (a, d')) :
    StockQuiet d d' := by
  obtain ⟨v, hv, -, hpending, rfl⟩ : ∃ v, d.orders.get? o = some v ∧ v.sellerId = seller ∧
      v.status = .pending ∧ d.modifyOrder o (Order.setStatus cfg .processing) = d' := by
    simpa [acceptOrder, lockOrder, setOrderStatus] using hrun
  refine ⟨rfl, fun g hg => ?_, fun o' v' hv' hw => ?_⟩
  · rw [Db.modifyOrder_orders]
    refine Table.filterMap_modify_self fun v _ => hg _ _ ?_
    rw [Order.unitRow, Order.setStatus, if_neg (by simp)]
    rfl
  · by_cases ho : o' = o
    · subst ho
      exact ⟨v, hv, waiting_of_pending hpending⟩
    · rw [Db.modifyOrder_orders, Table.get?_modify_of_ne _ ho] at hv'
      exact ⟨v', hv', hw⟩

/-- **A delivery uses the units up.** -/
theorem stock_deliverOrder {seller : ℕ} {data : String} (h : StockInv p AtRest d)
    (hrun : (deliverOrder cfg o seller data).run d = .ok (a, d')) :
    StockInv p AtRest d' ∧ (poolOf p d).Step (poolOf p d') := by
  obtain ⟨v, hv, -, hprocessing, -, hd'⟩ : ∃ v, d.orders.get? o = some v ∧ v.sellerId = seller ∧
      v.status = .processing ∧ data.length ≤ manualDeliveryMaxLength ∧
      (d.modifyOrder o (Order.setStatus cfg .delivered)).modifyOrder o (fun o =>
        { o with
          deliveredAt := some cfg.now
          deliveredData := some data
          stockHeld := 0
          escrowExpiresAt := some (escrowUntil cfg) }) = d' := by
    simpa [deliverOrder, lockOrder, setOrderStatus] using hrun
  have hv₁ : (d.modifyOrder o (Order.setStatus cfg .delivered)).orders.get? o =
      some (v.setStatus cfg .delivered) := by
    rw [Db.modifyOrder_orders, Table.get?_modify_self, hv, Option.map_some]
  have hothers : ∀ o', o' ≠ o → d'.orders.get? o' = d.orders.get? o' := fun o' ho => by
    rw [← hd', Db.modifyOrder_orders, Table.get?_modify_of_ne _ ho, Db.modifyOrder_orders,
      Table.get?_modify_of_ne _ ho]
  have hrow : ∀ v', d'.orders.get? o = some v' → v'.stockHeld = 0 ∧ v'.status = .delivered := by
    intro v' hv'
    rw [← hd', Db.modifyOrder_orders, Table.get?_modify_self, hv₁, Option.map_some] at hv'
    rw [← Option.some.inj hv']
    exact ⟨rfl, rfl⟩
  have hlim : Limited p d' := by
    rw [← hd']
    exact h.limited
  refine ⟨(h.of_others hlim hothers fun v' hv' _ hne => absurd (hrow v' hv').1 hne).close
    fun v' hv' _ hw => absurd (hrow v' hv').2 hw.2, ?_⟩
  have hset : (v.setStatus cfg .delivered).deliveredAt = some cfg.now := by
    rw [Order.setStatus, if_pos (by simp [hprocessing])]
  rw [← hd']
  by_cases hp : v.variantId = some p
  · -- The delivery stamps the order first, and what it holds is used from then on.
    have hne := h.waiting o v hv hp (waiting_of_processing hprocessing) id
    have hlot := h.lotOf_eq_held hv hp hne
    have hused : lotOf p (v.setStatus cfg .delivered) = some (.used v.stockHeld) := by
      have hvar : (v.setStatus cfg .delivered).variantId = some p := hp
      rw [lotOf, if_pos hvar, hset, if_pos (by simp), (h.all o v hv hp hne).1]
      rfl
    rw [poolOf_modifyOrder_self, poolOf_modifyOrder hv (by simp [hlot]) hused]
    · exact .use _ o _ (by rw [poolOf_lots_get?, hv, Option.bind_some, hlot])
    · intro r hr
      obtain rfl := Option.some.inj (hv₁.symm.trans hr)
      rw [lotOf, lotOf, hset]
      rfl
  · rw [poolOf_modifyOrder_self, poolOf_modifyOrder_self]
    · exact .idle _
    · intro r hr
      obtain rfl := Option.some.inj (hv.symm.trans hr)
      rw [lotOf_eq_none hp, lotOf_eq_none (v := v.setStatus cfg .delivered) hp]
    · intro r hr
      obtain rfl := Option.some.inj (hv₁.symm.trans hr)
      rw [lotOf_eq_none (v := v.setStatus cfg .delivered) hp]
      exact lotOf_eq_none hp

/-- What a checkout finds. -/
theorem run_variantForPurchase {x : Purchase} {r : ProductVariant × Product}
    (hrun : (variantForPurchase x).run d = .ok (r, d')) :
    d' = d ∧ d.variants.get? x.variantId = some r.1 ∧ 0 < x.quantity := by
  simp only [variantForPurchase, checkVariantQuantity, Tx.run_bind_eq_ok, Tx.run_getOrElse_eq_ok,
    Tx.run_require_eq_ok] at hrun
  obtain ⟨row, _, hrow, variant, _, ⟨hv, rfl⟩, _, _, ⟨-, rfl⟩, row', _, hrow', product, _, ⟨-, rfl⟩, _, _,
    ⟨-, rfl⟩, _, _, ⟨-, rfl⟩, _, _, ⟨hq, rfl⟩, _, _, ⟨-, rfl⟩, hend⟩ := hrun
  obtain ⟨rfl, rfl⟩ := Prod.mk.inj (Except.ok.inj hrow)
  obtain ⟨rfl, rfl⟩ := Prod.mk.inj (Except.ok.inj hrow')
  obtain ⟨rfl, rfl⟩ := Prod.mk.inj (Except.ok.inj hend)
  refine ⟨rfl, hv, ?_⟩
  have hlow := hq.1
  split_ifs at hlow <;> omega

theorem run_addOrder {v : Order} (hrun : (addOrder o v).run d = .ok (a, d')) :
    d.orders.get? o = none ∧ d' = d.insertOrder o v := by
  simp only [addOrder, insertRow, Tx.run_bind_eq_ok, Tx.run_lock, Tx.run_require_eq_ok,
    Tx.run_modify] at hrun
  obtain ⟨taken, _, htaken, _, _, ⟨hfree, rfl⟩, hend⟩ := hrun
  obtain ⟨rfl, rfl⟩ := Prod.mk.inj (Except.ok.inj htaken)
  exact ⟨by simpa using hfree, (Prod.mk.inj (Except.ok.inj hend)).2.symm⟩

theorem get?_insertOrder {v : Order} (hfree : d.orders.get? o = none) :
    (d.insertOrder o v).orders.get? o = some v := by
  rw [Db.insertOrder_orders, Table.get?_insert_self hfree]

/-- An order of another package. -/
theorem stock_insertOrder {v : Order} (h : StockInv p AtRest d) (hfree : d.orders.get? o = none)
    (hp : v.variantId ≠ some p) :
    StockInv p AtRest (d.insertOrder o v) ∧ poolOf p (d.insertOrder o v) = poolOf p d := by
  have hlim : Limited p (d.insertOrder o v) := h.limited
  have hrow : ∀ v', (d.insertOrder o v).orders.get? o = some v' → v'.variantId ≠ some p :=
    fun v' hv' => by
      rw [get?_insertOrder hfree] at hv'
      rwa [← Option.some.inj hv']
  refine ⟨(h.of_others hlim (fun o' ho => Table.get?_insert_of_ne ho v)
    fun v' hv' hvar => absurd hvar (hrow v' hv')).close
      fun v' hv' hvar => absurd hvar (hrow v' hv'), ?_⟩
  ext1
  · rfl
  · exact Table.filterMap_insert_none hfree (lotOf_eq_none hp)

/-- What `takeManualStock` does. -/
theorem run_takeManualStock {q n : ℕ} {variant : ProductVariant}
    (hrun : (takeManualStock q variant o n).run d = .ok (a, d')) :
    ((variant.deliveryMode ≠ .manual ∨ variant.manualStock = none) ∧ d' = d) ∨
    ((∃ r left, d.variants.get? q = some r ∧ r.manualStock = some left ∧ n ≤ left) ∧
      d' = (d.modifyVariant q fun r =>
        { r with manualStock := r.manualStock.map fun left => left - n }).modifyOrder o fun r =>
        { r with stockHeld := n }) := by
  rw [takeManualStock] at hrun
  split_ifs at hrun with hunlimited
  · exact .inl ⟨hunlimited, ((Prod.mk.inj (Except.ok.inj hrun)).2).symm⟩
  · simp only [Tx.run_bind_eq_ok, Tx.run_lock, Tx.run_require_eq_ok, Tx.run_modify] at hrun
    obtain ⟨row, _, hrow, _, _, ⟨⟨r, hr, left, hleft, hn⟩, rfl⟩, _, _, hfree, hheld⟩ := hrun
    obtain ⟨rfl, rfl⟩ := Prod.mk.inj (Except.ok.inj hrow)
    obtain ⟨-, rfl⟩ := Prod.mk.inj (Except.ok.inj hfree)
    exact .inr ⟨⟨r, left, hr, hleft, hn⟩, ((Prod.mk.inj (Except.ok.inj hheld)).2).symm⟩

/-- An order of another package takes no units of this one. -/
theorem stock_takeOther {q n : ℕ} {v : Order} {variant : ProductVariant} (h : StockInv p AtRest d)
    (hv : d.orders.get? o = some v) (hvar : v.variantId ≠ some p) (hq : q ≠ p)
    (hrun : (takeManualStock q variant o n).run d = .ok (a, d')) :
    StockInv p AtRest d' ∧ poolOf p d' = poolOf p d := by
  obtain ⟨-, rfl⟩ | ⟨-, hd'⟩ := run_takeManualStock hrun
  · exact ⟨h, rfl⟩
  · have hlim : Limited p d' := by
      rw [hd']
      exact limited_modifyVariant h.limited q _
    have hrow : ∀ v', d'.orders.get? o = some v' → v'.variantId ≠ some p := fun v' hv' => by
      rw [hd', Db.modifyOrder_orders, Table.get?_modify_self, Db.modifyVariant_orders, hv,
        Option.map_some] at hv'
      rwa [← Option.some.inj hv']
    have hothers : ∀ o', o' ≠ o → d'.orders.get? o' = d.orders.get? o' := fun o' ho => by
      rw [hd', Db.modifyOrder_orders, Table.get?_modify_of_ne _ ho, Db.modifyVariant_orders]
    refine ⟨(h.of_others hlim hothers fun v' hv' hvar => absurd hvar (hrow v' hv')).close
      fun v' hv' hvar => absurd hvar (hrow v' hv'), ?_⟩
    rw [hd', poolOf_modifyOrder_self, poolOf_modifyVariant_of_ne hq]
    intro r hr
    rw [Db.modifyVariant_orders, hv] at hr
    obtain rfl := Option.some.inj hr
    rw [lotOf_eq_none hvar]
    exact lotOf_eq_none hvar

/-- **A checkout takes the units of a new order off.** -/
theorem stock_take {v : Order} {variant : ProductVariant} (h : StockInv p AtRest d)
    (hfree : d.orders.get? o = none) (hvar : v.variantId = some p) (hdel : v.deliveredAt = none)
    (hheld : v.stockHeld = 0) (hq : 0 < v.quantity) (hvariant : d.variants.get? p = some variant)
    (hrun : (takeManualStock p variant o v.quantity).run (d.insertOrder o v) = .ok (a, d')) :
    StockInv p AtRest d' ∧ (poolOf p d).Step (poolOf p d') := by
  obtain ⟨variant', hvariant', hmode, hstock⟩ := h.limited
  obtain rfl : variant' = variant := Option.some.inj (hvariant'.symm.trans hvariant)
  obtain ⟨hunlimited, -⟩ | ⟨⟨r, left, hr, hleft, hn⟩, hd'⟩ := run_takeManualStock hrun
  · exact absurd hunlimited (by simp [hmode, hstock])
  · have hv : ∀ g, ((d.insertOrder o v).modifyVariant p g).orders.get? o = some v :=
      fun _ => get?_insertOrder hfree
    have hrow : d'.orders.get? o = some { v with stockHeld := v.quantity } := by
      rw [hd', Db.modifyOrder_orders, Table.get?_modify_self, hv, Option.map_some]
    have hothers : ∀ o', o' ≠ o → d'.orders.get? o' = d.orders.get? o' := fun o' ho => by
      rw [hd', Db.modifyOrder_orders, Table.get?_modify_of_ne _ ho, Db.modifyVariant_orders,
        Db.insertOrder_orders, Table.get?_insert_of_ne ho]
    have hlim₁ : Limited p (d.insertOrder o v) := h.limited
    have hlim : Limited p d' := by
      rw [hd']
      exact limited_modifyVariant hlim₁ p _
    refine ⟨(h.of_others hlim hothers fun v' hv' _ _ => ?_).close fun v' hv' _ _ => ?_, ?_⟩
    · rw [← Option.some.inj (hrow.symm.trans hv')]
      exact ⟨rfl, hdel⟩
    · rw [← Option.some.inj (hrow.symm.trans hv')]
      exact hq.ne'
    · -- For the pool the order comes with its units.
      have hfresh : (poolOf p d).lots.get? o = none := by
        rw [poolOf_lots_get?, hfree, Option.bind_none]
      have hfirst : lotOf p v = some .returned := by
        rw [lotOf, if_pos hvar, hdel, hheld]
        rfl
      have hinsert : poolOf p (d.insertOrder o v) =
          ⟨(poolOf p d).free, (poolOf p d).lots.insert o .returned⟩ := by
        ext1
        · rfl
        · exact Table.filterMap_insert hfree hfirst
      have hlot : lotOf p { v with stockHeld := v.quantity } = some (.held v.quantity) := by
        have hne : v.quantity ≠ 0 := hq.ne'
        rw [lotOf, if_pos hvar]
        dsimp only
        rw [hdel, if_neg (by simp), if_neg hne]
      have hleft' : (poolOf p d).free = left := by
        change ((d.variants.get? p).bind ProductVariant.manualStock).getD 0 = left
        rw [show d.variants.get? p = some r from hr, Option.bind_some, hleft, Option.getD_some]
      have hpool : poolOf p d' =
          ⟨(poolOf p d).free - v.quantity, (poolOf p d).lots.insert o (.held v.quantity)⟩ := by
        rw [hd', poolOf_modifyOrder (hv _) (by simp [hfirst]) hlot, poolOf_modifyVariant hlim₁,
          hinsert]
        ext1
        · rfl
        · exact Table.modify_insert hfresh .returned fun _ => .held v.quantity
      rw [hpool]
      exact .take _ o _ hfresh (hleft' ▸ hn)

/-- A checkout of any package. -/
theorem stock_createOrder {skipped : List ℕ} {x : Purchase} (h : StockInv p AtRest d)
    (hrun : (createOrder cfg skipped o x).run d = .ok (a, d')) :
    StockInv p AtRest d' ∧ (poolOf p d).Step (poolOf p d') := by
  simp only [createOrder, Tx.run_bind_eq_ok] at hrun
  obtain ⟨⟨variant, product⟩, _, hfound, promo, _, hpromo, hrun⟩ := hrun
  obtain ⟨rfl, hvariant, hq⟩ := run_variantForPurchase hfound
  obtain rfl := (writes_applyPromo cfg _ _ _).run_id hpromo
  dsimp only at hrun hvariant
  split_ifs at hrun with hinstant
  · simp only [createInstantOrder, Tx.run_bind_eq_ok] at hrun
    obtain ⟨_, d₁, hadd, _, d₂, hcharge, ids, d₃, hclaim, hcaps⟩ := hrun
    obtain ⟨hfree, rfl⟩ := run_addOrder hadd
    -- The package is delivered from stock, so it is not this one.
    have hp : x.variantId ≠ p := by
      rintro rfl
      obtain ⟨variant', hvariant', hmode, -⟩ := h.limited
      obtain rfl := Option.some.inj (hvariant'.symm.trans hvariant)
      simp [hmode] at hinstant
    obtain ⟨hinv, hpool⟩ := stock_insertOrder h hfree
      (v := newOrder cfg x.buyerId product.sellerId (some x.variantId) (some variant.productId)
        x.quantity (variant.price * x.quantity) promo .delivered)
      fun hvar => hp (Option.some.inj hvar)
    have hquiet := ((stockQuiet_of_run (still_chargeOrder cfg o _ _ _) hcharge).trans
      (stockQuiet_of_run (writes_claim cfg o quietWrite_modifyResource _ _ _ _) hclaim)).trans
      (stockQuiet_of_run (Tx.writes_forEach fun _ =>
        Tx.writes_modify.mpr (quietWrite_modifyResource _ _)) hcaps)
    refine ⟨hquiet.inv hinv, ?_⟩
    rw [hquiet.poolOf_eq, hpool]
    exact .idle _
  · simp only [createManualOrder, Tx.run_bind_eq_ok] at hrun
    obtain ⟨_, d₁, hadd, _, d₂, htake, hcharge⟩ := hrun
    obtain ⟨hfree, rfl⟩ := run_addOrder hadd
    have hquiet := stockQuiet_of_run (still_chargeOrder cfg o _ _ _) hcharge
    obtain ⟨v, hv, hvar, hdel, hheld, hquantity⟩ : ∃ v, v = newOrder cfg x.buyerId product.sellerId
        (some x.variantId) (some variant.productId) x.quantity (variant.price * x.quantity) promo
        .pending ∧ v.variantId = some x.variantId ∧ v.deliveredAt = none ∧ v.stockHeld = 0 ∧
        v.quantity = x.quantity := ⟨_, rfl, rfl, rfl, rfl, rfl⟩
    rw [← hv, ← hquantity] at htake
    by_cases hp : x.variantId = p
    · subst hp
      obtain ⟨hinv, hstep⟩ := stock_take h hfree hvar hdel hheld (hquantity ▸ hq) hvariant htake
      exact ⟨hquiet.inv hinv, by rwa [hquiet.poolOf_eq]⟩
    · have hne : v.variantId ≠ some p := fun h => hp (Option.some.inj (hvar.symm.trans h))
      obtain ⟨hinv, hpool⟩ := stock_insertOrder h hfree hne
      obtain ⟨hinv', hpool'⟩ := stock_takeOther hinv (get?_insertOrder hfree) hne hp htake
      refine ⟨hquiet.inv hinv', ?_⟩
      rw [hquiet.poolOf_eq, hpool', hpool]
      exact .idle _

end Moves

/-! ### Every run -/

/-- The transactions on orders that no adapter fulfils, up to their refunds and the end of their cases. -/
def OrderCall.ByHand : OrderCall → Prop
  | .createOrderWithAdapter .. | .provisionPendingOrder .. | .updateTask .. => False
  | .replaceDispute .. | .extendWarrantyDispute .. => False
  | _ => True

/-- Such a transaction. -/
def byHandCode (c : { c : OrderCall // c.ByHand }) : Tx Unit := c.1.code

/-- **Every transaction is a step of the pool.** -/
theorem stock_step {p : ℕ} {d d' : Db} {a : Unit} (h : StockInv p AtRest d) (c : OrderCall)
    (hc : c.ByHand) (hrun : c.code.run d = .ok (a, d')) :
    StockInv p AtRest d' ∧ (poolOf p d).Step (poolOf p d') := by
  have hquiet : StockQuiet d d' → StockInv p AtRest d' ∧ (poolOf p d).Step (poolOf p d') :=
    fun hq => ⟨hq.inv h, by rw [hq.poolOf_eq]; exact .idle _⟩
  have hwrites : c.code.Writes QuietWrite → StockInv p AtRest d' ∧ (poolOf p d).Step (poolOf p d') :=
    fun hw => hquiet (stockQuiet_of_run hw hrun)
  cases c with
  | createOrder cfg skipped o x => exact stock_createOrder h hrun
  | createOrderWithAdapter cfg o x => exact hc.elim
  | provisionPendingOrder cfg o provision providerId => exact hc.elim
  | confirmOrder cfg o b => exact hwrites (still_confirmOrder cfg o b)
  | acceptOrder cfg o seller => exact hquiet (still_acceptOrder hrun)
  | deliverOrder cfg o seller data => exact stock_deliverOrder h hrun
  | releaseOrder cfg o => exact hwrites (still_releaseOrder cfg o)
  | refundOrder cfg o message => exact stock_refundOrder h hrun
  | extendEscrow cfg o days => exact hwrites (still_extendEscrow cfg o days)
  | escrowRelease cfg o => exact hwrites (still_escrowRelease cfg o)
  | slaCheck cfg o => exact stock_slaCheck h hrun
  | provisionSweep cfg o catalog => exact hwrites (still_provisionSweep cfg o catalog)
  | updateTask cfg memory t u => exact hc.elim
  | createDispute cfg c o b resourceIds lineNos key =>
    exact hwrites (still_createDispute cfg o c b resourceIds lineNos key)
  | appendClaimBatch cfg o b resourceIds lineNos key =>
    exact hwrites (still_appendClaimBatch cfg o b resourceIds lineNos key)
  | acceptDisputeResolution cfg o b => exact hwrites (still_acceptDisputeResolution cfg o b)
  | withdrawDispute cfg o b => exact hwrites (still_withdrawDispute cfg o b)
  | requestMarketplaceReview cfg o b => exact hwrites (still_requestMarketplaceReview cfg o b)
  | sellerRespondDispute cfg c seller note =>
    exact hwrites (still_sellerRespondDispute cfg c seller note)
  | sellerResolveResources cfg skipped c seller resourceIds action ids key note =>
    exact hwrites (still_sellerResolveResources cfg skipped c seller resourceIds action ids key note)
  | sellerResolveProxies cfg c seller lineNos key note =>
    exact hwrites (still_sellerResolveProxies cfg c seller lineNos key note)
  | adminRefundProxies cfg c lineNos key note =>
    exact hwrites (still_adminRefundProxies cfg c lineNos key note)
  | refundDispute cfg c => exact hwrites (still_refundDispute cfg c)
  | rejectDispute cfg c => exact hwrites (still_rejectDispute cfg c)
  | partialRefundDispute cfg c x => exact hwrites (still_partialRefundDispute cfg c x)
  | replaceDispute cfg skipped c => exact hc.elim
  | extendWarrantyDispute cfg c days => exact hc.elim
  | disputeResolutionTimeout cfg o order =>
    exact hwrites (still_disputeResolutionTimeout cfg o order)
  | disputeSellerTimeout cfg o order => exact hwrites (still_disputeSellerTimeout cfg o order)
  | disputeAbandonment cfg o order => exact hwrites (still_disputeAbandonment cfg o order)

/-- **Every run of them is a run of the pool.** -/
theorem stock_runs {p : ℕ} {d d' : Db} (h : StockInv p AtRest d) (hruns : Runs byHandCode d d') :
    StockInv p AtRest d' ∧ (poolOf p d).Runs (poolOf p d') := by
  induction hruns with
  | refl => exact ⟨h, .refl⟩
  | tail _ hs ih =>
    obtain ⟨c, a, hrun⟩ := hs
    obtain ⟨hinv, hstep⟩ := stock_step ih.1 c.1 c.2 hrun
    exact ⟨hinv, ih.2.tail hstep⟩

/-- The units of package `p` that are left. -/
def Db.manualStock (d : Db) (p : ℕ) : Option ℕ := (d.variants.get? p).bind ProductVariant.manualStock

/-- The units its orders hold. -/
def Db.unitsHeld (d : Db) (p : ℕ) : ℕ :=
  d.orders.sum fun _ v => if v.variantId = some p then v.stockHeld else 0

/-- The units that were delivered. -/
def Db.unitsDelivered (d : Db) (p : ℕ) : ℕ :=
  d.orders.sum fun _ v => if v.variantId = some p ∧ v.deliveredAt.isSome = true then v.quantity else 0

namespace StockInv

variable {p : ℕ} {d : Db}

theorem exists_manualStock (h : StockInv p AtRest d) :
    d.manualStock p = some (poolOf p d).free := by
  obtain ⟨v, hv, -, hstock⟩ := h.limited
  obtain ⟨m, hm⟩ := Option.ne_none_iff_exists'.mp hstock
  rw [Db.manualStock, poolOf, hv, Option.bind_some, hm, Option.getD_some]

/-- What the lots of the orders add up to. -/
theorem total_eq (h : StockInv p AtRest d) :
    (poolOf p d).total = (poolOf p d).free + d.unitsHeld p + d.unitsDelivered p := by
  have hlots : (poolOf p d).lots.sum (fun _ l => l.units) = d.unitsHeld p + d.unitsDelivered p := by
    rw [poolOf, Table.sum_filterMap, Db.unitsHeld, Db.unitsDelivered, Table.sum, Table.sum, Table.sum,
      ← List.sum_map_add]
    refine congrArg List.sum (List.map_congr_left fun r hr => ?_)
    have hget := Table.get?_eq_some_iff.mpr hr
    by_cases hp : r.2.variantId = some p
    · have hall := h.all r.1 r.2 hget hp
      rcases hdel : r.2.deliveredAt with _ | t
      · by_cases hheld : r.2.stockHeld = 0
        · simp [lotOf, hp, hdel, hheld, Lot.units]
        · simp [lotOf, hp, hdel, hheld, Lot.units]
      · -- A delivered order holds nothing any more.
        have hheld : r.2.stockHeld = 0 := by
          by_contra hne
          simp [hdel] at hall
          exact hne hall
        simp [lotOf, hp, hdel, hheld, Lot.units]
    · simp [lotOf, hp]
  rw [Pool.total, hlots, add_assoc]

end StockInv

/-- **Made-to-order stock is conserved.** From a package with `S` units and no orders, whatever
is checked out, delivered, cancelled and refunded: what is left, what is held and what was delivered
are `S` together. An order that holds nothing, because it gave its units back or was delivered, stays so; and
the units left grow only by what one undelivered order held, which holds nothing from then on. -/
theorem units_conserved {p S : ℕ} {v : ProductVariant} {d₀ d : Db}
    (hv : d₀.variants.get? p = some v) (hmode : v.deliveryMode = .manual)
    (hS : v.manualStock = some S)
    (hnew : ∀ o u, d₀.orders.get? o = some u → u.variantId ≠ some p)
    (h : Runs byHandCode d₀ d) :
    (∃ m, d.manualStock p = some m ∧ m + d.unitsHeld p + d.unitsDelivered p = S) ∧
    (∀ d', Runs byHandCode d d' → ∀ o u, d.orders.get? o = some u → u.variantId = some p →
      u.stockHeld = 0 → ∃ u', d'.orders.get? o = some u' ∧ u'.variantId = some p ∧
        u'.stockHeld = 0 ∧ u'.deliveredAt.isSome = u.deliveredAt.isSome) ∧
    (∀ d' m m', Atomic byHandCode d d' → d.manualStock p = some m → d'.manualStock p = some m' →
      m < m' → ∃ o u u', d.orders.get? o = some u ∧ u.variantId = some p ∧ u.deliveredAt = none ∧
        m' = m + u.stockHeld ∧ d'.orders.get? o = some u' ∧ u'.deliveredAt = none ∧
        u'.stockHeld = 0) := by
  have hlim : StockInv p AtRest d₀ :=
    ⟨⟨v, hv, hmode, by simp [hS]⟩, fun o u hu hp => absurd hp (hnew o u hu),
      fun o u hu hp => absurd hp (hnew o u hu)⟩
  obtain ⟨hinv, hruns⟩ := stock_runs hlim h
  refine ⟨⟨_, hinv.exists_manualStock, ?_⟩, fun d' h' o u hu hp hheld => ?_, ?_⟩
  · -- At first all units are left.
    have hnone : (poolOf p d₀).lots.sum (fun _ l => l.units) = 0 := by
      rw [poolOf, Table.sum_filterMap]
      refine Table.sum_eq_zero fun o u hu => ?_
      rw [lotOf_eq_none (hnew o u hu), Option.map_none, Option.getD_none]
    have hfree : (poolOf p d₀).free = S := by
      rw [poolOf, hv, Option.bind_some, hS, Option.getD_some]
    rw [← hinv.total_eq, hruns.total, Pool.total, hnone, hfree, add_zero]
  · obtain ⟨hinv', hruns'⟩ := stock_runs hinv h'
    obtain ⟨l, hl, hs⟩ : ∃ l, lotOf p u = some l ∧ l.IsSettled := by
      rw [lotOf, if_pos hp, if_pos hheld]
      split_ifs
      · exact ⟨_, rfl, trivial⟩
      · exact ⟨_, rfl, trivial⟩
    have hstays := hruns'.settled (by rw [poolOf_lots_get?, hu, Option.bind_some, hl]) hs
    rw [poolOf_lots_get?] at hstays
    obtain ⟨u', hu', hl'⟩ := Option.bind_eq_some_iff.mp hstays
    refine ⟨u', hu', variantId_of_lotOf hl', ?_⟩
    have hp' := variantId_of_lotOf hl'
    obtain ⟨hdel, rfl⟩ | ⟨hdel, hzero, rfl⟩ | ⟨-, -, rfl⟩ := lotOf_cases hl'
    · have hzero : u'.stockHeld = 0 := by
        by_contra hne
        rw [(hinv'.all o u' hu' hp' hne).2] at hdel
        cases hdel
      obtain ⟨hdel₀, -⟩ | ⟨-, -, hl₀⟩ | ⟨-, -, hl₀⟩ := lotOf_cases hl
      · exact ⟨hzero, hdel.trans hdel₀.symm⟩
      · cases hl₀
      · cases hl₀
    · obtain ⟨-, hl₀⟩ | ⟨hdel₀, -, -⟩ | ⟨-, -, hl₀⟩ := lotOf_cases hl
      · cases hl₀
      · exact ⟨hzero, by rw [hdel, hdel₀]⟩
      · cases hl₀
    · exact hs.elim
  · rintro d' m m' ⟨c, a, hrun⟩ hm hm' hlt
    obtain ⟨hinv', hstep⟩ := stock_step hinv c.1 c.2 hrun
    obtain rfl := Option.some.inj (hinv.exists_manualStock.symm.trans hm)
    obtain rfl := Option.some.inj (hinv'.exists_manualStock.symm.trans hm')
    obtain ⟨o, n, hheld, hfree, hback⟩ := hstep.of_free_lt hlt
    rw [poolOf_lots_get?] at hheld hback
    obtain ⟨u, hu, hl⟩ := Option.bind_eq_some_iff.mp hheld
    obtain ⟨u', hu', hl'⟩ := Option.bind_eq_some_iff.mp hback
    refine ⟨o, u, u', hu, variantId_of_lotOf hl, ?_⟩
    obtain ⟨-, hl₀⟩ | ⟨-, -, hl₀⟩ | ⟨hdel, -, hl₀⟩ := lotOf_cases hl
    · cases hl₀
    · cases hl₀
    · obtain ⟨-, hl₁⟩ | ⟨hdel', hzero, -⟩ | ⟨-, -, hl₁⟩ := lotOf_cases hl'
      · cases hl₁
      · exact ⟨hdel, hfree.trans (congrArg _ (Lot.held.inj hl₀)), hu', hdel', hzero⟩
      · cases hl₁

/-- A package of three units, and a buyer. -/
def sampleManualShop : Db :=
  { Db.sample with
    variants := ⟨[(1, ⟨1, 10000, .manual, 24, true, none, 1, none, some 3⟩)], by decide⟩ }

/-- Two units are delivered and refunded afterwards; the third is ordered, and the order runs out of time. -/
def sampleManualCalls : List { c : OrderCall // c.ByHand } :=
  [⟨.createOrder (Settings.sample 10) [] 1 ⟨2, 1, 2, none, none⟩, trivial⟩,
    ⟨.createOrder (Settings.sample 15) [] 2 ⟨2, 1, 1, none, none⟩, trivial⟩,
    ⟨.acceptOrder (Settings.sample 20) 1 1, trivial⟩,
    ⟨.deliverOrder (Settings.sample 30) 1 1 "key", trivial⟩,
    ⟨.refundOrder (Settings.sample 40) 1 none, trivial⟩,
    ⟨.slaCheck (Settings.sample 90000) 2, trivial⟩]

/-- The database after these calls. -/
def sampleManualEnd : Db := sampleManualCalls.foldl (fun d c => (byHandCode c).exec d) sampleManualShop

theorem units_conserved_sample :
    sampleManualEnd.manualStock 1 = some 1 ∧ sampleManualEnd.unitsDelivered 1 = 2 ∧
      ∃ m, sampleManualEnd.manualStock 1 = some m ∧
        m + sampleManualEnd.unitsHeld 1 + sampleManualEnd.unitsDelivered 1 = 3 := by
  have hruns : Runs byHandCode sampleManualShop sampleManualEnd :=
    Runs.exec_list byHandCode sampleManualCalls sampleManualShop
  have hvariant : sampleManualShop.variants.get? 1 =
      some ⟨1, 10000, .manual, 24, true, none, 1, none, some 3⟩ := rfl
  refine ⟨by decide, by decide,
    (units_conserved hvariant rfl rfl (fun o u hu => ?_) hruns).1⟩
  cases hu

end Marketplace
