import Marketplace.Model.Db

/-!
# Stock lines and proxy lines

What an order delivers is a set of lines: stock lines (`resources/service.py`) or proxy
lines (`resources/proxy_service.py`). Every line carries a refund cap, its share of the money
held; `lineCaps` is the split all of them use, with the remainder on the first lines.

`claimResources` takes stock for an order, oldest first. It skips rows another session has
locked; which ones these are is up to the other sessions, so the call takes them as an
argument.
-/

namespace Marketplace

open Sql

/-! ### Splitting an amount over lines -/

/-- `line_caps`; also the `divmod` splits of `create_order`, `replace_dispute` and the catalogue
suppliers. -/
def lineCaps (totalAmount : ℤ) (quantity : ℕ) : List ℤ :=
  (List.range (max quantity 1)).map fun i : ℕ =>
    totalAmount / (max quantity 1 : ℕ) + if (i : ℤ) < totalAmount % (max quantity 1 : ℕ) then 1 else 0

@[simp] theorem length_lineCaps (total : ℤ) (quantity : ℕ) :
    (lineCaps total quantity).length = max quantity 1 := by simp [lineCaps]

/-- The first `r` of `n` lines get the remainder. -/
theorem sum_range_remainder (n : ℕ) (base r : ℤ) (h0 : 0 ≤ r) (hn : r ≤ n) :
    ((List.range n).map fun i : ℕ => base + if (i : ℤ) < r then 1 else 0).sum = base * n + r := by
  induction n generalizing r with
  | zero =>
    have : r = 0 := by simpa using le_antisymm (by simpa using hn) h0
    simp [this]
  | succ n ih =>
    rw [List.range_succ, List.map_append, List.sum_append]
    by_cases hr : (n : ℤ) < r
    · have hrn : r = n + 1 := by push_cast at hn; omega
      have hmap : ((List.range n).map fun i : ℕ => base + if (i : ℤ) < r then 1 else 0) =
          (List.range n).map fun i : ℕ => base + if (i : ℤ) < (n : ℤ) then 1 else 0 := by
        refine List.map_congr_left fun i hi => ?_
        have hlt : (i : ℤ) < n := by exact_mod_cast List.mem_range.mp hi
        rw [if_pos (hlt.trans hr), if_pos hlt]
      rw [hmap, ih n (Int.natCast_nonneg n) (le_refl _)]
      simp only [List.map_cons, List.map_nil, List.sum_cons, List.sum_nil, if_pos hr]
      push_cast
      linarith
    · rw [ih r h0 (by omega)]
      simp only [List.map_cons, List.map_nil, List.sum_cons, List.sum_nil, if_neg hr]
      push_cast
      ring

/-- **A split loses nothing.** -/
theorem sum_lineCaps (total : ℤ) (quantity : ℕ) : (lineCaps total quantity).sum = total := by
  have hpos : (0 : ℤ) < (max quantity 1 : ℕ) := by
    have : 1 ≤ max quantity 1 := le_max_right _ _
    exact_mod_cast this
  rw [lineCaps, sum_range_remainder _ _ _ (Int.emod_nonneg _ hpos.ne')
    (Int.emod_lt_of_pos _ hpos).le]
  exact Int.ediv_mul_add_emod total _

/-! ### Stock lines -/

/-- The stock of a package that can be taken, oldest first. -/
def Db.claimable (d : Db) (variantId : ℕ) (skipped : List ℕ) : List ℕ :=
  ((d.resources.rows.filter fun r =>
      r.2.variantId = variantId ∧ r.2.status = .available ∧ r.2.orderId = none ∧
        r.2.isArchived = false ∧ r.1 ∉ skipped).mergeSort fun a b =>
      decide (a.2.createdAt < b.2.createdAt ∨ a.2.createdAt = b.2.createdAt ∧ a.1 ≤ b.1)).map
    Prod.fst

/-- What `claim_resources` does to a line it takes. -/
def Resource.assign (cfg : Settings) (orderId : ℕ) (durationDays : Option ℕ) (r : Resource) :
    Resource :=
  { r with
    status := .assigned
    assignedAt := some cfg.now
    orderId := some orderId
    expiresAt := durationDays.bind fun days => if days = 0 then none else some (cfg.now + days * 86400) }

/-- `claim_resources`, up to the error it raises when there is too little stock. -/
def tryClaimResources (cfg : Settings) (skipped : List ℕ) (variantId quantity orderId : ℕ)
    (durationDays : Option ℕ) : Tx (Option (List ℕ)) := do
  let ids ← Sql.Tx.stmt
    (fun d => ((d.claimable variantId skipped).take quantity).map RowKey.resource)
    fun d => .pure ((d.claimable variantId skipped).take quantity)
  if ids.length < quantity then pure none
  else do
    Tx.forEach ids fun id => Tx.modify (Db.modifyResource id (Resource.assign cfg orderId durationDays))
    pure (some ids)

/-- `claim_resources`. -/
def claimResources (cfg : Settings) (skipped : List ℕ) (variantId quantity orderId : ℕ)
    (durationDays : Option ℕ) : Tx (List ℕ) := do
  let ids ← tryClaimResources cfg skipped variantId quantity orderId durationDays
  Tx.getOrElse ids .resourceUnavailable

/-- Give the lines the shares of an amount, in order. -/
def setCaps (ids : List ℕ) (totalAmount : ℤ) : Tx Unit :=
  Tx.forEach (ids.zip (lineCaps totalAmount ids.length)) fun r =>
    Tx.modify (Db.modifyResource r.1 fun v => { v with refundAmountCap := some r.2 })

/-- The lines a batch of `resource_expire_job` closes. -/
def Db.dueResources (d : Db) (now : ℕ) : List ℕ :=
  (d.resources.rows.filter fun r =>
    r.2.status = .assigned ∧ ∃ e ∈ r.2.expiresAt, e ≤ now).map Prod.fst

/-- A batch of `resource_expire_job`: of the due lines, the ones in `batch`. Commits. -/
def resourceExpireJob (now : ℕ) (batch : List ℕ) : Tx Unit := do
  let due ← Sql.Tx.stmt
    (fun d => ((d.dueResources now).filter fun r => r ∈ batch).map RowKey.resource)
    fun d => .pure ((d.dueResources now).filter fun r => r ∈ batch)
  Tx.forEach due fun r => Tx.modify (Db.modifyResource r fun v => { v with status := .expired })

/-! ### Proxy lines -/

/-- The lines of an order, in line order. -/
def Db.orderAllocations (d : Db) (orderId : ℕ) : List (ℕ × ProxyAllocation) :=
  (d.allocations.rows.filter fun r => r.2.orderId = orderId).mergeSort fun a b =>
    decide (a.2.lineNo ≤ b.2.lineNo)

/-- `list_order_allocations`. -/
def listOrderAllocations (orderId : ℕ) : Tx (List (ℕ × ProxyAllocation)) :=
  Tx.read fun d => d.orderAllocations orderId

/-- A text that is there and not empty. -/
def nonempty (text : Option String) : Option String := text.filter fun t => t ≠ ""

/-- `compose_delivered_data`: one line's own text, or a numbered block for each of several. -/
def composeDeliveredData (allocations : List ProxyAllocation) : Option String :=
  let texts := allocations.filterMap fun a => (nonempty a.deliveredText).map fun t => (a.lineNo, t)
  match texts with
  | [] => none
  | (_, text) :: _ =>
    if allocations.length = 1 then some text
    else some ("\n\n".intercalate (texts.map fun r =>
      "#" ++ (if r.1 < 10 then "0" else "") ++ toString r.1 ++ "\n" ++ r.2))

/-- What `finalize_order_lines` leaves to refund: the share of the lines that did not arrive. -/
def shortDelivery (order : Order) (lines : List ProxyAllocation) : ℤ :=
  let quantity := max (if order.quantity = 0 then 1 else order.quantity) lines.length
  let caps := lineCaps order.totalAmount quantity
  let covered := (lines.map fun a => (caps[a.lineNo - 1]?).getD 0).sum
  if lines.length < quantity then max (order.totalAmount - order.refundedAmount - covered) 0 else 0

/-- `finalize_order_lines`, for the order and the lines as the session has them. -/
def finalizeOrderLines (orderId : ℕ) (order : Order) (provisionText : Option String)
    (allocations : List (ℕ × ProxyAllocation)) : Tx ℤ := do
  match allocations with
  | [] => pure 0
  | _ => do
    -- A single line without a text of its own gets the provision's.
    let texts := allocations.map fun r =>
      if allocations.length = 1 ∧ r.2.deliveredText = none then
        (r.1, { r.2 with deliveredText := nonempty provisionText })
      else r
    let quantity := max (if order.quantity = 0 then 1 else order.quantity) allocations.length
    let caps := lineCaps order.totalAmount quantity
    Tx.forEach texts fun r =>
      Tx.modify (Db.modifyAllocation r.1 fun a =>
        { a with
          deliveredText := r.2.deliveredText
          refundAmountCap := some ((caps[r.2.lineNo - 1]?).getD 0) })
    match composeDeliveredData (texts.map Prod.snd) with
    | some composed =>
      Tx.modify (Db.modifyOrder orderId fun o => { o with deliveredData := some composed })
    | none => pure ()
    pure (shortDelivery order (allocations.map Prod.snd))

end Marketplace
