import Marketplace.PublicApi.Service

/-!
# One order for an `Idempotency-Key`

In every run, whichever requests come, overlap, raise or die: of the orders that one API key has placed
under one `Idempotency-Key` with rows of the last 24 hours there is at most one, but for those whose
checkout raised after its commit (`one_order_per_idempotency_key`). An order that is replayed was placed by
the same key, under the same `Idempotency-Key` and with the same body. A key that the handler has freed
belongs to no order, unless the checkout had committed one.

What a step leaves alone of the tables is its `Frame`; a request that the step does not move keeps what it
knows (`Fits.frame`).
-/

namespace Marketplace.PublicApi

open Sql Protocol

/-- The row that the request has inserted. -/
def Pc.row : Pc → Option ℕ
  | .checkout row | .charged row _ | .recording row _ | .freeing row | .done (.freed row) => some row
  | _ => none

namespace State

variable (s : State)

/-- The row was inserted for this call and names no order yet; it is there, or was inserted too long ago. -/
def Holds (call : Call) (row : ℕ) : Prop :=
  (∀ r, s.rows.get? row = some r → r.call = call ∧ r.orderId = none) ∧
    (call.since < s.now - idempotencyTtl ∨ ∃ r, s.rows.get? row = some r)

/-- An order was placed under this row. -/
def Placed (row : ℕ) : Prop := ∃ o order, s.orders.get? o = some order ∧ order.row = row

/-- What a request can rely on. -/
def Fits (q : Request) : Prop :=
  match q.pc with
  | .planning expired | .limiting expired _ | .locked expired _ | .inserting expired _ =>
      ∀ id, expired = some id → id < s.nextRow ∧
        ∀ row, s.rows.get? id = some row → row.createdAt < s.now - idempotencyTtl
  | .checkout row => row < s.nextRow ∧ s.Holds q.call row ∧ ¬s.Placed row
  | .charged row o | .recording row o => row < s.nextRow ∧ s.Holds q.call row ∧
      ∃ order, s.orders.get? o = some order ∧ order.row = row ∧ order.call = q.call
  | .freeing row => row < s.nextRow ∧ s.Holds q.call row ∧ (s.Placed row ↔ row ∈ s.late)
  | .done (.freed row) => row < s.nextRow ∧ (s.Placed row ↔ row ∈ s.late)
  | .done (.replayedOrder o) => ∃ order, s.orders.get? o = some order ∧ order.call.apiKeyId = q.call.apiKeyId ∧
      order.call.idemKey = q.call.idemKey ∧ order.call.requestHash = q.call.requestHash
  | _ => True

/-- What the tables keep. -/
structure Tables : Prop where
  rowIds : ∀ id row, s.rows.get? id = some row → id < s.nextRow
  orderIds : ∀ o order, s.orders.get? o = some order → o < s.nextOrder
  /-- The unique constraint. -/
  unique : ∀ id id' row row', s.rows.get? id = some row → s.rows.get? id' = some row' →
    row.apiKeyId = row'.apiKeyId → row.idemKey = row'.idemKey → id = id'
  /-- A row names an order of its own. -/
  recorded : ∀ id row o, s.rows.get? id = some row → row.orderId = some o →
    ∃ order, s.orders.get? o = some order ∧ order.row = id ∧ order.call = row.call
  /-- The row of an order stays, for a day. -/
  kept : ∀ o order, s.orders.get? o = some order → order.row < s.nextRow ∧
    (order.row ∈ s.late ∨ order.call.since < s.now - idempotencyTtl ∨
      ∃ row, s.rows.get? order.row = some row ∧ row.call = order.call)
  single : ∀ o o' order order', s.orders.get? o = some order → s.orders.get? o' = some order' →
    order.row = order'.row → o = o'
  late : ∀ row ∈ s.late, s.Placed row

/-- **What holds in every state.** -/
structure Invariant : Prop where
  tables : s.Tables
  fits : ∀ p q, s.requests.get? p = some q → s.Fits q
  /-- No two requests have one row. -/
  apart : ∀ p p' q q' row, s.requests.get? p = some q → s.requests.get? p' = some q' →
    q.pc.row = some row → q'.pc.row = some row → p = p'

/-- What a step leaves of the tables, but for one row. -/
structure Frame (s s' : State) (own : Option ℕ) : Prop where
  now : s.now ≤ s'.now
  next : s.nextRow ≤ s'.nextRow
  rows : ∀ id row', s'.rows.get? id = some row' → id < s.nextRow →
    ∃ row, s.rows.get? id = some row ∧ row.call = row'.call ∧ (own ≠ some id → row = row')
  stay : ∀ id row, s.rows.get? id = some row → own ≠ some id →
    row.createdAt < s'.now - idempotencyTtl ∨ s'.rows.get? id = some row
  orders : ∀ o order, s.orders.get? o = some order →
    ∃ order', s'.orders.get? o = some order' ∧ order'.row = order.row ∧ order'.call = order.call
  origin : ∀ o order', s'.orders.get? o = some order' → own = some order'.row ∨
    ∃ order, s.orders.get? o = some order ∧ order.row = order'.row
  late : ∀ row, own ≠ some row → (row ∈ s'.late ↔ row ∈ s.late)

variable {s} {s' : State} {own : Option ℕ}

theorem Frame.refl (s : State) : Frame s s own where
  now := le_rfl
  next := le_rfl
  rows := fun _ row h _ => ⟨row, h, rfl, fun _ => rfl⟩
  stay := fun _ _ h _ => .inr h
  orders := fun _ order h => ⟨order, h, rfl, rfl⟩
  origin := fun _ order h => .inr ⟨order, h, rfl⟩
  late := fun _ _ => Iff.rfl

theorem Frame.holds (h : Frame s s' own) {call : Call} {row : ℕ} (hown : own ≠ some row) (hlt : row < s.nextRow)
    (hrow : s.Holds call row) : s'.Holds call row := by
  have hnow := h.now
  refine ⟨fun r' hr' => ?_, ?_⟩
  · obtain ⟨r, hr, -, heq⟩ := h.rows row r' hr' hlt
    rw [← heq hown]
    exact hrow.1 r hr
  · rcases hrow.2 with hold | ⟨r, hr⟩
    · left
      omega
    · rcases h.stay row r hr hown with hold | hr'
      · left
        rw [← (hrow.1 r hr).1]
        exact hold
      · exact .inr ⟨r, hr'⟩

theorem Frame.placed_iff (h : Frame s s' own) {row : ℕ} (hown : own ≠ some row) : s'.Placed row ↔ s.Placed row := by
  constructor
  · rintro ⟨o, order', ho, rfl⟩
    rcases h.origin o order' ho with hmine | ⟨order, horder, hrow⟩
    · exact absurd hmine hown
    · exact ⟨o, order, horder, hrow⟩
  · rintro ⟨o, order, ho, rfl⟩
    obtain ⟨order', ho', hrow, -⟩ := h.orders o order ho
    exact ⟨o, order', ho', hrow⟩

/-- **A request that a step does not move keeps what it knows.** -/
theorem Fits.frame (h : Frame s s' own) {q : Request} (hown : ∀ row, q.pc.row = some row → own ≠ some row)
    (hq : s.Fits q) : s'.Fits q := by
  have hnow := h.now
  have hnext := h.next
  have hexpired : ∀ expired : Option ℕ,
      (∀ id, expired = some id → id < s.nextRow ∧
        ∀ row, s.rows.get? id = some row → row.createdAt < s.now - idempotencyTtl) →
      ∀ id, expired = some id → id < s'.nextRow ∧
        ∀ row, s'.rows.get? id = some row → row.createdAt < s'.now - idempotencyTtl := by
    intro expired hex id hid
    obtain ⟨hlt, hrow⟩ := hex id hid
    refine ⟨by omega, fun row' hrow' => ?_⟩
    obtain ⟨row, hget, hcall, -⟩ := h.rows id row' hrow' hlt
    have hcreated : row.createdAt = row'.createdAt := congrArg Call.since hcall
    have := hrow row hget
    omega
  have horder : ∀ o row call,
      (∃ order, s.orders.get? o = some order ∧ order.row = row ∧ order.call = call) →
      ∃ order, s'.orders.get? o = some order ∧ order.row = row ∧ order.call = call := by
    rintro o row call ⟨order, ho, hrow, hcall⟩
    obtain ⟨order', ho', hrow', hcall'⟩ := h.orders o order ho
    exact ⟨order', ho', hrow'.trans hrow, hcall'.trans hcall⟩
  obtain ⟨call, pc⟩ := q
  rcases pc with _ | expired | ⟨expired, e⟩ | ⟨expired, e⟩ | ⟨expired, e⟩ | _ | row | ⟨row, o⟩ | ⟨row, o⟩ | row | answer
  · exact trivial
  · exact hexpired expired hq
  · exact hexpired expired hq
  · exact hexpired expired hq
  · exact hexpired expired hq
  · exact trivial
  · have hne := hown row rfl
    exact ⟨hq.1.trans_le hnext, h.holds hne hq.1 hq.2.1, fun hp => hq.2.2 ((h.placed_iff hne).mp hp)⟩
  · exact ⟨hq.1.trans_le hnext, h.holds (hown row rfl) hq.1 hq.2.1, horder o row call hq.2.2⟩
  · exact ⟨hq.1.trans_le hnext, h.holds (hown row rfl) hq.1 hq.2.1, horder o row call hq.2.2⟩
  · have hne := hown row rfl
    exact ⟨hq.1.trans_le hnext, h.holds hne hq.1 hq.2.1,
      (h.placed_iff hne).trans (hq.2.2.trans (h.late row hne).symm)⟩
  · rcases answer with _ | _ | _ | o | _ | _ | _ | row | _
    case replayedOrder =>
      obtain ⟨order, ho, hkey, hidem, hhash⟩ := hq
      obtain ⟨order', ho', -, hcall⟩ := h.orders o order ho
      exact ⟨order', ho', by rw [hcall]; exact hkey, by rw [hcall]; exact hidem, by rw [hcall]; exact hhash⟩
    case freed =>
      have hne := hown row rfl
      exact ⟨hq.1.trans_le hnext, (h.placed_iff hne).trans (hq.2.trans (h.late row hne).symm)⟩
    all_goals exact trivial

/-- The row of a request is one that has been given out. -/
theorem Fits.row_lt {q : Request} (hq : s.Fits q) {row : ℕ} (hrow : q.pc.row = some row) : row < s.nextRow := by
  obtain ⟨call, pc⟩ := q
  rcases pc with _ | expired | ⟨expired, e⟩ | ⟨expired, e⟩ | ⟨expired, e⟩ | _ | r | ⟨r, o⟩ | ⟨r, o⟩ | r | answer
  case done =>
    cases answer
    case freed =>
      obtain rfl := Option.some.inj hrow
      exact hq.1
    all_goals cases hrow
  all_goals first
    | cases hrow
      done
    | obtain rfl := Option.some.inj hrow
      exact hq.1

theorem requests_goto (s : State) (p : ℕ) (pc : Pc) {q : Request} (hq : s.requests.get? p = some q) (p' : ℕ) :
    (s.goto p pc).requests.get? p' = if p' = p then some { q with pc := pc } else s.requests.get? p' := by
  change (s.requests.modify p _).get? p' = _
  rw [Table.get?_modify]
  split_ifs with h
  · rw [h, hq]
    rfl
  · rfl

theorem Invariant.knows (h : s.Invariant) {p : ℕ} {q : Request} {pc : Pc} (hq : s.requests.get? p = some q)
    (hpc : q.pc = pc) : s.Fits { q with pc := pc } := hpc ▸ h.fits p q hq

/-- **A step that moves one request.** Its row stays its own, or is a new one. -/
theorem Invariant.moves (h : s.Invariant) {p : ℕ} {q : Request} {pc₀ pc : Pc} (hq : s.requests.get? p = some q)
    (hpc : q.pc = pc₀) (hrequests : s'.requests = (s.goto p pc).requests) (hframe : Frame s s' own)
    (hown : ∀ row, own = some row → pc₀.row = some row)
    (hrow : ∀ row, pc.row = some row → pc₀.row = some row ∨ s.nextRow ≤ row) (htables : s'.Tables)
    (hfits : s'.Fits { q with pc := pc }) : s'.Invariant := by
  subst hpc
  have hget : ∀ p' q', s'.requests.get? p' = some q' →
      p' = p ∧ q' = { q with pc := pc } ∨ p' ≠ p ∧ s.requests.get? p' = some q' := by
    intro p' q' hp'
    rw [hrequests, requests_goto s p pc hq] at hp'
    split_ifs at hp' with he
    · exact .inl ⟨he, (Option.some.inj hp').symm⟩
    · exact .inr ⟨he, hp'⟩
  -- No other request has the row that this one goes on with.
  have hothers : ∀ p' q' row, p' ≠ p → s.requests.get? p' = some q' → q'.pc.row = some row → pc.row ≠ some row := by
    intro p' q' row hne hq' hrow' hpc
    rcases hrow row hpc with hmine | hnew
    · exact hne (h.apart p' p q' q row hq' hq hrow' hmine)
    · have := (h.fits p' q' hq').row_lt hrow'
      omega
  refine ⟨htables, fun p' q' hp' => ?_, fun p₁ p₂ q₁ q₂ row h₁ h₂ hr₁ hr₂ => ?_⟩
  · rcases hget p' q' hp' with ⟨-, rfl⟩ | ⟨hne, hq'⟩
    · exact hfits
    · refine (h.fits p' q' hq').frame hframe fun row hrow' ho => hne ?_
      exact h.apart p' p q' q row hq' hq hrow' (hown row ho)
  · rcases hget p₁ q₁ h₁ with ⟨rfl, rfl⟩ | ⟨hne₁, hq₁⟩ <;> rcases hget p₂ q₂ h₂ with ⟨rfl, rfl⟩ | ⟨hne₂, hq₂⟩
    · rfl
    · exact absurd hr₁ (hothers p₂ q₂ row hne₂ hq₂ hr₂)
    · exact absurd hr₂ (hothers p₁ q₁ row hne₁ hq₁ hr₁)
    · exact h.apart p₁ p₂ q₁ q₂ row hq₁ hq₂ hr₁ hr₂

/-! ### What the writes do to the tables -/

/-- The rows that a transaction sees. -/
theorem get?_visible {expired : Option ℕ} {id : ℕ} {row : ApiIdempotency} :
    (s.visible expired).get? id = some row ↔ s.rows.get? id = some row ∧ expired ≠ some id := by
  rcases expired with _ | x
  · simp [visible]
  · change (s.rows.erase x).get? id = some row ↔ _
    rw [Table.get?_erase]
    split_ifs with he
    · simp [he]
    · simp [he, eq_comm]

theorem Tables.visible_nextRow (h : s.Tables) (expired : Option ℕ) : (s.visible expired).get? s.nextRow = none := by
  rcases hg : (s.visible expired).get? s.nextRow with _ | row
  · rfl
  · exact absurd (h.rowIds _ row (get?_visible.mp hg).1) (lt_irrefl _)

theorem Tables.orders_nextOrder (h : s.Tables) : s.orders.get? s.nextOrder = none := by
  rcases hg : s.orders.get? s.nextOrder with _ | order
  · rfl
  · exact absurd (h.orderIds _ order hg) (lt_irrefl _)

theorem rows_freeKey {p row id : ℕ} {r : ApiIdempotency} :
    (s.freeKey p row).rows.get? id = some r ↔ id ≠ row ∧ s.rows.get? id = some r := by
  change (s.rows.erase row).get? id = some r ↔ _
  rw [Table.get?_erase]
  split_ifs with he <;> simp [he]

/-- A row is as it was, or it is the one on which the order is recorded. -/
theorem rows_recordOrder {p row o id : ℕ} {r' : ApiIdempotency} (h : (s.recordOrder p row o).rows.get? id = some r') :
    ∃ r, s.rows.get? id = some r ∧ r.call = r'.call ∧ r'.reservedAmount = r.reservedAmount ∧
      (id = row ∧ r' = { r with statusCode := some 201, orderId := some o } ∨ id ≠ row ∧ r' = r) := by
  change (s.rows.modify row _).get? id = some r' at h
  rw [Table.get?_modify] at h
  split_ifs at h with he
  · obtain ⟨r, hr, rfl⟩ := Option.map_eq_some_iff.mp h
    exact ⟨r, hr, rfl, rfl, .inl ⟨he, rfl⟩⟩
  · exact ⟨r', h, rfl, rfl, .inr ⟨he, rfl⟩⟩

/-- An order is as it was, or it has been refunded. -/
theorem orders_refund {o o' : ℕ} {amount : ℤ} {order' : Order}
    (h : (s.orders.modify o fun r => { r with refundedAmount := r.refundedAmount + amount }).get? o' = some order') :
    ∃ order, s.orders.get? o' = some order ∧ order.row = order'.row ∧ order.call = order'.call ∧
      (o' = o ∧ order' = { order with refundedAmount := order.refundedAmount + amount } ∨ o' ≠ o ∧ order' = order) := by
  rw [Table.get?_modify] at h
  split_ifs at h with he
  · obtain ⟨order, ho, rfl⟩ := Option.map_eq_some_iff.mp h
    exact ⟨order, ho, rfl, rfl, .inl ⟨he, rfl⟩⟩
  · exact ⟨order', h, rfl, rfl, .inr ⟨he, rfl⟩⟩

/-! ### The steps -/

theorem Invariant.tick (h : s.Invariant) {now : ℤ} (hnow : s.now ≤ now) :
    ({ s with now := now } : State).Invariant := by
  have hframe : Frame s { s with now := now } none :=
    { Frame.refl s with
      now := hnow
      stay := fun id row hrow _ => .inr hrow }
  refine ⟨{ h.tables with kept := fun o order ho => ?_ }, fun p q hq => ?_, h.apart⟩
  · obtain ⟨hlt, hlate | hold | hrow⟩ := h.tables.kept o order ho
    · exact ⟨hlt, .inl hlate⟩
    · exact ⟨hlt, .inr (.inl (by change _ < now - _; omega))⟩
    · exact ⟨hlt, .inr (.inr hrow)⟩
  · exact (h.fits p q hq).frame hframe fun _ _ => by simp

theorem Invariant.arrive (h : s.Invariant) {p : ℕ} {q : Request} (hp : s.requests.get? p = none)
    (hpc : q.pc = .looking ∨ q.pc = .done .invalidRequest) :
    ({ s with requests := s.requests.insert p q } : State).Invariant := by
  have hframe : Frame s { s with requests := s.requests.insert p q } none :=
    { Frame.refl s with }
  have hnone : q.pc.row = none := by rcases hpc with hpc | hpc <;> rw [hpc] <;> rfl
  have hget : ∀ p' q', (s.requests.insert p q).get? p' = some q' → q' = q ∨ s.requests.get? p' = some q' :=
    fun _ _ hp' => (Table.get?_of_insert hp hp').imp_left And.right
  refine ⟨{ h.tables with }, fun p' q' hp' => ?_, fun p₁ p₂ q₁ q₂ row h₁ h₂ hr₁ hr₂ => ?_⟩
  · rcases hget p' q' hp' with rfl | hq'
    · rw [Fits.eq_def]
      rcases hpc with hpc | hpc <;> rw [hpc] <;> trivial
    · exact (h.fits p' q' hq').frame hframe fun _ _ => by simp
  · rcases hget p₁ q₁ h₁ with rfl | hq₁
    · rw [hnone] at hr₁
      cases hr₁
    · rcases hget p₂ q₂ h₂ with rfl | hq₂
      · rw [hnone] at hr₂
        cases hr₂
      · exact h.apart p₁ p₂ q₁ q₂ row hq₁ hq₂ hr₁ hr₂

variable {dailySpendLimit : ℕ → Option ℤ}

/-- Where a request goes on without writing it has no new row. -/
theorem Turn.row {q : Request} {pc : Pc} (h : s.Turn dailySpendLimit q pc) {row : ℕ} (hrow : pc.row = some row) :
    q.pc.row = some row := by
  cases pc with
  | recording r o =>
    rw [show q.pc = .charged r o from h]
    exact hrow
  | freeing r =>
    rw [show q.pc = .checkout r from h]
    exact hrow
  | done answer =>
    cases answer with
    | freed r => exact absurd rfl (h.2 r)
    | _ => cases hrow
  | _ => first | exact absurd h id | cases hrow

theorem Turn.fits {q : Request} {pc : Pc} (h : s.Turn dailySpendLimit q pc) (ht : s.Tables) (hq : s.Fits q) :
    s.Fits { q with pc := pc } := by
  obtain ⟨call, pc₀⟩ := q
  cases pc with
  | planning expired =>
    intro id hid
    obtain ⟨row, hrow, hold⟩ := h.2 id hid
    refine ⟨ht.rowIds id row hrow, fun row' hrow' => ?_⟩
    obtain rfl := Option.some.inj (hrow.symm.trans hrow')
    exact hold
  | limiting expired e =>
    obtain rfl : pc₀ = .planning expired := h
    exact hq
  | locked expired e =>
    obtain rfl : pc₀ = .limiting expired e := h.1
    exact hq
  | inserting expired e =>
    obtain rfl : pc₀ = .locked expired e := h.1
    exact hq
  | recording r o =>
    obtain rfl : pc₀ = .charged r o := h
    exact hq
  | freeing r =>
    obtain rfl : pc₀ = .checkout r := h
    obtain ⟨hlt, hholds, hnot⟩ := hq
    exact ⟨hlt, hholds, fun hp => absurd hp hnot, fun hl => absurd (ht.late r hl) hnot⟩
  | done answer =>
    cases answer with
    | replayedOrder o =>
      obtain ⟨id, row, hrow, ho, hkey, hidem, hhash⟩ := h.1 o rfl
      obtain ⟨order, horder, -, hcall⟩ := ht.recorded id row o hrow ho
      exact ⟨order, horder, by rw [hcall]; exact hkey, by rw [hcall]; exact hidem, by rw [hcall]; exact hhash⟩
    | freed r => exact absurd rfl (h.2 r)
    | _ => exact trivial
  | lost => exact trivial
  | _ => exact absurd h id

theorem Invariant.turn (h : s.Invariant) {p : ℕ} {q : Request} {pc : Pc} (hq : s.requests.get? p = some q)
    (hturn : s.Turn dailySpendLimit q pc) : (s.goto p pc).Invariant := by
  have hfits : s.Fits { q with pc := pc } := hturn.fits h.tables (h.fits p q hq)
  have hframe : Frame s (s.goto p pc) none := { Frame.refl s with }
  refine h.moves hq rfl rfl hframe (fun _ ho => by cases ho) (fun row hrow => .inl (hturn.row hrow))
    { h.tables with } (hfits.frame hframe fun _ _ => by simp)

theorem Invariant.claim (h : s.Invariant) {p : ℕ} {q : Request} {expired : Option ℕ} {expected : ℤ}
    (hq : s.requests.get? p = some q) (hpc : q.pc = .inserting expired expected)
    (hfree : findRow (s.visible expired) q.call.apiKeyId q.call.idemKey = none) :
    (s.claim p q expired expected).Invariant := by
  have hold : ∀ id, expired = some id → id < s.nextRow ∧
      ∀ row, s.rows.get? id = some row → row.createdAt < s.now - idempotencyTtl := h.knows hq hpc
  let new : ApiIdempotency := ⟨q.call.apiKeyId, q.call.idemKey, q.call.requestHash, expected, none, none, q.call.since⟩
  have hfresh := h.tables.visible_nextRow expired
  have hrows : ∀ id row, (s.claim p q expired expected).rows.get? id = some row →
      id = s.nextRow ∧ row = new ∨ (s.visible expired).get? id = some row :=
    fun _ _ => Table.get?_of_insert hfresh
  have hstay : ∀ id row, s.rows.get? id = some row →
      row.createdAt < s.now - idempotencyTtl ∨ (s.claim p q expired expected).rows.get? id = some row := by
    intro id row hrow
    by_cases hx : expired = some id
    · exact .inl ((hold id hx).2 row hrow)
    · exact .inr (Table.stay_insert hfresh _ (get?_visible.mpr ⟨hrow, hx⟩))
  have hframe : Frame s (s.claim p q expired expected) none :=
    { Frame.refl s with
      next := Nat.le_succ _
      rows := fun id row' hrow' hlt => by
        rcases hrows id row' hrow' with ⟨he, -⟩ | hv
        · omega
        · exact ⟨row', (get?_visible.mp hv).1, rfl, fun _ => rfl⟩
      stay := fun id row hrow _ => hstay id row hrow }
  have htables : (s.claim p q expired expected).Tables :=
    { h.tables with
      rowIds := fun id row hrow => by
        change id < s.nextRow + 1
        rcases hrows id row hrow with ⟨rfl, -⟩ | hv
        · omega
        · have := h.tables.rowIds id row (get?_visible.mp hv).1
          omega
      unique := fun id id' row row' hrow hrow' hkey hidem => by
        rcases hrows id row hrow with ⟨rfl, rfl⟩ | hv <;> rcases hrows id' row' hrow' with ⟨rfl, rfl⟩ | hv'
        · rfl
        · exact absurd ⟨hkey.symm, hidem.symm⟩ (ne_of_findRow_eq_none hfree hv')
        · exact absurd ⟨hkey, hidem⟩ (ne_of_findRow_eq_none hfree hv)
        · exact h.tables.unique id id' row row' (get?_visible.mp hv).1 (get?_visible.mp hv').1 hkey hidem
      recorded := fun id row o hrow ho => by
        rcases hrows id row hrow with ⟨-, rfl⟩ | hv
        · cases ho
        · exact h.tables.recorded id row o (get?_visible.mp hv).1 ho
      kept := fun o order ho => by
        obtain ⟨hlt, hrest⟩ := h.tables.kept o order ho
        refine ⟨hlt.trans (Nat.lt_succ_self _), ?_⟩
        rcases hrest with hlate | hpast | ⟨row, hrow, hcall⟩
        · exact .inl hlate
        · exact .inr (.inl hpast)
        · rcases hstay order.row row hrow with hpast | hrow'
          · exact .inr (.inl (by rw [← hcall]; exact hpast))
          · exact .inr (.inr ⟨row, hrow', hcall⟩) }
  refine h.moves hq hpc rfl hframe (fun _ ho => by cases ho) (fun row hrow => .inr ?_) htables ?_
  · obtain rfl := Option.some.inj hrow
    exact le_rfl
  · have hself : (s.claim p q expired expected).rows.get? s.nextRow = some new := Table.get?_insert_self hfresh _
    refine ⟨Nat.lt_succ_self _, ⟨fun r hr => ?_, .inr ⟨new, hself⟩⟩, ?_⟩
    · obtain rfl := Option.some.inj (hself.symm.trans hr)
      exact ⟨rfl, rfl⟩
    rintro ⟨o, order, ho, hrow⟩
    have := (h.tables.kept o order ho).1
    omega

theorem Invariant.place (h : s.Invariant) {p : ℕ} {q : Request} {row : ℕ} (total refunded : ℤ)
    (hq : s.requests.get? p = some q) (hpc : q.pc = .checkout row) : (s.place p q row total refunded).Invariant := by
  obtain ⟨hlt, hholds, hnot⟩ := h.knows hq hpc
  let new : Order := ⟨total, refunded, row, q.call⟩
  have hfresh := h.tables.orders_nextOrder
  have horders : ∀ o order, (s.place p q row total refunded).orders.get? o = some order →
      o = s.nextOrder ∧ order = new ∨ s.orders.get? o = some order := fun _ _ => Table.get?_of_insert hfresh
  have hstay : ∀ o order, s.orders.get? o = some order →
      (s.place p q row total refunded).orders.get? o = some order := fun _ _ => Table.stay_insert hfresh _
  have hframe : Frame s (s.place p q row total refunded) (some row) :=
    { Frame.refl s with
      orders := fun o order ho => ⟨order, hstay o order ho, rfl, rfl⟩
      origin := fun o order ho => by
        rcases horders o order ho with ⟨-, rfl⟩ | ho'
        · exact .inl rfl
        · exact .inr ⟨order, ho', rfl⟩ }
  have htables : (s.place p q row total refunded).Tables :=
    { h.tables with
      orderIds := fun o order ho => by
        change o < s.nextOrder + 1
        rcases horders o order ho with ⟨rfl, -⟩ | ho'
        · omega
        · have := h.tables.orderIds o order ho'
          omega
      recorded := fun id r o hr ho => by
        obtain ⟨order, horder, hrest⟩ := h.tables.recorded id r o hr ho
        exact ⟨order, hstay o order horder, hrest⟩
      kept := fun o order ho => by
        rcases horders o order ho with ⟨-, rfl⟩ | ho'
        · refine ⟨hlt, .inr ?_⟩
          rcases hholds.2 with hpast | ⟨r, hr⟩
          · exact .inl hpast
          · exact .inr ⟨r, hr, (hholds.1 r hr).1⟩
        · exact h.tables.kept o order ho'
      single := fun o o' order order' ho ho' hrow => by
        rcases horders o order ho with ⟨rfl, rfl⟩ | hold <;> rcases horders o' order' ho' with ⟨rfl, rfl⟩ | hold'
        · rfl
        · exact absurd ⟨o', order', hold', hrow.symm⟩ hnot
        · exact absurd ⟨o, order, hold, hrow⟩ hnot
        · exact h.tables.single o o' order order' hold hold' hrow
      late := fun r hr => by
        obtain ⟨o, order, ho, hrow⟩ := h.tables.late r hr
        exact ⟨o, order, hstay o order ho, hrow⟩ }
  exact h.moves hq hpc rfl hframe (fun _ hr => hr) (fun _ hr => .inl hr) htables
    ⟨hlt, hholds, new, Table.get?_insert_self hfresh _, rfl, rfl⟩

theorem Invariant.raiseLate (h : s.Invariant) {p : ℕ} {q : Request} {row o : ℕ} (hq : s.requests.get? p = some q)
    (hpc : q.pc = .charged row o) : ({ s with late := row :: s.late }.goto p (.freeing row) : State).Invariant := by
  obtain ⟨hlt, hholds, order, ho, hrow, -⟩ := h.knows hq hpc
  have hframe : Frame s ({ s with late := row :: s.late }.goto p (.freeing row)) (some row) :=
    { Frame.refl s with
      late := fun r hr => by
        change r ∈ row :: s.late ↔ r ∈ s.late
        rw [List.mem_cons]
        exact or_iff_right fun he => hr (congrArg some he.symm) }
  have htables : ({ s with late := row :: s.late }.goto p (.freeing row) : State).Tables :=
    { h.tables with
      kept := fun o order ho => by
        obtain ⟨hlt', hlate | hrest⟩ := h.tables.kept o order ho
        · exact ⟨hlt', .inl (List.mem_cons_of_mem _ hlate)⟩
        · exact ⟨hlt', .inr hrest⟩
      late := fun r hr => by
        rcases List.mem_cons.mp hr with rfl | hr
        · exact ⟨o, order, ho, hrow⟩
        · exact h.tables.late r hr }
  exact h.moves hq hpc rfl hframe (fun _ hr => hr) (fun _ hr => .inl hr) htables
    ⟨hlt, hholds, iff_of_true ⟨o, order, ho, hrow⟩ List.mem_cons_self⟩

theorem Invariant.free (h : s.Invariant) {p : ℕ} {q : Request} {row : ℕ} (hq : s.requests.get? p = some q)
    (hpc : q.pc = .freeing row) : (s.freeKey p row).Invariant := by
  obtain ⟨hlt, -, hlate⟩ := h.knows hq hpc
  have hframe : Frame s (s.freeKey p row) (some row) :=
    { Frame.refl s with
      rows := fun id r hr _ => ⟨r, (rows_freeKey.mp hr).2, rfl, fun _ => rfl⟩
      stay := fun id r hr hne => .inr (rows_freeKey.mpr ⟨fun he => hne (congrArg some he.symm), hr⟩) }
  have htables : (s.freeKey p row).Tables :=
    { h.tables with
      rowIds := fun id r hr => h.tables.rowIds id r (rows_freeKey.mp hr).2
      unique := fun id id' r r' hr hr' => h.tables.unique id id' r r' (rows_freeKey.mp hr).2 (rows_freeKey.mp hr').2
      recorded := fun id r o hr => h.tables.recorded id r o (rows_freeKey.mp hr).2
      kept := fun o order ho => by
        obtain ⟨hlt', hrest⟩ := h.tables.kept o order ho
        refine ⟨hlt', ?_⟩
        by_cases he : order.row = row
        · exact .inl (he ▸ hlate.mp ⟨o, order, ho, he⟩)
        · rcases hrest with hl | hpast | ⟨r, hr, hcall⟩
          · exact .inl hl
          · exact .inr (.inl hpast)
          · exact .inr (.inr ⟨r, rows_freeKey.mpr ⟨he, hr⟩, hcall⟩) }
  exact h.moves hq hpc rfl hframe (fun _ hr => hr) (fun _ hr => .inl hr) htables ⟨hlt, hlate⟩

theorem Invariant.record (h : s.Invariant) {p : ℕ} {q : Request} {row o : ℕ} (hq : s.requests.get? p = some q)
    (hpc : q.pc = .recording row o) : (s.recordOrder p row o).Invariant := by
  obtain ⟨-, hholds, order, horder, hrow, hcall⟩ := h.knows hq hpc
  let write : ApiIdempotency → ApiIdempotency := fun r => { r with statusCode := some 201, orderId := some o }
  have hget : ∀ id, (s.recordOrder p row o).rows.get? id =
      if id = row then (s.rows.get? id).map write else s.rows.get? id := fun id => Table.get?_modify s.rows row id write
  have hframe : Frame s (s.recordOrder p row o) (some row) :=
    { Frame.refl s with
      rows := fun id r' hr' _ => by
        obtain ⟨r, hr, hc, -, hcase⟩ := rows_recordOrder hr'
        refine ⟨r, hr, hc, fun hne => ?_⟩
        rcases hcase with ⟨he, -⟩ | ⟨-, he⟩
        · exact absurd (congrArg some he.symm) hne
        · exact he.symm
      stay := fun id r hr hne => .inr (by
        rw [hget, if_neg fun he => hne (congrArg some he.symm)]
        exact hr) }
  have htables : (s.recordOrder p row o).Tables :=
    { h.tables with
      rowIds := fun id r' hr' => by
        obtain ⟨r, hr, -⟩ := rows_recordOrder hr'
        exact h.tables.rowIds id r hr
      unique := fun id id' r₁ r₂ hr₁ hr₂ hkey hidem => by
        obtain ⟨r, hr, hc, -⟩ := rows_recordOrder hr₁
        obtain ⟨r', hr', hc', -⟩ := rows_recordOrder hr₂
        refine h.tables.unique id id' r r' hr hr' ?_ ?_
        · exact (congrArg Call.apiKeyId hc).trans (hkey.trans (congrArg Call.apiKeyId hc').symm)
        · exact (congrArg Call.idemKey hc).trans (hidem.trans (congrArg Call.idemKey hc').symm)
      recorded := fun id r' o' hr' ho' => by
        obtain ⟨r, hr, hc, -, ⟨rfl, rfl⟩ | ⟨-, rfl⟩⟩ := rows_recordOrder hr'
        · obtain rfl := Option.some.inj ho'
          exact ⟨order, horder, hrow, hcall.trans ((hholds.1 r hr).1.symm.trans hc)⟩
        · exact h.tables.recorded id _ o' hr ho'
      kept := fun o' order' ho' => by
        obtain ⟨hlt', hrest⟩ := h.tables.kept o' order' ho'
        refine ⟨hlt', ?_⟩
        rcases hrest with hl | hpast | ⟨r, hr, hc⟩
        · exact .inl hl
        · exact .inr (.inl hpast)
        · refine .inr (.inr ?_)
          by_cases he : order'.row = row
          · exact ⟨write r, by rw [hget, if_pos he, hr]; rfl, hc⟩
          · exact ⟨r, by rw [hget, if_neg he, hr], hc⟩ }
  exact h.moves hq hpc rfl hframe (fun _ hr => hr) (fun r hr => by cases hr) htables trivial

theorem Invariant.refund (h : s.Invariant) (o : ℕ) (amount : ℤ) :
    ({ s with orders := s.orders.modify o fun r => { r with refundedAmount := r.refundedAmount + amount } } :
      State).Invariant := by
  let write : Order → Order := fun r => { r with refundedAmount := r.refundedAmount + amount }
  let s' : State := { s with orders := s.orders.modify o write }
  have hget : ∀ o', s'.orders.get? o' = if o' = o then (s.orders.get? o').map write else s.orders.get? o' :=
    fun o' => Table.get?_modify s.orders o o' write
  have hstay : ∀ o' old, s.orders.get? o' = some old →
      ∃ order', s'.orders.get? o' = some order' ∧ order'.row = old.row ∧ order'.call = old.call := by
    intro o' old hold
    by_cases he : o' = o
    · exact ⟨write old, by rw [hget, if_pos he, hold]; rfl, rfl, rfl⟩
    · exact ⟨old, by rw [hget, if_neg he, hold], rfl, rfl⟩
  have hframe : Frame s s' none :=
    { Frame.refl s with
      orders := hstay
      origin := fun o' order' ho' => by
        obtain ⟨old, hold, hrow, -⟩ := orders_refund ho'
        exact .inr ⟨old, hold, hrow⟩ }
  have htables : s'.Tables :=
    { h.tables with
      orderIds := fun o' order' ho' => by
        obtain ⟨old, hold, -⟩ := orders_refund ho'
        exact h.tables.orderIds o' old hold
      recorded := fun id r o' hr ho' => by
        obtain ⟨old, hold, hrow, hcall⟩ := h.tables.recorded id r o' hr ho'
        obtain ⟨order', ho', hrow', hcall'⟩ := hstay o' old hold
        exact ⟨order', ho', hrow'.trans hrow, hcall'.trans hcall⟩
      kept := fun o' order' ho' => by
        obtain ⟨old, hold, hrow, hcall, -⟩ := orders_refund ho'
        rw [← hrow, ← hcall]
        exact h.tables.kept o' old hold
      single := fun o₁ o₂ order₁ order₂ h₁ h₂ hrow => by
        obtain ⟨old₁, hold₁, hrow₁, -⟩ := orders_refund h₁
        obtain ⟨old₂, hold₂, hrow₂, -⟩ := orders_refund h₂
        exact h.tables.single o₁ o₂ old₁ old₂ hold₁ hold₂ (hrow₁.trans (hrow.trans hrow₂.symm))
      late := fun r hr => (hframe.placed_iff (by simp)).mpr (h.tables.late r hr) }
  exact ⟨htables, fun p q hq => (h.fits p q hq).frame hframe fun _ _ => by simp, h.apart⟩

/-! ### Every run -/

theorem Invariant.moved (h : s.Invariant) {e : Event} (hmoved : Moved dailySpendLimit s e s') : s'.Invariant := by
  cases hmoved with
  | ticked now hnow => exact h.tick hnow
  | arrived p q hp hpc => exact h.arrive hp hpc
  | turned p q pc hq hturn => exact h.turn hq hturn
  | claimed p q expired expected hq hpc hfree => exact h.claim hq hpc hfree
  | placed p q row total refunded hq hpc => exact h.place total refunded hq hpc
  | raisedLate p q row o hq hpc => exact h.raiseLate hq hpc
  | freed p q row hq hpc => exact h.free hq hpc
  | recorded p q row o hq hpc => exact h.record hq hpc
  | refunded o order amount => exact h.refund o amount

theorem get?_initial (now : ℤ) : (∀ id row, (initial now).rows.get? id ≠ some row) ∧
    (∀ o order, (initial now).orders.get? o ≠ some order) ∧ ∀ p q, (initial now).requests.get? p ≠ some q :=
  ⟨fun id row => by simp [initial], fun o order => by simp [initial], fun p q => by simp [initial]⟩

theorem invariant_initial (now : ℤ) : (initial now).Invariant := by
  obtain ⟨hrows, horders, hrequests⟩ := get?_initial now
  refine ⟨?_, fun p q h => absurd h (hrequests p q), fun p _ q _ _ h => absurd h (hrequests p q)⟩
  exact
    { rowIds := fun id row h => absurd h (hrows id row)
      orderIds := fun o order h => absurd h (horders o order)
      unique := fun id _ row _ h => absurd h (hrows id row)
      recorded := fun id row _ h => absurd h (hrows id row)
      kept := fun o order h => absurd h (horders o order)
      single := fun o _ order _ h => absurd h (horders o order)
      late := fun row h => absurd h List.not_mem_nil }

end State

variable {printable : Char → Bool} {dailySpendLimit : ℕ → Option ℤ} {may : State → Event → Prop} {s : State}

theorem State.Invariant.runs {now : ℤ} (h : (machine printable dailySpendLimit).Runs may (.initial now) s) :
    s.Invariant :=
  h.invariant (fun _ _ _ hs _ hstep => hs.moved (moved_of_step hstep)) (State.invariant_initial now)

/-- **One order for an `Idempotency-Key`.** Two orders of the last 24 hours under one key of an API key are the
same order, unless the checkout of one of them raised after its commit; a replayed order was placed by the
same API key under the same key with the same body; and a key that was freed belongs to no order, unless
its checkout raised after its commit. -/
theorem one_order_per_idempotency_key {now : ℤ}
    (h : (machine printable dailySpendLimit).Runs (fun _ _ => True) (.initial now) s) :
    (∀ o o' order order', s.orders.get? o = some order → s.orders.get? o' = some order' →
      order.call.apiKeyId = order'.call.apiKeyId → order.call.idemKey = order'.call.idemKey →
      s.now - idempotencyTtl ≤ order.call.since → s.now - idempotencyTtl ≤ order'.call.since →
      order.row ∉ s.late → order'.row ∉ s.late → o = o') ∧
    (∀ p q o, s.requests.get? p = some q → q.pc = .done (.replayedOrder o) →
      ∃ order, s.orders.get? o = some order ∧ order.call.apiKeyId = q.call.apiKeyId ∧
        order.call.idemKey = q.call.idemKey ∧ order.call.requestHash = q.call.requestHash) ∧
    (∀ p q row, s.requests.get? p = some q → q.pc = .done (.freed row) →
      ((∃ o order, s.orders.get? o = some order ∧ order.row = row) ↔ row ∈ s.late)) := by
  have hinv := State.Invariant.runs h
  refine ⟨fun o o' order order' ho ho' hkey hidem hsince hsince' hlate hlate' => ?_, fun p q o hq hpc => ?_,
    fun p q row hq hpc => ?_⟩
  -- Both rows are still there, and the unique constraint makes them one.
  · have hrow : ∀ o order, s.orders.get? o = some order → s.now - idempotencyTtl ≤ order.call.since →
        order.row ∉ s.late → ∃ row, s.rows.get? order.row = some row ∧ row.call = order.call := by
      intro o order ho hsince hlate
      obtain ⟨-, hl | hpast | hrow⟩ := hinv.tables.kept o order ho
      · exact absurd hl hlate
      · omega
      · exact hrow
    obtain ⟨row, hget, hcall⟩ := hrow o order ho hsince hlate
    obtain ⟨row', hget', hcall'⟩ := hrow o' order' ho' hsince' hlate'
    refine hinv.tables.single o o' order order' ho ho' (hinv.tables.unique _ _ row row' hget hget' ?_ ?_)
    · exact (congrArg Call.apiKeyId hcall).trans (hkey.trans (congrArg Call.apiKeyId hcall').symm)
    · exact (congrArg Call.idemKey hcall).trans (hidem.trans (congrArg Call.idemKey hcall').symm)
  · have hfits := hinv.fits p q hq
    rw [State.Fits.eq_def, hpc] at hfits
    exact hfits
  · have hfits := hinv.fits p q hq
    rw [State.Fits.eq_def, hpc] at hfits
    exact hfits.2

/-- A request whose checkout raised after its commit, one that came again with the same key and one that replays
its order. -/
def lateRun : List Event :=
  [.arrive 0 7 (some "k") "" "h", .look 0, .plan 0 5, .lockKey 0, .checkLimit 0, .insertRow 0, .charge 0 5 0, .raise 0,
    .free 0, .arrive 1 7 (some " k ") "" "h", .look 1, .plan 1 5, .lockKey 1, .checkLimit 1, .insertRow 1, .charge 1 5 0,
    .returnOrder 1, .record 1, .arrive 2 7 (some "k") "" "h", .look 2]

theorem one_order_per_idempotency_key_sample :
    ∃ s : State, s.late = [0] ∧ s.orders.rows.length = 2 ∧ ∃ order, s.orders.get? 1 = some order ∧
      order.call.apiKeyId = 7 ∧ order.call.idemKey = "k" ∧ order.call.requestHash = "h" := by
  obtain ⟨s, hrun, hlate, hrows, hq⟩ : ∃ s, (machine (fun _ => true) fun _ => some 100).Runs (fun _ _ => True)
      (.initial 0) s ∧ s.late = [0] ∧ s.orders.rows.length = 2 ∧
      s.requests.get? 2 = some ⟨⟨7, "k", "h", 0⟩, .done (.replayedOrder 1)⟩ :=
    EventMachine.exists_of_play (fun _ _ => true) (fun _ _ _ => trivial) lateRun (by decide)
  exact ⟨s, hlate, hrows, (one_order_per_idempotency_key hrun).2.1 2 _ 1 hq rfl⟩

end Marketplace.PublicApi
