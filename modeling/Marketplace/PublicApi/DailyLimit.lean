import Marketplace.PublicApi.Idempotency
import Marketplace.Sql.Sums

/-!
# The daily limit of an API key

What the orders of a key have kept of their prices today and what is reserved for its requests in flight
is at most `spent_today`, which is at most the key's limit: in every run in which no checkout charges more than
was reserved for it, and none raises after its commit (`spending_le_limit`).

The lock on the key's row makes the comparison and the reservation one step: while one request holds it, what the
others do to the key's rows only lowers the sum (`spent_moved`).
-/

namespace Marketplace.PublicApi

open Sql Protocol

/-- The total that the request was quoted, before its row is inserted. -/
def Pc.expected : Pc → Option ℤ
  | .limiting _ expected | .locked _ expected | .inserting _ expected => some expected
  | _ => none

/-- An order was placed under the row. -/
def State.ordered (s : State) (row : ℕ) : Bool := s.orders.rows.any fun r => decide (r.2.row = row)

/-- What the key's orders of the day have kept, and what is reserved for its requests in flight. -/
def State.spending (s : State) (apiKeyId : ℕ) : ℤ :=
  (s.orders.sum fun _ order =>
    if order.call.apiKeyId = apiKeyId ∧ vnDayStart s.now ≤ order.call.since then order.kept else 0) +
  s.rows.sum fun id row =>
    if row.apiKeyId = apiKeyId ∧ vnDayStart s.now ≤ row.createdAt ∧ s.ordered id = false then row.reservedAmount else 0

/-- Quotes are not negative, no checkout charges more than was reserved for it, and none raises after its
commit. -/
def AsQuoted (s : State) : Event → Prop
  | .plan _ expected => 0 ≤ expected
  | .charge p total refunded => 0 ≤ refunded ∧ refunded ≤ total ∧ ∀ q row r, s.requests.get? p = some q →
      q.pc = .checkout row → s.rows.get? row = some r → total ≤ r.reservedAmount
  | .raise p => ∀ q row o, s.requests.get? p = some q → q.pc ≠ .charged row o
  | _ => True

namespace State

/-- The spending of a key that `spent_today` finds now. -/
def spent (s : State) (apiKeyId : ℕ) : ℤ := spentToday s.rows s.orders apiKeyId (vnDayStart s.now)

/-- What the amounts keep. -/
structure Amounts (s : State) : Prop where
  late : s.late = []
  kept : ∀ o order, s.orders.get? o = some order → 0 ≤ order.kept
  reserved : ∀ id row, s.rows.get? id = some row → 0 ≤ row.reservedAmount
  within : ∀ o order row, s.orders.get? o = some order → s.rows.get? order.row = some row →
    order.kept ≤ row.reservedAmount
  expected : ∀ p q e, s.requests.get? p = some q → q.pc.expected = some e → 0 ≤ e

/-- Under the lock of a key there is one request. -/
def Alone (s : State) : Prop :=
  ∀ p p' q q', s.requests.get? p = some q → s.requests.get? p' = some q' → q.pc.holdsLock = true →
    q'.pc.holdsLock = true → q.call.apiKeyId = q'.call.apiKeyId → p = p'

/-- No key is over its limit, nor will be when a request that has been let through inserts its row. -/
structure Limited (dailySpendLimit : ℕ → Option ℤ) (s : State) : Prop where
  spent : ∀ apiKeyId limit, dailySpendLimit apiKeyId = some limit → s.spent apiKeyId ≤ limit
  fits : ∀ p q expired expected limit, s.requests.get? p = some q → q.pc = .inserting expired expected →
    dailySpendLimit q.call.apiKeyId = some limit → s.spent q.call.apiKeyId + expected ≤ limit

variable {dailySpendLimit : ℕ → Option ℤ} {s s' : State}

theorem amount_nonneg (ht : s.Tables) (ha : s.Amounts) {id : ℕ} {row : ApiIdempotency}
    (hrow : s.rows.get? id = some row) :
    0 ≤ row.amount s.orders := by
  rw [ApiIdempotency.amount.eq_def]
  rcases ho : row.orderId with _ | o
  · exact ha.reserved id row hrow
  · obtain ⟨order, horder, -⟩ := ht.recorded id row o hrow ho
    change 0 ≤ ((s.orders.get? o).map Order.kept).getD 0
    rw [horder]
    exact ha.kept o order horder

/-- **Rows that counted before, for as much or more.** -/
theorem spentToday_le {rows rows' : Table ℕ ApiIdempotency} {orders orders' : Table ℕ Order} {apiKeyId : ℕ}
    {day day' : ℤ} (hday : day ≤ day') (hnonneg : ∀ id row, rows.get? id = some row → 0 ≤ row.amount orders)
    (h : ∀ id row', rows'.get? id = some row' → row'.apiKeyId = apiKeyId → day' ≤ row'.createdAt →
      ∃ row, rows.get? id = some row ∧ row.apiKeyId = apiKeyId ∧ row.createdAt = row'.createdAt ∧
        row'.amount orders' ≤ row.amount orders) :
    spentToday rows' orders' apiKeyId day' ≤ spentToday rows orders apiKeyId day := by
  refine Table.sum_le_sum_of_inj (M := ℤ) (fun id _ => id) (fun id row hrow => ?_) (fun id row' hrow' => ?_)
    fun _ _ _ _ _ _ heq => heq
  · split_ifs
    · exact hnonneg id row hrow
    · exact le_rfl
  · split_ifs with hcounts
    · obtain ⟨row, hrow, hkey, hcreated, hle⟩ := h id row' hrow' hcounts.1 hcounts.2
      refine .inr ⟨row, hrow, ?_⟩
      rw [if_pos ⟨hkey, by omega⟩]
      exact hle
    · exact .inl le_rfl

/-- A row that has expired is none of today's. -/
theorem spent_visible {expired : Option ℕ} (hold : ∀ id, expired = some id → id < s.nextRow ∧
      ∀ row, s.rows.get? id = some row → row.createdAt < s.now - idempotencyTtl) (ht : s.Tables) (ha : s.Amounts)
    (apiKeyId : ℕ) : spentToday (s.visible expired) s.orders apiKeyId (vnDayStart s.now) = s.spent apiKeyId := by
  have hday := lt_vnDayStart s.now
  refine le_antisymm (spentToday_le le_rfl (fun id row hrow => amount_nonneg ht ha hrow) ?_)
    (spentToday_le le_rfl (fun id row hrow => amount_nonneg ht ha (get?_visible.mp hrow).1) ?_)
  · intro id row hrow hkey _
    exact ⟨row, (get?_visible.mp hrow).1, hkey, rfl, le_rfl⟩
  · intro id row hrow hkey htoday
    refine ⟨row, get?_visible.mpr ⟨hrow, fun hx => ?_⟩, hkey, rfl, le_rfl⟩
    have := (hold id hx).2 row hrow
    omega

/-! ### The steps -/

/-- What a request that is about to record its order knows of the amounts. -/
theorem recording_amount (h : s.Invariant) (ha : s.Amounts) {p : ℕ} {q : Request} {row o : ℕ}
    (hq : s.requests.get? p = some q) (hpc : q.pc = .recording row o) {r : ApiIdempotency}
    (hr : s.rows.get? row = some r) :
    ∃ order, s.orders.get? o = some order ∧ order.kept ≤ r.reservedAmount ∧ r.orderId = none := by
  obtain ⟨-, hholds, order, horder, hrow, -⟩ := h.knows hq hpc
  exact ⟨order, horder, ha.within o order r horder (hrow ▸ hr), (hholds.1 r hr).2⟩

/-- A new order is none that a row names. -/
theorem amount_place (ht : s.Tables) {p : ℕ} {q : Request} {row : ℕ} {total refunded : ℤ} {id : ℕ}
    {r : ApiIdempotency} (hr : s.rows.get? id = some r) :
    r.amount (s.place p q row total refunded).orders = r.amount s.orders := by
  rw [ApiIdempotency.amount.eq_def, ApiIdempotency.amount.eq_def]
  rcases ho : r.orderId with _ | o
  · rfl
  · obtain ⟨order, horder, -⟩ := ht.recorded id r o hr ho
    change (((s.place p q row total refunded).orders.get? o).map Order.kept).getD 0 =
      ((s.orders.get? o).map Order.kept).getD 0
    have hstays : (s.place p q row total refunded).orders.get? o = some order :=
      Table.stay_insert ht.orders_nextOrder _ horder
    rw [hstays, horder]

/-- **What a step does to the sum of a key.** Only a reservation raises it, and by what is reserved. -/
theorem spent_moved (h : s.Invariant) (ha : s.Amounts) {e : Event} (hmay : AsQuoted s e)
    (hmoved : Moved dailySpendLimit s e s') :
    (∀ apiKeyId, s'.spent apiKeyId ≤ s.spent apiKeyId) ∨
      ∃ p q expired expected, s.requests.get? p = some q ∧ q.pc = .inserting expired expected ∧
        s' = s.claim p q expired expected ∧
        ∀ apiKeyId, s'.spent apiKeyId ≤ s.spent apiKeyId + if q.call.apiKeyId = apiKeyId then expected else 0 := by
  have hnonneg : ∀ id row, s.rows.get? id = some row → 0 ≤ row.amount s.orders :=
    fun id row hrow => amount_nonneg h.tables ha hrow
  cases hmoved with
  | ticked now hnow =>
    refine .inl fun apiKeyId => spentToday_le (vnDayStart_mono hnow) hnonneg fun id row hrow hkey _ => ?_
    exact ⟨row, hrow, hkey, rfl, le_rfl⟩
  | arrived p q hp hpc => exact .inl fun _ => le_rfl
  | turned p q pc hq hturn => exact .inl fun _ => le_rfl
  | claimed p q expired expected hq hpc hfree =>
    refine .inr ⟨p, q, expired, expected, hq, hpc, rfl, fun apiKeyId => ?_⟩
    have hold := h.knows hq hpc
    have hexpected : 0 ≤ expected := ha.expected p q expected hq (by rw [hpc]; rfl)
    rw [← spent_visible hold h.tables ha apiKeyId]
    refine (Table.sum_insert (M := ℤ) (h.tables.visible_nextRow expired) _ _).trans_le (add_le_add_right ?_ _)
    split_ifs with hcounts hkey hkey
    · exact le_rfl
    · exact absurd hcounts.1 hkey
    · exact hexpected
    · exact le_rfl
  | placed p q row total refunded hq hpc =>
    refine .inl fun apiKeyId => spentToday_le le_rfl hnonneg fun id r hr hkey _ => ⟨r, hr, hkey, rfl, ?_⟩
    exact (amount_place h.tables hr).le
  | raisedLate p q row o hq hpc he =>
    subst he
    exact absurd hpc (hmay q row o hq)
  | freed p q row hq hpc =>
    refine .inl fun apiKeyId => spentToday_le le_rfl hnonneg fun id r hr hkey _ => ?_
    exact ⟨r, (rows_freeKey.mp hr).2, hkey, rfl, le_rfl⟩
  | recorded p q row o hq hpc =>
    refine .inl fun apiKeyId => spentToday_le le_rfl hnonneg fun id r' hr' hkey _ => ?_
    obtain ⟨r, hr, -, -, ⟨rfl, rfl⟩ | ⟨-, rfl⟩⟩ := rows_recordOrder hr'
    -- The reservation is replaced by the order, which has kept no more.
    · refine ⟨r, hr, hkey, rfl, ?_⟩
      obtain ⟨order, horder, hle, hnone⟩ := recording_amount h ha hq hpc hr
      rw [ApiIdempotency.amount.eq_def, ApiIdempotency.amount.eq_def, hnone]
      change ((s.orders.get? o).map Order.kept).getD 0 ≤ r.reservedAmount
      rw [horder]
      exact hle
    · exact ⟨_, hr, hkey, rfl, le_rfl⟩
  | refunded o order amount ho h0 hle =>
    refine .inl fun apiKeyId => spentToday_le le_rfl hnonneg fun id r hr hkey _ => ⟨r, hr, hkey, rfl, ?_⟩
    rw [ApiIdempotency.amount.eq_def, ApiIdempotency.amount.eq_def]
    rcases r.orderId with _ | o'
    · exact le_rfl
    · change ((Table.get? (s.orders.modify o _) o').map Order.kept).getD 0 ≤ ((s.orders.get? o').map Order.kept).getD 0
      rw [Table.get?_modify]
      split_ifs with he
      · rw [he, ho]
        change order.totalAmount - (order.refundedAmount + amount) ≤ order.totalAmount - order.refundedAmount
        omega
      · exact le_rfl

/-- A request that has been quoted a total and not inserted its row stood there before the step, or was moved
there without a write. -/
theorem stood_or_turned {e : Event} (hmoved : Moved dailySpendLimit s e s') {p : ℕ} {q : Request}
    (hq : s'.requests.get? p = some q) (hpc : q.pc.expected ≠ none) :
    s.requests.get? p = some q ∨
      ∃ q₀, s.requests.get? p = some q₀ ∧ q₀.call = q.call ∧ s' = s.goto p q.pc ∧
        s.Turn dailySpendLimit q₀ q.pc ∧ ∀ x y, q.pc = .limiting x y → e = .plan p y := by
  have hgoto : ∀ p₁ q₁ pc, s.requests.get? p₁ = some q₁ → s'.requests = (s.goto p₁ pc).requests →
      pc.expected = none → s.requests.get? p = some q := by
    intro p₁ q₁ pc hq₁ hs' hnone
    rw [hs', requests_goto s p₁ pc hq₁] at hq
    split_ifs at hq
    · obtain rfl := Option.some.inj hq
      exact absurd hnone hpc
    · exact hq
  cases hmoved with
  | ticked now hnow => exact .inl hq
  | arrived p₁ q₁ hp₁ hpc₁ =>
    rcases Table.get?_of_insert hp₁ hq with ⟨-, rfl⟩ | hold
    · rcases hpc₁ with hpc₁ | hpc₁ <;> exact absurd (by rw [hpc₁]; rfl) hpc
    · exact .inl hold
  | turned p₁ q₁ pc hq₁ hturn hplan =>
    rw [requests_goto s p₁ pc hq₁] at hq
    split_ifs at hq with he
    · obtain rfl := Option.some.inj hq
      subst he
      exact .inr ⟨q₁, hq₁, rfl, rfl, hturn, hplan⟩
    · exact .inl hq
  | claimed p₁ q₁ x e₁ hq₁ => exact .inl (hgoto p₁ q₁ _ hq₁ rfl rfl)
  | placed p₁ q₁ row total refunded hq₁ => exact .inl (hgoto p₁ q₁ _ hq₁ rfl rfl)
  | raisedLate p₁ q₁ row o hq₁ => exact .inl (hgoto p₁ q₁ _ hq₁ rfl rfl)
  | freed p₁ q₁ row hq₁ => exact .inl (hgoto p₁ q₁ _ hq₁ rfl rfl)
  | recorded p₁ q₁ row o hq₁ => exact .inl (hgoto p₁ q₁ _ hq₁ rfl rfl)
  | refunded o order amount => exact .inl hq

theorem Turn.expected (ha : s.Amounts) {p : ℕ} {q : Request} {pc : Pc} {ev : Event}
    (hq : s.requests.get? p = some q) (hmay : AsQuoted s ev) (h : s.Turn dailySpendLimit q pc)
    (hplan : ∀ expired expected, pc = .limiting expired expected → ev = .plan p expected) (e : ℤ)
    (he : pc.expected = some e) : 0 ≤ e := by
  cases pc with
  | limiting expired e' =>
    obtain rfl := Option.some.inj he
    rw [hplan expired e' rfl] at hmay
    exact hmay
  | locked expired e' =>
    obtain rfl := Option.some.inj he
    exact ha.expected p q e' hq (by rw [h.1]; rfl)
  | inserting expired e' =>
    obtain rfl := Option.some.inj he
    exact ha.expected p q e' hq (by rw [h.1]; rfl)
  | _ => cases he

theorem Amounts.moved (h : s.Invariant) (ha : s.Amounts) {e : Event} (hmay : AsQuoted s e)
    (hmoved : Moved dailySpendLimit s e s') : s'.Amounts := by
  have hexpected : ∀ p q x, s'.requests.get? p = some q → q.pc.expected = some x → 0 ≤ x := by
    intro p q x hq hx
    rcases stood_or_turned hmoved hq (by rw [hx]; simp) with hold | ⟨q₀, hq₀, -, -, hturn, hplan⟩
    · exact ha.expected p q x hold hx
    · exact hturn.expected ha hq₀ hmay hplan x hx
  cases hmoved with
  | ticked now hnow => exact { ha with }
  | arrived p q hp hpc => exact { ha with expected := hexpected }
  | turned p q pc hq hturn hplan => exact { ha with expected := hexpected }
  | claimed p q expired expected hq hpc hfree =>
    have hfresh := h.tables.visible_nextRow expired
    refine
      { ha with
        reserved := fun id row hrow => ?_
        within := fun o order row ho hrow => ?_
        expected := hexpected }
    · rcases Table.get?_of_insert hfresh hrow with ⟨-, rfl⟩ | hold
      · exact ha.expected p q expected hq (by rw [hpc]; rfl)
      · exact ha.reserved id row (get?_visible.mp hold).1
    · have hlt := (h.tables.kept o order ho).1
      rcases Table.get?_of_insert hfresh hrow with ⟨he, -⟩ | hold
      · omega
      · exact ha.within o order row ho (get?_visible.mp hold).1
  | placed p q row total refunded hq hpc he =>
    subst he
    obtain ⟨h0, hle, htotal⟩ := hmay
    have hfresh := h.tables.orders_nextOrder
    refine
      { ha with
        kept := fun o order ho => ?_
        within := fun o order r ho hr => ?_
        expected := hexpected }
    · rcases Table.get?_of_insert hfresh ho with ⟨-, rfl⟩ | hold
      · exact sub_nonneg.mpr hle
      · exact ha.kept o order hold
    · rcases Table.get?_of_insert hfresh ho with ⟨-, rfl⟩ | hold
      · have hreserved : total ≤ r.reservedAmount := htotal q row r hq hpc hr
        change total - refunded ≤ r.reservedAmount
        omega
      · exact ha.within o order r hold hr
  | raisedLate p q row o hq hpc he =>
    subst he
    exact absurd hpc (hmay q row o hq)
  | freed p q row hq hpc =>
    exact
      { ha with
        reserved := fun id r hr => ha.reserved id r (rows_freeKey.mp hr).2
        within := fun o order r ho hr => ha.within o order r ho (rows_freeKey.mp hr).2
        expected := hexpected }
  | recorded p q row o hq hpc =>
    refine
      { ha with
        reserved := fun id r' hr' => ?_
        within := fun o' order r' ho hr' => ?_
        expected := hexpected }
    · obtain ⟨r, hr, -, hsame, -⟩ := rows_recordOrder hr'
      rw [hsame]
      exact ha.reserved id r hr
    · obtain ⟨r, hr, -, hsame, -⟩ := rows_recordOrder hr'
      rw [hsame]
      exact ha.within o' order r ho hr
  | refunded o order amount ho h0 hle =>
    refine { ha with kept := fun o' order' ho' => ?_, within := fun o' order' row ho' hrow => ?_ }
    · obtain ⟨old, hold, -, -, ⟨rfl, rfl⟩ | ⟨-, rfl⟩⟩ := orders_refund ho'
      · obtain rfl := Option.some.inj (hold.symm.trans ho)
        change 0 ≤ old.totalAmount - (old.refundedAmount + amount)
        rw [Order.kept] at hle
        omega
      · exact ha.kept o' _ hold
    · obtain ⟨old, hold, -, -, ⟨rfl, rfl⟩ | ⟨-, rfl⟩⟩ := orders_refund ho'
      · have := ha.within o' old row hold hrow
        change old.totalAmount - (old.refundedAmount + amount) ≤ row.reservedAmount
        rw [Order.kept] at this
        omega
      · exact ha.within o' _ row hold hrow

theorem Alone.moved (h : s.Alone) {e : Event} (hmoved : Moved dailySpendLimit s e s') : s'.Alone := by
  -- Who has come to the lock had it, or nobody did; and nobody else has moved.
  have hcame : ∀ p q, s'.requests.get? p = some q → q.pc.holdsLock = true → s.requests.get? p = some q ∨
      ∀ p' q', s'.requests.get? p' = some q' → q'.pc.holdsLock = true → q.call.apiKeyId = q'.call.apiKeyId →
        p = p' := by
    intro p q hq hlock
    rcases stood_or_turned hmoved hq (by rcases hpc : q.pc <;> simp_all [Pc.holdsLock, Pc.expected]) with
      hold | ⟨q₀, hq₀, hcall, hs', hturn, -⟩
    · exact .inl hold
    refine .inr fun p' q' hq' hlock' hkey => ?_
    by_contra hne
    rw [hs', requests_goto s p _ hq₀, if_neg (Ne.symm hne)] at hq'
    have hfree : q₀.pc.holdsLock = true ∨ s.lockFree q₀.call.apiKeyId = true := by
      rcases hpc : q.pc with _ | x | ⟨x, y⟩ | ⟨x, y⟩ | ⟨x, y⟩ | _ | r | ⟨r, o⟩ | ⟨r, o⟩ | r | answer <;>
        rw [hpc] at hlock hturn
      case locked => exact .inr hturn.2
      case inserting => exact .inl (by rw [hturn.1]; rfl)
      all_goals cases hlock
    rcases hfree with hmine | hfree
    · exact hne (h p p' q₀ q' hq₀ hq' hmine hlock' (hcall ▸ hkey))
    · have := List.all_eq_true.mp hfree (p', q') (Table.get?_eq_some_iff.mp hq')
      simp [hcall, hkey, hlock'] at this
  intro p₁ p₂ q₁ q₂ h₁ h₂ hl₁ hl₂ hkey
  rcases hcame p₁ q₁ h₁ hl₁ with hold₁ | hfirst
  · rcases hcame p₂ q₂ h₂ hl₂ with hold₂ | hsecond
    · exact h p₁ p₂ q₁ q₂ hold₁ hold₂ hl₁ hl₂ hkey
    · exact (hsecond p₁ q₁ h₁ hl₁ hkey.symm).symm
  · exact hfirst p₂ q₂ h₂ hl₂ hkey

/-- **Every step keeps every key within its limit.** -/
theorem Limited.moved (h : s.Invariant) (ha : s.Amounts) (halone : s.Alone) (hl : s.Limited dailySpendLimit)
    {e : Event} (hmay : AsQuoted s e) (hmoved : Moved dailySpendLimit s e s') : s'.Limited dailySpendLimit := by
  rcases spent_moved h ha hmay hmoved with hle | ⟨p, q, x, expected, hq, hpc, hs', hle⟩
  · refine ⟨fun k limit hk => (hle k).trans (hl.spent k limit hk), fun p q x expected limit hq hpc hk => ?_⟩
    rcases stood_or_turned hmoved hq (by rw [hpc]; simp [Pc.expected]) with
      hq₀ | ⟨q₀, hq₀, hcall, rfl, hturn, -⟩
    · have := hl.fits p q x expected limit hq₀ hpc hk
      have := hle q.call.apiKeyId
      omega
    · rw [hpc] at hturn
      rw [← hcall] at hk ⊢
      have hold := h.fits p q₀ hq₀
      rw [Fits.eq_def, hturn.1] at hold
      have hlimit := hturn.2 limit hk
      rw [spent_visible hold h.tables ha] at hlimit
      exact hlimit
  · -- The reservation: nobody else is let through under the lock of the key.
    refine ⟨fun k limit hk => ?_, fun p₁ q₁ x₁ e₁ limit hq₁ hpc₁ hk => ?_⟩
    · have hk' := hle k
      split_ifs at hk' with he
      · subst he
        exact hk'.trans (hl.fits p q x expected limit hq hpc hk)
      · have := hl.spent k limit hk
        omega
    · rcases stood_or_turned hmoved hq₁ (by rw [hpc₁]; simp [Pc.expected]) with hold | ⟨q₀, hq₀, -, hgoto, -⟩
      · have hk' := hle q₁.call.apiKeyId
        rw [if_neg] at hk'
        · have := hl.fits p₁ q₁ x₁ e₁ limit hold hpc₁ hk
          omega
        · intro hkey
          have hp := halone p p₁ q q₁ hq hold (by rw [hpc]; rfl) (by rw [hpc₁]; rfl) hkey
          subst hp
          have hmoved' := requests_goto s p (.checkout s.nextRow) hq p
          rw [if_pos rfl] at hmoved'
          rw [hs'] at hq₁
          have := hmoved'.symm.trans hq₁
          obtain rfl := Option.some.inj this
          cases hpc₁
      · have hrows := congrArg State.nextRow (hs'.symm.trans hgoto)
        change s.nextRow + 1 = s.nextRow at hrows
        omega

/-! ### Every run -/

/-- What holds in every state. -/
structure Sound (dailySpendLimit : ℕ → Option ℤ) (s : State) : Prop where
  invariant : s.Invariant
  amounts : s.Amounts
  alone : s.Alone
  limited : s.Limited dailySpendLimit

theorem sound_initial (hlimit : ∀ apiKeyId limit, dailySpendLimit apiKeyId = some limit → 0 ≤ limit) (now : ℤ) :
    (initial now).Sound dailySpendLimit := by
  obtain ⟨hrows, horders, hrequests⟩ := get?_initial now
  refine ⟨invariant_initial now, ?_, fun p _ q _ hq => absurd hq (hrequests p q), ?_⟩
  · exact
      { late := rfl
        kept := fun o order ho => absurd ho (horders o order)
        reserved := fun id row hrow => absurd hrow (hrows id row)
        within := fun o order _ ho => absurd ho (horders o order)
        expected := fun p q _ hq => absurd hq (hrequests p q) }
  · exact ⟨fun k limit hk => hlimit k limit hk, fun p q _ _ _ hq => absurd hq (hrequests p q)⟩

/-- The orders and the reservations of a key are what `spent_today` counts, or less. -/
theorem Sound.spending_le (h : s.Sound dailySpendLimit) (apiKeyId : ℕ) : s.spending apiKeyId ≤ s.spent apiKeyId := by
  have hday := lt_vnDayStart s.now
  have hordered : ∀ id, s.ordered id = true ↔ s.Placed id := by
    intro id
    rw [ordered, List.any_eq_true]
    constructor
    · rintro ⟨r, hr, hrow⟩
      exact ⟨r.1, r.2, Table.get?_eq_some_iff.mpr hr, of_decide_eq_true hrow⟩
    · rintro ⟨o, order, ho, hrow⟩
      exact ⟨(o, order), Table.get?_eq_some_iff.mp ho, decide_eq_true hrow⟩
  -- The rows with an order, and the rows without.
  have hsplit : s.spent apiKeyId =
      (s.rows.sum fun id row => if s.ordered id = true then
        if row.apiKeyId = apiKeyId ∧ vnDayStart s.now ≤ row.createdAt then row.amount s.orders else 0 else 0) +
      s.rows.sum fun id row => if s.ordered id = true then 0 else
        if row.apiKeyId = apiKeyId ∧ vnDayStart s.now ≤ row.createdAt then row.amount s.orders else 0 := by
    rw [← Table.sum_add, spent, spentToday]
    refine Table.sum_congr fun id row _ => ?_
    by_cases ho : s.ordered id = true
    · rw [if_pos ho, if_pos ho, add_zero]
    · rw [if_neg ho, if_neg ho, zero_add]
  rw [hsplit]
  refine add_le_add ?_ (Table.sum_le_sum fun id row hrow => ?_)
  · refine Table.sum_le_sum_of_inj (M := ℤ) (fun _ order => order.row) (fun id row hrow => ?_)
      (fun o order ho => ?_) fun o o' order order' => h.invariant.tables.single o o' order order'
    · split_ifs
      · exact amount_nonneg h.invariant.tables h.amounts hrow
      · exact le_rfl
      · exact le_rfl
    · by_cases hcounts : order.call.apiKeyId = apiKeyId ∧ vnDayStart s.now ≤ order.call.since
      · obtain ⟨-, hlate | hpast | ⟨row, hrow, hcall⟩⟩ := h.invariant.tables.kept o order ho
        · rw [h.amounts.late] at hlate
          cases hlate
        · omega
        · refine .inr ⟨row, hrow, ?_⟩
          have hkey : row.apiKeyId = apiKeyId := (congrArg Call.apiKeyId hcall).trans hcounts.1
          have hsince : row.createdAt = order.call.since := congrArg Call.since hcall
          rw [if_pos hcounts, if_pos ((hordered _).mpr ⟨o, order, ho, rfl⟩), if_pos ⟨hkey, by omega⟩,
            ApiIdempotency.amount.eq_def]
          rcases hnamed : row.orderId with _ | o'
          · exact h.amounts.within o order row ho hrow
          · obtain ⟨order', ho', hrow', -⟩ := h.invariant.tables.recorded order.row row o' hrow hnamed
            obtain rfl := h.invariant.tables.single o' o order' order ho' ho hrow'
            change order.kept ≤ ((s.orders.get? o').map Order.kept).getD 0
            rw [ho]
            exact le_rfl
      · rw [if_neg hcounts]
        exact .inl le_rfl
  · -- A row without an order still holds its reservation.
    by_cases ho : s.ordered id = true
    · rw [if_pos ho, if_neg fun hc => by rw [hc.2.2] at ho; cases ho]
    · rw [if_neg ho]
      split_ifs with h1 h2 h2
      · rw [ApiIdempotency.amount.eq_def]
        rcases hnamed : row.orderId with _ | o
        · exact le_rfl
        · obtain ⟨order, horder, hrow', -⟩ := h.invariant.tables.recorded id row o hrow hnamed
          exact absurd ((hordered id).mpr ⟨o, order, horder, hrow'⟩) ho
      · exact absurd ⟨h1.1, h1.2.1⟩ h2
      · exact amount_nonneg h.invariant.tables h.amounts hrow
      · exact le_rfl

end State

variable {printable : Char → Bool} {dailySpendLimit : ℕ → Option ℤ} {s : State}

/-- **No key spends more than its daily limit**: as long as no checkout charges more than was reserved for it and
none raises after its commit, what the orders of the day have kept and what is reserved for the requests in
flight is at most the limit; and `spent_today` is never less than that. -/
theorem spending_le_limit (hlimit : ∀ apiKeyId limit, dailySpendLimit apiKeyId = some limit → 0 ≤ limit) {now : ℤ}
    (h : (machine printable dailySpendLimit).Runs AsQuoted (.initial now) s) (apiKeyId : ℕ) :
    s.spending apiKeyId ≤ spentToday s.rows s.orders apiKeyId (vnDayStart s.now) ∧
      ∀ limit, dailySpendLimit apiKeyId = some limit → s.spending apiKeyId ≤ limit := by
  have hsound : s.Sound dailySpendLimit := by
    refine h.invariant (fun s e s' hs hmay hstep => ?_) (State.sound_initial hlimit now)
    have hmoved := moved_of_step hstep
    exact ⟨hs.invariant.moved hmoved, hs.amounts.moved hs.invariant hmay hmoved, hs.alone.moved hmoved,
      hs.limited.moved hs.invariant hs.amounts hs.alone hmay hmoved⟩
  exact ⟨hsound.spending_le apiKeyId,
    fun limit hk => (hsound.spending_le apiKeyId).trans (hsound.limited.spent apiKeyId limit hk)⟩

/-- `AsQuoted`, for runs in which nothing raises. -/
def asQuoted (s : State) : Event → Bool
  | .plan _ expected => decide (0 ≤ expected)
  | .charge p total refunded => decide (0 ≤ refunded ∧ refunded ≤ total) && (s.requests.get? p).all fun q =>
      match q.pc with
      | .checkout row => (s.rows.get? row).all fun r => decide (total ≤ r.reservedAmount)
      | _ => true
  | .raise _ => false
  | _ => true

theorem asQuoted_sound (s : State) (e : Event) (h : asQuoted s e = true) : AsQuoted s e := by
  cases e with
  | plan p expected =>
    have h0 : 0 ≤ expected := of_decide_eq_true h
    exact h0
  | charge p total refunded =>
    rw [asQuoted, Bool.and_eq_true] at h
    obtain ⟨hle, hreserved⟩ := h
    have hamounts := of_decide_eq_true hle
    refine ⟨hamounts.1, hamounts.2, fun q row r hq hpc hr => ?_⟩
    rw [hq, Option.all_some, hpc] at hreserved
    change (s.rows.get? row).all _ = true at hreserved
    rw [hr] at hreserved
    exact of_decide_eq_true hreserved
  | raise p => cases h
  | _ => exact trivial

/-- Two requests of a key with a limit of 100, for 60 each: the second is let through after the first has been
refunded. -/
def refundRun : List Event :=
  [.arrive 0 7 (some "a") "" "h", .arrive 1 7 (some "b") "" "h", .look 0, .look 1, .plan 0 60, .plan 1 60, .lockKey 0,
    .checkLimit 0, .insertRow 0, .charge 0 60 0, .returnOrder 0, .record 0, .refund 0 20, .lockKey 1, .checkLimit 1,
    .insertRow 1]

theorem spending_le_limit_sample :
    ∃ s : State, s.spending 7 = 100 ∧ s.spending 7 ≤ 100 := by
  have hlimit : ∀ apiKeyId limit, (fun _ : ℕ => some (100 : ℤ)) apiKeyId = some limit → 0 ≤ limit := by
    intro _ limit h
    obtain rfl := Option.some.inj h
    omega
  obtain ⟨s, hrun, hspending⟩ : ∃ s, (machine (fun _ => true) fun _ => some 100).Runs AsQuoted (.initial 0) s ∧
      s.spending 7 = 100 := EventMachine.exists_of_play asQuoted asQuoted_sound refundRun (by decide)
  exact ⟨s, hspending, (spending_le_limit hlimit hrun 7).2 100 rfl⟩

end Marketplace.PublicApi
