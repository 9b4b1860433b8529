import Marketplace.Sql.Rows
import Marketplace.Takedown.Books

/-!
# What is recorded of the partner

Every transaction of the takedown module locks one request, mirrors something the partner has said onto
it, and moves the money of its order along. `TakedownInv` is what all of them keep: the books of the
order fit the status, nothing is done that is not done at the partner, and the partner has refused no order
whose money is held.

`Recording` is a transaction in the middle of this, and `owed_request` what it owes when it commits.
`wp_applyStatus` is the specification of `_apply`.
-/

namespace Marketplace

open Sql

/-! ### What stays -/

/-- The partner keeps its orders, their last words, and its events. -/
structure PartnerKept (a a' : Partner) : Prop where
  orders : ∀ p v, a.orders.get? p = some v →
    ∃ v', a'.orders.get? p = some v' ∧ (v.status.IsFinal → v'.status = v.status)
  events : ∀ e ∈ a.events, e ∈ a'.events

/-- A request keeps its last status and its order at the partner. -/
structure RequestKept (r r' : TakedownRequest) : Prop where
  status : r.status.IsTerminal → r'.status = r.status
  link : ∀ p, r.partnerOrderId = some p → r'.partnerOrderId = some p

/-- The requests are kept. -/
def RequestsKept (d d' : TakedownDb) : Prop :=
  ∀ i r, d.requests.get? i = some r → ∃ r', d'.requests.get? i = some r' ∧ RequestKept r r'

theorem PartnerKept.refl (a : Partner) : PartnerKept a a := ⟨fun _ v hv => ⟨v, hv, fun _ => rfl⟩, fun _ => id⟩

theorem PartnerKept.trans {a a' a'' : Partner} (h : PartnerKept a a') (h' : PartnerKept a' a'') :
    PartnerKept a a'' := by
  refine ⟨fun p v hv => ?_, fun e he => h'.events e (h.events e he)⟩
  obtain ⟨v', hv', hs⟩ := h.orders p v hv
  obtain ⟨v'', hv'', hs'⟩ := h'.orders p v' hv'
  exact ⟨v'', hv'', fun hfinal => (hs' ((hs hfinal).symm ▸ hfinal)).trans (hs hfinal)⟩

theorem RequestKept.refl (r : TakedownRequest) : RequestKept r r := ⟨fun _ => rfl, fun _ => id⟩

theorem RequestKept.trans {r r' r'' : TakedownRequest} (h : RequestKept r r') (h' : RequestKept r' r'') :
    RequestKept r r'' :=
  ⟨fun ht => (h'.status ((h.status ht).symm ▸ ht)).trans (h.status ht),
    fun p hp => h'.link p (h.link p hp)⟩

theorem RequestsKept.refl (d : TakedownDb) : RequestsKept d d := fun _ r hr => ⟨r, hr, .refl r⟩

theorem RequestsKept.trans {d d' d'' : TakedownDb} (h : RequestsKept d d') (h' : RequestsKept d' d'') :
    RequestsKept d d'' := by
  intro i r hr
  obtain ⟨r', hr', hk⟩ := h i r hr
  obtain ⟨r'', hr'', hk'⟩ := h' i r' hr'
  exact ⟨r'', hr'', hk.trans hk'⟩

/-- The rows of the module: the requests, and the books of the orders. -/
def takedownView : RowView TakedownDb TakedownKey where
  ages d d' := PartnerKept d.partner d'.partner ∧ RequestsKept d d'
  same
    | .request i, d, d' => d'.requests.get? i = d.requests.get? i
    | .shop (.order o), d, d' => d'.shop.books o = d.shop.books o
    | _, _, _ => True
  ages_refl d := ⟨.refl d.partner, .refl d⟩
  ages_trans h h' := ⟨h.1.trans h'.1, h.2.trans h'.2⟩
  same_refl k d := by
    split
    · rfl
    · rfl
    · trivial
  same_trans {k d₁ d₂ d₃} h h' := by
    split at h
    · exact h'.trans h
    · exact h'.trans h
    · trivial

/-- What the others leave alone. -/
abbrev moneyRely : Rely TakedownDb TakedownKey := takedownView.rely

section Stays

variable {L : List TakedownKey} {d d' : TakedownDb} {i o p : ℕ}

theorem moneyRely_request (h : moneyRely.rel L d d') (hi : .request i ∈ L) :
    d'.requests.get? i = d.requests.get? i := h.2 _ hi

theorem moneyRely_books (h : moneyRely.rel L d d') (ho : .shop (.order o) ∈ L) :
    d'.shop.books o = d.shop.books o := h.2 _ ho

theorem protects_shop : Tx.Protects TakedownDb.shopPart TakedownKey.shop moneyRely shopRely :=
  fun _ _ _ _ hL h _ ho => moneyRely_books h (hL _ ho)

end Stays

/-! ### The invariant -/

/-- `rejected` and `quote_rejected`: the partner does not do the work, and nothing is refunded. -/
def PartnerStatus.Refuses (s : PartnerStatus) : Prop := s = .rejected ∨ s = .quoteRejected

instance : DecidablePred PartnerStatus.Refuses := fun s => by
  unfold PartnerStatus.Refuses
  infer_instance

namespace TakedownDb

/-- An order at the partner has a status. -/
def Reached (d : TakedownDb) (p : ℕ) (s : PartnerStatus) : Prop :=
  ∃ v, d.partner.orders.get? p = some v ∧ v.status = s

/-- The partner has refused an order. -/
def Refused (d : TakedownDb) (p : ℕ) : Prop := ∃ v ∈ d.partner.orders.get? p, v.status.Refuses

/-- Money is held for an order at the partner. -/
def Holds (d : TakedownDb) (p : ℕ) : Prop :=
  ∃ r ∈ d.requests.rows, r.2.partnerOrderId = some p ∧ r.2.orderId ≠ none

end TakedownDb

/-- What is true of a request. -/
structure RequestOk (d : TakedownDb) (r : TakedownRequest) : Prop where
  money : ∀ o, r.orderId = some o → MoneyFollows r.status (d.shop.books o)
  late : r.orderId ≠ none → r.status ≠ .review ∧ r.status ≠ .quoted
  linked : r.orderId ≠ none → ∃ p, r.partnerOrderId = some p ∧ ¬d.Refused p
  done : r.status = .done → ∃ p, r.partnerOrderId = some p ∧ d.Reached p .success

/-- The invariant. -/
structure TakedownInv (d : TakedownDb) : Prop where
  request : ∀ i r, d.requests.get? i = some r → RequestOk d r
  own : ∀ i j r r' o, d.requests.get? i = some r → d.requests.get? j = some r' → r.orderId = some o →
    r'.orderId = some o → i = j
  stray : NoStrayRefund d.shop
  /-- An event tells of a last word only after it was said. -/
  told : ∀ e ∈ d.partner.events, e.toStatus.IsFinal → e.action ≠ "create" ∧ d.Reached e.orderId e.toStatus

theorem TakedownDb.Reached.kept {d d' : TakedownDb} {p : ℕ} {s : PartnerStatus} (h : d.Reached p s)
    (hs : s.IsFinal) (hd : PartnerKept d.partner d'.partner) : d'.Reached p s := by
  obtain ⟨v, hv, rfl⟩ := h
  obtain ⟨v', hv', hkept⟩ := hd.orders p v hv
  exact ⟨v', hv', hkept hs⟩

/-! ### What a commit owes -/

section Owes

variable {L : List TakedownKey} {d d' : TakedownDb} {i : ℕ} {r r' : TakedownRequest}

/-- **A transaction that changes one request, and the books of its order**, owes that the request is as it
must be. -/
theorem owed_request (r' : TakedownRequest) (hI : TakedownInv d) (hmem : .request i ∈ L) (hrow : d.requests.get? i = some r)
    (hrow' : d'.requests.get? i = some r')
    (hrest : ∀ j, j ≠ i → d'.requests.get? j = d.requests.get? j) (hpartner : d'.partner = d.partner)
    (hbooks : ∀ o, r'.orderId ≠ some o → d'.shop.books o = d.shop.books o)
    (hlocked : ∀ o, r'.orderId = some o → .shop (.order o) ∈ L ∨ d'.shop.books o = d.shop.books o)
    (hkept : RequestKept r r') (hok : RequestOk d' r')
    (hown : ∀ o, r'.orderId = some o → r.orderId = some o ∨ d.shop.orders.get? o = none) :
    Owed moneyRely TakedownInv L d d' := by
  have hreached : ∀ p s, d.Reached p s → d'.Reached p s := fun p s h => by
    rwa [TakedownDb.Reached, hpartner]
  have hrefused : ∀ p, d'.Refused p → d.Refused p := fun p h => by
    rwa [TakedownDb.Refused, hpartner] at h
  -- Another request's order is not the one whose books have changed.
  have hother : ∀ j u o, j ≠ i → d.requests.get? j = some u → u.orderId = some o →
      r'.orderId ≠ some o := by
    intro j u o hj hu ho ho'
    rcases hown o ho' with h | h
    · exact hj (hI.own j i u r o hu hrow ho h)
    · obtain ⟨order, horder, -⟩ := (hI.request j u hu).money o ho
      exact absurd (h.symm.trans horder) (by simp)
  refine ⟨⟨fun j u hu => ?_, fun j k u u' o hu hu' ho ho' => ?_, fun o ho => ?_, fun e he hfinal => ?_⟩, ?_⟩
  · by_cases hj : j = i
    · subst hj
      obtain rfl := Option.some.inj (hrow'.symm.trans hu)
      exact hok
    · rw [hrest j hj] at hu
      have hold := hI.request j u hu
      refine ⟨fun o ho => ?_, hold.late, fun hheld => ?_, fun hdone => ?_⟩
      · rw [hbooks o (hother j u o hj hu ho)]
        exact hold.money o ho
      · obtain ⟨p, hp, hnot⟩ := hold.linked hheld
        exact ⟨p, hp, fun h => hnot (hrefused p h)⟩
      · obtain ⟨p, hp, hsuccess⟩ := hold.done hdone
        exact ⟨p, hp, hreached p _ hsuccess⟩
  · by_cases hj : j = i
    · by_cases hk : k = i
      · exact hj.trans hk.symm
      · subst hj
        obtain rfl := Option.some.inj (hrow'.symm.trans hu)
        rw [hrest k hk] at hu'
        exact absurd ho (hother k u' o hk hu' ho')
    · rw [hrest j hj] at hu
      by_cases hk : k = i
      · subst hk
        obtain rfl := Option.some.inj (hrow'.symm.trans hu')
        exact absurd ho' (hother j u o hj hu ho)
      · rw [hrest k hk] at hu'
        exact hI.own j k u u' o hu hu' ho ho'
  · by_cases heq : r'.orderId = some o
    · obtain ⟨order, horder, -⟩ := hok.money o heq
      exact absurd (ho.symm.trans horder) (by simp)
    · have hsame := hbooks o heq
      have hrow₀ : d.shop.orders.get? o = none := (congrArg Prod.fst hsame).symm.trans ho
      exact (congrArg Prod.snd hsame).trans (hI.stray o hrow₀)
  · rw [hpartner] at he
    obtain ⟨haction, hreach⟩ := hI.told e he hfinal
    exact ⟨haction, hreached _ _ hreach⟩
  · refine fun L' hL => ⟨⟨hpartner ▸ .refl d.partner, fun j u hu => ?_⟩, fun k hk => ?_⟩
    · by_cases hj : j = i
      · subst hj
        obtain rfl := Option.some.inj (hrow.symm.trans hu)
        exact ⟨r', hrow', hkept⟩
      · exact ⟨u, (hrest j hj).trans hu, .refl u⟩
    · cases k with
      | request j =>
        refine hrest j ?_
        rintro rfl
        exact hL _ hmem hk
      | shop k =>
        cases k with
        | order o =>
          by_cases heq : r'.orderId = some o
          · rcases hlocked o heq with hmem' | hsame
            · exact absurd hk (hL _ hmem')
            · exact hsame
          · exact hbooks o heq
        | _ => exact trivial
      | _ => exact trivial

/-- A new request, which holds no money. -/
theorem owed_insert (hI : TakedownInv d) (hmem : .request i ∈ L) (hnone : d.requests.get? i = none)
    (hfree : r.orderId = none) (hopen : r.status ≠ .done) :
    Owed moneyRely TakedownInv L d (d.insertRequest i r) := by
  have hget : ∀ j, (d.insertRequest i r).requests.get? j = if j = i then some r else d.requests.get? j :=
    fun j => Table.get?_insert hnone r j
  have hrest : ∀ j u, (d.insertRequest i r).requests.get? j = some u → u = r ∨ d.requests.get? j = some u := by
    intro j u hu
    rw [hget] at hu
    split_ifs at hu
    · exact Or.inl (Option.some.inj hu).symm
    · exact Or.inr hu
  refine ⟨⟨fun j u hu => ?_, fun j k u u' o hu hu' ho ho' => ?_, hI.stray, hI.told⟩, fun L' hL => ?_⟩
  · rcases hrest j u hu with rfl | hu
    · exact ⟨fun o ho => absurd (hfree.symm.trans ho) (by simp), fun h => absurd hfree h,
        fun h => absurd hfree h, fun h => absurd h hopen⟩
    · have hok := hI.request j u hu
      exact ⟨hok.money, hok.late, hok.linked, hok.done⟩
  · rcases hrest j u hu with rfl | hu
    · exact absurd (hfree.symm.trans ho) (by simp)
    · rcases hrest k u' hu' with rfl | hu'
      · exact absurd (hfree.symm.trans ho') (by simp)
      · exact hI.own j k u u' o hu hu' ho ho'
  · refine ⟨⟨.refl d.partner, fun j u hu => ⟨u, ?_, .refl u⟩⟩, fun k hk => ?_⟩
    · rw [hget, if_neg]
      · exact hu
      · rintro rfl
        exact absurd (hnone.symm.trans hu) (by simp)
    · cases k with
      | request j =>
        refine (hget j).trans (if_neg ?_)
        rintro rfl
        exact hL _ hmem hk
      | shop k =>
        cases k with
        | order o => rfl
        | _ => exact trivial
      | _ => exact trivial

end Owes

/-! ### Recording -/

/-- A transaction that holds a request, whose row is `r`, and has changes pending that lead to `r'`. The
books of its order are those of the status `s`. -/
structure Recording (i : ℕ) (r r' : TakedownRequest) (s : TakedownStatus) (w : TakedownDb → TakedownDb)
    (L : List TakedownKey) (d : TakedownDb) : Prop where
  mem : .request i ∈ L
  row : d.requests.get? i = some r
  row' : ∀ d₁, d₁.requests.get? i = some r → (w d₁).requests.get? i = some r'
  rest : ∀ d₁ j, j ≠ i → (w d₁).requests.get? j = d₁.requests.get? j
  partner : ∀ d₁, (w d₁).partner = d₁.partner
  order : r'.orderId = r.orderId
  books : ∀ d₁ o, r.orderId ≠ some o → (w d₁).shop.books o = d₁.shop.books o
  locked : ∀ o, r.orderId = some o →
    .shop (.order o) ∈ L ∨ ∀ d₁, (w d₁).shop.books o = d₁.shop.books o
  money : ∀ o, r.orderId = some o → ∀ d₁, moneyRely.rel L d d₁ → TakedownInv d₁ →
    MoneyFollows s ((w d₁).shop.books o)

section Recorded

variable {i : ℕ} {r r' : TakedownRequest} {t : TakedownStatus} {w : TakedownDb → TakedownDb}
  {L L' : List TakedownKey} {s : List TakedownDb} {d d' : TakedownDb}

/-- The request has been locked. -/
theorem Recording.start (hmem : .request i ∈ L) (hrow : d.requests.get? i = some r) :
    Recording i r r r.status id L d where
  mem := hmem
  row := hrow
  row' _ h := h
  rest _ _ _ := rfl
  partner _ := rfl
  order := rfl
  books _ _ _ := rfl
  locked _ _ := Or.inr fun _ => rfl
  money o ho _ hd hI := (hI.request i r ((moneyRely_request hd hmem).trans hrow)).money o ho

theorem Recording.moves (h : Recording i r r' t w L d) (hd : moneyRely.rel L d d') :
    Recording i r r' t w L d' :=
  { h with
    row := (moneyRely_request hd h.mem).trans h.row
    money := fun o ho d₁ hd₁ => h.money o ho d₁ (moneyRely.trans hd hd₁) }

theorem Recording.lock (h : Recording i r r' t w L d) (hL : L ⊆ L') : Recording i r r' t w L' d :=
  { h with
    mem := hL h.mem
    locked := fun o ho => (h.locked o ho).imp_left fun hmem => hL hmem
    money := fun o ho d₁ hd₁ => h.money o ho d₁ (moneyRely.anti hL hd₁) }

/-- Another change to the row. -/
theorem Recording.change (h : Recording i r r' t w L d) (g : TakedownRequest → TakedownRequest)
    (hg : (g r').orderId = r'.orderId) :
    Recording i r (g r') t (fun d => (w d).modifyRequest i g) L d :=
  { h with
    row' := fun d₁ hd₁ => by
      rw [TakedownDb.modifyRequest_requests, Table.get?_modify, if_pos rfl, h.row' d₁ hd₁, Option.map_some]
    rest := fun d₁ j hj => by
      rw [TakedownDb.modifyRequest_requests, Table.get?_modify, if_neg hj, h.rest d₁ j hj]
    order := hg.trans h.order }

/-- What is reached in the shop alone. -/
theorem wp_inShop {α : Type} {I : Db → Prop} {Q : α → (Db → Db) → List RowKey → List Db → Db → Prop}
    {t : Marketplace.Tx α} {v : Db → Db} {K : List RowKey} (hI : ∀ d, TakedownInv d → I d.shop)
    (ht : t.wp shopRely I Q v K (s.map TakedownDb.shopPart.get) d.shop)
    (hw : ∀ x, (w x).shop = v x.shop) (hK : ∀ k ∈ K, TakedownKey.shop k ∈ L) :
    (inShop t).wp moneyRely TakedownInv (fun a w' L' s' d' => ∃ v' M,
      Q a v' M (s'.map TakedownDb.shopPart.get) d'.shop ∧ (∀ x, (w' x).shop = v' x.shop) ∧
      (∀ x, (w' x).requests = (w x).requests) ∧ (∀ x, (w' x).partner = (w x).partner) ∧
      (∀ k ∈ M, TakedownKey.shop k ∈ L') ∧ L ⊆ L' ∧ moneyRely.rel L d d') w L s d := by
  refine Tx.wp_mono (Tx.wp_and (Tx.wp_zoom protects_shop hI ht hw hK) (Tx.wp_moves _)) ?_
  rintro a w' L' s' d' ⟨⟨v', M, hQ, hv, hM, hL, hoff⟩, -, hd⟩
  refine ⟨v', M, hQ, hv, fun x => ?_, fun x => ?_, hM, hL, hd⟩
  · have hset := congrArg TakedownDb.requests (hoff Db.empty x)
    exact hset
  · have hset := congrArg TakedownDb.partner (hoff Db.empty x)
    exact hset

/-- What is done after a look-up, with what it has found or has not. -/
theorem wp_lookup {A : Type} {x : Option A}
    {Q : Option A → (TakedownDb → TakedownDb) → List TakedownKey → List TakedownDb → TakedownDb → Prop}
    (hnone : x = none → Q none w L s d) (hsome : ∀ a, x = some a → Q (some a) w L s d) :
    (Tx.pure x : TakedownTx (Option A)).wp moneyRely TakedownInv Q w L s d := by
  cases x with
  | none => exact hnone rfl
  | some a => exact hsome a rfl

/-- **`_settle_money` moves the books along with the status.** -/
theorem wp_settleMoney (cfg : TakedownSettings) {new : TakedownStatus}
    (h : Recording i r r' r.status w L d) (hclean : ∀ x, (w x).shop = x.shop)
    (hopen : ¬r.status.IsTerminal)
    (hnew : r.orderId ≠ none → new.IsTerminal → new = .done ∨ new.Refunds) :
    (settleMoney cfg r new).wp moneyRely TakedownInv (fun _ w L _ d => Recording i r r' new w L d)
      w L s d := by
  rw [settleMoney]
  rcases ho : r.orderId with _ | o
  · exact { h with money := fun o ho' => absurd (ho.symm.trans ho') (by simp) }
  · rw [Tx.wp_bind]
    intro d₁ hd₁ hI
    have h₁ := (h.moves hd₁).lock (List.subset_append_right [TakedownKey.shop (.order o)] L)
    -- The order is there, and its books are those of the old status.
    have hfollows : MoneyFollows r.status (d₁.shop.books o) := (hI.request i r h₁.row).money o ho
    obtain ⟨order, horder, -⟩ := id hfollows
    have hread : (w d₁).shop.orders.get? o = some order := by
      rw [hclean]
      exact horder
    have hbooks : d₁.shop.books o = (some order, d₁.shop.refundsOf o) := Prod.ext horder rfl
    refine wp_lookup (fun hnone => absurd (hread.symm.trans hnone) (by simp)) fun order' horder' => ?_
    obtain rfl := Option.some.inj (hread.symm.trans horder')
    have hbooked : HeldBooks o (d₁.shop.books o) (some order, d₁.shop.refundsOf o) id [.order o] d₁.shop :=
      ⟨hbooks ▸ keepsBooks_id.movesBooks, List.mem_cons_self, rfl⟩
    have hshop := wp_settleOrder (I := fun _ => True) (s := (w d₁ :: s).map TakedownDb.shopPart.get) cfg r
      (hnew (by simp [ho])) hopen (hbooks ▸ hfollows) hbooked
    refine Tx.wp_mono (wp_inShop (fun _ _ => trivial) hshop hclean
      fun k hk => List.mem_append_left _ (List.mem_map_of_mem hk)) ?_
    rintro _ w₂ L₂ s₂ d₂ ⟨v, M, ⟨b', hb', hbooked'⟩, hshop', hrequests, hpartner, hM, hL, hd₂⟩
    have h₂ := (h₁.moves hd₂).lock hL
    have hheld : TakedownKey.shop (.order o) ∈ L₂ := hM _ hbooked'.mem
    exact
      { h₂ with
        row' := fun x hx => by
          rw [hrequests]
          exact h₂.row' x hx
        rest := fun x j hj => by
          rw [hrequests]
          exact h₂.rest x j hj
        partner := fun x => (hpartner x).trans (h₂.partner x)
        books := fun x o' ho' => by
          rw [hshop']
          exact hbooked'.pending.rest x.shop o' fun heq => ho' (heq ▸ ho)
        locked := fun o' ho' => by
          obtain rfl := Option.some.inj (ho.symm.trans ho')
          exact Or.inl hheld
        money := fun o' ho' x hx _ => by
          obtain rfl := Option.some.inj (ho.symm.trans ho')
          rw [hshop', hbooked'.pending.moves x.shop ((moneyRely_books hx hheld).trans hbooked'.sees)]
          exact hb' }

/-- **`_apply`** mirrors the state, and if the status changes, moves the money. -/
theorem wp_applyStatus (cfg : TakedownSettings) {u : PartnerUpdate} (h : Recording i r r' r.status w L d)
    (hclean : ∀ x, (w x).shop = x.shop) (hstatus : r'.status = r.status)
    (hnew : r.orderId ≠ none → ¬r.status.IsTerminal → (r.nextStatus u).IsTerminal →
      r.nextStatus u = .done ∨ (r.nextStatus u).Refunds) :
    (applyStatus cfg i r u).wp moneyRely TakedownInv (fun _ w L _ d => ∃ r'',
      Recording i r r'' r''.status w L d ∧ r''.status = r.nextStatus u ∧
        r''.partnerOrderId = r'.partnerOrderId) w L s d := by
  have h₁ := h.change (TakedownRequest.mirror u) rfl
  rw [applyStatus, Tx.wp_bind, Tx.wp_modify, Tx.wp_when]
  refine ⟨fun hne => ?_, fun heq => ?_⟩
  · have hopen : ¬r.status.IsTerminal := fun ht => hne (by rw [TakedownRequest.nextStatus, if_pos ht])
    have h₂ := h₁.change (TakedownRequest.enter cfg.shop.now (r.nextStatus u)) rfl
    rw [Tx.wp_bind, Tx.wp_modify]
    refine Tx.wp_mono (wp_settleMoney cfg h₂ hclean hopen fun hheld => hnew hheld hopen) ?_
    exact fun _ w L s d h => ⟨_, h, rfl, rfl⟩
  · have hsame : r.nextStatus u = r.status := not_not.mp heq
    have hend : (r'.mirror u).status = r.status := hstatus
    exact ⟨_, hend.symm ▸ h₁, hend.trans hsame.symm, rfl⟩

end Recorded

/-! ### Ready to commit -/

/-- A transaction that has recorded what it had to. -/
def Mirrored (i : ℕ) (w : TakedownDb → TakedownDb) (L : List TakedownKey) (d : TakedownDb) : Prop :=
  ∃ r r', Recording i r r' r'.status w L d ∧ RequestKept r r' ∧
    (r.orderId ≠ none → r'.status ≠ .review ∧ r'.status ≠ .quoted) ∧
    (r'.status = .done → ∃ p, r'.partnerOrderId = some p ∧ d.Reached p .success)

/-- What is known when an update is applied to a locked request that is then linked to `link`. -/
structure Applies (d : TakedownDb) (r : TakedownRequest) (link : Option ℕ) (u : PartnerUpdate) : Prop where
  new : r.orderId ≠ none → ¬r.status.IsTerminal → (r.nextStatus u).IsTerminal →
    r.nextStatus u = .done ∨ (r.nextStatus u).Refunds
  late : r.orderId ≠ none → r.nextStatus u ≠ .review ∧ r.nextStatus u ≠ .quoted
  done : r.nextStatus u = .done → ∃ p, link = some p ∧ d.Reached p .success
  link : ∀ p, r.partnerOrderId = some p → link = some p

section Ready

variable {i : ℕ} {r r' : TakedownRequest} {link : Option ℕ} {u : PartnerUpdate}
  {w : TakedownDb → TakedownDb} {L : List TakedownKey} {s : List TakedownDb} {d d' : TakedownDb}

theorem Applies.moves (h : Applies d r link u) (hd : moneyRely.rel L d d') : Applies d' r link u :=
  { h with
    done := fun hdone => by
      obtain ⟨p, hp, hreached⟩ := h.done hdone
      exact ⟨p, hp, hreached.kept trivial hd.1.1⟩ }

/-- **An update that the partner stands by.** The money of a held request is settled by it, since the
partner has not refused its order. -/
theorem applies_of_told (hI : TakedownInv d) (hrow : d.requests.get? i = some r)
    (hlink : ∀ p, r.partnerOrderId = some p → link = some p)
    (htold : u.status.IsFinal → ∃ p, link = some p ∧ d.Reached p u.status) : Applies d r link u := by
  have hok := hI.request i r hrow
  have hnext : ∀ {held : Bool}, r.orderId.isSome = held → ¬r.status.IsTerminal →
      r.nextStatus u = statusFor u.status r.price.isSome held := by
    rintro held rfl hopen
    rw [TakedownRequest.nextStatus, if_neg hopen]
  refine ⟨fun hheld hopen hterminal => ?_, fun hheld => ?_, fun hdone => ?_, hlink⟩
  · have heq := hnext (Option.isSome_iff_ne_none.mpr hheld) hopen
    rw [heq] at hterminal ⊢
    obtain ⟨p, hp, hnot⟩ := hok.linked hheld
    obtain ⟨q, hq, v, hv, hs⟩ := htold ((statusFor_isTerminal _ _ _).mp hterminal)
    obtain rfl : p = q := Option.some.inj ((hlink p hp).symm.trans hq)
    rcases statusFor_held u.status r.price.isSome with h | h | h | h
    · exact absurd hterminal h
    · exact Or.inl h
    · exact Or.inr h
    · exact absurd ⟨v, hv, hs ▸ h⟩ hnot
  · by_cases hopen : r.status.IsTerminal
    · rw [TakedownRequest.nextStatus, if_pos hopen]
      exact hok.late hheld
    · rw [hnext (Option.isSome_iff_ne_none.mpr hheld) hopen]
      exact statusFor_late _ _
  · by_cases hopen : r.status.IsTerminal
    · rw [TakedownRequest.nextStatus, if_pos hopen] at hdone
      obtain ⟨p, hp, hreached⟩ := hok.done hdone
      exact ⟨p, hlink p hp, hreached⟩
    · rw [hnext rfl hopen, statusFor_eq_done] at hdone
      rw [hdone] at htold
      exact htold trivial

theorem Mirrored.moves (h : Mirrored i w L d) (hd : moneyRely.rel L d d') : Mirrored i w L d' := by
  obtain ⟨r, r', hrec, hkept, hlate, hdone⟩ := h
  refine ⟨r, r', hrec.moves hd, hkept, hlate, fun h => ?_⟩
  obtain ⟨p, hp, hreached⟩ := hdone h
  exact ⟨p, hp, hreached.kept trivial hd.1.1⟩

theorem Mirrored.lock {L' : List TakedownKey} (h : Mirrored i w L d) (hL : L ⊆ L') :
    Mirrored i w L' d := by
  obtain ⟨r, r', hrec, hrest⟩ := h
  exact ⟨r, r', hrec.lock hL, hrest⟩

/-- A change to what nobody depends on. -/
theorem Mirrored.change (h : Mirrored i w L d) (g : TakedownRequest → TakedownRequest)
    (hg : ∀ r, (g r).orderId = r.orderId ∧ (g r).status = r.status ∧
      (g r).partnerOrderId = r.partnerOrderId) :
    Mirrored i (fun d => (w d).modifyRequest i g) L d := by
  obtain ⟨r, r', hrec, hkept, hlate, hdone⟩ := h
  obtain ⟨horder, hstatus, hlink⟩ := hg r'
  refine ⟨r, g r', hstatus.symm ▸ hrec.change g horder, ⟨fun ht => hstatus.trans (hkept.status ht),
    fun p hp => hlink.trans (hkept.link p hp)⟩, ?_, ?_⟩
  · rw [hstatus]
    exact hlate
  · rw [hstatus, hlink]
    exact hdone

/-- The request has been locked, and nothing has been recorded yet. -/
theorem Mirrored.start (hI : TakedownInv d) (hmem : .request i ∈ L) (hrow : d.requests.get? i = some r) :
    Mirrored i id L d :=
  ⟨r, r, .start hmem hrow, .refl r, (hI.request i r hrow).late, (hI.request i r hrow).done⟩

/-- **What was recorded may be committed.** -/
theorem Mirrored.owed (h : Mirrored i w L d) (hd : moneyRely.rel L d d') (hI : TakedownInv d') :
    Owed moneyRely TakedownInv L d' (w d') := by
  obtain ⟨r, r', hrec, hkept, hlate, hdone⟩ := h.moves hd
  have hrow := hrec.row
  have hok := hI.request i r hrow
  refine owed_request r' hI hrec.mem hrow (hrec.row' d' hrow) (hrec.rest d') (hrec.partner d')
    (fun o ho => hrec.books d' o (hrec.order ▸ ho))
    (fun o ho => (hrec.locked o (hrec.order ▸ ho)).imp_right fun h => h d') hkept ?_
    fun o ho => Or.inl (hrec.order ▸ ho)
  refine ⟨fun o ho => hrec.money o (hrec.order ▸ ho) d' (moneyRely.refl L d') hI,
    fun hheld => hlate (hrec.order ▸ hheld), fun hheld => ?_, fun h => ?_⟩
  · obtain ⟨p, hp, hnot⟩ := hok.linked (hrec.order ▸ hheld)
    refine ⟨p, hkept.link p hp, ?_⟩
    rwa [TakedownDb.Refused, hrec.partner]
  · obtain ⟨p, hp, hreached⟩ := hdone h
    refine ⟨p, hp, ?_⟩
    rwa [TakedownDb.Reached, hrec.partner]

end Ready

/-! ### The transactions -/

section Transactions

variable {i : ℕ} {r r' : TakedownRequest} {u : PartnerUpdate} {w : TakedownDb → TakedownDb}
  {L : List TakedownKey} {s : List TakedownDb} {d : TakedownDb} (cfg : TakedownSettings)

theorem wp_applyStatus_mirrored (ha : Applies d r r'.partnerOrderId u)
    (h : Recording i r r' r.status w L d) (hclean : ∀ x, (w x).shop = x.shop)
    (hstatus : r'.status = r.status) :
    (applyStatus cfg i r u).wp moneyRely TakedownInv (fun _ w L _ d => Mirrored i w L d) w L s d := by
  refine Tx.wp_mono (Tx.wp_and (wp_applyStatus cfg h hclean hstatus ha.new) (Tx.wp_moves _)) ?_
  rintro _ w' L' s' d' ⟨⟨r'', hrec, hs, hl⟩, -, hd⟩
  have ha' := ha.moves hd
  refine ⟨r, r'', hrec, ⟨fun ht => hs.trans ?_, fun p hp => hl.trans (ha.link p hp)⟩, ?_, ?_⟩
  · rw [TakedownRequest.nextStatus, if_pos ht]
  · rw [hs]
    exact ha'.late
  · rw [hs, hl]
    exact ha'.done

/-- **`_apply_order_dict`**, for an order of the request's. -/
theorem wp_applyOrderDict {p : ℕ} {v : PartnerOrder} (ha : Applies d r (some p) v.update)
    (h : Recording i r r' r.status w L d) (hclean : ∀ x, (w x).shop = x.shop)
    (hstatus : r'.status = r.status) (hlink : r'.partnerOrderId = r.partnerOrderId) :
    (applyOrderDict cfg i r p v).wp moneyRely TakedownInv (fun _ w L _ d => Mirrored i w L d) w L s d := by
  rw [applyOrderDict, Tx.wp_bind, Tx.wp_when]
  refine ⟨fun _ => ?_, fun hlinked => ?_⟩
  · rw [linkPartnerOrder, Tx.wp_bind, Tx.wp_lock]
    intro d₁ hd₁ _
    rw [Tx.wp_bind, Tx.wp_require]
    intro _
    have h₁ := ((h.moves hd₁).lock (List.subset_cons_self (TakedownKey.partnerOrder p) L)).change
      (fun r => { r with partnerOrderId := some p }) rfl
    exact wp_applyStatus_mirrored cfg (ha.moves hd₁) h₁ hclean hstatus
  · obtain ⟨q, hq⟩ := Option.ne_none_iff_exists'.mp hlinked
    have hsame : r'.partnerOrderId = some p := (hlink.trans hq).trans (ha.link q hq).symm
    exact wp_applyStatus_mirrored cfg (hsame ▸ ha) h hclean hstatus

/-- What begins with the lock of the request. -/
theorem wp_locked {α : Type} {e : Abort} {f : TakedownRequest → TakedownTx α}
    {Q : α → (TakedownDb → TakedownDb) → List TakedownKey → List TakedownDb → TakedownDb → Prop}
    (h : ∀ d' r s, moneyRely.rel [] d d' → TakedownInv d' → d'.requests.get? i = some r →
      (f r).wp moneyRely TakedownInv Q id [.request i] s d') :
    (lockRequest i >>= fun req => Tx.getOrElse req e >>= f).wp moneyRely TakedownInv Q id [] s d := by
  simp only [lockRequest, Tx.wp_bind, Tx.wp_lock, Tx.wp_getOrElse]
  exact fun d' hd hI r hr => h d' r _ hd hI hr

/-- What is known of an order stays known, as far as it is a last word. -/
def TakedownDb.Tells (d : TakedownDb) (p : ℕ) (v : PartnerOrder) : Prop :=
  v.status.IsFinal → d.Reached p v.status

/-- A request is linked to an order at the partner. -/
def TakedownDb.Links (d : TakedownDb) (i p : ℕ) : Prop :=
  ∃ r, d.requests.get? i = some r ∧ r.partnerOrderId = some p

theorem TakedownDb.Tells.moves {d d' : TakedownDb} {p : ℕ} {v : PartnerOrder} (h : d.Tells p v)
    (hd : moneyRely.rel L d d') : d'.Tells p v := fun hfinal => (h hfinal).kept hfinal hd.1.1

theorem TakedownDb.Links.moves {d d' : TakedownDb} {p : ℕ} (h : d.Links i p)
    (hd : moneyRely.rel L d d') : d'.Links i p := by
  obtain ⟨r, hr, hp⟩ := h
  obtain ⟨r', hr', hkept⟩ := hd.1.2 i r hr
  exact ⟨r', hr', hkept.link p hp⟩

/-- An order is applied to the request it is linked to, or to one that is linked to none. -/
theorem applies_of_tells {p : ℕ} {v : PartnerOrder} (hI : TakedownInv d)
    (hrow : d.requests.get? i = some r) (htells : d.Tells p v)
    (hlink : ∀ q, r.partnerOrderId = some q → some p = some q) : Applies d r (some p) v.update :=
  applies_of_told hI hrow (fun q hq => (hlink q hq).trans rfl) fun hfinal => ⟨p, rfl, htells hfinal⟩

theorem applies_of_links {p : ℕ} {v : PartnerOrder} (hI : TakedownInv d)
    (hrow : d.requests.get? i = some r) (htells : d.Tells p v) (hlinks : d.Links i p) :
    Applies d r (some p) v.update := by
  obtain ⟨r', hr', hp⟩ := hlinks
  obtain rfl := Option.some.inj (hrow.symm.trans hr')
  exact applies_of_tells hI hrow htells fun q hq => hp.symm.trans hq

theorem wp_recordCreated {result : Except PartnerError (ℕ × PartnerOrder)}
    (htells : ∀ data, result = .ok data → d.Tells data.1 data.2) :
    (recordCreated cfg i result).wp moneyRely TakedownInv (fun _ w L _ d => Mirrored i w L d) id [] s d := by
  refine wp_locked fun d' r s' hd hI hrow => ?_
  rw [Tx.wp_bind, Tx.wp_require]
  intro hnone
  have hstart := Recording.start (L := [.request i]) List.mem_cons_self hrow
  rcases result with e | ⟨p, v⟩
  · exact (Mirrored.start hI List.mem_cons_self hrow).change _ fun _ => ⟨rfl, rfl, rfl⟩
  · have ha : Applies d' r (some p) v.update :=
      applies_of_tells hI hrow ((htells _ rfl).moves hd) fun q hq => absurd (hnone.symm.trans hq) (by simp)
    exact wp_applyOrderDict cfg ha (hstart.change (fun r =>
      { r with syncError := none, needsSync := false, lastSyncedAt := some cfg.shop.now }) rfl)
      (fun _ => rfl) rfl rfl

theorem wp_recordAccept {data : Option (ℕ × PartnerOrder)} {error : Option PartnerError}
    (htells : ∀ x, data = some x → d.Tells x.1 x.2 ∧ d.Links i x.1) :
    (recordAccept cfg i data error).wp moneyRely TakedownInv (fun _ w L _ d => Mirrored i w L d)
      id [] s d := by
  refine wp_locked fun d' r s' hd hI hrow => ?_
  rcases data with _ | ⟨p, v⟩
  · exact (Mirrored.start hI List.mem_cons_self hrow).change _ fun _ => ⟨rfl, rfl, rfl⟩
  · obtain ⟨htells, hlinks⟩ := htells _ rfl
    rw [Tx.wp_bind]
    refine Tx.wp_mono (wp_applyOrderDict cfg (applies_of_links hI hrow (htells.moves hd) (hlinks.moves hd))
      (.start List.mem_cons_self hrow) (fun _ => rfl) rfl rfl) fun _ w L s d h => ?_
    exact h.change _ fun _ => ⟨rfl, rfl, rfl⟩

theorem wp_recordSyncError (e : PartnerError) :
    (recordSyncError cfg i e).wp moneyRely TakedownInv (fun _ w L _ d => Mirrored i w L d) id [] s d := by
  refine wp_locked fun d' r s' hd hI hrow => ?_
  exact (Mirrored.start hI List.mem_cons_self hrow).change _ fun _ => ⟨rfl, rfl, rfl⟩

theorem wp_recordSync (held : Bool) {p : ℕ} {v : PartnerOrder}
    (evidence : Option (Option String × Option String)) (htells : d.Tells p v) (hlinks : d.Links i p) :
    (recordSync cfg i held p v evidence).wp moneyRely TakedownInv (fun _ w L _ d => Mirrored i w L d)
      id [] s d := by
  refine wp_locked fun d' r s' hd hI hrow => ?_
  rw [Tx.wp_bind]
  refine Tx.wp_mono (wp_applyOrderDict cfg (applies_of_links hI hrow (htells.moves hd) (hlinks.moves hd))
    (.start List.mem_cons_self hrow) (fun _ => rfl) rfl rfl) fun _ w L s d h => ?_
  exact h.change _ fun _ => ⟨rfl, rfl, rfl⟩

theorem wp_recordAction {p : ℕ} {v : PartnerOrder} (htells : d.Tells p v) (hlinks : d.Links i p) :
    (recordAction cfg i p v).wp moneyRely TakedownInv (fun _ w L _ d => Mirrored i w L d) id [] s d := by
  refine wp_locked fun d' r s' hd hI hrow => ?_
  rw [Tx.wp_bind]
  refine Tx.wp_mono (wp_applyOrderDict cfg (applies_of_links hI hrow (htells.moves hd) (hlinks.moves hd))
    (.start List.mem_cons_self hrow) (fun _ => rfl) rfl rfl) fun _ w L s d h => ?_
  exact h.change _ fun _ => ⟨rfl, rfl, rfl⟩

theorem wp_setPrice (price : ℤ) :
    (setPrice cfg i price).wp moneyRely TakedownInv (fun _ w L _ d => Mirrored i w L d) id [] s d := by
  refine wp_locked fun d' r s' hd hI hrow => ?_
  rw [Tx.wp_bind, Tx.wp_require]
  rintro ⟨hreview, -, -⟩
  -- A request under review holds no money.
  have hfree : r.orderId = none := by
    by_contra hheld
    exact ((hI.request i r hrow).late hheld).1 hreview
  have hrec := (Recording.start (L := [.request i]) List.mem_cons_self hrow).change
    (fun r => { r with price := some price, quotedAt := some cfg.shop.now, status := .quoted }) rfl
  refine ⟨r, _, { hrec with money := fun o ho => absurd (hfree.symm.trans ho) (by simp) },
    ⟨fun ht => ?_, fun _ => id⟩, fun hheld => absurd hfree hheld, fun h => by cases h⟩
  rw [hreview] at ht
  exact ht.elim

/-- What may be committed, wherever the others have gone. -/
def Committable (w : TakedownDb → TakedownDb) (L : List TakedownKey) (d : TakedownDb) : Prop :=
  ∀ d', moneyRely.rel L d d' → TakedownInv d' → Owed moneyRely TakedownInv L d' (w d')

/-- **The first transaction of `accept_quote`** takes the money for an order that the partner has not
refused. -/
theorem wp_holdPrice (buyer orderId : ℕ) :
    (holdPrice cfg buyer i orderId).wp moneyRely TakedownInv
      (fun _ w L _ d => ∀ d', moneyRely.rel L d d' → TakedownInv d' →
        (∀ r ∈ d'.requests.get? i, r.orderId = none → ∀ p ∈ r.partnerOrderId, ¬d'.Refused p) →
        Owed moneyRely TakedownInv L d' (w d')) id [] s d := by
  refine wp_locked fun d₁ r s₁ _ hI hrow => ?_
  simp only [Tx.wp_bind, Tx.wp_require, Tx.wp_getOrElse, Tx.wp_read]
  rintro - ⟨hquoted, hlinked⟩ price - seller - - d₂ hd₂ -
  obtain ⟨p, hp⟩ := Option.ne_none_iff_exists'.mp hlinked
  have hfree : r.orderId = none := by
    by_contra hheld
    exact ((hI.request i r hrow).late hheld).2 hquoted
  generalize (cfg.productId.filter fun x => ((id d₂).shop.products.get? x).isSome) = product
  have hshop := wp_addHeldOrder (L := []) (s := (id d₂ :: s₁).map TakedownDb.shopPart.get)
    (d := d₂.shop) orderId (takedownOrder cfg r seller product price) cfg.shop buyer price
    (orderReference orderId "")
  refine Tx.wp_mono (wp_inShop (fun _ hI => hI.stray) hshop (fun _ => rfl)
    fun k hk => absurd hk List.not_mem_nil) ?_
  rintro _ w₃ L₃ s₃ d₃ ⟨v, M, ⟨hprice, hbooked⟩, hshop', hrequests, hpartner, hM, hL, hd₃⟩ d₄ hd₄ hI₄
    hallow
  replace hrequests : ∀ x, (w₃ x).requests = x.requests := hrequests
  replace hpartner : ∀ x, (w₃ x).partner = x.partner := hpartner
  have hmem : TakedownKey.request i ∈ L₃ := hL List.mem_cons_self
  have hrow₄ : d₄.requests.get? i = some r :=
    (moneyRely_request hd₄ hmem).trans ((moneyRely_request hd₃ List.mem_cons_self).trans
      ((moneyRely_request hd₂ List.mem_cons_self).trans hrow))
  have hbooks₄ : d₄.shop.books orderId = (none, []) :=
    (moneyRely_books hd₄ (hM _ hbooked.mem)).trans hbooked.sees
  refine owed_request { r with
    orderId := some orderId
    acceptedAt := some cfg.shop.now
    status := .started
    needsSync := true } hI₄ hmem hrow₄ ?_ (fun j hj => ?_) (hpartner d₄) (fun o ho => ?_)
    (fun o ho => ?_) ⟨fun ht => ?_, fun _ => id⟩ ⟨fun o ho => ?_, fun _ => ?_, fun _ => ?_, fun h => ?_⟩
    fun o ho => ?_
  · rw [TakedownDb.modifyRequest_requests, Table.get?_modify, if_pos rfl, hrequests, hrow₄, Option.map_some]
  · rw [TakedownDb.modifyRequest_requests, Table.get?_modify, if_neg hj, hrequests]
  · change (w₃ d₄).shop.books o = _
    rw [hshop']
    exact hbooked.pending.rest d₄.shop o fun heq => ho (heq ▸ rfl)
  · obtain rfl := Option.some.inj ho
    exact Or.inl (hM _ hbooked.mem)
  · rw [hquoted] at ht
    exact ht.elim
  · obtain rfl := Option.some.inj ho
    change MoneyFollows .started ((w₃ d₄).shop.books orderId)
    rw [hshop', hbooked.pending.moves d₄.shop hbooks₄]
    refine ⟨_, rfl, ?_, rfl, rfl, rfl⟩
    change 0 < price - 0
    omega
  · exact ⟨TakedownStatus.noConfusion, TakedownStatus.noConfusion⟩
  · refine ⟨p, hp, ?_⟩
    have hnot := hallow r hrow₄ hfree p hp
    change ¬(w₃ d₄).Refused p
    rwa [TakedownDb.Refused, hpartner]
  · cases h
  · obtain rfl := Option.some.inj ho
    exact Or.inr (congrArg Prod.fst hbooks₄)

theorem Mirrored.committable (h : Mirrored i w L d) : Committable w L d := fun _ hd hI => h.owed hd hI

/-- A change to nothing that counts. -/
theorem owed_unseen {d' d'' : TakedownDb} (h : Owed moneyRely TakedownInv L d d')
    (hrequests : d''.requests = d'.requests) (hpartner : d''.partner = d'.partner)
    (hshop : d''.shop = d'.shop) : Owed moneyRely TakedownInv L d d'' := by
  obtain ⟨shop, requests, seen, partner⟩ := d'
  obtain ⟨shop', requests', seen', partner'⟩ := d''
  obtain rfl : requests' = requests := hrequests
  obtain rfl : partner' = partner := hpartner
  obtain rfl : shop' = shop := hshop
  refine ⟨⟨fun j u hu => ?_, h.inv.own, h.inv.stray, h.inv.told⟩, fun L' hL => ?_⟩
  · have hok := h.inv.request j u hu
    exact ⟨hok.money, hok.late, hok.linked, hok.done⟩
  · obtain ⟨hages, hsame⟩ := h.guar L' hL
    refine ⟨hages, fun k hk => ?_⟩
    have hk' := hsame k hk
    cases k with
    | request j => exact hk'
    | shop k =>
      cases k with
      | order o => exact hk'
      | _ => exact trivial
    | _ => exact trivial

/-- What is known of the request an event is about, before the event is applied. -/
def Found (u : PartnerUpdate) (i : ℕ) (r : TakedownRequest) (w : TakedownDb → TakedownDb)
    (L : List TakedownKey) (d : TakedownDb) : Prop :=
  ∃ r', Recording i r r' r.status w L d ∧ (∀ x, (w x).shop = x.shop) ∧ r'.status = r.status ∧
    Applies d r r'.partnerOrderId u ∧ Mirrored i w L d

/-- A request that was found and locked. -/
theorem found_start (hI : TakedownInv d) (hmem : .request i ∈ L) (hrow : d.requests.get? i = some r)
    (htold : u.status.IsFinal → ∃ p, r.partnerOrderId = some p ∧ d.Reached p u.status) :
    Found u i r id L d :=
  ⟨r, .start hmem hrow, fun _ => rfl, rfl, applies_of_told hI hrow (fun _ hp => hp) htold,
    .start hI hmem hrow⟩

/-- A request that was found by its code is linked, if it was not. -/
theorem wp_linkFound {p : ℕ} (hI : TakedownInv d) (hmem : .request i ∈ L)
    (hrow : d.requests.get? i = some r) (hopen : ¬u.status.IsFinal) :
    (Tx.when (r.partnerOrderId = none) (linkPartnerOrder i p)).wp moneyRely TakedownInv
      (fun _ w L _ d => Found u i r w L d) id L s d := by
  rw [Tx.wp_when]
  refine ⟨fun hnone => ?_, fun _ => found_start hI hmem hrow fun h => absurd h hopen⟩
  rw [linkPartnerOrder, Tx.wp_bind, Tx.wp_lock]
  intro d₁ hd₁ hI₁
  rw [Tx.wp_bind, Tx.wp_require, Tx.wp_modify]
  intro _
  have hrow₁ : d₁.requests.get? i = some r := (moneyRely_request hd₁ hmem).trans hrow
  have hrec := (Recording.start (L := TakedownKey.partnerOrder p :: L) (List.mem_cons_of_mem _ hmem)
    hrow₁).change (fun r => { r with partnerOrderId := some p }) rfl
  have hok := hI₁.request i r hrow₁
  have hfresh : ∀ q, r.partnerOrderId = some q → some p = some q := fun q hq =>
    absurd (hnone.symm.trans hq) (by simp)
  refine ⟨_, hrec, fun _ => rfl, rfl, applies_of_told hI₁ hrow₁ hfresh fun h => absurd h hopen,
    r, _, hrec, ⟨fun _ => rfl, hfresh⟩, hok.late, fun hdone => ?_⟩
  obtain ⟨q, hq, -⟩ := hok.done hdone
  exact absurd (hnone.symm.trans hq) (by simp)

/-- What a search for a request finds is a row of the table. -/
theorem get?_of_find {f : ℕ × TakedownRequest → Bool} {x : ℕ × TakedownRequest}
    (h : d.requests.rows.find? f = some x) : d.requests.get? x.1 = some x.2 ∧ f x = true :=
  ⟨Table.get?_eq_some_iff.mpr (List.mem_of_find?_eq_some h), List.find?_some h⟩

/-- **The request of an event**: the one it is linked to, or for a new order the one with its code. -/
theorem wp_eventRequest {e : PartnerEvent} (hu : u.status = e.toStatus)
    (htold : e.toStatus.IsFinal → e.action ≠ "create" ∧ d.Reached e.orderId e.toStatus) :
    (eventRequest e).wp moneyRely TakedownInv (fun req w L _ d => match req with
      | none => w = id
      | some (i, r) => Found u i r w L d) id L s d := by
  rw [eventRequest, Tx.wp_bind]
  intro d₁ hd₁ hI₁
  refine wp_lookup (x := d₁.requestOf e.orderId) (fun hlinked => ?_) fun r hlinked => ?_
  all_goals
    change Tx.wp _ _ _ _ _ ((((d₁.requestOf e.orderId).map fun r => TakedownKey.request r.1).toList) ++ L) _ _
    rw [hlinked]
  · rcases hcode : (if e.action = "create" then codeInReason e.reason else none) with _ | code
    · rfl
    · have hcreate : e.action = "create" := by
        by_contra hne
        rw [if_neg hne] at hcode
        cases hcode
      have hopen : ¬u.status.IsFinal := fun h => (htold (hu ▸ h)).1 hcreate
      change (Tx.stmt _ _ >>= _ : TakedownTx (Option (ℕ × TakedownRequest))).wp _ _ _ _ _ _ _
      rw [Tx.wp_bind]
      intro d₂ _ hI₂
      refine wp_lookup (x := d₂.requestWithCode code) (fun hfound => ?_) fun r hfound => ?_
      all_goals
        change Tx.wp _ _ _ _ _
          (((d₂.requestWithCode code).map fun r => TakedownKey.request r.1).toList ++ _) _ _
        rw [hfound]
      · rfl
      · obtain ⟨hrow, -⟩ := get?_of_find hfound
        obtain ⟨i, r⟩ := r
        change (Tx.when (r.partnerOrderId = none) (linkPartnerOrder i e.orderId) >>= fun _ =>
          Pure.pure (some (i, r)) : TakedownTx (Option (ℕ × TakedownRequest))).wp _ _ _ _ _ _ _
        rw [Tx.wp_bind]
        exact wp_linkFound hI₂ List.mem_cons_self hrow hopen
  · obtain ⟨hrow, hlink⟩ := get?_of_find hlinked
    obtain ⟨i, r⟩ := r
    have hlink : r.partnerOrderId = some e.orderId := of_decide_eq_true hlink
    refine found_start hI₁ List.mem_cons_self hrow fun hfinal => ⟨e.orderId, hlink, ?_⟩
    rw [hu] at hfinal ⊢
    exact (htold hfinal).2.kept hfinal hd₁.1.1

theorem wp_applyEvent {e : PartnerEvent} (h : Found (e.update cfg.shop.now) i r w L d) :
    (applyEvent cfg e i r).wp moneyRely TakedownInv (fun _ w L _ d => Mirrored i w L d) w L s d := by
  obtain ⟨r', hrec, hclean, hstatus, ha, hmirrored⟩ := h
  rw [applyEvent, Tx.wp_ite]
  refine ⟨fun _ => ?_, fun _ => ?_⟩
  · rw [Tx.wp_bind]
    refine Tx.wp_mono (wp_applyStatus_mirrored cfg ha hrec hclean hstatus) fun _ w L s d h => ?_
    rw [Tx.wp_bind, Tx.wp_when]
    exact ⟨fun _ => h.change _ fun _ => ⟨rfl, rfl, rfl⟩, fun _ => h⟩
  · rw [Tx.wp_ite]
    exact ⟨fun _ => hmirrored, fun _ => hmirrored.change _ fun _ => ⟨rfl, rfl, rfl⟩⟩

/-- **The transaction of `handle_webhook`.** -/
theorem wp_recordEvent (e : PartnerEvent) :
    (recordEvent cfg e).wp moneyRely TakedownInv (fun _ w L _ d => Committable w L d) id [] s d := by
  rw [recordEvent]
  simp only [Tx.wp_bind, Tx.wp_read, Tx.wp_require]
  intro d₁ _ hI₁ hsigned d₂ hd₂ _ _
  have htold := hI₁.told e (of_decide_eq_true hsigned)
  refine Tx.wp_mono (wp_eventRequest (u := e.update cfg.shop.now) rfl fun hfinal =>
    (htold hfinal).imp_right fun h => h.kept hfinal hd₂.1.1) fun req w L s d hreq => ?_
  have happly : (applyEventTo cfg e req).wp moneyRely TakedownInv
      (fun _ w L _ d => w = id ∨ ∃ i, Mirrored i w L d) w L s d := by
    rcases req with _ | ⟨i, r⟩
    · exact Or.inl hreq
    · change (applyEvent cfg e i r >>= _ : TakedownTx (Option ℕ)).wp _ _ _ _ _ _ _
      rw [Tx.wp_bind]
      exact Tx.wp_mono (wp_applyEvent cfg hreq) fun _ w L s d h => Or.inr ⟨i, h⟩
  refine Tx.wp_mono happly fun _ w L s d hdone => ?_
  rw [Tx.wp_lock]
  intro d₃ hd₃ _ _ d₄ hd₄ hI₄
  have howed : Owed moneyRely TakedownInv (.event e.id :: L) d₄ (w d₄) := by
    rcases hdone with rfl | ⟨i, h⟩
    · exact Owed.refl hI₄
    · exact ((h.moves hd₃).lock (List.subset_cons_self _ _)).owed hd₄ hI₄
  exact owed_unseen howed rfl rfl rfl

/-- **The first transaction of `create_request`.** -/
theorem wp_addRequest (buyer : ℕ) (code : TakedownCode) (url : String) (note : Option String)
    (service : String) (warrantyHours : ℕ) :
    (addRequest cfg buyer i code url note service warrantyHours).wp moneyRely TakedownInv
      (fun _ w L _ d => Committable w L d) id [] s d := by
  unfold addRequest
  generalize url.trimAscii.toString = text
  simp only [Tx.wp_bind, Tx.wp_require, Tx.wp_lock, Tx.wp_modify]
  intro _ _ _ d₁ _ _ hfree d₂ hd₂ _ _ d₃ hd₃ hI₃
  have hmem : TakedownKey.request i ∈ [TakedownKey.code code, TakedownKey.request i] := by simp
  have hnone : d₃.requests.get? i = none := by
    rw [moneyRely_request hd₃ hmem, moneyRely_request hd₂ List.mem_cons_self]
    exact Option.isSome_eq_false_iff.mp hfree |> Option.isNone_iff_eq_none.mp
  exact owed_insert hI₃ hmem hnone rfl TakedownStatus.noConfusion

end Transactions

end Marketplace
