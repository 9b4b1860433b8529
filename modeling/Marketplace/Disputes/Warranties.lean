import Marketplace.Lines.Replacements
import Marketplace.Resources.Sold
import Marketplace.Sql.Play
import Marketplace.Sql.Rows

/-!
# The warranty of a case

What a case claims and remedies is a `Warranty`, of the lines its order had when the case was opened: the claims of
the case, its remedies, and the lines of the order, which are those that were delivered and their
replacements. Any number of sessions open cases, add claims and remedy them; `warrantyMachine` lets those commit that
concern the case or another order.

The lines a claim names stay locked from the check to the commit, and so does the row of the case, so what a
session has checked of them is true when it commits (`Claimable`, `Remediable`).
-/

namespace Marketplace

open Sql

/-! ### What is followed -/

/-- The order of a line. -/
def Db.orderOf (d : Db) (r : ℕ) : Option (Option ℕ) := (d.resources.get? r).map Resource.orderId

/-- The remedies of a case: what was remedied, and its replacement. -/
def Db.remedies (d : Db) (c : ℕ) : List (ℕ × Option ℕ) :=
  (d.resourceActions.filter fun a => a.disputeId = c).map fun a => (a.originalResourceId, a.replacementResourceId)

/-- The lines of an order. -/
def Db.linesOf (d : Db) (o : ℕ) : Finset ℕ :=
  (d.resources.rows.map Prod.fst).toFinset.filter fun r => d.orderOf r = some (some o)

theorem Db.mem_linesOf {d : Db} {o r : ℕ} : r ∈ d.linesOf o ↔ d.orderOf r = some (some o) := by
  rw [Db.linesOf, Finset.mem_filter, List.mem_toFinset, and_iff_right_iff_imp]
  intro h
  obtain ⟨v, hv, -⟩ := Option.map_eq_some_iff.mp h
  exact List.mem_map_of_mem (Table.get?_eq_some_iff.mp hv)

/-- The rows of cases, with their claims and remedies, and of lines. -/
def warrantyView : RowView Db RowKey where
  ages _ _ := True
  same
    | .dispute c, d, d' => d'.disputes.get? c = d.disputes.get? c ∧ (d'.claimedLines c).1 = (d.claimedLines c).1 ∧
      d'.remedies c = d.remedies c
    | .resource r, d, d' => d'.orderOf r = d.orderOf r
    | _, _, _ => True
  ages_refl _ := trivial
  ages_trans _ _ := trivial
  same_refl k d := by
    split
    · exact ⟨rfl, rfl, rfl⟩
    · rfl
    · trivial
  same_trans {k d₁ d₂ d₃} h h' := by
    split at h
    · exact ⟨h'.1.trans h.1, h'.2.1.trans h.2.1, h'.2.2.trans h.2.2⟩
    · exact h'.trans h
    · trivial

/-- What the others leave alone. -/
abbrev warrantyRely : Rely Db RowKey := warrantyView.rely

section Stays

variable {L : List RowKey} {d d' : Db} {c r : ℕ}

theorem warrantyRely_case (h : warrantyRely.rel L d d') (hc : .dispute c ∈ L) :
    d'.disputes.get? c = d.disputes.get? c ∧ (d'.claimedLines c).1 = (d.claimedLines c).1 ∧ d'.remedies c = d.remedies c :=
  h.2 _ hc

theorem warrantyRely_line (h : warrantyRely.rel L d d') (hr : .resource r ∈ L) : d'.orderOf r = d.orderOf r := h.2 _ hr

end Stays

/-! ### What the functions write -/

/-- What a function does for an order: the cases it opens, the claims and the remedies it records, and the lines it
gives to the order. -/
structure CaseChange where
  opened : List ℕ
  claims : List DisputeClaimResource
  actions : List DisputeResourceAction
  taken : List ℕ

namespace CaseChange

/-- Nothing. -/
def nothing : CaseChange := ⟨[], [], [], []⟩

/-- One thing after the other. -/
def andThen (x y : CaseChange) : CaseChange :=
  ⟨x.opened ++ y.opened, x.claims ++ y.claims, x.actions ++ y.actions, x.taken ++ y.taken⟩

@[simp] theorem andThen_nothing (x : CaseChange) : x.andThen nothing = x := by
  simp [andThen, nothing]

end CaseChange

/-- A change of the database, under locks, by which `x` is done for the order `o`. -/
structure Makes (L : List RowKey) (o : ℕ) (x : CaseChange) (f : Db → Db) : Prop where
  moves : warrantyView.Moves L f
  claims : ∀ d, (f d).claimResources = d.claimResources ++ x.claims
  actions : ∀ d, (f d).resourceActions = d.resourceActions ++ x.actions
  lines : ∀ d r, (f d).orderOf r = if r ∈ x.taken then (d.orderOf r).map fun _ => some o else d.orderOf r
  cases : ∀ d c u', (f d).disputes.get? c = some u' →
    (∃ u, d.disputes.get? c = some u ∧ u'.orderId = u.orderId) ∨ c ∈ x.opened ∧ u'.orderId = o

namespace Makes

variable {L L' : List RowKey} {o : ℕ} {x y : CaseChange} {f g : Db → Db}

theorem id : Makes L o .nothing id :=
  ⟨RowView.Moves.id, fun _ => (List.append_nil _).symm, fun _ => (List.append_nil _).symm,
    fun _ _ => (if_neg List.not_mem_nil).symm, fun _ _ u' h => Or.inl ⟨u', h, rfl⟩⟩

theorem comp (hf : Makes L o x f) (hg : Makes L o y g) : Makes L o (x.andThen y) fun d => g (f d) := by
  refine ⟨hf.moves.comp hg.moves, fun d => ?_, fun d => ?_, fun d r => ?_, fun d c u' hu' => ?_⟩
  · rw [hg.claims, hf.claims, List.append_assoc]
    rfl
  · rw [hg.actions, hf.actions, List.append_assoc]
    rfl
  · rw [hg.lines, hf.lines]
    simp only [CaseChange.andThen, List.mem_append]
    by_cases hx : r ∈ x.taken <;> by_cases hy : r ∈ y.taken <;> simp [hx, hy, Function.comp_def]
  · rcases hg.cases (f d) c u' hu' with ⟨u, hu, ho⟩ | ⟨hc, ho⟩
    · rcases hf.cases d c u hu with ⟨u₀, hu₀, ho₀⟩ | ⟨hc, ho₀⟩
      · exact Or.inl ⟨u₀, hu₀, ho.trans ho₀⟩
      · exact Or.inr ⟨List.mem_append_left _ hc, ho.trans ho₀⟩
    · exact Or.inr ⟨List.mem_append_right _ hc, ho⟩

theorem mono (h : Makes L o x f) (hL : L ⊆ L') : Makes L' o x f :=
  ⟨h.moves.mono hL, h.claims, h.actions, h.lines, h.cases⟩

/-- Something that does none of this. -/
theorem quiet (hf : Makes L o x f) (hg : Makes L o .nothing g) : Makes L o x fun d => g (f d) := by
  have h := hf.comp hg
  rwa [CaseChange.andThen_nothing] at h

theorem claimed_eq (h : Makes L o x f) (hx : x.claims = []) (d : Db) (c : ℕ) :
    ((f d).claimedLines c).1 = (d.claimedLines c).1 := by
  simp only [Db.claimedLines, h.claims, hx, List.append_nil]

theorem actions_eq (h : Makes L o x f) (hx : x.actions = []) (d : Db) : (f d).resourceActions = d.resourceActions := by
  rw [h.actions, hx, List.append_nil]

theorem remedies_eq (h : Makes L o x f) (hx : x.actions = []) (d : Db) (c : ℕ) : (f d).remedies c = d.remedies c := by
  rw [Db.remedies, h.actions_eq hx, Db.remedies]

theorem orderOf_eq (h : Makes L o x f) (hx : x.taken = []) (d : Db) (r : ℕ) : (f d).orderOf r = d.orderOf r := by
  rw [h.lines, hx, if_neg List.not_mem_nil]

/-- A change that leaves the tables alone. -/
theorem of_eq (hc : ∀ d, (f d).claimResources = d.claimResources) (ha : ∀ d, (f d).resourceActions = d.resourceActions)
    (hr : ∀ d, (f d).resources = d.resources) (hd : ∀ d, (f d).disputes = d.disputes) : Makes L o .nothing f := by
  refine ⟨fun d => ⟨trivial, fun k _ => ?_⟩, fun d => (hc d).trans (List.append_nil _).symm,
    fun d => (ha d).trans (List.append_nil _).symm, fun d r => ?_, fun d c u' hu' => Or.inl ⟨u', by rwa [hd d] at hu', rfl⟩⟩
  · cases k with
    | dispute c => exact ⟨by rw [hd d], by simp only [Db.claimedLines, hc d], by rw [Db.remedies, ha d, Db.remedies]⟩
    | resource r => exact (congrArg (fun t => (t.get? r).map Resource.orderId) (hr d))
    | _ => trivial
  · rw [Db.orderOf, hr d]
    exact (if_neg List.not_mem_nil).symm

variable {c r : ℕ}

theorem case (hc : .dispute c ∈ L) {f : Dispute → Dispute} (hf : ∀ u, (f u).orderId = u.orderId) :
    Makes L o .nothing (Db.modifyDispute c f) := by
  refine ⟨fun d => ⟨trivial, fun k hk => ?_⟩, fun d => (List.append_nil _).symm, fun d => (List.append_nil _).symm,
    fun d r => (if_neg List.not_mem_nil).symm, fun d c' u' hu' => Or.inl ?_⟩
  · cases k with
    | dispute c' => exact ⟨Table.get?_modify_of_ne _ (fun h : c' = c => hk (h ▸ hc)) f, rfl, rfl⟩
    | resource r => rfl
    | _ => trivial
  · rw [Db.modifyDispute_disputes, Table.get?_modify] at hu'
    split_ifs at hu'
    · obtain ⟨u, hu, rfl⟩ := Option.map_eq_some_iff.mp hu'
      exact ⟨u, hu, hf u⟩
    · exact ⟨u', hu', rfl⟩

theorem newCase (hc : .dispute c ∈ L) {v : Dispute} (hv : v.orderId = o) :
    Makes L o ⟨[c], [], [], []⟩ (Db.insertDispute c v) := by
  refine ⟨fun d => ⟨trivial, fun k hk => ?_⟩, fun d => (List.append_nil _).symm, fun d => (List.append_nil _).symm,
    fun d r => (if_neg List.not_mem_nil).symm, fun d c' u' hu' => ?_⟩
  · cases k with
    | dispute c' => exact ⟨Table.get?_insert_of_ne (fun h : c' = c => hk (h ▸ hc)) v, rfl, rfl⟩
    | resource r => rfl
    | _ => trivial
  · rw [Db.insertDispute_disputes, Table.get?_insert_eq] at hu'
    split_ifs at hu' with h
    · rcases hu : d.disputes.get? c with _ | u
      · rw [hu, Option.getD_none] at hu'
        obtain rfl := Option.some.inj hu'
        exact Or.inr ⟨h ▸ List.mem_cons_self, hv⟩
      · rw [hu, Option.getD_some] at hu'
        obtain rfl := Option.some.inj hu'
        exact Or.inl ⟨u, h ▸ hu, rfl⟩
    · exact Or.inl ⟨u', hu', rfl⟩

theorem claim (v : DisputeClaimResource) (hc : .dispute v.disputeId ∈ L) :
    Makes L o ⟨[], [v], [], []⟩ (Db.addClaimResource v) := by
  refine ⟨fun d => ⟨trivial, fun k hk => ?_⟩, fun d => rfl, fun d => (List.append_nil _).symm,
    fun d r => (if_neg List.not_mem_nil).symm, fun d c' u' hu' => Or.inl ⟨u', hu', rfl⟩⟩
  cases k with
  | dispute c' =>
    have hne : v.disputeId ≠ c' := fun h => hk (h ▸ hc)
    refine ⟨rfl, ?_, rfl⟩
    simp [Db.claimedLines, List.filter_append, hne]
  | resource r => rfl
  | _ => trivial

theorem action (v : DisputeResourceAction) (hc : .dispute v.disputeId ∈ L) :
    Makes L o ⟨[], [], [v], []⟩ (Db.addResourceAction v) := by
  refine ⟨fun d => ⟨trivial, fun k hk => ?_⟩, fun d => (List.append_nil _).symm, fun d => rfl,
    fun d r => (if_neg List.not_mem_nil).symm, fun d c' u' hu' => Or.inl ⟨u', hu', rfl⟩⟩
  cases k with
  | dispute c' =>
    have hne : v.disputeId ≠ c' := fun h => hk (h ▸ hc)
    refine ⟨rfl, rfl, ?_⟩
    simp [Db.remedies, List.filter_append, hne]
  | resource r => rfl
  | _ => trivial

theorem orderOf_modifyResource (d : Db) (r : ℕ) (f : Resource → Resource) (k : ℕ) :
    (d.modifyResource r f).orderOf k =
      if k = r then (d.resources.get? k).map fun v => (f v).orderId else d.orderOf k := by
  rw [Db.orderOf, Db.modifyResource_resources, Table.get?_modify]
  split_ifs with h
  · rw [Option.map_map]
    rfl
  · rfl

theorem line (r : ℕ) {f : Resource → Resource} (hf : ∀ v, (f v).orderId = v.orderId) :
    Makes L o .nothing (Db.modifyResource r f) := by
  have hsame : ∀ (d : Db) (k : ℕ), (d.modifyResource r f).orderOf k = d.orderOf k := fun d k => by
    rw [orderOf_modifyResource]
    split_ifs with h
    · exact congrArg (fun g => (d.resources.get? k).map g) (funext hf)
    · rfl
  refine ⟨fun d => ⟨trivial, fun k hk => ?_⟩, fun d => (List.append_nil _).symm, fun d => (List.append_nil _).symm,
    fun d k => (hsame d k).trans (if_neg List.not_mem_nil).symm, fun d c' u' hu' => Or.inl ⟨u', hu', rfl⟩⟩
  cases k with
  | dispute c' => exact ⟨rfl, rfl, rfl⟩
  | resource k => exact hsame d k
  | _ => trivial

theorem take (hr : .resource r ∈ L) {f : Resource → Resource} (hf : ∀ v, (f v).orderId = some o) :
    Makes L o ⟨[], [], [], [r]⟩ (Db.modifyResource r f) := by
  refine ⟨fun d => ⟨trivial, fun k hk => ?_⟩, fun d => (List.append_nil _).symm, fun d => (List.append_nil _).symm,
    fun d k => ?_, fun d c' u' hu' => Or.inl ⟨u', hu', rfl⟩⟩
  · cases k with
    | dispute c' => exact ⟨rfl, rfl, rfl⟩
    | resource k =>
      refine (orderOf_modifyResource d r f k).trans (if_neg ?_)
      rintro rfl
      exact hk hr
    | _ => trivial
  · rw [orderOf_modifyResource, Db.orderOf, Option.map_map]
    simp only [List.mem_singleton, Function.comp_def, hf]

theorem of_wallet {S : ℕ → Prop} (h : WalletWrite S f) : Makes L o .nothing f := by
  cases h <;> exact of_eq (fun _ => rfl) (fun _ => rfl) (fun _ => rfl) fun _ => rfl

theorem of_money {S : ℕ → Prop} (h : MoneyWrite S f) : Makes L o .nothing f := by
  cases h with
  | wallet h => exact of_wallet h
  | _ => exact of_eq (fun _ => rfl) (fun _ => rfl) (fun _ => rfl) fun _ => rfl

end Makes

/-! ### Parts that do none of this -/

/-- The writes that end a remedy. -/
inductive SettleWrite (c : ℕ) : (Db → Db) → Prop
  | money {f : Db → Db} (h : MoneyWrite (fun _ => True) f) : SettleWrite c f
  | order (o : ℕ) (f : Order → Order) : SettleWrite c (Db.modifyOrder o f)
  | case (f : Dispute → Dispute) (h : ∀ u, (f u).orderId = u.orderId) : SettleWrite c (Db.modifyDispute c f)

theorem SettleWrite.makes {c o : ℕ} {L : List RowKey} (hc : .dispute c ∈ L) {f : Db → Db} (h : SettleWrite c f) :
    Makes L o .nothing f := by
  cases h with
  | money h => exact .of_money h
  | order o f => exact .of_eq (fun _ => rfl) (fun _ => rfl) (fun _ => rfl) fun _ => rfl
  | case f h => exact .case hc h

section Settle

variable (cfg : Settings) (c o : ℕ) (order : Order)

theorem settles_refundEscrow (buyer : ℕ) (x : ℤ) (s : String) :
    (refundEscrow cfg o buyer x s).Writes (SettleWrite c) :=
  (writes_refundEscrow cfg o buyer x s (S := fun _ => True) trivial).mono fun _ h => .money (.wallet h)

theorem settles_finalizeDispute (status : DisputeStatus) :
    (finalizeDispute cfg c o order status).Writes (SettleWrite c) := by
  have hpay : (payOut cfg o order).Writes (SettleWrite c) :=
    .bind (Tx.writes_read _) fun seller => .bind (writes_settlement cfg order seller) fun _ =>
      Tx.writes_when ((writes_releaseEscrow (S := fun _ => True) cfg o _ _ _).mono fun _ h => .money (.wallet h))
  refine .bind (Tx.writes_modify.mpr (.case _ fun _ => rfl)) fun _ =>
    .bind (Tx.writes_modify.mpr (.order _ _)) fun _ => .bind hpay fun _ => ?_
  split_ifs
  · exact .bind ((writes_clawbackCommissionForOrder (S := fun _ => True) cfg o).mono fun _ => .money) fun _ =>
      (writes_clawbackBuyerCashback (S := fun _ => True) cfg o).mono fun _ h => .money (.wallet h)
  · exact .bind ((writes_applyAffiliateCommission (S := fun _ => True) cfg o order).mono fun _ => .money) fun _ =>
      (writes_applyBuyerCashback (S := fun _ => True) cfg o _).mono fun _ h => .money (.wallet h)

theorem settles_closeRemedy : (closeRemedy cfg c o order).Writes (SettleWrite c) := by
  refine .bind (Tx.writes_read _) fun order => ?_
  split_ifs
  · exact settles_finalizeDispute cfg c o order _
  · exact .bind (Tx.writes_read _) fun _ => Tx.writes_when
      (Tx.writes_modify.mpr (.case _ fun u => (ages_offerResolutionDeadline cfg u).order))

end Settle

section Parts

variable {I : Db → Prop} {c o : ℕ} {x : CaseChange} {w : Db → Db} {L : List RowKey} {s : List Db} {d : Db}

/-- What a part of a transaction has come to: `x` was done, the locks are kept, and the others moved on. -/
def Reached (o : ℕ) (L : List RowKey) (d : Db) (x : CaseChange) (w' : Db → Db) (L' : List RowKey) (d' : Db) : Prop :=
  Makes L' o x w' ∧ L ⊆ L' ∧ warrantyRely.rel L d d'

theorem Reached.trans {L₁ L₂ : List RowKey} {d₁ d₂ : Db} {y : CaseChange} {w₁ w₂ : Db → Db} (h : Reached o L d x w₁ L₁ d₁)
    (h' : Reached o L₁ d₁ y w₂ L₂ d₂) : Reached o L d y w₂ L₂ d₂ :=
  ⟨h'.1, List.Subset.trans h.2.1 h'.2.1, warrantyRely.trans h.2.2 (warrantyRely.anti h.2.1 h'.2.2)⟩

/-- A part that does none of this. -/
theorem wp_quiet {α : Type} {t : Tx α} (h : Makes L o x w) (ht : t.Writes (Makes L o .nothing)) :
    t.wp warrantyRely I (fun _ w' L' _ d' => Reached o L d x w' L' d') w L s d := by
  refine Tx.wp_mono (Tx.wp_frame (P := fun f => Makes L o .nothing f) .id (fun _ _ hf hg => hf.quiet hg) ht) ?_
  rintro _ _ L' _ d' ⟨g, hg, rfl, hL, -, hd⟩
  exact ⟨(h.mono hL).quiet (hg.mono hL), hL, hd⟩

/-- A part that settles. -/
theorem wp_settles {α : Type} {t : Tx α} (h : Makes L o x w) (hc : .dispute c ∈ L) (ht : t.Writes (SettleWrite c)) :
    t.wp warrantyRely I (fun _ w' L' _ d' => Reached o L d x w' L' d') w L s d :=
  wp_quiet h (ht.mono fun _ hf => hf.makes hc)

end Parts

/-! ### Generations -/

theorem replacementParent_iff {m : ℕ} {delivered : Finset ℕ} {d : Db} {c : ℕ} {w : Warranty m delivered}
    (h : d.remedies c = w.remedies) (r x : ℕ) : d.replacementParent c r = some x ↔ (x, some r) ∈ w.remedies := by
  have hmem : ∀ y, (y, some r) ∈ w.remedies ↔
      ∃ a ∈ d.resourceActions, a.disputeId = c ∧ a.replacementResourceId = some r ∧ a.originalResourceId = y := by
    intro y
    rw [← h, Db.remedies, List.mem_map]
    constructor
    · rintro ⟨a, ha, heq⟩
      rw [List.mem_filter] at ha
      exact ⟨a, ha.1, of_decide_eq_true ha.2, (Prod.mk.inj heq).2, (Prod.mk.inj heq).1⟩
    · rintro ⟨a, ha, hc, hr, hy⟩
      exact ⟨a, List.mem_filter.mpr ⟨ha, decide_eq_true hc⟩, by rw [hr, hy]⟩
  rw [Db.replacementParent, Option.map_eq_some_iff]
  constructor
  · rintro ⟨a, ha, rfl⟩
    obtain ⟨hc, hr⟩ : a.disputeId = c ∧ a.replacementResourceId = some r := by simpa using List.find?_some ha
    exact (hmem _).mpr ⟨a, List.mem_reverse.mp (List.mem_of_find?_eq_some ha), hc, hr, rfl⟩
  · intro hx
    obtain ⟨a, ha, hc, hr, -⟩ := (hmem x).mp hx
    rcases hfind : d.resourceActions.reverse.find? (fun a => decide (a.disputeId = c ∧ a.replacementResourceId = some r))
      with _ | b
    · exact absurd (List.find?_eq_none.mp hfind a (List.mem_reverse.mpr ha)) (by simp [hc, hr])
    · obtain ⟨hc', hr'⟩ : b.disputeId = c ∧ b.replacementResourceId = some r := by simpa using List.find?_some hfind
      have hb := (hmem _).mpr ⟨b, List.mem_reverse.mp (List.mem_of_find?_eq_some hfind), hc', hr', rfl⟩
      exact ⟨b, hfind, w.original_unique hb hx⟩

/-- The loop counts the replacements, and neither meets a line twice nor runs out of fuel. -/
theorem generationFrom_eq {m : ℕ} {delivered : Finset ℕ} {w : Warranty m delivered} {parent : ℕ → Option ℕ}
    (hparent : ∀ r x, parent r = some x ↔ (x, some r) ∈ w.remedies) {x r n : ℕ} (hx : x ∈ delivered)
    (h : Leads w.remedies x r n) {fuel : ℕ} {seen : List ℕ} (hfuel : n < fuel)
    (hseen : ∀ s ∈ seen, ∃ k, Leads w.remedies x s (n + k + 1)) : generationFrom parent fuel seen r = n := by
  induction h generalizing fuel seen with
  | start =>
    obtain ⟨fuel, rfl⟩ := Nat.exists_eq_succ_of_ne_zero hfuel.ne'
    have hnone : parent x = none := by
      by_contra hsome
      obtain ⟨y, hy⟩ := Option.ne_none_iff_exists'.mp hsome
      exact w.new x (w.mem_replacements.mpr ⟨y, (hparent x y).mp hy⟩) hx
    rw [generationFrom, hnone]
  | @hop y r n h hr ih =>
    obtain ⟨fuel, rfl⟩ := Nat.exists_eq_succ_of_ne_zero (Nat.ne_of_gt (Nat.zero_lt_of_lt hfuel))
    have hnew : r ∉ seen := by
      intro hin
      obtain ⟨k, hk⟩ := hseen r hin
      have := (w.leads_unique hx hx (.hop h hr) hk).2
      omega
    have hrec : generationFrom parent fuel (r :: seen) y = n := by
      refine ih (Nat.lt_of_succ_lt_succ hfuel) fun s hs => ?_
      rcases List.mem_cons.mp hs with rfl | hs
      · exact ⟨0, .hop h hr⟩
      · obtain ⟨k, hk⟩ := hseen s hs
        exact ⟨k + 1, by rwa [show n + (k + 1) + 1 = n + 1 + k + 1 by omega]⟩
    rw [generationFrom, (hparent r y).mpr hr]
    simp only [if_neg hnew, hrec]
    omega

/-- **The generation of a line is its distance from a delivered one.** -/
theorem replacementGeneration_eq {m : ℕ} {delivered : Finset ℕ} {d : Db} {c : ℕ} {w : Warranty m delivered}
    (h : d.remedies c = w.remedies) {x r n : ℕ} (hx : x ∈ delivered) (hlead : Leads w.remedies x r n) :
    d.replacementGeneration c r = n := by
  have hlen : w.remedies.length ≤ d.resourceActions.length := by
    rw [← h, Db.remedies, List.length_map]
    exact List.length_filter_le _ _
  exact generationFrom_eq (replacementParent_iff h) hx hlead
    (Nat.lt_succ_of_le ((w.le_length_of_leads hx hlead).trans hlen)) fun s hs => absurd hs List.not_mem_nil

/-! ### The case that is followed -/

/-- The case reads as the warranty says. -/
structure Db.Holds {delivered : Finset ℕ} (d : Db) (c o : ℕ) (w : Warranty 1 delivered) : Prop where
  claims : (d.claimedLines c).1 = w.claims
  remedies : d.remedies c = w.remedies
  lines : ∀ r, d.orderOf r = some (some o) ↔ w.IsLine r
  order : ∀ u, d.disputes.get? c = some u → u.orderId = o
  kinds : ∀ a ∈ d.resourceActions, a.disputeId = c → (a.action = .refund ↔ a.replacementResourceId = none)

/-- The case is under warranty. -/
def Db.Warranted (delivered : Finset ℕ) (c o : ℕ) (d : Db) : Prop := ∃ w : Warranty 1 delivered, d.Holds c o w

/-- The commits of the case, and what others do for another order. -/
def OrderCall.Concerns (c o : ℕ) : OrderCall → Db → Prop
  | .createDispute _ c' o' _ _ _ _, _ => c' = c → o' = o
  | .appendClaimBatch .., _ => True
  | .sellerResolveResources _ _ c' _ _ _ _ _ _, d => c' ≠ c → ∀ u ∈ d.disputes.get? c', u.orderId ≠ o
  | _, _ => False

instance decidableConcerns (c o : ℕ) (call : OrderCall) (d : Db) : Decidable (call.Concerns c o d) := by
  cases call <;> unfold OrderCall.Concerns <;> infer_instance

/-- The sessions, in the runs of one case. -/
def warrantyMachine (c o : ℕ) : Machine Db RowKey Abort Unit OrderCall := ⟨OrderCall.code, fun call _ d => call.Concerns c o d⟩

section Owes

variable {delivered : Finset ℕ} {c₀ o₀ c o : ℕ} {call : OrderCall} {x : CaseChange} {w : Db → Db} {L : List RowKey}
  {s : List Db} {d d' : Db}

/-- What a session owes at its commit. -/
abbrev warrantyOwes (delivered : Finset ℕ) (c₀ o₀ : ℕ) (call : OrderCall) :
    Unit → (Db → Db) → List RowKey → List Db → Db → Prop :=
  Commits warrantyRely (Db.Warranted delivered c₀ o₀) (warrantyMachine c₀ o₀) (fun _ _ _ _ => True) call

/-- What has been checked of the lines of a claim. -/
structure Claimable (delivered : Finset ℕ) (c₀ c o : ℕ) (ids : List ℕ) (L : List RowKey) (d : Db) : Prop where
  nodup : ids.Nodup
  case : .dispute c ∈ L
  lines : ∀ r ∈ ids, .resource r ∈ L ∧ d.orderOf r = some (some o)
  new : ∀ r ∈ ids, r ∉ (d.claimedLines c).1
  reach : c = c₀ → ∀ r ∈ ids, ∃ x ∈ delivered, ∃ n ≤ 1, Leads (d.remedies c₀) x r n

theorem Claimable.nil (hc : .dispute c ∈ L) : Claimable delivered c₀ c o [] L d :=
  ⟨List.nodup_nil, hc, fun _ h => absurd h List.not_mem_nil, fun _ h => absurd h List.not_mem_nil,
    fun _ _ h => absurd h List.not_mem_nil⟩

theorem Claimable.stable {ids : List ℕ} {L' : List RowKey} (h : Claimable delivered c₀ c o ids L d) (hL : L ⊆ L')
    (hd : warrantyRely.rel L d d') : Claimable delivered c₀ c o ids L' d' := by
  obtain ⟨-, hclaims, hremedies⟩ := warrantyRely_case hd h.case
  refine ⟨h.nodup, hL h.case, fun r hr => ⟨hL (h.lines r hr).1, ?_⟩, ?_, ?_⟩
  · rw [warrantyRely_line hd (h.lines r hr).1, (h.lines r hr).2]
  · rw [hclaims]
    exact h.new
  · rintro rfl
    rw [hremedies]
    exact h.reach rfl

/-- The claims of a batch. -/
def batchClaims (cfg : Settings) (c : ℕ) (key : String) (ids : List ℕ) : List DisputeClaimResource :=
  ids.map fun r => ⟨c, r, key, cfg.startedAt⟩

theorem claimed_append (cfg : Settings) (c c' : ℕ) (key : String) (ids : List ℕ) (claims : List DisputeClaimResource) :
    (((claims ++ batchClaims cfg c key ids).filter fun v => v.disputeId = c').map DisputeClaimResource.resourceId) =
      ((claims.filter fun v => v.disputeId = c').map DisputeClaimResource.resourceId) ++ if c = c' then ids else [] := by
  have hmem : ∀ v ∈ batchClaims cfg c key ids, v.disputeId = c := by
    intro v hv
    obtain ⟨r, -, rfl⟩ := List.mem_map.mp hv
    rfl
  rw [List.filter_append, List.map_append]
  congr 1
  split_ifs with h
  · rw [List.filter_eq_self.mpr fun v hv => decide_eq_true ((hmem v hv).trans h), batchClaims, List.map_map]
    exact List.map_id _
  · rw [List.filter_eq_nil_iff.mpr fun v hv hc => h ((hmem v hv).symm.trans (of_decide_eq_true hc))]
    rfl

/-- **Claims that were checked keep the warranty.** -/
theorem Claimable.owes {cfg : Settings} {key : String} {ids : List ℕ} (h : Claimable delivered c₀ c o ids L d)
    (hw : Makes L o ⟨x.opened, batchClaims cfg c key ids, [], []⟩ w)
    (hopened : ∀ e, warrantyRely.rel L d e → call.Concerns c₀ o₀ e → c₀ ∈ x.opened → o = o₀)
    (hcase : c = c₀ → o = o₀) :
    warrantyOwes delivered c₀ o₀ call () w L s d := by
  rintro e he ⟨v, hv⟩ hcall
  refine ⟨?_, trivial, fun L' hL' => hw.moves.guar hL' e⟩
  obtain ⟨hnodup, -, hlines, hnew, hreach⟩ := h.stable (List.Subset.refl L) he
  have hclaims : ((w e).claimedLines c₀).1 = v.claims ++ if c = c₀ then ids else [] := by
    rw [← hv.claims]
    refine Eq.trans ?_ (claimed_append cfg c c₀ key ids e.claimResources)
    rw [Db.claimedLines, hw.claims]
  have hremedies : (w e).remedies c₀ = v.remedies := (hw.remedies_eq rfl e c₀).trans hv.remedies
  have hline : ∀ r, (w e).orderOf r = e.orderOf r := hw.orderOf_eq rfl e
  have horder : ∀ u, (w e).disputes.get? c₀ = some u → u.orderId = o₀ := by
    intro u hu
    rcases hw.cases e c₀ u hu with ⟨u₀, hu₀, ho⟩ | ⟨hin, ho⟩
    · exact ho.trans (hv.order u₀ hu₀)
    · exact ho.trans (hopened e he hcall hin)
  have hkinds : ∀ a ∈ (w e).resourceActions, a.disputeId = c₀ → (a.action = .refund ↔ a.replacementResourceId = none) := by
    rw [hw.actions_eq rfl]
    exact hv.kinds
  by_cases hc : c = c₀
  · subst hc
    rw [if_pos rfl] at hclaims
    have ho : o = o₀ := hcase rfl
    subst ho
    have hreach' := hreach rfl
    rw [hv.remedies] at hreach'
    rw [hv.claims] at hnew
    refine ⟨v.claim ids hnodup hnew hreach', hclaims, hremedies, fun r => ?_, horder, hkinds⟩
    rw [hline r]
    exact hv.lines r
  · rw [if_neg hc, List.append_nil] at hclaims
    exact ⟨v, hclaims, hremedies, fun r => (hline r ▸ hv.lines r), horder, hkinds⟩

/-- As many rows as were named, among the named ones. -/
theorem nodup_of_length {α : Type} {found : List (ℕ × α)} {ids : List ℕ} (hnodup : (found.map Prod.fst).Nodup)
    (hin : ∀ r ∈ found, r.1 ∈ ids) (hlen : found.length = ids.length) :
    ids.Nodup ∧ ∀ r ∈ ids, ∃ v, (r, v) ∈ found := by
  have hsub : found.map Prod.fst ⊆ ids := by
    intro r hr
    obtain ⟨row, hrow, rfl⟩ := List.mem_map.mp hr
    exact hin row hrow
  have hperm : (found.map Prod.fst).Perm ids :=
    (hnodup.subperm hsub).perm_of_length_le (by rw [List.length_map, hlen])
  refine ⟨hperm.nodup hnodup, fun r hr => ?_⟩
  obtain ⟨⟨_, v⟩, hrow, rfl⟩ := List.mem_map.mp (hperm.mem_iff.mpr hr)
  exact ⟨v, hrow⟩

/-- The rows of a table that meet a condition. -/
theorem nodup_filter_rows (t : Table ℕ Resource) (p : ℕ × Resource → Bool) : ((t.rows.filter p).map Prod.fst).Nodup :=
  t.nodup.sublist (List.filter_sublist.map _)

/-- What `lockOrderResources` finds. -/
theorem lines_of_found {ids : List ℕ}
    (hlen : (d.resources.rows.filter fun r => r.1 ∈ ids ∧ r.2.orderId = some o).length = ids.length) :
    ids.Nodup ∧ ∀ r ∈ ids, r ∈ (d.resources.rows.filter fun r => r.1 ∈ ids ∧ r.2.orderId = some o).map Prod.fst ∧
      d.orderOf r = some (some o) := by
  obtain ⟨hnodup, hfound⟩ := nodup_of_length (nodup_filter_rows d.resources _) (fun r hr =>
    (of_decide_eq_true (List.mem_filter.mp hr).2).1) hlen
  refine ⟨hnodup, fun r hr => ?_⟩
  obtain ⟨v, hv⟩ := hfound r hr
  obtain ⟨hrow, hp⟩ := List.mem_filter.mp hv
  have ho : v.orderId = some o := (of_decide_eq_true hp).2
  exact ⟨List.mem_map_of_mem hv, by rw [Db.orderOf, Table.get?_eq_some_iff.mpr hrow, Option.map_some, ho]⟩

/-- A batch of claims, recorded one after the other. -/
theorem Makes.batch {cfg : Settings} {key : String} {opened : List ℕ} (hc : .dispute c ∈ L) (ids : List ℕ)
    {claims : List DisputeClaimResource} (h : Makes L o ⟨opened, claims, [], []⟩ w) :
    Makes L o ⟨opened, claims ++ batchClaims cfg c key ids, [], []⟩ fun d =>
      ids.foldl (fun d r => d.addClaimResource ⟨c, r, key, cfg.startedAt⟩) (w d) := by
  induction ids generalizing w claims with
  | nil => exact (List.append_nil claims).symm ▸ h
  | cons r ids ih =>
    have hstep := h.comp (Makes.claim (o := o) ⟨c, r, key, cfg.startedAt⟩ hc)
    simp only [CaseChange.andThen, List.append_nil] at hstep
    have hrest := ih hstep
    rwa [List.append_assoc] at hrest

theorem wp_addClaimResources {cfg : Settings} {key : String} {opened ids : List ℕ} (hco : c = c₀ → o = o₀)
    (hc : .dispute c ∈ L) (h : Makes L o ⟨opened, [], [], []⟩ w) :
    (addClaimResources cfg c o ids key).wp warrantyRely (Db.Warranted delivered c₀ o₀) (fun _ w' L' _ d' =>
      Reached o L d ⟨opened, batchClaims cfg c key ids, [], []⟩ w' L' d' ∧ Claimable delivered c₀ c o ids L' d') w L s d := by
  rw [addClaimResources, Tx.wp_bind]
  intro d₁ hd₁ _
  simp only [Tx.wp_bind, Tx.wp_require, Tx.wp_read, Tx.wp_forEach_modify]
  intro hlen d₂ hd₂ _ hnew _ d₃ hd₃ hI hgen
  obtain ⟨hnodup, hfound⟩ := lines_of_found hlen
  set found := (w d₁).resources.rows.filter fun r => decide (r.1 ∈ ids ∧ r.2.orderId = some o)
  set locked := found.map (fun r => RowKey.resource r.1) ++ L
  have hL : L ⊆ locked := List.subset_append_right _ _
  have hd₁₃ : warrantyRely.rel locked d₁ d₃ := warrantyRely.trans hd₂ hd₃
  have hlines : ∀ r ∈ ids, .resource r ∈ locked ∧ d₃.orderOf r = some (some o) := by
    intro r hr
    obtain ⟨hin, ho⟩ := hfound r hr
    obtain ⟨row, hrow, rfl⟩ := List.mem_map.mp hin
    have hlock : .resource row.1 ∈ locked := List.mem_append_left _ (List.mem_map_of_mem hrow)
    exact ⟨hlock, by rw [warrantyRely_line hd₁₃ hlock, ← h.orderOf_eq rfl, ho]⟩
  refine ⟨⟨(h.mono hL).batch (hL hc) ids, hL, warrantyRely.trans hd₁ (warrantyRely.anti hL hd₁₃)⟩,
    hnodup, hL hc, hlines, fun r hr => ?_, ?_⟩
  · rw [(warrantyRely_case hd₃ (hL hc)).2.1, ← h.claimed_eq rfl]
    exact hnew r hr
  · -- a line is some replacements away from a delivered one, and the loop has counted them
    rintro rfl r hr
    obtain ⟨v, hv⟩ := hI
    obtain ⟨x, hx, n, -, hlead⟩ := v.depth_le ((hv.lines r).mp ((hco rfl) ▸ (hlines r hr).2))
    have hremedies : (w d₃).remedies c = v.remedies := (h.remedies_eq rfl d₃ c).trans hv.remedies
    have hn := hgen _ (List.mem_map_of_mem hr)
    rw [replacementGeneration_eq hremedies hx hlead] at hn
    exact ⟨x, hx, n, hn, hv.remedies ▸ hlead⟩

/-- **What a batch of claims has checked.** -/
theorem wp_addClaims {cfg : Settings} {key : String} {opened ids lineNos : List ℕ} (hco : c = c₀ → o = o₀)
    (hc : .dispute c ∈ L) (h : Makes L o ⟨opened, [], [], []⟩ w) :
    (addClaims cfg c o ids lineNos key).wp warrantyRely (Db.Warranted delivered c₀ o₀) (fun _ w' L' _ d' =>
      Reached o L d ⟨opened, batchClaims cfg c key ids, [], []⟩ w' L' d' ∧ Claimable delivered c₀ c o ids L' d') w L s d := by
  have hstock : (Tx.when (ids ≠ []) (addClaimResources cfg c o ids key)).wp warrantyRely (Db.Warranted delivered c₀ o₀)
      (fun _ w' L' _ d' => Reached o L d ⟨opened, batchClaims cfg c key ids, [], []⟩ w' L' d' ∧
        Claimable delivered c₀ c o ids L' d') w L s d := by
    rw [Tx.wp_when]
    refine ⟨fun _ => wp_addClaimResources hco hc h, fun hids => ?_⟩
    obtain rfl := not_not.mp hids
    exact ⟨⟨h, List.Subset.refl L, warrantyRely.refl L d⟩, .nil hc⟩
  have hproxies : (Tx.when (lineNos ≠ []) (addClaimProxies cfg c o lineNos key)).Writes
      (fun f => ∀ L, Makes L o .nothing f) :=
    Tx.writes_when (.bind (writes_lockOrderAllocations o _) fun _ => .bind (Tx.writes_require _ _) fun _ =>
      .bind (Tx.writes_read _) fun _ => .bind (Tx.writes_require _ _) fun _ => .bind (Tx.writes_require _ _) fun _ =>
        Tx.writes_forEach fun _ => Tx.writes_modify.mpr fun _ =>
          .of_eq (fun _ => rfl) (fun _ => rfl) (fun _ => rfl) fun _ => rfl)
  rw [addClaims, Tx.wp_bind]
  refine Tx.wp_mono hstock ?_
  rintro _ w₁ L₁ s₁ d₁ ⟨hreached, hclaimable⟩
  refine Tx.wp_mono (wp_quiet hreached.1 (hproxies.mono fun f hf => hf L₁)) ?_
  rintro _ w₂ L₂ s₂ d₂ hrest
  exact ⟨hreached.trans hrest, hclaimable.stable hrest.2.1 hrest.2.2⟩

theorem createDispute_keeps (cfg : Settings) (c o buyer : ℕ) (ids lineNos : List ℕ) (key : Option String) :
    (createDispute cfg c o buyer ids lineNos key).wp warrantyRely (Db.Warranted delivered c₀ o₀)
      (warrantyOwes delivered c₀ o₀ (.createDispute cfg c o buyer ids lineNos key)) id [] [] d := by
  by_cases hco : c = c₀ → o = o₀
  · simp only [createDispute, lockBuyerOrder, lockOrderRow, lockOrder, Tx.wp_bind, Tx.wp_lock, Tx.wp_getOrElse,
      Tx.wp_require, Tx.wp_pure, Tx.wp_read]
    intro d₁ hd₁ _ order _ _ d₂ hd₂ _
    split
    next => exact fun _ _ _ => trivial
    next =>
      simp only [addDispute, Tx.wp_bind, Tx.wp_require, Tx.wp_read, wp_insertRow]
      intro _ _ _ d₃ _ _ _ d₄ _ _ _
      have hopen : ∀ v : Dispute, v.orderId = o → Makes [.dispute c, .order o] o ⟨[c], [], [], []⟩ fun d =>
          Db.insertDispute c v (id d) := fun v => .newCase List.mem_cons_self
      refine Tx.wp_mono (wp_addClaims hco List.mem_cons_self (hopen _ rfl)) ?_
      rintro _ w' L' s' d' ⟨hreached, hclaimable⟩
      exact hclaimable.owes (x := ⟨[c], [], [], []⟩) hreached.1 (fun _ _ _ hin => hco (List.mem_singleton.mp hin).symm) hco
  · -- the case that is followed is not opened for another order
    exact Tx.wp_of_forall (fun _ _ _ _ _ _ _ _ hcall => absurd hcall hco) _

theorem appendClaimBatch_keeps (cfg : Settings) (o buyer : ℕ) (ids lineNos : List ℕ) (key : String) :
    (appendClaimBatch cfg o buyer ids lineNos key).wp warrantyRely (Db.Warranted delivered c₀ o₀)
      (warrantyOwes delivered c₀ o₀ (.appendClaimBatch cfg o buyer ids lineNos key)) id [] [] d := by
  simp only [appendClaimBatch, lockBuyerOrder, lockOrderRow, lockOrder, Tx.wp_bind, Tx.wp_lock, Tx.wp_getOrElse,
    Tx.wp_require, Tx.wp_pure, Tx.wp_read, lockOpenDispute]
  intro d₁ hd₁ _ order _ _ _ d₂ hd₂ hI
  rintro ⟨c, u⟩ hfind
  obtain ⟨v, hv⟩ := hI
  have hrow : d₂.disputes.get? c = some u := Table.get?_eq_some_iff.mpr (List.mem_of_find?_eq_some hfind)
  have hu : u.orderId = o ∧ u.status = .open_ := by simpa using List.find?_some hfind
  have hco : c = c₀ → o = o₀ := by
    rintro rfl
    exact hu.1.symm.trans (hv.order u hrow)
  have hlock : .dispute c ∈ (d₂.openDispute o).toList.map (fun r => RowKey.dispute r.1) ++ [.order o] := by
    rw [show d₂.openDispute o = some (c, u) from hfind]
    exact List.mem_cons_self
  intro d₃ _ _ _
  refine Tx.wp_mono (wp_addClaims hco hlock .id) ?_
  rintro _ w' L' s' d' ⟨hreached, hclaimable⟩
  rw [modifyCase, Tx.wp_modify]
  exact hclaimable.owes (x := .nothing) (hreached.1.quiet (.case hclaimable.case fun _ => rfl))
    (fun _ _ _ hin => absurd hin List.not_mem_nil) hco

/-! ### Remedies -/

/-- What has been checked of the lines that are remedied. -/
structure Originals (c o : ℕ) (originals : List ℕ) (L : List RowKey) (d : Db) : Prop where
  case : .dispute c ∈ L
  row : ∃ u, d.disputes.get? c = some u ∧ u.orderId = o
  once : originals.Nodup
  open_ : ∀ x ∈ originals, x ∈ (d.claimedLines c).1 ∧ x ∉ (d.remedies c).map Prod.fst

/-- Lines that are free to replace others. -/
def Spare (replacements : List ℕ) (L : List RowKey) (d : Db) : Prop :=
  replacements.Nodup ∧ ∀ r ∈ replacements, .resource r ∈ L ∧ d.orderOf r = some none

theorem Originals.stable {originals : List ℕ} {L' : List RowKey} (h : Originals c o originals L d) (hL : L ⊆ L')
    (hd : warrantyRely.rel L d d') : Originals c o originals L' d' := by
  obtain ⟨hrow, hclaims, hremedies⟩ := warrantyRely_case hd h.case
  refine ⟨hL h.case, by rw [hrow]; exact h.row, h.once, ?_⟩
  rw [hclaims, hremedies]
  exact h.open_

theorem Spare.stable {replacements : List ℕ} {L' : List RowKey} (h : Spare replacements L d) (hL : L ⊆ L')
    (hd : warrantyRely.rel L d d') : Spare replacements L' d' := by
  refine ⟨h.1, fun r hr => ⟨hL (h.2 r hr).1, ?_⟩⟩
  rw [warrantyRely_line hd (h.2 r hr).1, (h.2 r hr).2]

/-- What has been checked of a remedy. -/
structure Remediable (c o : ℕ) (actions : List DisputeResourceAction) (replacements : List ℕ) (L : List RowKey) (d : Db) :
    Prop where
  originals : Originals c o (actions.map DisputeResourceAction.originalResourceId) L d
  own : ∀ a ∈ actions, a.disputeId = c ∧ (a.action = .refund ↔ a.replacementResourceId = none)
  replaced : actions.filterMap DisputeResourceAction.replacementResourceId = replacements
  spare : Spare replacements L d

theorem Remediable.stable {actions : List DisputeResourceAction} {replacements : List ℕ} {L' : List RowKey}
    (h : Remediable c o actions replacements L d) (hL : L ⊆ L') (hd : warrantyRely.rel L d d') :
    Remediable c o actions replacements L' d' :=
  ⟨h.originals.stable hL hd, h.own, h.replaced, h.spare.stable hL hd⟩

/-- The remedies of a case after some more. -/
theorem remedies_append {actions : List DisputeResourceAction} (hown : ∀ a ∈ actions, a.disputeId = c) (c' : ℕ) {e' e : Db}
    (h : e'.resourceActions = e.resourceActions ++ actions) :
    e'.remedies c' = e.remedies c' ++
      if c = c' then actions.map fun a => (a.originalResourceId, a.replacementResourceId) else [] := by
  rw [Db.remedies, h, List.filter_append, List.map_append, Db.remedies]
  congr 1
  split_ifs with hc
  · rw [List.filter_eq_self.mpr fun a ha => decide_eq_true ((hown a ha).trans hc)]
  · rw [List.filter_eq_nil_iff.mpr fun a ha hc' => hc ((hown a ha).symm.trans (of_decide_eq_true hc'))]
    rfl

/-- **Remedies that were checked keep the warranty.** -/
theorem Remediable.owes {actions : List DisputeResourceAction} {replacements : List ℕ}
    (h : Remediable c o actions replacements L d) (hw : Makes L o ⟨[], [], actions, replacements⟩ w)
    (hother : ∀ e, call.Concerns c₀ o₀ e → c ≠ c₀ → ∀ u ∈ e.disputes.get? c, u.orderId ≠ o₀) :
    warrantyOwes delivered c₀ o₀ call () w L s d := by
  rintro e he ⟨v, hv⟩ hcall
  refine ⟨?_, trivial, fun L' hL' => hw.moves.guar hL' e⟩
  obtain ⟨⟨-, ⟨u, hu, huo⟩, honce, hopen⟩, hown, hreplaced, hnodup, hfresh⟩ := h.stable (List.Subset.refl L) he
  have hclaims : ((w e).claimedLines c₀).1 = v.claims := (hw.claimed_eq rfl e c₀).trans hv.claims
  have hremedies := remedies_append (fun a ha => (hown a ha).1) c₀ (hw.actions e)
  have horder : ∀ u, (w e).disputes.get? c₀ = some u → u.orderId = o₀ := by
    intro u hu
    rcases hw.cases e c₀ u hu with ⟨u₀, hu₀, ho⟩ | ⟨hin, -⟩
    · exact ho.trans (hv.order u₀ hu₀)
    · exact absurd hin List.not_mem_nil
  have hkinds : ∀ a ∈ (w e).resourceActions, a.disputeId = c₀ → (a.action = .refund ↔ a.replacementResourceId = none) := by
    intro a ha hc
    rw [hw.actions e, List.mem_append] at ha
    exact ha.elim (fun ha => hv.kinds a ha hc) fun ha => (hown a ha).2
  by_cases hc : c = c₀
  · subst hc
    obtain rfl : o = o₀ := huo.symm.trans (hv.order u hu)
    rw [if_pos rfl] at hremedies
    set more := actions.map fun a => (a.originalResourceId, a.replacementResourceId) with hmore
    have hfst : more.map Prod.fst = actions.map DisputeResourceAction.originalResourceId := by
      rw [hmore, List.map_map]
      rfl
    have hsnd : more.filterMap Prod.snd = replacements := by
      rw [hmore, List.filterMap_map, ← hreplaced]
      rfl
    have hnew : ∀ r ∈ replacements, ¬v.IsLine r := fun r hr hline => by
      have hsome := (hv.lines r).mpr hline
      rw [(hfresh r hr).2] at hsome
      exact absurd hsome (by simp)
    rw [hv.claims, hv.remedies] at hopen
    obtain ⟨v', hclaims', hremedies'⟩ : ∃ v' : Warranty 1 delivered, v'.claims = v.claims ∧ v'.remedies = v.remedies ++ more :=
      ⟨v.remedy more (hfst ▸ honce) (fun x hx => (hopen x (hfst ▸ hx)).1) (fun x hx => (hopen x (hfst ▸ hx)).2)
        (hsnd ▸ hnodup) fun r hr => hnew r (hsnd ▸ hr), rfl, rfl⟩
    refine ⟨v', hclaims.trans hclaims'.symm, by rw [hremedies, hv.remedies, hremedies'], fun r => ?_, horder, hkinds⟩
    rw [Warranty.isLine_append hremedies', hw.lines, ← hv.lines r, hsnd]
    by_cases hr : r ∈ replacements
    · simp [hr, (hfresh r hr).2]
    · simp [hr]
  · rw [if_neg hc, List.append_nil, hv.remedies] at hremedies
    have ho : o ≠ o₀ := huo ▸ hother e hcall hc u hu
    refine ⟨v, hclaims, hremedies, fun r => ?_, horder, hkinds⟩
    rw [hw.lines, ← hv.lines r]
    by_cases hr : r ∈ replacements
    · simp [hr, (hfresh r hr).2, ho]
    · simp [hr]

/-- The rows that were found, in the order they were named. -/
theorem named_sublist {α : Type} (ids : List ℕ) (found : List (ℕ × α)) :
    ((ids.filterMap fun id => found.find? fun r => r.1 = id).map Prod.fst).Sublist ids := by
  induction ids with
  | nil => exact List.Sublist.refl _
  | cons id ids ih =>
    rcases hfind : found.find? (fun r => decide (r.1 = id)) with _ | row
    · simp only [List.filterMap_cons, hfind]
      exact ih.cons id
    · simp only [List.filterMap_cons, hfind, List.map_cons]
      obtain rfl : row.1 = id := by simpa using List.find?_some hfind
      exact ih.cons_cons row.1

theorem wp_claimedOriginals (ids : List ℕ) (h : Makes L o .nothing w) (hc : .dispute c ∈ L)
    (hrow : ∃ u, d.disputes.get? c = some u ∧ u.orderId = o) :
    (claimedOriginals c o ids).wp warrantyRely (Db.Warranted delivered c₀ o₀) (fun originals w' L' _ d' =>
      Reached o L d .nothing w' L' d' ∧ Originals c o (originals.map Prod.fst) L' d') w L s d := by
  rw [claimedOriginals, Tx.wp_bind]
  intro d₁ hd₁ _
  simp only [Tx.wp_bind, Tx.wp_require, Tx.wp_read, Tx.wp_pure]
  intro hlen d₂ hd₂ _ hclaimed d₃ hd₃ _ hhandled _
  obtain ⟨hnodup, -⟩ := lines_of_found hlen
  set found := (w d₁).resources.rows.filter fun r => decide (r.1 ∈ ids ∧ r.2.orderId = some o)
  set locked := found.map (fun r => RowKey.resource r.1) ++ L
  have hL : L ⊆ locked := List.subset_append_right _ _
  have hd : warrantyRely.rel L d d₃ := warrantyRely.trans hd₁ (warrantyRely.anti hL (warrantyRely.trans hd₂ hd₃))
  have hsub := named_sublist ids found
  refine ⟨⟨h.mono hL, hL, hd⟩, hL hc, by rw [(warrantyRely_case hd hc).1]; exact hrow, hnodup.sublist hsub, fun x hx => ?_⟩
  have hx' := hsub.subset hx
  rw [(warrantyRely_case hd₃ (hL hc)).2.1, ← h.claimed_eq rfl, ← h.remedies_eq rfl, Db.remedies, List.map_map]
  exact ⟨hclaimed x hx', hhandled x hx'⟩

/-- Lines are given to the order, one after the other. -/
theorem Makes.takeAll {opened : List ℕ} {f : Resource → Resource} (hf : ∀ v, (f v).orderId = some o) (ids : List ℕ)
    (hids : ∀ r ∈ ids, .resource r ∈ L) {taken : List ℕ} (h : Makes L o ⟨opened, [], [], taken⟩ w) :
    Makes L o ⟨opened, [], [], taken ++ ids⟩ fun d => ids.foldl (fun d r => d.modifyResource r f) (w d) := by
  induction ids generalizing w taken with
  | nil => exact (List.append_nil taken).symm ▸ h
  | cons r ids ih =>
    have hstep := h.comp (Makes.take (o := o) (hids r List.mem_cons_self) hf)
    simp only [CaseChange.andThen, List.append_nil] at hstep
    have hrest := ih (fun k hk => hids k (List.mem_cons_of_mem r hk)) hstep
    rwa [List.append_assoc] at hrest

theorem nodup_claimable (variantId quantity : ℕ) (skipped : List ℕ) :
    ((d.claimable variantId skipped).take quantity).Nodup := by
  refine List.Nodup.sublist (List.take_sublist _ _) ?_
  rw [Db.claimable]
  exact ((List.mergeSort_perm _ _).map Prod.fst).nodup_iff.mpr (nodup_filter_rows d.resources _)

/-- Lines that are found free, and locked, are given to the order. -/
theorem Makes.spare {cfg : Settings} {durationDays : Option ℕ} (h : Makes L o .nothing w) {L' : List RowKey} (hL : L ⊆ L')
    (hd : warrantyRely.rel L d d') {rs : List ℕ} (hspare : Spare rs L' d') :
    Reached o L d ⟨[], [], [], rs⟩ (fun d => rs.foldl (fun d r => d.modifyResource r (Resource.assign cfg o durationDays)) (w d))
      L' d' :=
  ⟨(h.mono hL).takeAll (fun _ => rfl) rs fun r hr => (hspare.2 r hr).1, hL, hd⟩

theorem wp_takeStock {cfg : Settings} {skipped : List ℕ} {variantId quantity : ℕ} {durationDays : Option ℕ}
    (h : Makes L o .nothing w) :
    (tryClaimResources cfg skipped variantId quantity o durationDays).wp warrantyRely (Db.Warranted delivered c₀ o₀)
      (fun taken w' L' _ d' => ∀ rs ∈ taken, Reached o L d ⟨[], [], [], rs⟩ w' L' d' ∧ rs.length = quantity ∧
        Spare rs L' d') w L s d := by
  intro d₁ hd₁ _
  have hrest : ∀ ids : List ℕ, ids.length ≤ quantity → Spare ids (ids.map RowKey.resource ++ L) d₁ →
      (if ids.length < quantity then pure none else do
        Tx.forEach ids fun id => Tx.modify (Db.modifyResource id (Resource.assign cfg o durationDays))
        pure (some ids) : Tx (Option (List ℕ))).wp warrantyRely (Db.Warranted delivered c₀ o₀)
          (fun taken w' L' _ d' => ∀ rs ∈ taken, Reached o L d ⟨[], [], [], rs⟩ w' L' d' ∧ rs.length = quantity ∧
            Spare rs L' d') w (ids.map RowKey.resource ++ L) (w d₁ :: s) d₁ := by
    intro ids hle hspare
    rw [Tx.wp_ite, Tx.wp_pure, Tx.wp_bind, Tx.wp_forEach_modify, Tx.wp_pure]
    refine ⟨fun _ rs hrs => absurd hrs (by simp), fun hge rs hrs => ?_⟩
    obtain rfl : ids = rs := by simpa using hrs
    exact ⟨h.spare (List.subset_append_right _ _) hd₁ hspare, le_antisymm hle (not_lt.mp hge), hspare⟩
  refine hrest _ (List.length_take_le _ _) ⟨nodup_claimable variantId quantity skipped, fun r hr => ?_⟩
  obtain ⟨v, hv, hnone⟩ := mem_claimable (List.mem_of_mem_take hr)
  refine ⟨List.mem_append_left _ (List.mem_map_of_mem hr), ?_⟩
  rw [← h.orderOf_eq rfl, Db.orderOf, hv, Option.map_some, hnone]

/-- **What stock is chosen is free, and as much as was asked for.** -/
theorem wp_chooseReplacements {cfg : Settings} {skipped : List ℕ} {sellerId variantId count : ℕ}
    {durationDays : Option ℕ} (named : Option (List ℕ)) (h : Makes L o .nothing w) :
    (chooseReplacements cfg skipped o sellerId variantId count durationDays named).wp warrantyRely
      (Db.Warranted delivered c₀ o₀) (fun rs w' L' _ d' => Reached o L d ⟨[], [], [], rs⟩ w' L' d' ∧ rs.length = count ∧
        Spare rs L' d') w L s d := by
  rcases named with _ | ids
  · simp only [chooseReplacements, claimResources, Tx.wp_bind, Tx.wp_getOrElse]
    exact wp_takeStock h
  · simp only [chooseReplacements, Tx.wp_bind, Tx.wp_require]
    intro hcount d₁ hd₁ _
    simp only [Tx.wp_forEach_modify, Tx.wp_pure]
    intro hlen
    set found := (w d₁).resources.rows.filter fun r => decide (r.1 ∈ ids ∧ r.2.variantId = variantId ∧
      r.2.sellerId = sellerId ∧ r.2.status = .available ∧ r.2.orderId = none ∧ r.2.isArchived = false) with hfound
    obtain ⟨hnodup, hrow⟩ := nodup_of_length (nodup_filter_rows _ _)
      (fun r hr => (of_decide_eq_true (List.mem_filter.mp hr).2).1) hlen
    have hspare : Spare ids (found.map (fun r => RowKey.resource r.1) ++ L) d₁ := by
      refine ⟨hnodup, fun r hr => ?_⟩
      obtain ⟨v, hv⟩ := hrow r hr
      obtain ⟨hin, hp⟩ := List.mem_filter.mp hv
      have hnone : v.orderId = none := (of_decide_eq_true hp).2.2.2.2.1
      refine ⟨List.mem_append_left _ (List.mem_map_of_mem hv), ?_⟩
      rw [← h.orderOf_eq rfl, Db.orderOf, Table.get?_eq_some_iff.mpr hin, Option.map_some, hnone]
    exact ⟨h.spare (List.subset_append_right _ _) hd₁ hspare, hcount, hspare⟩

/-- What is recorded about a line. -/
def remedyOf (c : ℕ) (key : String) (action : RemedyAction) (original : ℕ × Resource) (replacement : Option ℕ) :
    DisputeResourceAction where
  disputeId := c
  originalResourceId := original.1
  replacementResourceId := replacement
  action
  refundAmount := if action = .refund then original.2.refundAmountCap.getD 0 else 0
  idempotencyKey := key

theorem wp_recordResourceAction {key : String} {action : RemedyAction} {original : ℕ × Resource} {replacement : Option ℕ}
    {actions : List DisputeResourceAction} {taken : List ℕ} (h : Makes L o ⟨[], [], actions, taken⟩ w)
    (hc : .dispute c ∈ L) :
    (recordResourceAction c key action original replacement).wp warrantyRely (Db.Warranted delivered c₀ o₀)
      (fun _ w' L' _ d' => Reached o L d ⟨[], [], actions ++ [remedyOf c key action original replacement], taken⟩ w' L' d')
        w L s d := by
  simp only [recordResourceAction, addResourceAction, Tx.wp_bind, Tx.wp_modify, Tx.wp_read, Tx.wp_require]
  intro d₁ hd₁ _ _
  have herror : Makes L o ⟨[], [], actions, taken⟩ fun d =>
      (w d).modifyResource original.1 fun r => { r with status := .error } := h.quiet (.line _ fun _ => rfl)
  have hall := herror.comp (Makes.action (o := o) (remedyOf c key action original replacement) hc)
  simp only [CaseChange.andThen, List.append_nil] at hall
  exact ⟨hall, List.Subset.refl L, hd₁⟩

/-- The rows of a remedy, one line after the other. -/
theorem wp_recordAll {α : Type} {key : String} {action : RemedyAction} {f : α → ℕ × Resource} {g : α → Option ℕ} (as : List α) {actions : List DisputeResourceAction} {taken : List ℕ}
    (h : Makes L o ⟨[], [], actions, taken⟩ w) (hc : .dispute c ∈ L) :
    (Tx.forEach as fun a => recordResourceAction c key action (f a) (g a)).wp warrantyRely
      (Db.Warranted delivered c₀ o₀) (fun _ w' L' _ d' => Reached o L d
        ⟨[], [], actions ++ as.map fun a => remedyOf c key action (f a) (g a), taken⟩ w' L' d') w L s d := by
  induction as generalizing w L s d actions with
  | nil => exact ⟨(List.append_nil actions).symm ▸ h, List.Subset.refl L, warrantyRely.refl L d⟩
  | cons a as ih =>
    change (_ >>= fun _ => Tx.forEach as _).wp _ _ _ w L s d
    rw [Tx.wp_bind]
    refine Tx.wp_mono (wp_recordResourceAction h hc) ?_
    rintro _ w₁ L₁ s₁ d₁ h₁
    refine Tx.wp_mono (ih h₁.1 (h₁.2.1 hc)) ?_
    rintro _ w₂ L₂ s₂ d₂ h₂
    rw [List.append_assoc] at h₂
    exact h₁.trans h₂

/-- **What a remedy has checked.** -/
theorem wp_remedyResources {cfg : Settings} {skipped : List ℕ} {sellerId variantId : ℕ} {order : Order}
    {variant : ProductVariant} {originals : List (ℕ × Resource)} {named : Option (List ℕ)} {key : String}
    (action : RemedyAction) (h : Makes L o .nothing w) (horiginals : Originals c o (originals.map Prod.fst) L d) :
    (remedyResources cfg skipped c o sellerId order variantId variant originals named key action).wp warrantyRely
      (Db.Warranted delivered c₀ o₀) (fun _ w' L' _ d' => ∃ actions rs, Reached o L d ⟨[], [], actions, rs⟩ w' L' d' ∧
        Remediable c o actions rs L' d') w L s d := by
  cases action with
  | replace =>
    rw [remedyResources, Tx.wp_bind]
    refine Tx.wp_mono (wp_chooseReplacements named h) ?_
    rintro rs w₁ L₁ s₁ d₁ ⟨h₁, hlen, hspare⟩
    rw [Tx.wp_bind]
    refine Tx.wp_mono (wp_quiet h₁.1 (Tx.writes_forEach fun _ => Tx.writes_modify.mpr (.line _ fun _ => rfl))) ?_
    rintro _ w₂ L₂ s₂ d₂ h₂
    have hreached := h₁.trans h₂
    refine Tx.wp_mono (wp_recordAll (f := Prod.fst) (g := fun r => some r.2) (originals.zip rs)
      hreached.1 (hreached.2.1 horiginals.case)) ?_
    rintro _ w₃ L₃ s₃ d₃ h₃
    have hall := hreached.trans h₃
    have hfst : ((originals.zip rs).map fun r => remedyOf c key .replace r.1 (some r.2)).map
        DisputeResourceAction.originalResourceId = originals.map Prod.fst := by
      calc ((originals.zip rs).map fun r => remedyOf c key .replace r.1 (some r.2)).map DisputeResourceAction.originalResourceId
          = ((originals.zip rs).map Prod.fst).map Prod.fst := by rw [List.map_map, List.map_map]; rfl
        _ = originals.map Prod.fst := by rw [List.map_fst_zip hlen.ge]
    refine ⟨_, rs, hall, hfst ▸ horiginals.stable hall.2.1 hall.2.2, fun a ha => ?_, ?_,
      (hspare.stable h₂.2.1 h₂.2.2).stable h₃.2.1 h₃.2.2⟩
    · obtain ⟨r, -, rfl⟩ := List.mem_map.mp ha
      exact ⟨rfl, by simp [remedyOf]⟩
    · calc ((originals.zip rs).map fun r => remedyOf c key .replace r.1 (some r.2)).filterMap
            DisputeResourceAction.replacementResourceId
          = (originals.zip rs).filterMap fun r => some r.2 := by rw [List.filterMap_map]; rfl
        _ = (originals.zip rs).map Prod.snd := congrFun List.filterMap_eq_map' _
        _ = rs := List.map_snd_zip hlen.le
  | refund =>
    have hrefund : (Tx.when (sumCaps (originals.map fun r => r.2.refundAmountCap) ≠ 0)
        (refundEscrow cfg o order.buyerId (sumCaps (originals.map fun r => r.2.refundAmountCap))
          (disputeSuffix c key))).Writes (SettleWrite c) := Tx.writes_when (settles_refundEscrow cfg c o _ _ _)
    rw [remedyResources, Tx.wp_bind]
    refine Tx.wp_mono (wp_settles h horiginals.case hrefund) ?_
    rintro _ w₁ L₁ s₁ d₁ h₁
    refine Tx.wp_mono (wp_recordAll (f := fun r => r) (g := fun _ => none) originals h₁.1
      (h₁.2.1 horiginals.case)) ?_
    rintro _ w₂ L₂ s₂ d₂ h₂
    have hall := h₁.trans h₂
    have hfst : (originals.map fun r => remedyOf c key .refund r none).map DisputeResourceAction.originalResourceId =
        originals.map Prod.fst := by
      rw [List.map_map]
      rfl
    refine ⟨_, [], hall, hfst ▸ horiginals.stable hall.2.1 hall.2.2, fun a ha => ?_, ?_, List.nodup_nil,
      fun r hr => absurd hr List.not_mem_nil⟩
    · obtain ⟨r, -, rfl⟩ := List.mem_map.mp ha
      exact ⟨rfl, by simp [remedyOf]⟩
    · rw [List.nil_append, List.filterMap_map]
      exact List.filterMap_eq_nil_iff.mpr fun _ _ => rfl

theorem sellerResolveResources_keeps (cfg : Settings) (skipped : List ℕ) (c sellerId : ℕ) (ids : List ℕ)
    (action : RemedyAction) (named : Option (List ℕ)) (key : String) (note : Option String) :
    (sellerResolveResources cfg skipped c sellerId ids action named key note).wp warrantyRely (Db.Warranted delivered c₀ o₀)
      (warrantyOwes delivered c₀ o₀ (.sellerResolveResources cfg skipped c sellerId ids action named key note))
        id [] [] d := by
  simp only [sellerResolveResources, lockDispute, lockOrder, Tx.wp_bind, Tx.wp_lock, Tx.wp_getOrElse, Tx.wp_require,
    modifyCase, Tx.wp_modify, Tx.wp_read]
  intro d₁ _ _ u hu d₂ hd₂ _ order _ _ d₃ hd₃ _ _ _ d₄ hd₄ _
  rintro ⟨variantId, variant⟩ _ _
  have hrow : ∃ u', d₄.disputes.get? c = some u' ∧ u'.orderId = u.orderId := by
    have hlock : warrantyRely.rel [.dispute c] d₁ d₄ := warrantyRely.trans hd₂ (warrantyRely.anti (List.subset_cons_self _ _)
      (warrantyRely.trans hd₃ hd₄))
    exact ⟨u, (warrantyRely_case hlock List.mem_cons_self).1.trans hu, rfl⟩
  have hcase : .dispute c ∈ [RowKey.order u.orderId, .dispute c] := List.mem_cons_of_mem _ List.mem_cons_self
  have hmark : Makes [.order u.orderId, .dispute c] u.orderId .nothing
      fun d => Db.modifyDispute c (Dispute.markSellerResponded cfg) (id d) := .case hcase fun _ => rfl
  refine Tx.wp_mono (wp_claimedOriginals ids hmark hcase hrow) ?_
  rintro originals w₁ L₁ s₁ d₅ ⟨h₁, horiginals⟩
  refine Tx.wp_mono (wp_remedyResources action h₁.1 horiginals) ?_
  rintro _ w₂ L₂ s₂ d₆ ⟨actions, rs, h₂, hremediable⟩
  have hlast : (do
      Tx.modify (Db.modifyOrder u.orderId fun o => { o with deliveredData := none })
      Tx.when (nonempty note ≠ none) (Tx.modify (Db.modifyDispute c fun c => { c with sellerNote := note }))
      closeRemedy cfg c u.orderId order : Tx Unit).Writes (SettleWrite c) :=
    .bind (Tx.writes_modify.mpr (.order _ _)) fun _ =>
      .bind (Tx.writes_when (Tx.writes_modify.mpr (.case _ fun _ => rfl))) fun _ => settles_closeRemedy cfg c _ order
  have hrest := wp_settles (I := Db.Warranted delivered c₀ o₀) (s := s₂) (d := d₆) h₂.1 hremediable.originals.case hlast
  simp only [Tx.wp_bind, Tx.wp_modify] at hrest
  refine Tx.wp_mono hrest ?_
  intro _ w₃ L₃ s₃ d₇ hclose
  refine Tx.wp_mono hclose ?_
  rintro _ w₄ L₄ s₄ d₈ h₄
  exact (hremediable.stable h₄.2.1 h₄.2.2).owes h₄.1 fun _ hcall => hcall

end Owes

theorem warrantyMachine_correct (delivered : Finset ℕ) (c o : ℕ) :
    (warrantyMachine c o).Correct warrantyRely (Db.Warranted delivered c o) fun _ _ _ _ => True := by
  intro call d _
  cases call with
  | createDispute cfg c' o' b ids lineNos key => exact createDispute_keeps cfg c' o' b ids lineNos key
  | appendClaimBatch cfg o' b ids lineNos key => exact appendClaimBatch_keeps cfg o' b ids lineNos key
  | sellerResolveResources cfg skipped c' seller ids action named key note =>
    exact sellerResolveResources_keeps cfg skipped c' seller ids action named key note
  | _ => exact Tx.wp_of_forall (fun _ _ _ _ _ _ _ _ hcall => hcall.elim) _

/-! ### What holds of a case -/

/-- Nothing of the case is there, or only its row. -/
structure Db.Unclaimed (d : Db) (c o : ℕ) : Prop where
  order : ∀ u, d.disputes.get? c = some u → u.orderId = o
  claims : (d.claimedLines c).1 = []
  actions : ∀ a ∈ d.resourceActions, a.disputeId ≠ c

theorem Db.Unclaimed.warranted {d : Db} {c o : ℕ} (h : d.Unclaimed c o) : d.Warranted (d.linesOf o) c o := by
  refine ⟨.start 1 (d.linesOf o), h.claims, ?_, fun r => ?_, h.order, fun a ha hc => absurd hc (h.actions a ha)⟩
  · rw [Db.remedies, List.filter_eq_nil_iff.mpr fun a ha => by simpa using h.actions a ha]
    rfl
  · rw [← Db.mem_linesOf]
    exact ⟨Or.inl, fun hline => hline.elim (fun h => h) fun h => absurd h List.not_mem_nil⟩

/-- The lines of an order that the case has neither refunded nor replaced. -/
def Db.standing (d : Db) (c o : ℕ) : Finset ℕ := (d.linesOf o).filter fun r => r ∉ (d.remediedLines c).1

/-- How many lines the case has refunded. -/
def Db.refundedLines (d : Db) (c : ℕ) : ℕ :=
  d.resourceActions.countP fun a => decide (a.disputeId = c ∧ a.action = .refund)

theorem remediedLines_eq (d : Db) (c : ℕ) : (d.remediedLines c).1 = (d.remedies c).map Prod.fst := by
  rw [Db.remedies, List.map_map]
  rfl

theorem Db.Holds.card_standing {delivered : Finset ℕ} {d : Db} {c o : ℕ} {w : Warranty 1 delivered} (h : d.Holds c o w) :
    (d.standing c o).card + d.refundedLines c = delivered.card := by
  have hstanding : d.standing c o = w.standing := by
    ext r
    rw [Db.standing, Finset.mem_filter, Db.mem_linesOf, h.lines, Warranty.standing, Finset.mem_sdiff, Warranty.mem_lines,
      List.mem_toFinset, remediedLines_eq, h.remedies]
  have hrefunds : d.refundedLines c = w.refunds := by
    rw [Db.refundedLines, Warranty.refunds, ← h.remedies, Db.remedies, List.countP_map, List.countP_filter]
    refine List.countP_congr fun a ha => ?_
    simp only [decide_eq_true_eq, Function.comp_def, Bool.and_eq_true]
    rw [and_comm]
    exact and_congr_left fun hc => h.kinds a ha hc
  rw [hstanding, hrefunds]
  exact w.card_standing_add_refunds

/-- `MAX_WARRANTY_CLAIM_GENERATION`. -/
def maxWarrantyClaimGeneration : ℕ := 1

/-- **One case replaces an item at most twice.** In every run of a case of which nothing was claimed before: a line is claimed
and remedied once at most, replacements have one original each and different ones, no chain of them closes on itself, the
generation of a line is its distance from a line that was delivered, a delivered line leads to two replacements at
most, and the lines that are neither refunded nor replaced are as many as were delivered, less the refunds. -/
theorem warranty_kept {ι : Type} [DecidableEq ι] {d : Db} {c o : ℕ} (hd : d.Unclaimed c o)
    {C : Config Db RowKey Abort Unit OrderCall ι} (h : Reachable (warrantyMachine c o) d C) :
    ((C.db.claimedLines c).1.Nodup ∧ (C.db.remediedLines c).1.Nodup) ∧
      ((∀ r, ¬Relation.TransGen (Warranty.Replaces (C.db.remedies c)) r r) ∧
        (∀ r r' x, Warranty.Replaces (C.db.remedies c) r x → Warranty.Replaces (C.db.remedies c) r' x → r = r') ∧
          ∀ r x x', Warranty.Replaces (C.db.remedies c) r x → Warranty.Replaces (C.db.remedies c) r x' → x = x') ∧
        ((∀ r ∈ C.db.linesOf o, ∃ x ∈ d.linesOf o, Leads (C.db.remedies c) x r (C.db.replacementGeneration c r)) ∧
          ∀ x ∈ d.linesOf o, ∀ r n, Leads (C.db.remedies c) x r n → C.db.replacementGeneration c r = n) ∧
          (∀ x ∈ d.linesOf o, ∀ things : List ℕ, things.Nodup →
            (∀ r ∈ things, r ≠ x ∧ ∃ n, Leads (C.db.remedies c) x r n) →
              things.length ≤ maxWarrantyClaimGeneration + 1) ∧
            (C.db.standing c o).card + C.db.refundedLines c = (d.linesOf o).card := by
  obtain ⟨w, hw⟩ := ((warrantyMachine_correct (d.linesOf o) c o).reachable hd.warranted h).inv
  have hcard := hw.card_standing
  rw [remediedLines_eq, hw.claims, hw.remedies]
  refine ⟨⟨w.claims_nodup, w.once⟩, ⟨w.acyclic, fun _ _ _ => w.replacement_unique, fun _ _ _ => w.original_unique⟩,
    ⟨fun r hr => ?_, fun x hx r n hlead => replacementGeneration_eq hw.remedies hx hlead⟩,
    fun x hx things => w.length_le hx, hcard⟩
  obtain ⟨x, hx, n, -, hlead⟩ := w.depth_le ((hw.lines r).mp (Db.mem_linesOf.mp hr))
  rw [replacementGeneration_eq hw.remedies hx hlead]
  exact ⟨x, hx, hlead⟩

/-! ### A case -/

/-- A line of the stock. -/
def sampleLine (status : ResourceStatus) (o : Option ℕ) : Resource := ⟨1, 1, status, o, none, none, some 50000, false, 0⟩

/-- An order of one line, delivered from stock. -/
def sampleStockOrder : Order where
  buyerId := 2
  sellerId := 1
  variantId := some 1
  productId := some 1
  providerId := none
  quantity := 1
  totalAmount := 50000
  refundedAmount := 0
  stockHeld := 0
  promoCode := none
  discountAmount := 0
  status := .delivered
  escrowExpiresAt := some 259230
  deliveredAt := some 30
  deliveredData := none
  cancelReason := none
  createdAt := 10
  isSeeded := false

/-- The order, and two more lines of the package. -/
def sampleStockShop : Db :=
  { Db.empty with
    variants := ⟨[(1, ⟨1, 50000, .instant, 24, true, none, 1, none, none⟩)], by decide⟩
    orders := ⟨[(1, sampleStockOrder)], by decide⟩
    resources := ⟨[(1, sampleLine .assigned (some 1)), (2, sampleLine .available none), (3, sampleLine .available none)],
      by decide⟩ }

theorem sampleStockShop_unclaimed : sampleStockShop.Unclaimed 7 1 :=
  ⟨fun u h => absurd (show none = some u from h) (by simp), rfl, fun _ h => absurd h List.not_mem_nil⟩

/-- The line is replaced, and its replacement as well: the third line is two replacements away. -/
theorem warranty_kept_sample :
    ∃ C : Config Db RowKey Abort Unit OrderCall (Fin 1), Reachable (warrantyMachine 7 1) sampleStockShop C ∧
      C.db.remedies 7 = [(1, some 2), (2, some 3)] ∧ C.db.replacementGeneration 7 3 = 2 ∧
        (C.db.standing 7 1).card + C.db.refundedLines 7 = (sampleStockShop.linesOf 1).card := by
  obtain ⟨C, hC, hremedies⟩ := Machine.reaches_of_play (M := warrantyMachine 7 1) (ι := Fin 1) (d := sampleStockShop)
    (P := fun d => d.remedies 7 = [(1, some 2), (2, some 3)]) (fun c _ d => decide (c.Concerns 7 1 d))
    (.begin 0 (.createDispute (Settings.sample 40) 7 1 2 [1] [] (some "open")) :: List.replicate 10 (.step 0) ++
      .begin 0 (.sellerResolveResources (Settings.sample 50) [] 7 1 [1] .replace (some [2]) "first" none) ::
        List.replicate 19 (.step 0) ++
      .begin 0 (.appendClaimBatch (Settings.sample 60) 1 2 [2] [] "again") :: List.replicate 9 (.step 0) ++
      .begin 0 (.sellerResolveResources (Settings.sample 70) [] 7 1 [2] .replace (some [3]) "second" none) ::
        List.replicate 19 (.step 0))
    (fun c _ d h => (of_decide_eq_true h : c.Concerns 7 1 d)) (by decide)
  obtain ⟨-, -, hgeneration, -, hcard⟩ := warranty_kept sampleStockShop_unclaimed hC
  have hlead : Leads (C.db.remedies 7) 1 3 2 := by
    rw [hremedies]
    exact .hop (.hop .start (y := 1) (r := 2) (by decide)) (by decide)
  exact ⟨C, hC, hremedies, hgeneration.2 1 (by decide) 3 2 hlead, hcard⟩

end Marketplace
