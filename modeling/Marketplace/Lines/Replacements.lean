import Mathlib.Data.Finset.Card
import Mathlib.Data.List.Nodup
import Mathlib.Logic.Relation
import Mathlib.Order.Interval.Finset.Nat

/-!
# Replacements of replacements

Things are delivered, and what is claimed to be no good is remedied once: refunded, or replaced by something new, which
may be claimed in its turn. A claim is good for what is at most `m` replacements away from a thing that was delivered.

`Warranty m delivered` is a list of claims and one of remedies that go together. Two operations add to it,
`Warranty.claim` and `Warranty.remedy`. Whatever is done with them, the replacements of a delivered thing are a chain of
`m + 1` links at most, no chain closes on itself, and the things that are neither refunded nor replaced are as
many as were delivered, less the refunds.
-/

variable {α : Type*}

/-- `r` comes of `x` by `n` replacements. A remedy is what was remedied, and its replacement if it has one. -/
inductive Leads (remedies : List (α × Option α)) (x : α) : α → ℕ → Prop
  | start : Leads remedies x x 0
  | hop {y r : α} {n : ℕ} (h : Leads remedies x y n) (hr : (y, some r) ∈ remedies) : Leads remedies x r (n + 1)

theorem Leads.mono {remedies remedies' : List (α × Option α)} (hsub : remedies ⊆ remedies') {x r : α} {n : ℕ}
    (h : Leads remedies x r n) : Leads remedies' x r n := by
  induction h with
  | start => exact .start
  | hop _ hr ih => exact .hop ih (hsub hr)

/-- Claims and remedies of the things in `delivered`, where a claim is good for `m` replacements. -/
structure Warranty (m : ℕ) (delivered : Finset α) where
  claims : List α
  remedies : List (α × Option α)
  claims_nodup : claims.Nodup
  /-- What is remedied is remedied once. -/
  once : (remedies.map Prod.fst).Nodup
  claimed : ∀ x ∈ remedies.map Prod.fst, x ∈ claims
  /-- What replaces something replaces one thing. -/
  fresh : (remedies.filterMap Prod.snd).Nodup
  new : ∀ r ∈ remedies.filterMap Prod.snd, r ∉ delivered
  reach : ∀ r ∈ claims, ∃ x ∈ delivered, ∃ n ≤ m, Leads remedies x r n

namespace Warranty

variable {m : ℕ} {delivered : Finset α}

/-- Nothing was claimed yet. -/
def start (m : ℕ) (delivered : Finset α) : Warranty m delivered where
  claims := []
  remedies := []
  claims_nodup := List.nodup_nil
  once := List.nodup_nil
  claimed _ h := absurd h List.not_mem_nil
  fresh := List.nodup_nil
  new _ h := absurd h List.not_mem_nil
  reach _ h := absurd h List.not_mem_nil

/-- Things are claimed. -/
def claim (w : Warranty m delivered) (things : List α) (hnodup : things.Nodup) (hnew : ∀ r ∈ things, r ∉ w.claims)
    (hreach : ∀ r ∈ things, ∃ x ∈ delivered, ∃ n ≤ m, Leads w.remedies x r n) : Warranty m delivered where
  claims := w.claims ++ things
  remedies := w.remedies
  claims_nodup := List.nodup_append'.mpr ⟨w.claims_nodup, hnodup, fun _ hr hr' => hnew _ hr' hr⟩
  once := w.once
  claimed x hx := List.mem_append_left _ (w.claimed x hx)
  fresh := w.fresh
  new := w.new
  reach r hr := (List.mem_append.mp hr).elim (w.reach r) (hreach r)

/-- What was delivered or has come as a replacement. -/
def IsLine (w : Warranty m delivered) (r : α) : Prop := r ∈ delivered ∨ r ∈ w.remedies.filterMap Prod.snd

/-- Claimed things are remedied. -/
def remedy (w : Warranty m delivered) (more : List (α × Option α)) (honce : (more.map Prod.fst).Nodup)
    (hclaimed : ∀ x ∈ more.map Prod.fst, x ∈ w.claims) (hopen : ∀ x ∈ more.map Prod.fst, x ∉ w.remedies.map Prod.fst)
    (hfresh : (more.filterMap Prod.snd).Nodup)
    (hnew : ∀ r ∈ more.filterMap Prod.snd, ¬w.IsLine r) : Warranty m delivered where
  claims := w.claims
  remedies := w.remedies ++ more
  claims_nodup := w.claims_nodup
  once := by
    rw [List.map_append]
    exact List.nodup_append'.mpr ⟨w.once, honce, fun _ hx hx' => hopen _ hx' hx⟩
  claimed x hx := by
    rw [List.map_append] at hx
    exact (List.mem_append.mp hx).elim (w.claimed x) (hclaimed x)
  fresh := by
    rw [List.filterMap_append]
    exact List.nodup_append'.mpr ⟨w.fresh, hfresh, fun _ hr hr' => hnew _ hr' (Or.inr hr)⟩
  new r hr := by
    rw [List.filterMap_append] at hr
    exact (List.mem_append.mp hr).elim (w.new r) fun hr hin => hnew r hr (Or.inl hin)
  reach r hr := by
    obtain ⟨x, hx, n, hn, h⟩ := w.reach r hr
    exact ⟨x, hx, n, hn, h.mono (List.subset_append_left _ _)⟩

variable (w : Warranty m delivered)

theorem isLine_append {w w' : Warranty m delivered} {more : List (α × Option α)} (h : w'.remedies = w.remedies ++ more)
    (r : α) : w'.IsLine r ↔ w.IsLine r ∨ r ∈ more.filterMap Prod.snd := by
  rw [IsLine, h, List.filterMap_append, List.mem_append, ← or_assoc, IsLine]

/-! ### Links -/

theorem mem_replacements {r : α} : r ∈ w.remedies.filterMap Prod.snd ↔ ∃ x, (x, some r) ∈ w.remedies := by
  rw [List.mem_filterMap]
  constructor
  · rintro ⟨⟨x, _⟩, hx, rfl⟩
    exact ⟨x, hx⟩
  · rintro ⟨x, hx⟩
    exact ⟨_, hx, rfl⟩

/-- A replacement stands for one thing. -/
theorem original_unique {x x' r : α} (h : (x, some r) ∈ w.remedies) (h' : (x', some r) ∈ w.remedies) : x = x' := by
  have hpair := List.pairwise_filterMap.mp w.fresh
  have hsymm : Std.Symm fun a a' : α × Option α => ∀ b, a.2 = some b → ∀ b', a'.2 = some b' → b ≠ b' :=
    ⟨fun _ _ hab b hb b' hb' hc => hab b' hb' b hb hc.symm⟩
  by_contra hne
  exact hpair.forall h h' (fun hc => hne (Prod.mk.inj hc).1) r rfl r rfl rfl

/-- A thing has one replacement. -/
theorem replacement_unique {x r r' : α} (h : (x, some r) ∈ w.remedies) (h' : (x, some r') ∈ w.remedies) : r = r' :=
  Option.some.inj (congrArg Prod.snd (List.inj_on_of_nodup_map w.once h h' rfl))

/-- **A thing comes of one delivered thing, in one way.** -/
theorem leads_unique {x x' r : α} {n n' : ℕ} (hx : x ∈ delivered) (hx' : x' ∈ delivered) (h : Leads w.remedies x r n)
    (h' : Leads w.remedies x' r n') : x = x' ∧ n = n' := by
  have hroot : ∀ {y s : α}, (y, some s) ∈ w.remedies → s ∉ delivered := fun hy => w.new _ (w.mem_replacements.mpr ⟨_, hy⟩)
  induction h generalizing n' with
  | start =>
    cases h' with
    | start => exact ⟨rfl, rfl⟩
    | hop _ hr => exact absurd hx (hroot hr)
  | hop _ hr ih =>
    cases h' with
    | start => exact absurd hx' (hroot hr)
    | hop h' hr' =>
      obtain rfl := w.original_unique hr hr'
      obtain ⟨rfl, rfl⟩ := ih h'
      exact ⟨rfl, rfl⟩

/-- A delivered thing leads to one thing at each distance. -/
theorem leads_at {x r r' : α} {n : ℕ} (h : Leads w.remedies x r n) (h' : Leads w.remedies x r' n) : r = r' := by
  induction h generalizing r' with
  | start =>
    cases h' with
    | start => rfl
  | hop _ hr ih =>
    cases h' with
    | hop h' hr' =>
      obtain rfl := ih h'
      exact w.replacement_unique hr hr'

/-- **Every line is `m + 1` replacements away from a delivered one at most.** -/
theorem depth_le {r : α} (h : w.IsLine r) : ∃ x ∈ delivered, ∃ n ≤ m + 1, Leads w.remedies x r n := by
  rcases h with h | h
  · exact ⟨r, h, 0, Nat.zero_le _, .start⟩
  · obtain ⟨y, hy⟩ := w.mem_replacements.mp h
    obtain ⟨x, hx, n, hn, hlead⟩ := w.reach y (w.claimed y (List.mem_map_of_mem hy))
    exact ⟨x, hx, n + 1, Nat.succ_le_succ hn, .hop hlead hy⟩

theorem isLine_of_leads {x r : α} {n : ℕ} (hx : x ∈ delivered) (h : Leads w.remedies x r n) : w.IsLine r := by
  cases h with
  | start => exact Or.inl hx
  | hop _ hr => exact Or.inr (w.mem_replacements.mpr ⟨_, hr⟩)

theorem isLine_of_claim {r : α} (h : r ∈ w.claims) : w.IsLine r := by
  obtain ⟨x, hx, n, -, hlead⟩ := w.reach r h
  exact w.isLine_of_leads hx hlead

/-- One thing has replaced another. -/
def Replaces (remedies : List (α × Option α)) (r x : α) : Prop := (x, some r) ∈ remedies

/-- **No chain of replacements closes on itself.** -/
theorem acyclic (r : α) : ¬Relation.TransGen (Replaces w.remedies) r r := by
  intro hcycle
  -- along a chain the distance from what was delivered gets smaller
  have hdown : ∀ {r s : α}, Relation.TransGen (Replaces w.remedies) r s → ∀ x ∈ delivered, ∀ n, Leads w.remedies x s n →
      ∃ k, Leads w.remedies x r (n + k + 1) := by
    intro r s h
    induction h using Relation.TransGen.head_induction_on with
    | single hr => exact fun x _ n hlead => ⟨0, .hop hlead hr⟩
    | head hr _ ih =>
      intro x hx n hlead
      obtain ⟨k, hk⟩ := ih x hx n hlead
      exact ⟨k + 1, .hop hk hr⟩
  obtain ⟨s, hs, -⟩ := Relation.TransGen.head'_iff.mp hcycle
  obtain ⟨x, hx, n, -, hlead⟩ := w.depth_le (Or.inr (w.mem_replacements.mpr ⟨s, hs⟩))
  obtain ⟨k, hk⟩ := hdown hcycle x hx n hlead
  have := (w.leads_unique hx hx hlead hk).2
  omega

/-- **A delivered thing is replaced `m + 1` times at most**, counting the replacements of its replacements. -/
theorem length_le [DecidableEq α] {x : α} (hx : x ∈ delivered) {things : List α} (hnodup : things.Nodup)
    (h : ∀ r ∈ things, r ≠ x ∧ ∃ n, Leads w.remedies x r n) : things.length ≤ m + 1 := by
  have hdepth : ∀ r ∈ things, ∃ n, Leads w.remedies x r n ∧ n ∈ Finset.Icc 1 (m + 1) := by
    intro r hr
    obtain ⟨hne, n, hlead⟩ := h r hr
    obtain ⟨x', hx', n', hn', hlead'⟩ := w.depth_le (w.isLine_of_leads hx hlead)
    obtain ⟨rfl, rfl⟩ := w.leads_unique hx hx' hlead hlead'
    refine ⟨n, hlead, Finset.mem_Icc.mpr ⟨Nat.one_le_iff_ne_zero.mpr ?_, hn'⟩⟩
    rintro rfl
    cases hlead with
    | start => exact hne rfl
  choose! depth hlead hmem using hdepth
  have hcard : things.toFinset.card ≤ (Finset.Icc 1 (m + 1)).card := by
    refine Finset.card_le_card_of_injOn depth (fun r hr => hmem r (List.mem_toFinset.mp hr)) fun r hr r' hr' heq => ?_
    have hr := hlead r (List.mem_toFinset.mp hr)
    have hr' := hlead r' (List.mem_toFinset.mp hr')
    rw [heq] at hr
    exact w.leads_at hr hr'
  rwa [List.toFinset_card_of_nodup hnodup, Nat.card_Icc, Nat.add_sub_cancel] at hcard

/-- A distance is no more than the number of remedies. -/
theorem le_length_of_leads {x r : α} {n : ℕ} (hx : x ∈ delivered) (h : Leads w.remedies x r n) : n ≤ w.remedies.length := by
  suffices hchain : ∃ things : List α, things.Nodup ∧ things.length = n ∧
      ∀ s ∈ things, s ∈ w.remedies.filterMap Prod.snd ∧ ∃ k ≤ n, Leads w.remedies x s k by
    obtain ⟨things, hnodup, hlen, hmem⟩ := hchain
    rw [← hlen]
    exact (hnodup.subperm fun s hs => (hmem s hs).1).length_le.trans (List.length_filterMap_le _ _)
  induction h with
  | start => exact ⟨[], List.nodup_nil, rfl, fun s hs => absurd hs List.not_mem_nil⟩
  | @hop y r n h hr ih =>
    obtain ⟨things, hnodup, hlen, hmem⟩ := ih
    refine ⟨r :: things, List.nodup_cons.mpr ⟨fun hin => ?_, hnodup⟩, by rw [List.length_cons, hlen], fun s hs => ?_⟩
    · obtain ⟨-, k, hk, hlead⟩ := hmem r hin
      have := (w.leads_unique hx hx hlead (.hop h hr)).2
      omega
    · rcases List.mem_cons.mp hs with rfl | hs
      · exact ⟨w.mem_replacements.mpr ⟨y, hr⟩, n + 1, le_rfl, .hop h hr⟩
      · obtain ⟨hrep, k, hk, hlead⟩ := hmem s hs
        exact ⟨hrep, k, hk.trans (Nat.le_succ n), hlead⟩

/-! ### The balance -/

theorem length_replacements_add_refunds (remedies : List (α × Option α)) :
    (remedies.filterMap Prod.snd).length + remedies.countP (fun a => decide (a.2 = none)) = remedies.length := by
  induction remedies with
  | nil => rfl
  | cons a as ih =>
    obtain ⟨x, _ | r⟩ := a
    · simp only [List.filterMap_cons_none, List.countP_cons_of_pos, decide_true, List.length_cons]
      omega
    · have hmap : ((x, some r) :: as).filterMap Prod.snd = r :: as.filterMap Prod.snd := rfl
      rw [hmap, List.countP_cons_of_neg (by simp), List.length_cons, List.length_cons]
      omega

section Balance

variable [DecidableEq α]

/-- What was delivered, and what has come as a replacement. -/
def lines : Finset α := delivered ∪ (w.remedies.filterMap Prod.snd).toFinset

theorem mem_lines {r : α} : r ∈ w.lines ↔ w.IsLine r := by
  rw [lines, Finset.mem_union, List.mem_toFinset, IsLine]

/-- What is neither refunded nor replaced. -/
def standing : Finset α := w.lines \ (w.remedies.map Prod.fst).toFinset

/-- How many things were refunded. -/
def refunds : ℕ := w.remedies.countP fun a => decide (a.2 = none)

/-- **Nothing is gained or lost by a replacement.** -/
theorem card_standing_add_refunds : w.standing.card + w.refunds = delivered.card := by
  have hsub : (w.remedies.map Prod.fst).toFinset ⊆ w.lines := by
    intro x hx
    exact w.mem_lines.mpr (w.isLine_of_claim (w.claimed x (List.mem_toFinset.mp hx)))
  have hdisj : Disjoint delivered (w.remedies.filterMap Prod.snd).toFinset :=
    Finset.disjoint_left.mpr fun r hr hr' => w.new r (List.mem_toFinset.mp hr') hr
  have hlines : w.lines.card = delivered.card + (w.remedies.filterMap Prod.snd).length := by
    rw [lines, Finset.card_union_of_disjoint hdisj, List.toFinset_card_of_nodup w.fresh]
  have hstanding : w.standing.card + w.remedies.length = w.lines.card := by
    rw [standing, ← Finset.card_sdiff_add_card_eq_card hsub, List.toFinset_card_of_nodup w.once, List.length_map]
  have hremedies := length_replacements_add_refunds w.remedies
  rw [refunds]
  omega

end Balance

end Warranty
