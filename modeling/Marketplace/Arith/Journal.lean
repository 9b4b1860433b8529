import Mathlib.Tactic

/-!
# Journals

A journal is a list of entries with an amount each, and its entries fall into groups by a key. A group
may take out and put back; as long as no group puts back more than it took, the whole adds up to at
least what any one group still has out (`journal_group_le`).
-/

section Journal

variable {ρ κ : Type}

/-- What the entries add up to. -/
def journalSum (amount : ρ → ℤ) (rows : List ρ) : ℤ := (rows.map amount).sum

variable (amount : ρ → ℤ)

@[simp] theorem journalSum_nil : journalSum amount [] = 0 := rfl

@[simp] theorem journalSum_cons (r : ρ) (rows : List ρ) :
    journalSum amount (r :: rows) = amount r + journalSum amount rows := by
  simp [journalSum]

@[simp] theorem journalSum_append (rows rows' : List ρ) :
    journalSum amount (rows ++ rows') = journalSum amount rows + journalSum amount rows' := by
  simp [journalSum]

theorem journalSum_filter_add (p : ρ → Bool) (rows : List ρ) :
    journalSum amount (rows.filter p) + journalSum amount (rows.filter fun r => !p r) =
      journalSum amount rows := by
  have hperm := (List.filter_append_perm p rows).map amount
  rw [← journalSum_append]
  exact hperm.sum_eq

theorem journalSum_eq_zero {rows : List ρ} (h : ∀ r ∈ rows, amount r = 0) :
    journalSum amount rows = 0 := by
  refine List.sum_eq_zero fun x hx => ?_
  obtain ⟨r, hr, rfl⟩ := List.mem_map.mp hx
  exact h r hr

variable [DecidableEq κ] {amount} (key : ρ → κ)

/-- If no group is below zero, neither is the journal. -/
theorem journalSum_nonneg {rows : List ρ}
    (h : ∀ k, 0 ≤ journalSum amount (rows.filter fun r => key r = k)) :
    0 ≤ journalSum amount rows := by
  -- By induction on the length: take out the group of the first entry.
  induction hn : rows.length using Nat.strong_induction_on generalizing rows with
  | _ n ih =>
    rcases rows with _ | ⟨r, rest⟩
    · simp
    · subst hn
      have hlt : ((r :: rest).filter fun x => !decide (key x = key r)).length <
          (r :: rest).length := by
        rw [List.filter_cons_of_neg (by simp)]
        exact Nat.lt_succ_of_le (List.length_filter_le _ rest)
      have hrest : 0 ≤ journalSum amount ((r :: rest).filter fun x => !decide (key x = key r)) :=
        ih _ hlt (fun k => ?_) rfl
      · have hsplit := journalSum_filter_add amount (fun x => decide (key x = key r)) (r :: rest)
        linarith [h (key r)]
      · by_cases hk : k = key r
        · have hnone : ((r :: rest).filter fun x => !decide (key x = key r)).filter
              (fun x => decide (key x = k)) = [] := by
            rw [List.filter_filter, List.filter_eq_nil_iff]
            intro x _
            simp [hk]
          rw [hnone, journalSum_nil]
        · have hall : ((r :: rest).filter fun x => !decide (key x = key r)).filter
              (fun x => decide (key x = k)) = (r :: rest).filter fun x => decide (key x = k) := by
            rw [List.filter_filter]
            refine List.filter_congr fun x _ => ?_
            by_cases hx : key x = k
            · simp [hx, hk]
            · simp [hx]
          rw [hall]
          exact h k

/-- **What one group has out is at most what the journal adds up to.** -/
theorem journal_group_le {rows : List ρ}
    (h : ∀ k, 0 ≤ journalSum amount (rows.filter fun r => key r = k)) (k : κ) :
    journalSum amount (rows.filter fun r => key r = k) ≤ journalSum amount rows := by
  have hrest : 0 ≤ journalSum amount (rows.filter fun r => !decide (key r = k)) := by
    refine journalSum_nonneg key fun l => ?_
    rw [List.filter_filter]
    by_cases hl : l = k
    · rw [List.filter_eq_nil_iff.mpr (by simp [hl]), journalSum_nil]
    · have hall : (rows.filter fun r => decide (key r = l) && !decide (key r = k)) =
          rows.filter fun r => decide (key r = l) := by
        refine List.filter_congr fun x _ => ?_
        by_cases hx : key x = l
        · simp [hx, hl]
        · simp [hx]
      rw [hall]
      exact h l
  linarith [journalSum_filter_add amount (fun r => decide (key r = k)) rows]

end Journal
