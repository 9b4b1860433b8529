import Mathlib.Data.List.Nodup

/-!
# What is seen first

A list without its repetitions, each element where it stands first (`List.eraseDups`), and the loop that
builds it, adding an element that is not there yet.
-/

namespace Lists

variable {α : Type} [BEq α] [LawfulBEq α]

theorem nodup_eraseDups (l : List α) : l.eraseDups.Nodup := by
  induction hn : l.length using Nat.strongRecOn generalizing l with
  | ind n ih =>
    cases l with
    | nil => simp
    | cons a l =>
      have hless : (l.filter fun b => !b == a).length < n := by
        have := List.length_filter_le (fun b => !b == a) l
        simp only [List.length_cons] at hn
        omega
      rw [List.eraseDups_cons, List.nodup_cons]
      exact ⟨by simp [List.mem_eraseDups], ih _ hless _ rfl⟩

/-- What has been seen stays where it is when more is read. -/
theorem eraseDups_prefix_append (l m : List α) : l.eraseDups <+: (l ++ m).eraseDups := by
  rw [List.eraseDups_append]
  exact List.prefix_append _ _

/-- A list without repetitions is left as it is. -/
theorem eraseDups_eq_self {l : List α} (h : l.Nodup) : l.eraseDups = l := by
  induction l with
  | nil => simp
  | cons a l ih =>
    obtain ⟨ha, hl⟩ := List.nodup_cons.mp h
    have hfilter : l.filter (fun b => !b == a) = l :=
      List.filter_eq_self.mpr fun b hb => by
        have : b ≠ a := fun he => ha (he ▸ hb)
        simpa using this
    rw [List.eraseDups_cons, hfilter, ih hl]

/-- An element is added at the end where it is not there yet. -/
def see (seen : List α) (a : α) : List α := if seen.contains a then seen else seen ++ [a]

theorem see_eraseDups (l : List α) (a : α) : see l.eraseDups a = (l ++ [a]).eraseDups := by
  rw [see, List.eraseDups_append]
  by_cases ha : a ∈ l
  · simp [ha, List.mem_eraseDups, List.removeAll]
  · simp [ha, List.mem_eraseDups, List.removeAll, List.eraseDups_cons]

/-- **The loop builds the list of what is seen first.** -/
theorem foldl_see (l m : List α) : m.foldl see l.eraseDups = (l ++ m).eraseDups := by
  induction m generalizing l with
  | nil => simp
  | cons a m ih => rw [List.foldl_cons, see_eraseDups, ih, List.append_assoc, List.singleton_append]

end Lists
