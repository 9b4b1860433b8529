import Mathlib.Data.List.Nodup
import Mathlib.Data.List.Perm.Basic

/-!
# The maps of JavaScript

A `Map` lists its keys in the order in which they came in: a key that is set again keeps its place. An entry may be
deleted while a loop goes over the map, so a loop that deletes what it sees until it stops leaves a tail of
the list (`Map.forget`).
-/

namespace Js

/-- The entries, the oldest key first. -/
structure Map (κ α : Type) where
  entries : List (κ × α)
  nodup : (entries.map Prod.fst).Nodup

namespace Map

variable {κ α : Type}

/-- `new Map()` -/
def empty : Map κ α := ⟨[], by simp⟩

/-- `map.size` -/
def size (m : Map κ α) : ℕ := m.entries.length

@[simp] theorem entries_empty : (empty : Map κ α).entries = [] := rfl

/-- The tail that is left when the oldest entries are deleted until one of them is to stay. Whether it is
can depend on how many entries there still are. -/
def keepFrom (stays : κ × α → ℕ → Bool) : List (κ × α) → List (κ × α)
  | [] => []
  | e :: rest => if stays e (rest.length + 1) then e :: rest else keepFrom stays rest

theorem keepFrom_suffix (stays : κ × α → ℕ → Bool) (l : List (κ × α)) : keepFrom stays l <:+ l := by
  induction l with
  | nil => exact List.suffix_rfl
  | cons e rest ih =>
    rw [keepFrom]
    split
    next => exact List.suffix_rfl
    next => exact ih.trans (List.suffix_cons e rest)

/-- The first entry that is left is one that stays. -/
theorem stays_of_keepFrom_eq_cons {stays : κ × α → ℕ → Bool} {l rest : List (κ × α)} {e : κ × α}
    (h : keepFrom stays l = e :: rest) : stays e (rest.length + 1) = true := by
  induction l with
  | nil => cases h
  | cons e' l ih =>
    rw [keepFrom] at h
    split at h
    next he =>
      obtain ⟨rfl, rfl⟩ := List.cons.inj h
      exact he
    next => exact ih h

/-- An entry is left if it and all behind it stay. -/
theorem mem_keepFrom {stays : κ × α → ℕ → Bool} {l newer : List (κ × α)} {e : κ × α}
    (h : e :: newer <:+ l) (he : stays e (newer.length + 1) = true) : e ∈ keepFrom stays l := by
  induction l with
  | nil => cases List.suffix_nil.mp h
  | cons e' l ih =>
    rw [keepFrom]
    split
    next => exact h.subset List.mem_cons_self
    next hstays =>
      rcases List.suffix_cons_iff.mp h with heq | h
      · obtain ⟨rfl, rfl⟩ := List.cons.inj heq
        exact absurd he hstays
      · exact ih h

/-- `for (const [key, entry] of map) { if (stays) break; map.delete(key); }` -/
def forget (m : Map κ α) (stays : κ × α → ℕ → Bool) : Map κ α :=
  ⟨keepFrom stays m.entries, m.nodup.sublist ((keepFrom_suffix stays m.entries).sublist.map _)⟩

variable [DecidableEq κ] {m : Map κ α} {k : κ} {a : α}

/-- `map.get(key)` -/
def get? (m : Map κ α) (k : κ) : Option α := (m.entries.find? fun e => e.1 = k).map Prod.snd

/-- An entry with the value of its key exchanged. -/
def overwrite (k : κ) (a : α) (e : κ × α) : κ × α := if e.1 = k then (k, a) else e

theorem overwrite_fst (k : κ) (a : α) (e : κ × α) : (overwrite k a e).1 = e.1 := by
  rw [overwrite]
  split
  next h => exact h.symm
  next => rfl

/-- `map.set(key, value)` -/
def set (m : Map κ α) (k : κ) (a : α) : Map κ α :=
  if h : k ∈ m.entries.map Prod.fst then
    ⟨m.entries.map (overwrite k a), by
      have heq : Prod.fst ∘ overwrite k a = Prod.fst := funext (overwrite_fst k a)
      rw [List.map_map, heq]
      exact m.nodup⟩
  else
    ⟨m.entries ++ [(k, a)], by
      rw [List.map_append, List.nodup_append]
      refine ⟨m.nodup, by simp, ?_⟩
      rintro _ hmem _ hk rfl
      obtain rfl := List.mem_singleton.mp hk
      exact h hmem⟩

/-- `map.delete(key)` -/
def delete (m : Map κ α) (k : κ) : Map κ α :=
  ⟨m.entries.filter fun e => e.1 ≠ k, m.nodup.sublist (List.filter_sublist.map _)⟩

theorem mem_of_get? (h : m.get? k = some a) : (k, a) ∈ m.entries := by
  obtain ⟨e, he, rfl⟩ := Option.map_eq_some_iff.mp h
  obtain rfl : e.1 = k := by simpa using List.find?_some he
  exact List.mem_of_find?_eq_some he

/-- **A key has the value it is listed with.** -/
theorem get?_eq_some_iff : m.get? k = some a ↔ (k, a) ∈ m.entries := by
  refine ⟨mem_of_get?, fun hmem => ?_⟩
  rcases hget : m.get? k with _ | b
  · have hnone := List.find?_eq_none.mp (Option.map_eq_none_iff.mp hget) _ hmem
    simp at hnone
  · have hpair := List.inj_on_of_nodup_map m.nodup (mem_of_get? hget) hmem rfl
    rw [(Prod.mk.inj hpair).2]

theorem get?_eq_none_iff : m.get? k = none ↔ k ∉ m.entries.map Prod.fst := by
  rw [Option.eq_none_iff_forall_not_mem]
  constructor
  · intro h hmem
    obtain ⟨⟨_, a⟩, ha, rfl⟩ := List.mem_map.mp hmem
    exact h a (get?_eq_some_iff.mpr ha)
  · intro h a ha
    exact h (List.mem_map.mpr ⟨_, get?_eq_some_iff.mp ha, rfl⟩)

/-- A new key comes last. -/
theorem entries_set (h : m.get? k = none) : (m.set k a).entries = m.entries ++ [(k, a)] := by
  rw [set, dif_neg (get?_eq_none_iff.mp h)]

@[simp] theorem mem_entries_delete {e : κ × α} : e ∈ (m.delete k).entries ↔ e ∈ m.entries ∧ e.1 ≠ k := by
  simp [delete]

end Map

end Js
