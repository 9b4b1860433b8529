import Mathlib.Data.List.Forall2

/-!
# Loops that may fail

`mapM` of a function that may give nothing, element by element.
-/

namespace Lists

variable {α β γ : Type} {f : α → Option β} {l : List α} {r : List β}

theorem mapM_eq_some_iff_forall₂ : l.mapM f = some r ↔ List.Forall₂ (fun a b => f a = some b) l r := by
  induction l generalizing r with
  | nil =>
    rw [List.mapM_nil, List.forall₂_nil_left_iff]
    exact ⟨fun h => (Option.some.inj h).symm, fun h => congrArg some h.symm⟩
  | cons a l ih =>
    rw [List.mapM_cons, List.forall₂_cons_left_iff]
    constructor
    · intro h
      obtain ⟨b, hb, h⟩ := Option.bind_eq_some_iff.mp h
      obtain ⟨bs, hbs, h⟩ := Option.bind_eq_some_iff.mp h
      exact ⟨b, bs, hb, ih.mp hbs, (Option.some.inj h).symm⟩
    · rintro ⟨b, bs, hb, hbs, rfl⟩
      exact Option.bind_eq_some_iff.mpr ⟨b, hb, Option.bind_eq_some_iff.mpr ⟨bs, ih.mpr hbs, rfl⟩⟩

/-- A loop that may fail returns what its elements give, where all of them give something. -/
theorem mapM_eq_some_iff : l.mapM f = some r ↔ (∀ a ∈ l, (f a).isSome) ∧ l.filterMap f = r := by
  induction l generalizing r with
  | nil =>
    rw [List.mapM_nil]
    exact ⟨fun h => ⟨by simp, Option.some.inj h⟩, fun h => congrArg some h.2⟩
  | cons a l ih =>
    rcases hb : f a with _ | b
    · simp [hb]
    · simp only [List.mapM_cons, hb, Option.bind_eq_bind, Option.bind_some, Option.bind_eq_some_iff, ih,
        List.forall_mem_cons, Option.isSome_some, true_and, List.filterMap_cons_some hb]
      constructor
      · rintro ⟨_, ⟨hl, rfl⟩, h⟩
        exact ⟨hl, Option.some.inj h⟩
      · rintro ⟨hl, rfl⟩
        exact ⟨_, ⟨hl, rfl⟩, rfl⟩

/-- A loop in which nothing fails. -/
theorem mapM_eq_some_map {g : α → β} (h : ∀ a ∈ l, f a = some (g a)) :
    l.mapM f = some (l.map g) := by
  rw [mapM_eq_some_iff_forall₂, List.forall₂_map_right_iff, List.forall₂_same]
  exact h

/-- What comes out came from an element. -/
theorem exists_mem_of_mapM_eq_some (h : l.mapM f = some r) {b : β} (hb : b ∈ r) : ∃ a ∈ l, f a = some b := by
  rw [mapM_eq_some_iff_forall₂] at h
  induction h with
  | nil => simp at hb
  | @cons a b' l r hab _ ih =>
    rcases List.mem_cons.mp hb with rfl | hb
    · exact ⟨a, by simp, hab⟩
    · obtain ⟨a', ha', hf⟩ := ih hb
      exact ⟨a', by simp [ha'], hf⟩

/-- Two loops, the second over what the first returns. -/
theorem mapM_of_mapM {g : β → Option γ} {k : α → γ} (h : l.mapM f = some r)
    (hg : ∀ a ∈ l, ∀ b, f a = some b → g b = some (k a)) : r.mapM g = some (l.map k) := by
  rw [mapM_eq_some_iff_forall₂] at h ⊢
  induction h with
  | nil => exact .nil
  | @cons a b l r hab _ ih =>
    exact .cons (hg a (by simp) b hab) (ih fun a' ha' => hg a' (by simp [ha']))

/-- A loop that may raise returns where each element does. -/
theorem mapM_eq_ok_iff_forall₂ {ε : Type} {f : α → Except ε β} :
    l.mapM f = .ok r ↔ List.Forall₂ (fun a b => f a = .ok b) l r := by
  induction l generalizing r with
  | nil =>
    rw [List.mapM_nil, List.forall₂_nil_left_iff]
    exact ⟨fun h => (Except.ok.inj h).symm, fun h => congrArg Except.ok h.symm⟩
  | cons a l ih =>
    rw [List.mapM_cons, List.forall₂_cons_left_iff]
    constructor
    · intro h
      rcases hb : f a with _ | b
      · rw [hb] at h
        cases h
      rcases hbs : l.mapM f with _ | bs
      · rw [hb, hbs] at h
        cases h
      rw [hb, hbs] at h
      exact ⟨b, bs, rfl, ih.mp hbs, (Except.ok.inj h).symm⟩
    · rintro ⟨b, bs, hb, hbs, rfl⟩
      rw [hb, ih.mpr hbs]
      rfl

end Lists
