import Marketplace.Sql.Rely
import Marketplace.Sql.Table

/-!
# Writing under the lock

The usual discipline: a row is written by a transaction that holds it. `RowView` says what it means for
a row to be left alone, and what a database keeps whatever is written (`RowView.ages`: no row is
deleted, a stamp stays set). The sessions that keep the discipline rely on nothing else
(`RowView.rely`), and a change to rows that are held disturbs nobody (`RowView.Moves.guar`).

That a transaction keeps a discipline is read off its text. `Tx.WritesUnder P L` says that every
change it makes, started with the rows `L`, has the property `P` with respect to the rows held at that
moment; the rule that uses it is `Tx.wp_writesUnder`.

`Table.Aged` is for tables whose rows only ever change along a relation.
-/

namespace Sql

variable {D K ε α β : Type}

/-- What the rows of a database are. -/
structure RowView (D K : Type) where
  /-- What is true of every change. -/
  ages : D → D → Prop
  /-- The row is left alone. -/
  same : K → D → D → Prop
  ages_refl : ∀ d, ages d d
  ages_trans : ∀ {d₁ d₂ d₃}, ages d₁ d₂ → ages d₂ d₃ → ages d₁ d₃
  same_refl : ∀ k d, same k d d
  same_trans : ∀ {k d₁ d₂ d₃}, same k d₁ d₂ → same k d₂ d₃ → same k d₁ d₃

namespace RowView

variable (V : RowView D K)

/-- What the others leave alone: the rows one holds. -/
def rely : Rely D K where
  rel L d d' := V.ages d d' ∧ ∀ k ∈ L, V.same k d d'
  refl _ d := ⟨V.ages_refl d, fun k _ => V.same_refl k d⟩
  trans h h' := ⟨V.ages_trans h.1 h'.1, fun k hk => V.same_trans (h.2 k hk) (h'.2 k hk)⟩
  anti hL h := ⟨h.1, fun k hk => h.2 k (hL hk)⟩

/-- A change to the rows `L` alone. -/
def Moves (L : List K) (f : D → D) : Prop :=
  ∀ d, V.ages d (f d) ∧ ∀ k, k ∉ L → V.same k d (f d)

variable {V} {L L' : List K} {f g : D → D}

theorem Moves.id : V.Moves L id := fun d => ⟨V.ages_refl d, fun k _ => V.same_refl k d⟩

theorem Moves.comp (hf : V.Moves L f) (hg : V.Moves L g) : V.Moves L fun d => g (f d) := fun d =>
  ⟨V.ages_trans (hf d).1 (hg (f d)).1, fun k hk => V.same_trans ((hf d).2 k hk) ((hg (f d)).2 k hk)⟩

theorem Moves.mono (h : V.Moves L f) (hL : L ⊆ L') : V.Moves L' f := fun d =>
  ⟨(h d).1, fun k hk => (h d).2 k fun hk' => hk (hL hk')⟩

/-- **A change to rows one holds disturbs nobody.** -/
theorem Moves.guar (h : V.Moves L f) (hL : LocksDisjoint L L') (d : D) : V.rely.rel L' d (f d) :=
  ⟨(h d).1, fun k hk => (h d).2 k fun hk' => hL k hk' hk⟩

end RowView

/-! ### Disciplines -/

/-- A property of changes, given the rows that are held, which composes and which holding more rows
does not hurt. -/
structure Discipline (P : List K → (D → D) → Prop) : Prop where
  id : ∀ L, P L id
  comp : ∀ {L f g}, P L f → P L g → P L fun d => g (f d)
  mono : ∀ {L L' f}, L ⊆ L' → P L f → P L' f

theorem RowView.discipline (V : RowView D K) : Discipline V.Moves :=
  ⟨fun _ => Moves.id, Moves.comp, fun hL h => h.mono hL⟩

theorem Discipline.and {P Q : List K → (D → D) → Prop} (hP : Discipline P) (hQ : Discipline Q) :
    Discipline fun L f => P L f ∧ Q L f :=
  ⟨fun L => ⟨hP.id L, hQ.id L⟩, fun hf hg => ⟨hP.comp hf.1 hg.1, hQ.comp hf.2 hg.2⟩,
    fun hL h => ⟨hP.mono hL h.1, hQ.mono hL h.2⟩⟩

namespace Tx

/-- Every change the transaction makes, started with the rows `L`, keeps the discipline. -/
def WritesUnder (P : List K → (D → D) → Prop) : Tx D K ε α → List K → Prop
  | .pure _, _ => True
  | .throw _, _ => True
  | .stmt keys next, L => ∀ d, (next d).WritesUnder P (keys d ++ L)
  | .write f next, L => P L f ∧ next.WritesUnder P L

variable {P : List K → (D → D) → Prop} {L L' : List K}

theorem WritesUnder.bind {t : Tx D K ε α} {f : α → Tx D K ε β} (ht : t.WritesUnder P L)
    (hf : ∀ a L', L ⊆ L' → (f a).WritesUnder P L') : (t >>= f).WritesUnder P L := by
  change (t.bind f).WritesUnder P L
  induction t generalizing L with
  | pure a => exact hf a L (List.Subset.refl L)
  | throw e => exact trivial
  | stmt keys next ih =>
    exact fun d => ih d (ht d) fun a L' hL' => hf a L' (List.Subset.trans (List.subset_append_right _ _) hL')
  | write g next ih => exact ⟨ht.1, ih ht.2 hf⟩

/-- What follows a statement holds the rows it locks. -/
theorem writesUnder_stmt_bind {keys : D → List K} {next : D → Tx D K ε α} {f : α → Tx D K ε β}
    (h : ∀ d, (next d >>= f).WritesUnder P (keys d ++ L)) :
    (Tx.stmt keys next >>= f).WritesUnder P L := h

/-- What follows a lock holds the row. -/
theorem writesUnder_lock_bind {k : K} {g : D → α} {f : α → Tx D K ε β}
    (h : ∀ a, (f a).WritesUnder P (k :: L)) : (lock k g >>= f).WritesUnder P L := fun d => h (g d)

theorem writesUnder_pure (a : α) : (Pure.pure a : Tx D K ε α).WritesUnder P L := trivial

theorem writesUnder_read (f : D → α) : (read f : Tx D K ε α).WritesUnder P L := fun _ => trivial

theorem writesUnder_modify {f : D → D} : (modify f : Tx D K ε Unit).WritesUnder P L ↔ P L f :=
  ⟨fun h => h.1, fun h => ⟨h, trivial⟩⟩

theorem writesUnder_getOrElse (o : Option α) (e : ε) :
    (getOrElse o e : Tx D K ε α).WritesUnder P L := by
  cases o <;> exact trivial

theorem writesUnder_require (p : Prop) [Decidable p] (e : ε) :
    (require p e : Tx D K ε Unit).WritesUnder P L := by
  by_cases h : p <;> simp [require, h, WritesUnder]

theorem writesUnder_when {p : Prop} [Decidable p] {t : Tx D K ε Unit}
    (ht : p → t.WritesUnder P L) : (when p t).WritesUnder P L := by
  by_cases h : p
  · simpa [when, h] using ht h
  · simp [when, h, WritesUnder]

theorem writesUnder_forEach {as : List α} {f : α → Tx D K ε Unit}
    (hf : ∀ a ∈ as, ∀ L', L ⊆ L' → (f a).WritesUnder P L') : (forEach as f).WritesUnder P L := by
  induction as generalizing L with
  | nil => exact trivial
  | cons a as ih =>
    refine WritesUnder.bind (hf a List.mem_cons_self L (List.Subset.refl L)) fun _ L' hL' => ?_
    exact ih fun b hb L'' hL'' => hf b (List.mem_cons_of_mem _ hb) L'' (List.Subset.trans hL' hL'')

/-- Every result has a property. -/
def Returns (Q : α → Prop) : Tx D K ε α → Prop
  | .pure a => Q a
  | .throw _ => True
  | .stmt _ next => ∀ d, (next d).Returns Q
  | .write _ next => next.Returns Q

theorem returns_bind {Q : β → Prop} {t : Tx D K ε α} {f : α → Tx D K ε β}
    (h : ∀ a, (f a).Returns Q) : (t >>= f).Returns Q := by
  change (t.bind f).Returns Q
  induction t with
  | pure a => exact h a
  | throw e => exact trivial
  | stmt keys next ih => exact fun d => ih d
  | write g next ih => exact ih

theorem returns_pure {Q : α → Prop} {a : α} (h : Q a) : (Pure.pure a : Tx D K ε α).Returns Q := h

variable {R : Rely D K} {I : D → Prop} {w : D → D} {s : List D} {d : D}

theorem wp_returns {Q : α → Prop} {t : Tx D K ε α} (ht : t.Returns Q) :
    t.wp R I (fun a _ _ _ _ => Q a) w L s d := by
  induction t generalizing w L s d with
  | pure a => exact ht
  | throw e => exact trivial
  | stmt keys next ih => exact fun d' _ _ => ih (w d') (ht (w d'))
  | write f next ih => exact ih ht

/-- **The rule of a discipline.** A transaction that keeps it makes one change that keeps it, with
respect to the rows held in the end, on top of what was pending. -/
theorem wp_writesUnder (hP : Discipline P) {t : Tx D K ε α} (ht : t.WritesUnder P L) :
    t.wp R I (fun _ w' L' s' d' => ∃ g, P L' g ∧ (w' = fun d => g (w d)) ∧ L ⊆ L' ∧ s <:+ s' ∧
      R.rel L d d') w L s d := by
  suffices h : ∀ (w' : D → D) (L' : List K) (s' : List D) (d' : D), t.WritesUnder P L' →
      (∃ g, P L' g ∧ (w' = fun d => g (w d)) ∧ L ⊆ L' ∧ s <:+ s' ∧ R.rel L d d') →
      t.wp R I (fun _ w' L' s' d' => ∃ g, P L' g ∧ (w' = fun d => g (w d)) ∧ L ⊆ L' ∧ s <:+ s' ∧
        R.rel L d d') w' L' s' d' from
    h w L s d ht ⟨fun d => d, hP.id L, rfl, List.Subset.refl L, List.suffix_refl s, R.refl L d⟩
  clear ht
  induction t with
  | pure a => exact fun w' L' s' d' _ h => h
  | throw e => exact fun _ _ _ _ _ _ => trivial
  | stmt keys next ih =>
    rintro w' L' s' d' ht ⟨g, hg, hw, hL, hs, hd⟩ d'' hd' hI
    have hsub : L' ⊆ keys (w' d'') ++ L' := List.subset_append_right _ _
    exact ih (w' d'') w' _ _ d'' (ht (w' d'')) ⟨g, hP.mono hsub hg, hw, List.Subset.trans hL hsub,
      hs.trans (List.suffix_cons _ _), R.trans hd (R.anti hL hd')⟩
  | write f next ih =>
    rintro w' L' s' d' ht ⟨g, hg, hw, hL, hs, hd⟩
    refine ih _ L' s' d' ht.2 ⟨fun d => f (g d), hP.comp hg ht.1, ?_, hL, hs, hd⟩
    rw [hw]

end Tx

/-! ### Tables whose rows age -/

namespace Table

variable {K V : Type} [DecidableEq K] {r : V → V → Prop} {t t' t'' : Table K V}

/-- The rows of the one are the rows of the other, each changed along `r`. -/
def Aged (r : V → V → Prop) (t t' : Table K V) : Prop := ∀ k, Option.Rel r (t.get? k) (t'.get? k)

theorem Aged.refl (hr : ∀ v, r v v) (t : Table K V) : Aged r t t := by
  intro k
  cases t.get? k with
  | none => exact .none
  | some v => exact .some (hr v)

theorem Aged.trans (hr : ∀ {u v w}, r u v → r v w → r u w) (h : Aged r t t') (h' : Aged r t' t'') :
    Aged r t t'' := by
  intro k
  have hk := h k
  have hk' := h' k
  generalize t.get? k = o at hk ⊢
  generalize t'.get? k = o' at hk hk'
  generalize t''.get? k = o'' at hk' ⊢
  cases hk with
  | none => exact hk'
  | some huv =>
    cases hk' with
    | some hvw => exact .some (hr huv hvw)

theorem Aged.modify (hr : ∀ v, r v v) {f : V → V} (hf : ∀ v, r v (f v)) (t : Table K V) (k : K) :
    Aged r t (t.modify k f) := by
  intro k'
  rw [get?_modify]
  cases t.get? k' with
  | none =>
    split_ifs
    · exact .none
    · exact .none
  | some v =>
    split_ifs
    · exact .some (hf v)
    · exact .some (hr v)

/-- What has become of a row. -/
theorem Aged.later (h : Aged r t t') {k : K} {v : V} (hv : t.get? k = some v) :
    ∃ v', t'.get? k = some v' ∧ r v v' := by
  obtain hrel := hv ▸ h k
  cases hk : t'.get? k with
  | none =>
    rw [hk] at hrel
    cases hrel
  | some v' =>
    rw [hk] at hrel
    cases hrel with
    | some hvv' => exact ⟨v', rfl, hvv'⟩

/-- What a row was. -/
theorem Aged.earlier (h : Aged r t t') {k : K} {v' : V} (hv : t'.get? k = some v') :
    ∃ v, t.get? k = some v ∧ r v v' := by
  obtain hrel := hv ▸ h k
  cases hk : t.get? k with
  | none =>
    rw [hk] at hrel
    cases hrel
  | some v =>
    rw [hk] at hrel
    cases hrel with
    | some hvv' => exact ⟨v, rfl, hvv'⟩

end Table

end Sql
