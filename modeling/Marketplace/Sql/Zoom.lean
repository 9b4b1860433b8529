import Marketplace.Sql.Serial

/-!
# Transactions on a part of the database

A module of a system has tables of its own, and its transactions are written over these.
`Tx.zoom` runs such a transaction on a larger database of which its tables are a
part; a `Part` says where the part is, and a function says what its row locks are called there.

A zoomed transaction does to the part what it did before and to the rest nothing
(`Tx.run_zoom_eq_ok`, `Tx.wp_zoom`), and one whose reads were protected by its locks still
has them protected (`Tx.Serial.zoom`). So what is known about a module alone is known about
it inside the system.
-/

namespace Sql

variable {E D K J ε α β : Type}

/-- Where a part of type `D` is in a whole of type `E`. -/
structure Part (E D : Type) where
  get : E → D
  set : D → E → E
  get_set : ∀ x e, get (set x e) = x
  set_get : ∀ e, set (get e) e = e
  set_set : ∀ x y e, set x (set y e) = set x e

namespace Tx

/-- The transaction, run on the part `p` of a larger database. -/
def zoom (p : Part E D) (key : K → J) : Tx D K ε α → Tx E J ε α
  | .pure a => .pure a
  | .throw e => .throw e
  | .stmt keys next => .stmt (fun e => (keys (p.get e)).map key) fun e =>
      (next (p.get e)).zoom p key
  | .write f next => .write (fun e => p.set (f (p.get e)) e) (next.zoom p key)

variable {p : Part E D} {key : K → J}

/-- **Alone, it changes the part as before and the rest not at all.** -/
@[simp] theorem run_zoom_eq_ok (t : Tx D K ε α) (e : E) (r : α × E) :
    (t.zoom p key).run e = .ok r ↔
      ∃ d, t.run (p.get e) = .ok (r.1, d) ∧ r.2 = p.set d e := by
  induction t generalizing e with
  | pure a =>
    obtain ⟨b, e'⟩ := r
    constructor
    · intro h
      obtain ⟨rfl, rfl⟩ : a = b ∧ e = e' := by simpa [zoom] using h
      exact ⟨p.get e, rfl, (p.set_get e).symm⟩
    · rintro ⟨d, h, he⟩
      obtain ⟨rfl, rfl⟩ : a = b ∧ p.get e = d := by simpa using h
      obtain rfl : e' = e := he.trans (p.set_get e)
      rfl
  | throw e => simp [zoom]
  | stmt keys next ih => exact ih (p.get e) e
  | write f next ih =>
    refine (ih _).trans (exists_congr fun d => ?_)
    rw [p.get_set, p.set_set]
    rfl

/-- A zoomed transaction changes nothing but the part. -/
theorem writes_zoom {P : (E → E) → Prop} (h : ∀ f : D → D, P fun e => p.set (f (p.get e)) e)
    (t : Tx D K ε α) : (t.zoom p key).Writes P := by
  induction t with
  | pure a => exact trivial
  | throw e => exact trivial
  | stmt keys next ih => exact fun e => ih (p.get e)
  | write f next ih => exact ⟨h f, ih⟩

/-! ### With other sessions around -/

variable {R : Rely D K} {I : D → Prop} {R' : Rely E J} {I' : E → Prop}

/-- The part is protected by the locks of the part. -/
def Protects (p : Part E D) (key : K → J) (R' : Rely E J) (R : Rely D K) : Prop :=
  ∀ L' L e e', (∀ k ∈ L, key k ∈ L') → R'.rel L' e e' → R.rel L (p.get e) (p.get e')

/-- More locks of the part are more locks of the whole. -/
theorem keys_mem_append {keys L : List K} {L' : List J} (hL : ∀ k ∈ L, key k ∈ L') :
    ∀ k ∈ keys ++ L, key k ∈ keys.map key ++ L' := by
  intro k hk
  rcases List.mem_append.mp hk with hk | hk
  · exact List.mem_append_left _ (List.mem_map_of_mem hk)
  · exact List.mem_append_right _ (hL k hk)

/-- **What protects its reads in the part protects them in the whole.** -/
theorem Serial.zoom {H : α → List K → Prop} (hR : Protects p key R' R)
    (hI : ∀ e, I' e → I (p.get e)) {t : Tx D K ε α} {w : D → D} {w' : E → E} {L : List K}
    {L' : List J} {e : E} (ht : t.Serial R I H w L (p.get e))
    (hw : ∀ x, p.get (w' x) = w (p.get x)) (hL : ∀ k ∈ L, key k ∈ L') :
    (t.zoom p key).Serial R' I' (fun a M' => ∃ M, H a M ∧ (∀ k ∈ M, key k ∈ M') ∧ L' ⊆ M')
      w' L' e := by
  induction t generalizing w w' L L' e with
  | pure a => exact ⟨L, ht, hL, List.Subset.refl L'⟩
  | throw e => exact trivial
  | stmt keys next ih =>
    intro e' he hIe
    obtain ⟨hstable, hnext⟩ := ht (p.get e') (hR L' L e e' hL he) (hI e' hIe)
    refine ⟨fun e'' he' hIe' => ?_, ?_⟩
    · change (next (p.get (w' e''))).zoom p key = (next (p.get (w' e'))).zoom p key
      change R'.rel ((keys (p.get (w' e'))).map key ++ L') e' e'' at he'
      rw [hw] at he'
      rw [hw, hw, hstable (p.get e'') (hR _ _ e' e'' (keys_mem_append hL) he') (hI e'' hIe')]
    · rw [← hw e'] at hnext
      refine (ih _ hnext hw (keys_mem_append hL)).mono fun a M' h => ?_
      obtain ⟨M, hM, hkey, hsub⟩ := h
      exact ⟨M, hM, hkey, List.Subset.trans (List.subset_append_right _ _) hsub⟩
  | write f next ih =>
    refine ih (w := fun d => f (w d)) ht (fun x => ?_) hL
    rw [p.get_set, hw]

/-- **What is reached in the part is reached in the whole**, and the rest of the pending change is
what it was. -/
theorem wp_zoom {Q : α → (D → D) → List K → List D → D → Prop} (hR : Protects p key R' R)
    (hI : ∀ e, I' e → I (p.get e)) {t : Tx D K ε α} {w : D → D} {w' : E → E} {L : List K}
    {L' : List J} {s' : List E} {e : E} (ht : t.wp R I Q w L (s'.map p.get) (p.get e))
    (hw : ∀ x, p.get (w' x) = w (p.get x)) (hL : ∀ k ∈ L, key k ∈ L') :
    (t.zoom p key).wp R' I' (fun a v' M' r' e' => ∃ v M, Q a v M (r'.map p.get) (p.get e') ∧
        (∀ x, p.get (v' x) = v (p.get x)) ∧ (∀ k ∈ M, key k ∈ M') ∧ L' ⊆ M' ∧
        ∀ d x, p.set d (v' x) = p.set d (w' x)) w' L' s' e := by
  induction t generalizing w w' L L' s' e with
  | pure a => exact ⟨w, L, ht, hw, hL, List.Subset.refl L', fun _ _ => rfl⟩
  | throw e => exact trivial
  | stmt keys next ih =>
    intro e' he hIe
    have hnext : (next (p.get (w' e'))).wp R I Q w (keys (p.get (w' e')) ++ L)
        ((w' e' :: s').map p.get) (p.get e') := by
      rw [List.map_cons, hw e']
      exact ht (p.get e') (hR L' L e e' hL he) (hI e' hIe)
    refine wp_mono (ih _ hnext hw (keys_mem_append hL)) ?_
    rintro a v' M' r' e'' ⟨v, M, hQ, hv, hM, hsub, hoff⟩
    exact ⟨v, M, hQ, hv, hM, List.Subset.trans (List.subset_append_right _ _) hsub, hoff⟩
  | write f next ih =>
    refine wp_mono (ih (w := fun d => f (w d)) ht (fun x => ?_) hL) ?_
    · rw [p.get_set, hw]
    · rintro a v' M' r' e' ⟨v, M, hQ, hv, hM, hsub, hoff⟩
      refine ⟨v, M, hQ, hv, hM, hsub, fun d x => ?_⟩
      rw [hoff, p.set_set]

end Tx

end Sql
