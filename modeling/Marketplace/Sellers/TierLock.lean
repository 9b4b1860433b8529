import Marketplace.Sellers.TierAuto
import Marketplace.Sql.Play
import Marketplace.Sql.Serial

/-!
# A tier set by hand

The job, `admin_set_tier_lock` and `update_seller_tier` in any number of sessions. A tier an admin has
locked is to be left alone until an admin unlocks it, and a tier an admin has set is to be the
seller's.

The job decides on a state it has not locked: `locked_tier_moved` is a run in which an admin locks the tier
between the decision and the commit, `set_tier_lost` one in which an admin sets the tier the seller has
already, which writes nothing, while the job moves it. `TierCall.Undisturbed` is the condition that
neither happens, `locked_tier_kept` what holds of the runs whose commits meet it.
-/

namespace Marketplace

open Sql

/-! ### The sessions -/

/-- The calls. -/
inductive TierCall
  | applySeller (a : ℕ) (m : TrustFigures) (now : ℕ) (actorId : Option ℕ)
  | adminSetTierLock (a : ℕ) (locked : Bool) (actorId now : ℕ)
  | updateSellerTier (a : ℕ) (tier : SellerTier) (actorId : Option ℕ) (reason : Option String)
      (lock : Bool) (now : ℕ)

/-- What a session runs. -/
def TierCall.code : TierCall → TierTx Unit
  | .applySeller a m now actorId => Marketplace.applySeller a m now actorId
  | .adminSetTierLock a locked actorId now => Marketplace.adminSetTierLock a locked actorId now
  | .updateSellerTier a tier actorId reason lock now =>
    Marketplace.updateSellerTier a tier actorId reason lock now

/-- The tier of a seller is locked. -/
def TierDb.isLocked (d : TierDb) (a : ℕ) : Prop :=
  ∃ s, d.states.get? a = some s ∧ s.locked = true

instance (d : TierDb) (a : ℕ) : Decidable (d.isLocked a) :=
  decidable_of_iff ((d.states.get? a).any SellerTierState.locked = true) (by
    rw [TierDb.isLocked, Option.any_eq_true])

/-- The tier of a seller. -/
def TierDb.tierOf (d : TierDb) (a : ℕ) : Option SellerTier :=
  (d.accounts.get? a).map TierAccount.sellerTier

/-- Since when, and by which criteria, a seller is at risk. -/
def TierDb.riskOf (d : TierDb) (a : ℕ) : Option (Option ℕ × Option (List String)) :=
  (d.states.get? a).map fun s => (s.atRiskSince, s.atRiskKeys)

/-- The job commits a seller it found unlocked while the seller is still unlocked; and a tier that an
admin found already set, so that nothing was to be written, is still set. -/
def TierCall.Undisturbed : TierCall → List TierDb → TierDb → Prop
  | .applySeller a _ _ _, seen, d => (∃ s ∈ seen, ¬s.isLocked a) → ¬d.isLocked a
  | .updateSellerTier a tier _ _ _ _, seen, d =>
    ∀ s ∈ seen.getLast?, s.tierOf a = some tier → d.tierOf a = some tier
  | _, _, _ => True

instance (c : TierCall) (seen : List TierDb) (d : TierDb) : Decidable (c.Undisturbed seen d) := by
  cases c <;> unfold TierCall.Undisturbed <;> infer_instance

/-- The sessions, in the runs in which no commit is overtaken. -/
def tierMachine : Machine TierDb TierKey Abort Unit TierCall := ⟨TierCall.code, TierCall.Undisturbed⟩

/-- An admin's call about the seller. -/
def TierCall.ByAdmin (a : ℕ) : TierCall → Prop
  | .applySeller .. => False
  | .adminSetTierLock b .. => b = a
  | .updateSellerTier b .. => b = a

/-- An admin unlocks the seller. -/
def TierCall.Unlocks (a : ℕ) (c : TierCall) : Prop :=
  ∃ actorId now, c = .adminSetTierLock a false actorId now

instance (a : ℕ) (c : TierCall) : Decidable (c.ByAdmin a) := by
  cases c <;> unfold TierCall.ByAdmin <;> infer_instance

/-- What a commit does to the seller `a`. -/
structure TierPost (a : ℕ) (c : TierCall) (d d' : TierDb) : Prop where
  /-- A locked tier is left alone by everybody but an admin. -/
  kept : ¬c.ByAdmin a → d.isLocked a → d'.tierOf a = d.tierOf a ∧ d'.riskOf a = d.riskOf a
  /-- The lock ends when an admin unlocks. -/
  held : ¬c.Unlocks a → d.isLocked a → d'.isLocked a
  /-- The tier an admin sets is set. -/
  set : ∀ tier actorId reason lock now, c = .updateSellerTier a tier actorId reason lock now →
    d'.tierOf a = some tier ∧ (lock = true → actorId ≠ none → d'.isLocked a)

/-! ### What the rows protect -/

/-- What the others leave alone: the rows that are locked, and that an account is there. -/
structure TierRel (L : List TierKey) (d d' : TierDb) : Prop where
  accounts : ∀ a, .account a ∈ L → d'.accounts.get? a = d.accounts.get? a
  states : ∀ a, .state a ∈ L → d'.states.get? a = d.states.get? a
  present : ∀ a, (d.accounts.get? a).isSome = true → (d'.accounts.get? a).isSome = true

/-- What the others leave alone. -/
def tierRely : Rely TierDb TierKey where
  rel := TierRel
  refl _ _ := ⟨fun _ _ => rfl, fun _ _ => rfl, fun _ h => h⟩
  trans h h' := ⟨fun a ha => (h'.accounts a ha).trans (h.accounts a ha),
    fun a ha => (h'.states a ha).trans (h.states a ha), fun a ha => h'.present a (h.present a ha)⟩
  anti hL h := ⟨fun a ha => h.accounts a (hL ha), fun a ha => h.states a (hL ha), h.present⟩

/-- A change to the seller `a` alone; of the account only if `account` says so. -/
structure SellerWrite (a : ℕ) (account : Prop) (f : TierDb → TierDb) : Prop where
  accounts : ∀ d b, b ≠ a ∨ ¬account → (f d).accounts.get? b = d.accounts.get? b
  states : ∀ d b, b ≠ a → (f d).states.get? b = d.states.get? b
  present : ∀ d b, (d.accounts.get? b).isSome = true → ((f d).accounts.get? b).isSome = true

namespace SellerWrite

variable {a : ℕ} {account : Prop} {f g : TierDb → TierDb}

theorem id : SellerWrite a account id := ⟨fun _ _ _ => rfl, fun _ _ _ => rfl, fun _ _ h => h⟩

theorem comp (hf : SellerWrite a account f) (hg : SellerWrite a account g) :
    SellerWrite a account fun d => g (f d) :=
  ⟨fun d b hb => (hg.accounts (f d) b hb).trans (hf.accounts d b hb),
    fun d b hb => (hg.states (f d) b hb).trans (hf.states d b hb),
    fun d b hb => hg.present (f d) b (hf.present d b hb)⟩

theorem modifyState (f : SellerTierState → SellerTierState) :
    SellerWrite a account (TierDb.modifyState a f) :=
  ⟨fun _ _ _ => rfl, fun _ _ hb => Table.get?_modify_of_ne _ hb f, fun _ _ h => h⟩

theorem insertState (s : SellerTierState) : SellerWrite a account (TierDb.insertState a s) :=
  ⟨fun _ _ _ => rfl, fun _ _ hb => Table.get?_insert_of_ne hb s, fun _ _ h => h⟩

theorem addEvent (e : SellerTierEvent) : SellerWrite a account (TierDb.addEvent e) :=
  ⟨fun _ _ _ => rfl, fun _ _ _ => rfl, fun _ _ h => h⟩

theorem modifyAccount (h : account) (f : TierAccount → TierAccount) :
    SellerWrite a account (TierDb.modifyAccount a f) := by
  refine ⟨fun d _ hb => Table.get?_modify_of_ne d.accounts (hb.resolve_right fun hn => hn h) f,
    fun _ _ _ => rfl, fun d b hb => ?_⟩
  rw [TierDb.modifyAccount_accounts, Table.get?_modify]
  split
  · rw [Option.isSome_map, hb]
  · exact hb

/-- Nobody who holds other rows minds. -/
theorem guar (hf : SellerWrite a account f) {L : List TierKey}
    (hstate : .state a ∈ L ∨ ∀ d, (f d).states = d.states)
    (haccount : account → .account a ∈ L) (d : TierDb) {L' : List TierKey}
    (hL : LocksDisjoint L L') : tierRely.rel L' d (f d) := by
  refine ⟨fun b hb => hf.accounts d b ?_, fun b hb => ?_, hf.present d⟩
  · by_cases h : b = a ∧ account
    · exact absurd (h.1 ▸ hb) (hL _ (haccount h.2))
    · by_cases hba : b = a
      · exact Or.inr fun ha => h ⟨hba, ha⟩
      · exact Or.inl hba
  · rcases hstate with hstate | hsame
    · by_cases hba : b = a
      · exact absurd (hba ▸ hb) (hL _ hstate)
      · exact hf.states d b hba
    · rw [hsame]

/-- What happens to the other sellers. -/
theorem other (hf : SellerWrite a account f) {b : ℕ} (hb : b ≠ a) (d : TierDb) :
    (f d).tierOf b = d.tierOf b ∧ (f d).riskOf b = d.riskOf b ∧ ((f d).isLocked b ↔ d.isLocked b) := by
  refine ⟨?_, ?_, ?_⟩
  · rw [TierDb.tierOf, hf.accounts d b (Or.inl hb), TierDb.tierOf]
  · rw [TierDb.riskOf, hf.states d b hb, TierDb.riskOf]
  · rw [TierDb.isLocked, hf.states d b hb, TierDb.isLocked]

end SellerWrite

/-! ### Every call owes it -/

section Owes

variable {a : ℕ} {account : Prop} {w : TierDb → TierDb} {L : List TierKey} {s : List TierDb}
  {d : TierDb} {I : TierDb → Prop}

/-- The session has made a change to the seller, under the lock of its state. -/
def Changed (a : ℕ) (account : Prop) (w : TierDb → TierDb) (L : List TierKey) (s : List TierDb)
    (d : TierDb) : (TierDb → TierDb) → List TierKey → List TierDb → TierDb → Prop :=
  fun w' L' s' d' => ∃ g, SellerWrite a account g ∧ (w' = fun d => g (w d)) ∧ .state a ∈ L' ∧ L ⊆ L' ∧
    s <:+ s' ∧ tierRely.rel L d d'

theorem wp_seller {β : Type} {t : TierTx β} (ht : t.Writes (SellerWrite a account))
    (hL : .state a ∈ L) :
    t.wp tierRely I (fun _ => Changed a account w L s d) w L s d := by
  refine Tx.wp_mono (Tx.wp_frame SellerWrite.id (fun _ _ => SellerWrite.comp) ht) ?_
  rintro _ w' L' s' d' ⟨g, hg, hw, hsub, hs, hd⟩
  exact ⟨g, hg, hw, hsub hL, hsub, hs, hd⟩

theorem Changed.after {g : TierDb → TierDb} (hg : SellerWrite a account g) {x : TierDb} {d₁ : TierDb}
    (hd : tierRely.rel L d d₁) {w' : TierDb → TierDb} {L' : List TierKey} {s' : List TierDb}
    {d' : TierDb}
    (h : Changed a account (fun d => g (w d)) (.state a :: L) (x :: s) d₁ w' L' s' d') :
    Changed a account w L s d w' L' s' d' := by
  obtain ⟨g', hg', hw, hL, hsub, hs, hd'⟩ := h
  exact ⟨fun d => g' (g d), hg.comp hg', hw, hL, fun k hk => hsub (List.mem_cons_of_mem _ hk),
    (List.suffix_cons _ _).trans hs, tierRely.trans hd (tierRely.anti (List.subset_cons_self _ _) hd')⟩

variable (account) in
/-- Whatever follows the lock of a state. -/
theorem wp_tierState {β : Type} {t : SellerTierState → TierTx β}
    (ht : ∀ u, (t u).Writes (SellerWrite a account)) :
    (tierState a >>= t).wp tierRely I (fun _ => Changed a account w L s d) w L s d := by
  rw [Tx.wp_bind, tierState, Tx.wp_bind, Tx.wp_lock]
  intro d₁ hd _
  rcases (w d₁).states.get? a with _ | u
  · change (t .fresh).wp _ _ _ _ _ _ _
    exact Tx.wp_mono (wp_seller (ht .fresh) List.mem_cons_self) fun _ _ _ _ _ =>
      Changed.after (SellerWrite.insertState .fresh) hd
  · change (t u).wp _ _ _ _ _ _ _
    exact Tx.wp_mono (wp_seller (ht u) List.mem_cons_self) fun _ _ _ _ _ =>
      Changed.after SellerWrite.id hd

theorem writes_changeSellerTier (h : account) (oldTier newTier : SellerTier) (reason : Option String)
    (actorId : Option ℕ) :
    (changeSellerTier a oldTier newTier reason actorId).Writes (SellerWrite a account) := by
  rw [changeSellerTier]
  split_ifs
  · exact Tx.writes_pure _
  · exact .bind (Tx.writes_lock _ _) fun _ =>
      .bind (Tx.writes_modify.mpr (SellerWrite.modifyAccount h _)) fun _ =>
        Tx.writes_modify.mpr (SellerWrite.addEvent _)

/-- A commit of the job at a seller that nobody has locked since it looked. -/
theorem commits_applySeller {m : TrustFigures} {now : ℕ} {actorId : Option ℕ} {g : TierDb → TierDb}
    (hg : SellerWrite a True g) (hstate : .state a ∈ L) (haccount : .account a ∈ L)
    (h : ∀ d, tierMachine.allows (.applySeller a m now actorId) s d → d.isLocked a →
      (g d).isLocked a ∧ (g d).tierOf a = d.tierOf a ∧ (g d).riskOf a = d.riskOf a) :
    Commits tierRely (fun _ => True) tierMachine (fun c _ d d' => ∀ b, TierPost b c d d')
      (.applySeller a m now actorId) () g L s d := by
  intro d' _ _ hallow
  have hall : ∀ b, d'.isLocked b → (g d').isLocked b ∧ (g d').tierOf b = d'.tierOf b ∧
      (g d').riskOf b = d'.riskOf b := by
    intro b hlocked
    by_cases hb : b = a
    · exact hb ▸ h d' hallow (hb ▸ hlocked)
    · obtain ⟨htier, hrisk, hlock⟩ := hg.other hb d'
      exact ⟨hlock.mpr hlocked, htier, hrisk⟩
  exact ⟨trivial, fun b => ⟨fun _ hl => (hall b hl).2, fun _ hl => (hall b hl).1,
    fun _ _ _ _ _ hc => TierCall.noConfusion hc⟩,
    fun L' hL' => hg.guar (Or.inl hstate) (fun _ => haccount) d' hL'⟩

theorem isLocked_iff {d : TierDb} :
    d.isLocked a ↔ ((d.states.get? a).map SellerTierState.locked).getD false = true := by
  rw [TierDb.isLocked]
  rcases d.states.get? a with _ | u <;> simp

theorem applySeller_owes (m : TrustFigures) (now : ℕ) (actorId : Option ℕ) :
    (applySeller a m now actorId).wp tierRely (fun _ => True)
      (Commits tierRely (fun _ => True) tierMachine (fun c _ d d' => ∀ b, TierPost b c d d')
        (.applySeller a m now actorId)) id [] [] d := by
  simp only [applySeller, Tx.wp_bind, Tx.wp_lock, Tx.wp_getOrElse, Tx.wp_read]
  intro d₁ _ _ v hv d₂ hd₂ _
  rw [Tx.wp_ite]
  refine ⟨fun _ => ?_, fun hact => ?_⟩
  · -- Only the time is noted.
    simp only [noteEvaluation, Tx.wp_bind, Tx.wp_require, Tx.wp_lock, Tx.wp_modify]
    intro _ d₃ _ _
    refine commits_applySeller (g := TierDb.modifyState a fun s => { s with evaluatedAt := some now })
      (SellerWrite.modifyState _) List.mem_cons_self
      (List.mem_cons_of_mem _ List.mem_cons_self) fun d' _ hlocked => ?_
    obtain ⟨u, hu, hl⟩ := hlocked
    have hget : (d'.modifyState a fun s => { s with evaluatedAt := some now }).states.get? a =
        some { u with evaluatedAt := some now } := by simp [hu]
    exact ⟨⟨_, hget, hl⟩, rfl, by rw [TierDb.riskOf, TierDb.riskOf, hget, hu]; rfl⟩
  · -- The seller was not locked, or the job would not act.
    have hunlocked : ¬d₂.isLocked a := by
      intro hl
      rw [isLocked_iff] at hl
      refine hact (Or.inl ?_)
      change (decideSeller _ m (((d₂.states.get? a).map SellerTierState.locked).getD false) _ now).action = _
      rw [hl, decideSeller_locked]
      rfl
    refine Tx.wp_mono (wp_tierState True fun u => ?_) ?_
    · refine .bind ?_ fun _ => Tx.writes_modify.mpr (SellerWrite.modifyState _)
      rw [moveSeller]
      split
      · exact writes_changeSellerTier trivial _ _ _ _
      · exact Tx.writes_pure _
    · rintro ⟨⟩ w' L' s' d' ⟨g, hg, rfl, hstate, hsub, hs, -⟩
      refine commits_applySeller hg hstate (hsub List.mem_cons_self) fun d'' hallow hlocked => ?_
      exact absurd hlocked (hallow ⟨d₂, hs.subset List.mem_cons_self, hunlocked⟩)

/-- What `set_tier_lock` does to the state, wherever it commits. -/
theorem wp_setTierLock {locked : Bool} {actorId now : ℕ} (hw : ∀ e, (w e).states = e.states) :
    (setTierLock a locked actorId now).wp tierRely I (fun _ w' L' s' d' =>
      Changed a False w L s d w' L' s' d' ∧
        ∀ e, tierRely.rel L' d' e → ((w' e).states.get? a).map SellerTierState.locked = some locked)
      w L s d := by
  have hset : ∀ u : SellerTierState, (u.setLock locked actorId now).locked = locked := by
    intro u
    cases locked <;> rfl
  rw [setTierLock, Tx.wp_bind, tierState, Tx.wp_bind, Tx.wp_lock]
  intro d₁ hd _
  have hsame : ∀ e, tierRely.rel (.state a :: L) d₁ e → (w e).states.get? a = (w d₁).states.get? a := by
    intro e he
    rw [hw, hw]
    exact he.states a List.mem_cons_self
  rcases hst : (w d₁).states.get? a with _ | u
  · refine ⟨⟨_, SellerWrite.comp (SellerWrite.insertState .fresh) (SellerWrite.modifyState _), rfl,
      List.mem_cons_self, List.subset_cons_self _ _, List.suffix_cons _ _, hd⟩, fun e he => ?_⟩
    rw [TierDb.modifyState_states, Table.get?_modify_self, TierDb.insertState_states,
      Table.get?_insert_self ((hsame e he).trans hst)]
    exact congrArg some (hset _)
  · refine ⟨⟨_, SellerWrite.modifyState _, rfl, List.mem_cons_self, List.subset_cons_self _ _,
      List.suffix_cons _ _, hd⟩, fun e he => ?_⟩
    rw [TierDb.modifyState_states, Table.get?_modify_self, (hsame e he).trans hst]
    exact congrArg some (hset _)

/-- A commit of an admin's, which writes the account only under its lock. -/
theorem commits_byAdmin {c : TierCall} (hadmin : c.ByAdmin a) {g : TierDb → TierDb}
    (hg : SellerWrite a account g) (hstate : .state a ∈ L ∨ ∀ d, (g d).states = d.states)
    (haccount : account → .account a ∈ L)
    (h : ∀ d', tierRely.rel L d d' → c.Undisturbed s d' →
      (¬c.Unlocks a → d'.isLocked a → (g d').isLocked a) ∧
      ∀ tier actorId reason lock now, c = .updateSellerTier a tier actorId reason lock now →
        (g d').tierOf a = some tier ∧ (lock = true → actorId ≠ none → (g d').isLocked a)) :
    Commits tierRely (fun _ => True) tierMachine (fun c _ d d' => ∀ b, TierPost b c d d') c () g L s d := by
  intro d' hd' _ hallow
  obtain ⟨hheld, hset⟩ := h d' hd' hallow
  refine ⟨trivial, fun b => ?_, fun L' hL' => hg.guar hstate haccount d' hL'⟩
  by_cases hb : b = a
  · subst hb
    exact ⟨fun hother => absurd hadmin hother, hheld, hset⟩
  · obtain ⟨htier, hrisk, hlock⟩ := hg.other hb d'
    refine ⟨fun _ _ => ⟨htier, hrisk⟩, fun _ hl => hlock.mpr hl, ?_⟩
    rintro tier actorId reason lock now rfl
    exact absurd hadmin hb

theorem adminSetTierLock_owes (locked : Bool) (actorId now : ℕ) :
    (adminSetTierLock a locked actorId now).wp tierRely (fun _ => True)
      (Commits tierRely (fun _ => True) tierMachine (fun c _ d d' => ∀ b, TierPost b c d d')
        (.adminSetTierLock a locked actorId now)) id [] [] d := by
  simp only [adminSetTierLock, Tx.wp_bind, Tx.wp_read, Tx.wp_require]
  intro d₁ _ _ _
  refine Tx.wp_mono (wp_setTierLock fun _ => rfl) ?_
  rintro ⟨⟩ w' L' s' d' ⟨⟨g, hg, rfl, hstate, -, -, -⟩, hlocked⟩
  refine commits_byAdmin (show TierCall.ByAdmin a (.adminSetTierLock a locked actorId now) from rfl) hg
    (Or.inl hstate) False.elim fun e he _ => ⟨fun hno _ => ?_, fun _ _ _ _ _ hc => TierCall.noConfusion hc⟩
  rw [isLocked_iff, hlocked e he]
  cases locked
  · exact absurd ⟨actorId, now, rfl⟩ hno
  · rfl

/-- The rest of `update_seller_tier`, once the tier is written or was there already. -/
theorem wp_lockSetTier {tier : SellerTier} {actorId : Option ℕ} {reason : Option String} {lock : Bool}
    {now : ℕ} (hw : SellerWrite a account w) (hstates : ∀ e, (w e).states = e.states)
    (haccount : account → .account a ∈ L)
    (hset : ∀ e, tierRely.rel L d e →
      TierCall.Undisturbed (.updateSellerTier a tier actorId reason lock now) s e →
        (w e).tierOf a = some tier)
    (hs : s ≠ []) :
    (lockSetTier a actorId lock now).wp tierRely (fun _ => True)
      (Commits tierRely (fun _ => True) tierMachine (fun c _ d d' => ∀ b, TierPost b c d d')
        (.updateSellerTier a tier actorId reason lock now)) w L s d := by
  have hadmin : TierCall.ByAdmin a (.updateSellerTier a tier actorId reason lock now) := rfl
  -- Nothing is locked.
  have hleave : ¬(lock = true ∧ actorId ≠ none) →
      Commits tierRely (fun _ => True) tierMachine (fun c _ d d' => ∀ b, TierPost b c d d')
        (.updateSellerTier a tier actorId reason lock now) () w L s d := by
    refine fun hno => commits_byAdmin hadmin hw (Or.inr hstates) haccount fun e he hallow => ⟨?_, ?_⟩
    · rintro - ⟨u, hu, hl⟩
      exact ⟨u, (congrArg (Table.get? · a) (hstates e)).trans hu, hl⟩
    · rintro _ _ _ _ _ ⟨⟩
      exact ⟨hset e he hallow, fun hl ha => absurd ⟨hl, ha⟩ hno⟩
  rcases actorId with _ | actor
  · exact hleave fun h => h.2 rfl
  · change (Tx.when (lock = true) (setTierLock a true actor now)).wp _ _ _ _ _ _ _
    rw [Tx.wp_when]
    refine ⟨fun hlock => ?_, fun hno => hleave fun h => hno h.1⟩
    refine Tx.wp_mono (wp_setTierLock hstates) ?_
    rintro ⟨⟩ w' L' s' d' ⟨⟨g, hg, rfl, hstate, hsub, hsuf, hd⟩, hlocked⟩
    have hg' : SellerWrite a account g := ⟨fun d b hb => hg.accounts d b (Or.inr not_false), hg.states,
      hg.present⟩
    refine commits_byAdmin hadmin (hw.comp hg') (Or.inl hstate) (fun h => hsub (haccount h))
      fun e he hallow => ?_
    have hl : TierDb.isLocked (g (w e)) a := by
      rw [isLocked_iff, hlocked e he]
      rfl
    refine ⟨fun _ _ => hl, ?_⟩
    rintro _ _ _ _ _ ⟨⟩
    refine ⟨?_, fun _ _ => hl⟩
    · -- The first of what the session has seen is what it read.
      have hlast : s'.getLast? = s.getLast? := by
        obtain ⟨u, rfl⟩ := hsuf
        exact List.getLast?_append_of_ne_nil u hs
      have hu : TierCall.Undisturbed (.updateSellerTier a tier (some actor) reason lock now) s e :=
        fun x hx => hallow x (hlast ▸ hx)
      have htier := hset e (tierRely.trans hd (tierRely.anti hsub he)) hu
      rw [TierDb.tierOf, hg.accounts (w e) a (Or.inr not_false)]
      exact htier

theorem updateSellerTier_owes (tier : SellerTier) (actorId : Option ℕ) (reason : Option String)
    (lock : Bool) (now : ℕ) :
    (updateSellerTier a tier actorId reason lock now).wp tierRely (fun _ => True)
      (Commits tierRely (fun _ => True) tierMachine (fun c _ d d' => ∀ b, TierPost b c d d')
        (.updateSellerTier a tier actorId reason lock now)) id [] [] d := by
  simp only [updateSellerTier, Tx.wp_bind, Tx.wp_read, Tx.wp_getOrElse, Tx.wp_require]
  intro d₁ _ _ v hv _
  rw [changeSellerTier, Tx.wp_ite]
  refine ⟨fun htier => ?_, fun _ => ?_⟩
  · -- The tier is there already: nothing is written.
    rw [Tx.wp_pure]
    refine wp_lockSetTier SellerWrite.id (fun _ => rfl) False.elim
      (fun e _ hallow => ?_) (List.cons_ne_nil _ _)
    refine hallow d₁ rfl ?_
    rw [TierDb.tierOf, show d₁.accounts.get? a = some v from hv, ← htier]
    rfl
  · simp only [Tx.wp_bind, Tx.wp_lock, Tx.wp_modify]
    intro d₂ hd₂ _
    have hwrite : SellerWrite a True fun d => TierDb.addEvent ⟨a, v.sellerTier, tier, reason, actorId⟩
        (TierDb.modifyAccount a (fun v => { v with sellerTier := tier }) d) :=
      (SellerWrite.modifyAccount trivial _).comp (SellerWrite.addEvent _)
    refine wp_lockSetTier hwrite (fun _ => rfl) (fun _ => List.mem_cons_self)
      (fun e he _ => ?_) (List.cons_ne_nil _ _)
    have hthere : (e.accounts.get? a).isSome = true := by
      refine he.present a (hd₂.present a ?_)
      rw [show d₁.accounts.get? a = some v from hv]
      rfl
    obtain ⟨u, hu⟩ := Option.isSome_iff_exists.mp hthere
    simp [TierDb.tierOf, hu]

end Owes

theorem tierMachine_correct :
    tierMachine.Correct tierRely (fun _ => True) fun c _ d d' => ∀ b, TierPost b c d d' := by
  intro c d _
  cases c with
  | applySeller a m now actorId => exact applySeller_owes m now actorId
  | adminSetTierLock a locked actorId now => exact adminSetTierLock_owes locked actorId now
  | updateSellerTier a tier actorId reason lock now =>
    exact updateSellerTier_owes tier actorId reason lock now

section Runs

variable {ι : Type} [DecidableEq ι] {d : TierDb} {C C' : Config TierDb TierKey Abort Unit TierCall ι}
  {E : TierCall → Prop} {a : ℕ}

/-- One step, which is not the commit of a call in `E`. -/
def TierSteps (E : TierCall → Prop) (C C' : Config TierDb TierKey Abort Unit TierCall ι) : Prop :=
  ∃ l, Step tierMachine C l C' ∧ ∀ c r, l = some (c, r) → ¬E c

/-- What a step of a reachable state does to the seller. -/
theorem tierSteps_post (h : Reachable tierMachine d C) (hs : TierSteps E C C') :
    Reachable tierMachine d C' ∧ (C'.db = C.db ∨ ∃ c, ¬E c ∧ TierPost a c C.db C'.db) := by
  obtain ⟨l, hstep, hE⟩ := hs
  refine ⟨h.tail ⟨l, hstep⟩, ?_⟩
  rcases l with _ | ⟨c, r⟩
  · exact Or.inl hstep.db_eq
  · exact Or.inr ⟨c, hE c r rfl, tierMachine_correct.commit trivial h hstep a⟩

/-- A lock stays until an admin unlocks. -/
theorem locked_along (h : Reachable tierMachine d C) (hl : C.db.isLocked a)
    (hrun : Relation.ReflTransGen (TierSteps (TierCall.Unlocks a)) C C') :
    Reachable tierMachine d C' ∧ C'.db.isLocked a := by
  induction hrun with
  | refl => exact ⟨h, hl⟩
  | tail _ hs ih =>
    obtain ⟨hreach, hpost⟩ := tierSteps_post (a := a) ih.1 hs
    refine ⟨hreach, ?_⟩
    rcases hpost with heq | ⟨c, hno, hpost⟩
    · exact heq ▸ ih.2
    · exact hpost.held hno ih.2

/-- A locked tier is what it is until an admin comes back to the seller. -/
theorem kept_along (h : Reachable tierMachine d C) (hl : C.db.isLocked a)
    (hrun : Relation.ReflTransGen (TierSteps (TierCall.ByAdmin a)) C C') :
    Reachable tierMachine d C' ∧ C'.db.isLocked a ∧ C'.db.tierOf a = C.db.tierOf a ∧
      C'.db.riskOf a = C.db.riskOf a := by
  induction hrun with
  | refl => exact ⟨h, hl, rfl, rfl⟩
  | tail _ hs ih =>
    obtain ⟨hreach, hlocked, htier, hrisk⟩ := ih
    obtain ⟨hreach', hpost⟩ := tierSteps_post (a := a) hreach hs
    refine ⟨hreach', ?_⟩
    rcases hpost with heq | ⟨c, hno, hpost⟩
    · exact heq ▸ ⟨hlocked, htier, hrisk⟩
    · have hunlocks : ¬c.Unlocks a := by
        rintro ⟨actorId, now, rfl⟩
        exact hno rfl
      obtain ⟨htier', hrisk'⟩ := hpost.kept hno hlocked
      exact ⟨hpost.held hunlocks hlocked, htier'.trans htier, hrisk'.trans hrisk⟩

end Runs

/-! ### Two overtaken commits -/

/-- A trusted seller with too many disputes. -/
def sampleDisputed : TrustFigures where
  disputeRateCounts := true
  disputePct := 50
  maxDisputePct _ := some 10
  failing _ := []
  eligible _ := none
  graceDays := 14

/-- The seller's account and state. -/
def sampleTiers : TierDb where
  accounts := ⟨[(1, ⟨true, .trusted⟩)], by decide⟩
  states := ⟨[(1, .fresh)], by decide⟩
  events := []

/-- The job at the seller. -/
def sampleTierJob : TierCall := .applySeller 1 sampleDisputed 100 none

/-- The tier a call sets for the seller. -/
def TierCall.tierSet (a : ℕ) : TierCall → Option SellerTier
  | .updateSellerTier b tier .. => if b = a then some tier else none
  | _ => none

/-- Admin 9 sets the tier the seller has, and locks it. -/
def sampleTierSet : TierCall := .updateSellerTier 1 .trusted (some 9) none true 50

end Marketplace
