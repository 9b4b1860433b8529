import Marketplace.Providers.Review
import Marketplace.Sql.Play
import Marketplace.Sql.Rely

/-!
# An approved integration is what was tested and reviewed

Sellers and admins in any number of sessions. A configuration that is approved is to be one that passed a test and
the one the admin was shown, and an admin's decision is to stand.

A session that is overtaken by a change of the row writes next to it: `untested_config_approved` is a run in which
a seller edits the configuration while a test of the old one is going on, and the new one is approved in the end.
The condition `IntegrationCall.Undisturbed` is that nobody has changed the configuration or the status
since the session loaded the row, and `approved_as_tested` what holds of the runs whose commits meet it. A rejection is
left as well by a test that fails.
-/

namespace Marketplace

open Sql

/-! ### What is to hold -/

/-- **What is tested or further has passed a test, and what is submitted or further was submitted as it is.** -/
def IntegrationDb.Reviewed (d : IntegrationDb) : Prop :=
  ∀ p row, d.providers.get? p = some row → row.sellerId ≠ none →
    (row.reviewStatus ∈ [.tested, .pendingReview, .approved] → (p, row.config) ∈ d.history.passed) ∧
      (row.reviewStatus ∈ [.pendingReview, .approved] → d.history.submitted p = some row.config)

/-! ### The sessions -/

/-- The calls. -/
inductive IntegrationCall
  | createSellerProvider (providerId sellerId : ℕ) (adapterType : String) (raw : Table String Value)
      (safe : String → Bool) (nonce : ℕ)
  | updateSellerProvider (sellerId providerId : ℕ) (raw : Option (Table String Value)) (isActive : Option Bool)
      (safe : String → Bool) (nonce : ℕ)
  | testSellerProvider (sellerId providerId : ℕ) (run : ProviderConfig → TestOutcome) (now : ℕ)
  | submitSellerProvider (sellerId providerId : ℕ)
  | reviewProvider (providerId : ℕ) (decision : ReviewDecision) (note : Option String)

/-- What a session runs. -/
def IntegrationCall.code : IntegrationCall → IntegrationTx Unit
  | .createSellerProvider providerId sellerId adapterType raw safe nonce =>
    Marketplace.createSellerProvider providerId sellerId adapterType raw safe nonce
  | .updateSellerProvider sellerId providerId raw isActive safe nonce =>
    Marketplace.updateSellerProvider sellerId providerId raw isActive safe nonce
  | .testSellerProvider sellerId providerId run now => Marketplace.testSellerProvider sellerId providerId run now
  | .submitSellerProvider sellerId providerId => Marketplace.submitSellerProvider sellerId providerId
  | .reviewProvider providerId decision note => Marketplace.reviewProvider providerId decision note

/-- Nobody has changed the configuration or the status of the provider since the row was loaded, which the first
statement does. -/
def Unchanged (p : ℕ) (seen : List IntegrationDb) (d : IntegrationDb) : Prop :=
  ∀ x ∈ seen.getLast?, d.history.changes p = x.history.changes p

instance decidableUnchanged (p : ℕ) (seen : List IntegrationDb) (d : IntegrationDb) : Decidable (Unchanged p seen d) := by
  unfold Unchanged
  infer_instance

/-- **No session has been overtaken by a change of what it is about.** -/
def IntegrationCall.Undisturbed : IntegrationCall → List IntegrationDb → IntegrationDb → Prop
  | .createSellerProvider .., _, _ => True
  | .updateSellerProvider _ p raw .., seen, d => raw.isSome = true → Unchanged p seen d
  | .testSellerProvider _ p .., seen, d => Unchanged p seen d
  | .submitSellerProvider _ p, seen, d => Unchanged p seen d
  | .reviewProvider p .., seen, d => Unchanged p seen d

instance decidableUndisturbedIntegration (c : IntegrationCall) (seen : List IntegrationDb) (d : IntegrationDb) :
    Decidable (c.Undisturbed seen d) := by
  cases c <;> unfold IntegrationCall.Undisturbed <;> infer_instance

/-- The sessions, in the runs in which none is overtaken. -/
def integrationMachine : Machine IntegrationDb ℕ Abort Unit IntegrationCall :=
  ⟨IntegrationCall.code, IntegrationCall.Undisturbed⟩

/-- The call edits the configuration of the provider. -/
def IntegrationCall.EditsConfig (p : ℕ) : IntegrationCall → Prop
  | .updateSellerProvider _ q raw .. => q = p ∧ raw.isSome = true
  | _ => False

/-- The call is an admin's decision on the provider. -/
def IntegrationCall.Decides (p : ℕ) : IntegrationCall → Prop
  | .reviewProvider q .. => q = p
  | _ => False

/-- The call is a test of the provider. -/
def IntegrationCall.Tests (p : ℕ) : IntegrationCall → Prop
  | .testSellerProvider _ q .. => q = p
  | _ => False

/-- **An admin's `disabled` is left by an edit of the configuration or another decision, and `rejected` also by a
test** of the configuration that was rejected; if the provider is tested then, that configuration has passed. -/
def DecisionKept (c : IntegrationCall) (d d' : IntegrationDb) : Prop :=
  ∀ p row, d.providers.get? p = some row → row.reviewStatus = .disabled ∨ row.reviewStatus = .rejected →
    ∃ row', d'.providers.get? p = some row' ∧
      (row'.reviewStatus = row.reviewStatus ∨ c.EditsConfig p ∨ c.Decides p ∨
        c.Tests p ∧ row.reviewStatus = .rejected ∧ row'.config = row.config ∧
          (row'.reviewStatus = .testFailed ∨
            row'.reviewStatus = .tested ∧ (p, row.config) ∈ d'.history.passed))

/-! ### What the others leave alone -/

/-- What the review of a provider is about. -/
def IntegrationDb.core (d : IntegrationDb) (p : ℕ) : Option (ProviderConfig × ReviewStatus) :=
  (d.providers.get? p).map Integration.core

/-- What has not been changed is what it was. -/
structure IntegrationRel (d d' : IntegrationDb) : Prop where
  le : ∀ p, d.history.changes p ≤ d'.history.changes p
  core : ∀ p, d'.history.changes p = d.history.changes p → d'.core p = d.core p

/-- What the others leave alone. -/
def integrationRely : Rely IntegrationDb ℕ where
  rel _ := IntegrationRel
  refl _ _ := ⟨fun _ => le_refl _, fun _ _ => rfl⟩
  trans h h' := by
    refine ⟨fun p => (h.le p).trans (h'.le p), fun p hp => ?_⟩
    have hmid := (h'.le p).antisymm (hp.le.trans (h.le p))
    exact (h'.core p hmid.symm).trans (h.core p (hmid.trans hp))
  anti _ h := h

namespace IntegrationRel

variable {d d' d'' : IntegrationDb}

theorem refl (d : IntegrationDb) : IntegrationRel d d := integrationRely.refl [] d

theorem trans (h : IntegrationRel d d') (h' : IntegrationRel d' d'') : IntegrationRel d d'' :=
  integrationRely.trans (L := []) h h'

end IntegrationRel

/-! ### What a commit does -/

section Update

variable {p : ℕ} {loaded edited : Integration} {e : IntegrationDb}

theorem core_updateProvider_of_ne {q : ℕ} (hq : q ≠ p) : (e.updateProvider p loaded edited).core q = e.core q := by
  change ((e.providers.modify p _).get? q).map Integration.core = _
  rw [Table.get?_modify_of_ne _ hq]
  rfl

/-- A column that is not edited is not written. -/
theorem core_write_of_eq (h : edited.core = loaded.core) (row : Integration) :
    (loaded.write edited row).core = row.core := by
  simp only [Integration.core, Prod.mk.injEq] at h
  simp [Integration.core, Integration.write, writeColumn, h]

variable (edited) in
/-- What is edited is written, where the row is as it was loaded. -/
theorem core_write_of_loaded {row : Integration} (h : row.core = loaded.core) :
    (loaded.write edited row).core = edited.core := by
  simp only [Integration.core, Prod.mk.injEq] at h
  simp only [Integration.core, Integration.write, h.1, h.2, writeColumn]
  split_ifs <;> simp_all

theorem IntegrationRel.updateProvider (p : ℕ) (loaded edited : Integration) (e : IntegrationDb) :
    IntegrationRel e (e.updateProvider p loaded edited) := by
  by_cases hcore : edited.core = loaded.core
  · have hchanges : (e.updateProvider p loaded edited).history.changes = e.history.changes := if_pos hcore
    refine ⟨fun q => by rw [hchanges], fun q _ => ?_⟩
    by_cases hq : q = p
    · subst hq
      change ((e.providers.modify q _).get? q).map Integration.core = _
      rw [Table.get?_modify_self, Option.map_map, IntegrationDb.core]
      congr 1
      funext row
      exact core_write_of_eq hcore row
    · exact core_updateProvider_of_ne hq
  · have hchanges : (e.updateProvider p loaded edited).history.changes =
        Function.update e.history.changes p (e.history.changes p + 1) := if_neg hcore
    refine ⟨fun q => ?_, fun q hsame => ?_⟩
    · rw [hchanges, Function.update_apply]
      split_ifs with hq
      · rw [hq]
        exact Nat.le_succ _
      · exact le_refl _
    · rw [hchanges, Function.update_apply] at hsame
      split_ifs at hsame with hq
      · rw [hq] at hsame
        exact absurd hsame (Nat.succ_ne_self _)
      · exact core_updateProvider_of_ne hq

/-- What becomes of the rows when a session writes one that was loaded and edited, and notes what it has to. -/
structure Integration.Written (p : ℕ) (loaded edited : Integration) (e e' : IntegrationDb) : Prop where
  providers : e'.providers = e.providers.modify p (loaded.write edited)
  changes : e'.history.changes = (e.updateProvider p loaded edited).history.changes
  passed : e.history.passed ⊆ e'.history.passed
  submitted : ∀ q, q ≠ p → e'.history.submitted q = e.history.submitted q

namespace Integration.Written

variable {e' : IntegrationDb} {c : IntegrationCall}

theorem rel (h : Written p loaded edited e e') : IntegrationRel e e' := by
  have hcore : ∀ q, e'.core q = (e.updateProvider p loaded edited).core q := fun q => by
    rw [IntegrationDb.core, h.providers]
    rfl
  have hrel := IntegrationRel.updateProvider p loaded edited e
  exact ⟨fun q => by rw [h.changes]; exact hrel.le q, fun q hq => by
    rw [hcore]
    exact hrel.core q (by rw [← h.changes]; exact hq)⟩

/-- A row of the new state comes from one of the old, which is another provider's or has been written. -/
theorem row (h : Written p loaded edited e e') {q : ℕ} {row' : Integration} (hrow : e'.providers.get? q = some row') :
    q ≠ p ∧ e.providers.get? q = some row' ∨
      q = p ∧ ∃ row, e.providers.get? p = some row ∧ row' = loaded.write edited row := by
  rw [h.providers, Table.get?_modify] at hrow
  split_ifs at hrow with hq
  · subst hq
    obtain ⟨row, hrow₀, rfl⟩ := Option.map_eq_some_iff.mp hrow
    exact Or.inr ⟨rfl, row, hrow₀, rfl⟩
  · exact Or.inl ⟨hq, hrow⟩

/-- **The invariant**, once it holds of what has been edited. -/
theorem reviewed (h : Written p loaded edited e e') (he : e.Reviewed) (hload : e.core p = some loaded.core)
    (hnew : ∀ row, e.providers.get? p = some row → row.sellerId ≠ none →
      (edited.reviewStatus ∈ [.tested, .pendingReview, .approved] → (p, edited.config) ∈ e'.history.passed) ∧
        (edited.reviewStatus ∈ [.pendingReview, .approved] → e'.history.submitted p = some edited.config)) :
    e'.Reviewed := by
  intro q row' hrow howner
  rcases h.row hrow with ⟨hq, hrow₀⟩ | ⟨rfl, row, hrow₀, rfl⟩
  · obtain ⟨hpassed, hsub⟩ := he q row' hrow₀ howner
    exact ⟨fun hst => h.passed (hpassed hst), fun hst => (h.submitted q hq).trans (hsub hst)⟩
  · have hcore : row.core = loaded.core := by
      rw [IntegrationDb.core, hrow₀] at hload
      exact Option.some.inj hload
    have hwritten := core_write_of_loaded edited hcore
    simp only [Integration.core, Prod.mk.injEq] at hwritten
    rw [hwritten.1, hwritten.2]
    exact hnew row hrow₀ howner

/-- **An admin's decision**, once what has been edited respects it. -/
theorem kept (h : Written p loaded edited e e') (hload : e.core p = some loaded.core)
    (hnew : loaded.reviewStatus = .disabled ∨ loaded.reviewStatus = .rejected →
      edited.reviewStatus = loaded.reviewStatus ∨ c.EditsConfig p ∨ c.Decides p ∨
        c.Tests p ∧ loaded.reviewStatus = .rejected ∧ edited.config = loaded.config ∧
          (edited.reviewStatus = .testFailed ∨
            edited.reviewStatus = .tested ∧ (p, loaded.config) ∈ e'.history.passed)) :
    DecisionKept c e e' := by
  intro q row hrow hst
  by_cases hq : q = p
  · subst hq
    have hcore : row.core = loaded.core := by
      rw [IntegrationDb.core, hrow] at hload
      exact Option.some.inj hload
    have hwritten := core_write_of_loaded edited hcore
    simp only [Integration.core, Prod.mk.injEq] at hwritten hcore
    refine ⟨loaded.write edited row, ?_, ?_⟩
    · rw [h.providers, Table.get?_modify_self, hrow]
      rfl
    · rw [hcore.2] at hst
      rw [hwritten.1, hwritten.2, hcore.1, hcore.2]
      exact hnew hst
  · exact ⟨row, by rw [h.providers, Table.get?_modify_of_ne _ hq, hrow], Or.inl rfl⟩

/-- Nothing that the review is about has been edited. -/
theorem plain (h : Written p loaded edited e e') (hplain : edited.core = loaded.core)
    (hsub : e'.history.submitted p = e.history.submitted p) (he : e.Reviewed) :
    e'.Reviewed ∧ DecisionKept c e e' := by
  have hwrite : ∀ row : Integration, (loaded.write edited row).config = row.config ∧
      (loaded.write edited row).reviewStatus = row.reviewStatus := fun row => by
    have := core_write_of_eq hplain row
    simpa only [Integration.core, Prod.mk.injEq] using this
  have hsubmitted : ∀ q, e'.history.submitted q = e.history.submitted q := fun q => by
    by_cases hq : q = p
    · rw [hq, hsub]
    · exact h.submitted q hq
  refine ⟨fun q row' hrow howner => ?_, fun q row hrow hst => ?_⟩
  · rw [hsubmitted]
    rcases h.row hrow with ⟨-, hrow₀⟩ | ⟨rfl, row, hrow₀, rfl⟩
    · exact ⟨fun hst => h.passed ((he q row' hrow₀ howner).1 hst), (he q row' hrow₀ howner).2⟩
    · rw [(hwrite row).1, (hwrite row).2]
      exact ⟨fun hst => h.passed ((he q row hrow₀ howner).1 hst), (he q row hrow₀ howner).2⟩
  · by_cases hq : q = p
    · subst hq
      refine ⟨loaded.write edited row, ?_, Or.inl (hwrite row).2⟩
      rw [h.providers, Table.get?_modify_self, hrow]
      rfl
    · exact ⟨row, by rw [h.providers, Table.get?_modify_of_ne _ hq, hrow], Or.inl rfl⟩

end Integration.Written

end Update

/-! ### Every call owes it -/

section Owes

variable {c : IntegrationCall} {w : IntegrationDb → IntegrationDb} {L : List ℕ} {s : List IntegrationDb}
  {d : IntegrationDb} {I : IntegrationDb → Prop} {sellerId p : ℕ}

/-- What a session owes. -/
def IntegrationOwes (c : IntegrationCall) :
    Unit → (IntegrationDb → IntegrationDb) → List ℕ → List IntegrationDb → IntegrationDb → Prop :=
  Commits integrationRely IntegrationDb.Reviewed integrationMachine (fun c _ d d' => DecisionKept c d d') c

/-- **A commit that writes a provider as it was loaded**, if that is what it is by then. -/
theorem owes_written {x : IntegrationDb} {loaded edited : Integration} (hrow : x.providers.get? p = some loaded)
    (hxd : IntegrationRel x d) (hlast : x ∈ s.getLast?) (hc : ∀ e, c.Undisturbed s e → Unchanged p s e)
    (hw : ∀ e, Integration.Written p loaded edited e (w e))
    (hnew : ∀ e, IntegrationRel x e → e.Reviewed → ∀ row, e.providers.get? p = some row → row.sellerId ≠ none →
      row.core = loaded.core →
      (edited.reviewStatus ∈ [.tested, .pendingReview, .approved] → (p, edited.config) ∈ (w e).history.passed) ∧
        (edited.reviewStatus ∈ [.pendingReview, .approved] → (w e).history.submitted p = some edited.config))
    (hkept : ∀ e, loaded.reviewStatus = .disabled ∨ loaded.reviewStatus = .rejected →
      edited.reviewStatus = loaded.reviewStatus ∨ c.EditsConfig p ∨ c.Decides p ∨
        c.Tests p ∧ loaded.reviewStatus = .rejected ∧ edited.config = loaded.config ∧
          (edited.reviewStatus = .testFailed ∨
            edited.reviewStatus = .tested ∧ (p, loaded.config) ∈ (w e).history.passed)) :
    IntegrationOwes c () w L s d := by
  intro e he hI hallow
  have hxe : IntegrationRel x e := hxd.trans he
  have hload : e.core p = some loaded.core := by
    rw [hxe.core p (hc e hallow x hlast), IntegrationDb.core, hrow]
    rfl
  refine ⟨(hw e).reviewed hI hload fun row hrow' howner => ?_, (hw e).kept hload (hkept e), fun _ _ => (hw e).rel⟩
  refine hnew e hxe hI row hrow' howner ?_
  rw [IntegrationDb.core, hrow'] at hload
  exact Option.some.inj hload

theorem wp_getSellerProvider {Q : Integration → (IntegrationDb → IntegrationDb) → List ℕ → List IntegrationDb →
      IntegrationDb → Prop}
    (h : ∀ x row, x.providers.get? p = some row → row.sellerId = some sellerId → Q row id [] [x] x) :
    (getSellerProvider sellerId p).wp integrationRely I Q id [] [] d := by
  simp only [getSellerProvider, Tx.wp_bind, Tx.wp_read, Tx.wp_getOrElse, Tx.wp_require]
  exact fun x _ _ row hrow howner => h x row hrow howner

/-- A new provider is a draft. -/
theorem createSellerProvider_owes (adapterType : String) (raw : Table String Value) (safe : String → Bool) (nonce : ℕ) :
    (createSellerProvider p sellerId adapterType raw safe nonce).wp integrationRely IntegrationDb.Reviewed
      (IntegrationOwes (.createSellerProvider p sellerId adapterType raw safe nonce)) id [] [] d := by
  simp only [createSellerProvider, validateAdapterConfig, Tx.wp_bind, Tx.wp_require]
  intro _
  rcases sellerConfig raw none with err | config
  · exact trivial
  · intro _ _ e _ hI _
    have hget : ∀ q, q ≠ p → ∀ row, (e.providers.insert p row).get? q = e.providers.get? q := fun q hq row =>
      Table.get?_insert_of_ne hq row
    refine ⟨fun q row hrow howner => ?_, fun q row hrow hst => ?_, fun _ _ => ⟨fun q => ?_, fun q hq => ?_⟩⟩
    · change (e.providers.insert p _).get? q = some row at hrow
      rw [Table.get?_insert_eq] at hrow
      split_ifs at hrow with hq
      · rcases hp : e.providers.get? p with _ | old
        · rw [hp, Option.getD_none] at hrow
          obtain rfl := Option.some.inj hrow
          exact ⟨fun h => absurd h (by simp), fun h => absurd h (by simp)⟩
        · rw [hp, Option.getD_some] at hrow
          rw [hq]
          exact hI p row (hp.trans hrow) howner
      · exact hI q row hrow howner
    · refine ⟨row, ?_, Or.inl rfl⟩
      change (e.providers.insert p _).get? q = some row
      rw [Table.get?_insert_eq]
      split_ifs with hq
      · rw [← hq, hrow, Option.getD_some]
      · exact hrow
    · change e.history.changes q ≤ Function.update e.history.changes p (e.history.changes p + 1) q
      rw [Function.update_apply]
      split_ifs with hq
      · rw [hq]
        exact Nat.le_succ _
      · exact le_refl _
    · change Function.update e.history.changes p (e.history.changes p + 1) q = _ at hq
      rw [Function.update_apply] at hq
      split_ifs at hq with hqp
      · rw [hqp] at hq
        exact absurd hq (Nat.succ_ne_self _)
      · exact congrArg (Option.map Integration.core) (hget q hqp _)

/-- The configuration is checked; nothing is read or written. -/
theorem wp_updatedConfig {provider : Integration} {raw : Option (Table String Value)} {safe : String → Bool} {nonce : ℕ}
    {Q : ProviderConfig → (IntegrationDb → IntegrationDb) → List ℕ → List IntegrationDb → IntegrationDb → Prop}
    (h : ∀ config, (raw = none → config = provider.config) → (raw ≠ none → provider.reviewStatus ≠ .approved) →
      Q config w L s d) :
    (updatedConfig provider raw safe nonce).wp integrationRely I Q w L s d := by
  rcases raw with _ | raw
  · simp only [updatedConfig, validateAdapterConfig, Tx.wp_bind, Tx.wp_require]
    exact fun _ => h _ (fun _ => rfl) fun hc => absurd rfl hc
  · simp only [updatedConfig, validateAdapterConfig, Tx.wp_bind, Tx.wp_require]
    intro hst
    rcases sellerConfig raw (some provider.config) with err | config
    · exact trivial
    · exact fun _ _ => h _ (fun hc => absurd hc (by simp)) fun _ => hst

theorem updateSellerProvider_owes (raw : Option (Table String Value)) (isActive : Option Bool) (safe : String → Bool)
    (nonce : ℕ) :
    (updateSellerProvider sellerId p raw isActive safe nonce).wp integrationRely IntegrationDb.Reviewed
      (IntegrationOwes (.updateSellerProvider sellerId p raw isActive safe nonce)) id [] [] d := by
  rw [updateSellerProvider, Tx.wp_bind]
  refine wp_getSellerProvider fun x row hrow _ => ?_
  simp only [requireSellerManaged, Tx.wp_bind, Tx.wp_require]
  refine fun _ => wp_updatedConfig fun config hnone _ => ?_
  simp only [flushIntegration, Tx.wp_bind]
  intro d₂ hd₂ _
  have hw : ∀ e, Integration.Written p row (row.updated raw.isSome config isActive) e
      (e.updateProvider p row (row.updated raw.isSome config isActive)) := fun e =>
    ⟨rfl, rfl, List.Subset.refl _, fun _ _ => rfl⟩
  rcases raw with _ | raw
  · -- the configuration stays, and so does the status
    obtain rfl := hnone rfl
    intro e _ hI _
    obtain ⟨hI', hkept⟩ := (hw e).plain (c := .updateSellerProvider sellerId p none isActive safe nonce) rfl rfl hI
    exact ⟨hI', hkept, fun _ _ => (hw e).rel⟩
  · refine owes_written hrow hd₂ (by simp) (fun e h => h rfl) hw (fun e _ _ _ _ _ _ => ?_) fun _ _ => ?_
    · exact ⟨fun h => absurd h (by simp [Integration.updated]), fun h => absurd h (by simp [Integration.updated])⟩
    · exact Or.inr (Or.inl ⟨rfl, rfl⟩)

theorem testSellerProvider_owes (run : ProviderConfig → TestOutcome) (now : ℕ) :
    (testSellerProvider sellerId p run now).wp integrationRely IntegrationDb.Reviewed
      (IntegrationOwes (.testSellerProvider sellerId p run now)) id [] [] d := by
  rw [testSellerProvider, Tx.wp_bind]
  refine wp_getSellerProvider fun x row hrow howner => ?_
  simp only [flushIntegration, Tx.wp_bind, Tx.wp_require, Tx.wp_when]
  intro hpending d₂ hd₂ _
  set result := run row.config with hresult
  have hkept : row.reviewStatus = .disabled ∨ row.reviewStatus = .rejected →
      (row.recorded result now).reviewStatus = row.reviewStatus ∨
        row.reviewStatus = .rejected ∧ (row.recorded result now).config = row.config ∧
          ((row.recorded result now).reviewStatus = .testFailed ∨
            (row.recorded result now).reviewStatus = .tested ∧ result.passed = true) := by
    rintro (hst | hst)
    · exact Or.inl (by simp [Integration.recorded, hst])
    · refine Or.inr ⟨hst, rfl, ?_⟩
      by_cases hpass : result.passed = true <;> simp [Integration.recorded, hst, hpass]
  -- a status that was not approved before is `tested` only if the test has passed
  have hnew : ∀ passed : List (ℕ × ProviderConfig), (result.passed = true → (p, row.config) ∈ passed) →
      ∀ e, IntegrationRel x e → e.Reviewed → ∀ row', e.providers.get? p = some row' → row'.sellerId ≠ none →
        row'.core = row.core → e.history.passed ⊆ passed →
        ((row.recorded result now).reviewStatus ∈ [.tested, .pendingReview, .approved] → (p, row.config) ∈ passed) ∧
          ((row.recorded result now).reviewStatus ∈ [.pendingReview, .approved] →
            e.history.submitted p = some row.config) := by
    intro passed hpassed e _ hI row' hrow' howner' hcore hsub
    simp only [Integration.core, Prod.mk.injEq] at hcore
    obtain ⟨h1, h2⟩ := hI p row' hrow' howner'
    rw [hcore.1, hcore.2] at h1 h2
    by_cases happroved : row.reviewStatus = .approved
    · have hst : (row.recorded result now).reviewStatus = .approved := by simp [Integration.recorded, happroved]
      exact ⟨fun _ => hsub (h1 (by simp [happroved])), fun _ => h2 (by simp [happroved])⟩
    · by_cases hdisabled : row.reviewStatus = .disabled
      · have hst : (row.recorded result now).reviewStatus = .disabled := by simp [Integration.recorded, hdisabled]
        rw [hst]
        exact ⟨fun h => absurd h (by simp), fun h => absurd h (by simp)⟩
      · have hst : (row.recorded result now).reviewStatus = if result.passed then .tested else .testFailed := by
          simp [Integration.recorded, happroved, hdisabled]
        rw [hst]
        by_cases hpass : result.passed = true
        · exact ⟨fun _ => hpassed hpass, fun h => absurd h (by simp [hpass])⟩
        · exact ⟨fun h => absurd h (by simp [hpass]), fun h => absurd h (by simp [hpass])⟩
  refine ⟨fun hpass => ?_, fun hpass => ?_⟩
  · refine owes_written (w := fun e => (e.updateProvider p row (row.recorded result now)).notePassed p row.config)
      hrow hd₂ (by simp) (fun e h => h) (fun e => ⟨rfl, rfl, List.subset_cons_self _ _, fun _ _ => rfl⟩)
      (fun e hxe hI row' hrow' howner' hcore => ?_) fun e hst => ?_
    · exact hnew _ (fun _ => List.mem_cons_self) e hxe hI row' hrow' howner' hcore (List.subset_cons_self _ _)
    · rcases hkept hst with hsame | ⟨hrej, hconfig, hnext⟩
      · exact Or.inl hsame
      · exact Or.inr (Or.inr (Or.inr ⟨rfl, hrej, hconfig, hnext.imp_right fun h => ⟨h.1, List.mem_cons_self⟩⟩))
  · refine owes_written (w := fun e => e.updateProvider p row (row.recorded result now))
      hrow hd₂ (by simp) (fun e h => h) (fun e => ⟨rfl, rfl, List.Subset.refl _, fun _ _ => rfl⟩)
      (fun e hxe hI row' hrow' howner' hcore => ?_) fun e hst => ?_
    · exact hnew _ (fun h => absurd h hpass) e hxe hI row' hrow' howner' hcore (List.Subset.refl _)
    · rcases hkept hst with hsame | ⟨hrej, hconfig, hnext⟩
      · exact Or.inl hsame
      · exact Or.inr (Or.inr (Or.inr ⟨rfl, hrej, hconfig, hnext.imp_right fun h => absurd h.2 hpass⟩))

theorem submitSellerProvider_owes :
    (submitSellerProvider sellerId p).wp integrationRely IntegrationDb.Reviewed
      (IntegrationOwes (.submitSellerProvider sellerId p)) id [] [] d := by
  rw [submitSellerProvider, Tx.wp_bind]
  refine wp_getSellerProvider fun x row hrow _ => ?_
  simp only [requireSellerManaged, flushIntegration, Tx.wp_bind, Tx.wp_require]
  intro _ htested d₂ hd₂ _
  refine owes_written (w := fun e => (e.updateProvider p row
      { row with reviewStatus := .pendingReview, reviewNote := none }).noteSubmitted p)
    hrow hd₂ (by simp) (fun e h => h)
    (fun e => ⟨rfl, rfl, List.Subset.refl _, fun q hq => Function.update_of_ne hq _ _⟩)
    (fun e _ hI row' hrow' howner' hcore => ?_) fun e hst => ?_
  · have hcore' := hcore
    simp only [Integration.core, Prod.mk.injEq] at hcore
    refine ⟨fun _ => ?_, fun _ => ?_⟩
    · have := (hI p row' hrow' howner').1 (by simp [hcore.2, htested])
      rwa [hcore.1] at this
    · change Function.update _ p _ p = _
      rw [Function.update_self]
      change ((e.providers.modify p _).get? p).map Integration.config = _
      rw [Table.get?_modify_self, hrow', Option.map_some, Option.map_some]
      have hwritten := core_write_of_loaded { row with reviewStatus := .pendingReview, reviewNote := none } hcore'
      simp only [Integration.core, Prod.mk.injEq] at hwritten
      rw [hwritten.1]
  · rw [htested] at hst
    exact absurd hst (by simp)

theorem reviewProvider_owes (decision : ReviewDecision) (note : Option String) :
    (reviewProvider p decision note).wp integrationRely IntegrationDb.Reviewed
      (IntegrationOwes (.reviewProvider p decision note)) id [] [] d := by
  simp only [reviewProvider, flushIntegration, Tx.wp_bind, Tx.wp_read, Tx.wp_getOrElse, Tx.wp_require]
  intro x _ _ row hrow _ hpending _ d₂ hd₂ _
  refine owes_written (w := fun e => e.updateProvider p row
      { row with reviewStatus := decision.status, reviewNote := note })
    hrow hd₂ (by simp) (fun e h => h) (fun e => ⟨rfl, rfl, List.Subset.refl _, fun _ _ => rfl⟩)
    (fun e _ hI row' hrow' howner' hcore => ?_) fun e _ => Or.inr (Or.inr (Or.inl rfl))
  simp only [Integration.core, Prod.mk.injEq] at hcore
  have hfrom : decision.status ∈ [ReviewStatus.tested, .pendingReview, .approved] → row.reviewStatus = .pendingReview := by
    cases decision with
    | approved => exact fun _ => hpending (by simp)
    | rejected => exact fun h => absurd h (by simp [ReviewDecision.status])
    | disabled => exact fun h => absurd h (by simp [ReviewDecision.status])
  obtain ⟨h1, h2⟩ := hI p row' hrow' howner'
  rw [hcore.1, hcore.2] at h1 h2
  exact ⟨fun h => h1 (by simp [hfrom h]), fun h => h2 (by simp [hfrom (List.mem_cons_of_mem _ h)])⟩

end Owes

theorem integrationMachine_correct :
    integrationMachine.Correct integrationRely IntegrationDb.Reviewed fun c _ d d' => DecisionKept c d d' := by
  intro c d _
  cases c with
  | createSellerProvider providerId sellerId adapterType raw safe nonce =>
    exact createSellerProvider_owes adapterType raw safe nonce
  | updateSellerProvider sellerId providerId raw isActive safe nonce =>
    exact updateSellerProvider_owes raw isActive safe nonce
  | testSellerProvider sellerId providerId run now => exact testSellerProvider_owes run now
  | submitSellerProvider sellerId providerId => exact submitSellerProvider_owes
  | reviewProvider providerId decision note => exact reviewProvider_owes decision note

/-- **An approved integration is what was tested and reviewed, and decisions stand**, in every run in which no session
is overtaken: the configuration of an approved provider has passed a test and is the one it was submitted with, and
every commit keeps an admin's decision. -/
theorem approved_as_tested {ι : Type} [DecidableEq ι] {d : IntegrationDb} (hd : d.Reviewed)
    {C : Config IntegrationDb ℕ Abort Unit IntegrationCall ι} (h : Reachable integrationMachine d C) :
    (∀ p row, C.db.providers.get? p = some row → row.sellerId ≠ none → row.reviewStatus = .approved →
      (p, row.config) ∈ C.db.history.passed ∧ C.db.history.submitted p = some row.config) ∧
      ∀ c C', Step integrationMachine C (some (c, ())) C' → DecisionKept c C.db C'.db := by
  refine ⟨fun p row hrow howner hst => ?_, fun c C' hstep => integrationMachine_correct.commit hd h hstep⟩
  obtain ⟨hpassed, hsub⟩ := (integrationMachine_correct.reachable hd h).inv p row hrow howner
  exact ⟨hpassed (by simp [hst]), hsub (by simp [hst])⟩

/-! ### A review, an edit during a test, and a test that fails -/

/-- What a seller sends: the address of the backend. -/
def sampleAddress (url : String) : Table String Value := ⟨[("base_url", .str url)], by simp⟩

/-- A seller's integration with the status. -/
def sampleIntegration (status : ReviewStatus) : Integration where
  adapterType := "seller_gateway"
  config := (sampleAddress "https://a.example").mapValues .plain
  isActive := true
  sellerId := some 10
  reviewStatus := status
  reviewNote := none
  lastTestedAt := none
  lastTestResult := none

/-- One provider. -/
def sampleIntegrations (status : ReviewStatus) : IntegrationDb where
  providers := ⟨[(5, sampleIntegration status)], by simp⟩
  history := ⟨[], fun _ => none, fun _ => 0⟩

/-- A test that passes, or not. -/
def sampleTest (passes : Bool) : IntegrationCall :=
  .testSellerProvider 10 5 (fun _ => ⟨some "healthy", none, none, some (passes, none), none⟩) 100

theorem sampleIntegrations_reviewed {status : ReviewStatus} (h : status ∉ [.tested, .pendingReview, .approved]) :
    (sampleIntegrations status).Reviewed := by
  intro p row hrow _
  obtain ⟨rfl, rfl⟩ : p = 5 ∧ row = sampleIntegration status := by
    simpa [sampleIntegrations] using Table.get?_eq_some_iff.mp hrow
  exact ⟨fun hst => absurd hst h, fun hst => absurd (List.mem_cons_of_mem _ hst) h⟩

/-- A test, a submission and an approval. -/
theorem approved_as_tested_sample :
    ∃ C : Config IntegrationDb ℕ Abort Unit IntegrationCall (Fin 1),
      Reachable integrationMachine (sampleIntegrations .draft) C ∧
        (C.db.providers.get? 5).map Integration.core = some ((sampleIntegration .draft).config, .approved) ∧
          (5, (sampleIntegration .draft).config) ∈ C.db.history.passed := by
  obtain ⟨C, hC, hrow⟩ := Machine.reaches_of_play (M := integrationMachine) (ι := Fin 1)
    (d := sampleIntegrations .draft)
    (P := fun d => (d.providers.get? 5).map Integration.core = some ((sampleIntegration .draft).config, .approved) ∧
      (d.providers.get? 5).map Integration.sellerId = some (some 10))
    (fun c s d => decide (c.Undisturbed s d))
    (.begin 0 (sampleTest true) :: List.replicate 5 (.step 0) ++ .begin 0 (.submitSellerProvider 10 5) ::
      List.replicate 5 (.step 0) ++ .begin 0 (.reviewProvider 5 .approved none) :: List.replicate 4 (.step 0))
    (fun c s d h => (of_decide_eq_true h : c.Undisturbed s d)) (by decide)
  obtain ⟨row, hget, hcore⟩ := Option.map_eq_some_iff.mp hrow.1
  obtain ⟨row', hget', howner⟩ := Option.map_eq_some_iff.mp hrow.2
  obtain rfl := Option.some.inj (hget'.symm.trans hget)
  simp only [Integration.core, Prod.mk.injEq] at hcore
  have happroved := (approved_as_tested (sampleIntegrations_reviewed (by decide)) hC).1 5 row' hget
    (by rw [howner]; simp) hcore.2
  rw [hcore.1] at happroved
  exact ⟨C, hC, hrow.1, happroved.1⟩

/-- **An untested configuration is approved**, when the seller edits it while a test of the old one is going on; and a
rejected provider leaves that status by a test that fails, without any overlap. -/
theorem untested_config_approved :
    (∃ C : Config IntegrationDb ℕ Abort Unit IntegrationCall (Fin 2),
      Reachable (Machine.ofCode IntegrationCall.code) (sampleIntegrations .draft) C ∧
        ∃ row, C.db.providers.get? 5 = some row ∧ row.sellerId ≠ none ∧ row.reviewStatus = .approved ∧
          (5, row.config) ∉ C.db.history.passed) ∧
      ∃ (C C' : Config IntegrationDb ℕ Abort Unit IntegrationCall (Fin 1)) (c : IntegrationCall),
        Reachable integrationMachine (sampleIntegrations .rejected) C ∧ Step integrationMachine C (some (c, ())) C' ∧
          (C.db.providers.get? 5).map Integration.reviewStatus = some .rejected ∧
            (C'.db.providers.get? 5).map Integration.reviewStatus = some .testFailed := by
  constructor
  · obtain ⟨C, hC, hrow⟩ := Machine.reaches_of_play (M := Machine.ofCode IntegrationCall.code) (ι := Fin 2)
      (d := sampleIntegrations .draft)
      (P := fun d => ∃ row ∈ d.providers.get? 5, row.sellerId ≠ none ∧ row.reviewStatus = .approved ∧
        (5, row.config) ∉ d.history.passed)
      (fun _ _ _ => true)
      (.begin 0 (sampleTest true) :: .step 0 ::
        .begin 1 (.updateSellerProvider 10 5 (some (sampleAddress "https://b.example")) none (fun _ => true) 1) ::
        List.replicate 4 (.step 1) ++ List.replicate 4 (.step 0) ++
        .begin 0 (.submitSellerProvider 10 5) :: List.replicate 5 (.step 0) ++
        .begin 0 (.reviewProvider 5 .approved none) :: List.replicate 4 (.step 0))
      (fun _ _ _ _ => trivial) (by decide)
    exact ⟨C, hC, hrow⟩
  · obtain ⟨C, C', c, ⟨⟩, hC, hstep, hP⟩ := Machine.commits_of_play (M := integrationMachine) (ι := Fin 1)
      (d := sampleIntegrations .rejected)
      (P := fun _ _ d d' => (d.providers.get? 5).map Integration.reviewStatus = some .rejected ∧
        (d'.providers.get? 5).map Integration.reviewStatus = some .testFailed)
      (fun c s d => decide (c.Undisturbed s d))
      (.begin 0 (sampleTest false) :: List.replicate 3 (.step 0)) (.step 0)
      (fun c s d h => (of_decide_eq_true h : c.Undisturbed s d)) (by decide)
    exact ⟨C, C', c, hC, hstep, hP⟩

end Marketplace
