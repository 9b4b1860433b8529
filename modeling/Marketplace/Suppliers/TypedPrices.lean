import Marketplace.Sql.Play
import Marketplace.Sql.Rows
import Marketplace.Suppliers.Listings
import Marketplace.Suppliers.PlanMatrix

/-!
# A price that was typed

Sellers, admins and syncs in any number of sessions. The price of a package that somebody has typed is to be left
alone by the price rule of the source until it is handed back.

The rule looks at the mark on the listing. `update_variant` does not set it, and a sync decides on the mark as it was
before the supplier answered: `typed_price_overwritten` has a run of either kind. The condition
`ListingCall.Undisturbed` is that no price is typed next to a listing that is not marked, and that a listing is
still unmarked when the rule commits its price; `typed_price_kept` is what holds of the runs whose commits meet it.
-/

namespace Marketplace

open Sql

/-! ### The sessions -/

/-- The calls. -/
inductive ListingCall
  | importPackage (providerId sellerId newProductId variantId : ℕ) (externalId : String) (price : Option ℤ)
      (productId : Option ℕ)
  | importListing (listingId providerId variantId : ℕ) (item : UpstreamItem) (price rulePrice : ℤ)
  | attachExistingVariant (listingId providerId variantId : ℕ) (scope : Option ℕ) (externalId : String)
  | updateVariant (variantId sellerId : ℕ) (price : Option ℤ) (isActive : Option Bool)
  | updateListing (listingId : ℕ) (scope : Option ℕ) (u : ListingUpdate)
  | repriceListings (providerId : ℕ) (scope : Option ℕ) (o : RepriceOptions)
  | syncProviderListings (providerId : ℕ) (answer : Except String (List UpstreamItem))

/-- What a session runs. -/
def ListingCall.code (F : Floats) : ListingCall → ListingTx Unit
  | .importPackage providerId sellerId newProductId variantId externalId price productId =>
    Marketplace.importPackage F providerId sellerId newProductId variantId externalId price productId
  | .importListing listingId providerId variantId item price rulePrice =>
    Marketplace.importListing listingId providerId variantId item price rulePrice
  | .attachExistingVariant listingId providerId variantId scope externalId =>
    Marketplace.attachExistingVariant listingId providerId variantId scope externalId
  | .updateVariant variantId sellerId price isActive => Marketplace.updateVariant variantId sellerId price isActive
  | .updateListing listingId scope u => Marketplace.updateListing F listingId scope u
  | .repriceListings providerId scope o => Marketplace.repriceListings F providerId scope o
  | .syncProviderListings providerId answer => Marketplace.syncProviderListings F providerId answer

/-- The price of a package. -/
def ListingDb.priceOf (d : ListingDb) (v : ℕ) : Option ℤ := (d.variants.get? v).map Package.price

/-- The listing is of the package. -/
def ListingDb.Lists (d : ListingDb) (l v : ℕ) : Prop := ∃ row ∈ d.listings.get? l, row.variantId = v

instance decidableLists (d : ListingDb) (l v : ℕ) : Decidable (d.Lists l v) := by
  unfold ListingDb.Lists
  infer_instance

/-- The call sends a price for the package. -/
def ListingCall.Edits (d : ListingDb) (v : ℕ) : ListingCall → Prop
  | .updateVariant variantId _ price _ => variantId = v ∧ price ≠ none
  | .updateListing listingId _ u => d.Lists listingId v ∧ u.price ≠ none
  | _ => False

instance decidableEdits (d : ListingDb) (v : ℕ) (c : ListingCall) : Decidable (c.Edits d v) := by
  cases c <;> unfold ListingCall.Edits <;> infer_instance

/-- The call hands the price of the package back to the rule, or overrides it. -/
def ListingCall.Releases (d : ListingDb) (v : ℕ) : ListingCall → Prop
  | .updateListing listingId _ u => d.Lists listingId v ∧ u.priceManual = some false
  | .repriceListings _ _ o => o.includeManual = true ∨ ∃ ids ∈ o.listingIds, ∃ l ∈ ids, d.Lists l v
  | _ => False

instance decidableReleases (d : ListingDb) (v : ℕ) (c : ListingCall) : Decidable (c.Releases d v) := by
  cases c <;> unfold ListingCall.Releases <;> infer_instance

/-- What was unmarked when the rule read it is unmarked. -/
def StillUnmarked (p : ℕ) (x d : ListingDb) : Prop :=
  ∀ row ∈ x.listings.rows, row.2.providerId = p → row.2.priceManual = false →
    ∀ row' ∈ d.listings.get? row.1, row'.priceManual = false

instance decidableStillUnmarked (p : ℕ) (x d : ListingDb) : Decidable (StillUnmarked p x d) := by
  unfold StillUnmarked
  infer_instance

/-- **No price is typed next to a listing that is not marked, and what the rule found unmarked still is.** A price
sent through the package is the one the package has, or the listing is marked; a listing is added unmarked to a
package whose price was not typed; a mark that is not written because it was there is still there; and no listing has been
marked since a sync or a plain repricing has loaded it, with its second statement. -/
def ListingCall.Undisturbed : ListingCall → List ListingDb → ListingDb → Prop
  | .importPackage .., _, _ => True
  | .importListing _ _ variantId _ price rulePrice, _, d => price ≠ rulePrice ∨ d.typed variantId = false
  | .attachExistingVariant _ _ variantId .., _, d =>
    d.typed variantId = false ∨ ∃ row ∈ d.listings.rows, row.2.variantId = variantId
  | .updateVariant variantId _ price _, seen, d =>
    ∀ amount ∈ price, (∀ x ∈ seen.getLast?, x.priceOf variantId = some amount) ∨
      ∀ row ∈ d.listings.rows, row.2.variantId = variantId → row.2.priceManual = true
  | .updateListing listingId _ u, seen, d =>
    u.price ≠ none → u.priceManual ≠ some false → ∀ x ∈ seen.getLast?, ∀ row ∈ x.listings.get? listingId,
      row.priceManual = true → ∀ row' ∈ d.listings.get? listingId, row'.priceManual = true
  | .repriceListings providerId _ o, seen, d =>
    o.overrides = false → ∀ x ∈ seen.reverse[1]?, StillUnmarked providerId x d
  | .syncProviderListings providerId _, seen, d => ∀ x ∈ seen.reverse[1]?, StillUnmarked providerId x d

instance decidableUndisturbedListing (c : ListingCall) (seen : List ListingDb) (d : ListingDb) :
    Decidable (c.Undisturbed seen d) := by
  cases c <;> unfold ListingCall.Undisturbed <;> infer_instance

/-- The sessions, in the runs whose commits meet the condition. -/
def listingMachine (F : Floats) : Machine ListingDb ListingKey Abort Unit ListingCall :=
  ⟨ListingCall.code F, ListingCall.Undisturbed⟩

/-! ### What is to hold -/

/-- **A package has at most one listing, and it is marked when the price is typed.** -/
structure ListingDb.Marked (d : ListingDb) : Prop where
  unique : ∀ l l' v, d.Lists l v → d.Lists l' v → l = l'
  marked : ∀ l row, d.listings.get? l = some row → d.typed row.variantId = true → row.priceManual = true

/-- What a commit does to prices that are typed. -/
structure PricePost (c : ListingCall) (d d' : ListingDb) : Prop where
  /-- The price is left alone. -/
  kept : ∀ v price, d.typed v = true → d.priceOf v = some price →
    d'.priceOf v = some price ∨ c.Edits d v ∨ c.Releases d v
  /-- It stays typed. -/
  typed : ∀ v, d.typed v = true → d'.typed v = true ∨ c.Releases d v
  /-- A price that is sent is typed. -/
  noted : ∀ v, c.Edits d v → ¬c.Releases d v → d'.priceOf v ≠ d.priceOf v →
    d'.typed v = true ∧ (d'.priceOf v).isSome = true

/-- What the others leave alone: a listing stays with its package, and none is added under the lock. -/
structure ListingRel (L : List ListingKey) (d d' : ListingDb) : Prop where
  lists : ∀ l v, d.Lists l v → d'.Lists l v
  locked : ∀ v, .listingOf v ∈ L → ∀ l, d'.Lists l v → d.Lists l v

/-- What the others leave alone. -/
def listingRely : Rely ListingDb ListingKey where
  rel := ListingRel
  refl _ _ := ⟨fun _ _ h => h, fun _ _ _ h => h⟩
  trans h h' := ⟨fun l v hl => h'.lists l v (h.lists l v hl), fun v hv l hl => h.locked v hv l (h'.locked v hv l hl)⟩
  anti hL h := ⟨h.lists, fun v hv => h.locked v (hL hv)⟩

/-! ### What writes do -/

section Writes

variable {d e x : ListingDb} {f g : ListingDb → ListingDb} {l v : ℕ}

/-- Listings that stay with their packages. -/
def KeepsListings (f : ListingDb → ListingDb) : Prop := ∀ d l v, (f d).Lists l v ↔ d.Lists l v

theorem KeepsListings.rel (h : KeepsListings f) (L : List ListingKey) (d : ListingDb) : ListingRel L d (f d) :=
  ⟨fun l v hl => (h d l v).mpr hl, fun v _ l hl => (h d l v).mp hl⟩

theorem KeepsListings.comp (hf : KeepsListings f) (hg : KeepsListings g) : KeepsListings fun d => g (f d) :=
  fun d l v => (hg (f d) l v).trans (hf d l v)

theorem keepsListings_modifyListing (l : ℕ) (loaded edited : SupplierListing) :
    KeepsListings (ListingDb.modifyListing l (loaded.write edited)) := by
  intro d l' v
  rw [ListingDb.Lists, ListingDb.Lists]
  change (∃ row ∈ (d.listings.modify l _).get? l', row.variantId = v) ↔ _
  rw [Table.get?_modify]
  split_ifs
  · constructor
    · rintro ⟨row', hrow', hv⟩
      obtain ⟨row, hrow, rfl⟩ := Option.map_eq_some_iff.mp hrow'
      exact ⟨row, hrow, hv⟩
    · rintro ⟨row, hrow, hv⟩
      exact ⟨_, Option.map_eq_some_iff.mpr ⟨row, hrow, rfl⟩, hv⟩
  · exact Iff.rfl

/-- What the rule of a source does to prices and marks: it marks nothing as typed, takes a mark away only from what is
not typed then, and changes the prices of certain packages only. `x` is a state the rows come from. -/
structure RuleWrite (x : ListingDb) (V : ℕ → Prop) (f : ListingDb → ListingDb) : Prop where
  lists : KeepsListings f
  mark : ∀ e, (∀ l v, x.Lists l v → e.Lists l v) → ∀ l row', (f e).listings.get? l = some row' →
    row'.priceManual = false → (f e).typed row'.variantId = true →
      ∃ row, e.listings.get? l = some row ∧ row.variantId = row'.variantId ∧ row.priceManual = false
  typed : ∀ e v, (f e).typed v = true → e.typed v = true
  kept : ∀ e v, e.typed v = true → (f e).typed v = true ∨ V v
  price : ∀ e v, ¬V v → (f e).priceOf v = e.priceOf v

namespace RuleWrite

variable {V : ℕ → Prop}

theorem id : RuleWrite x V id :=
  ⟨fun _ _ _ => Iff.rfl, fun _ _ _ row' h hm _ => ⟨row', h, rfl, hm⟩, fun _ _ h => h, fun _ _ h => Or.inl h,
    fun _ _ _ => rfl⟩

theorem comp (hf : RuleWrite x V f) (hg : RuleWrite x V g) : RuleWrite x V fun e => g (f e) := by
  refine ⟨hf.lists.comp hg.lists, fun e he l row'' hrow hmark htyped => ?_, fun e v h => hf.typed e v (hg.typed _ v h),
    fun e v h => ?_, fun e v h => (hg.price _ v h).trans (hf.price e v h)⟩
  · obtain ⟨row', hrow', hv', hmark'⟩ :=
      hg.mark (f e) (fun l v hl => (hf.lists e l v).mpr (he l v hl)) l row'' hrow hmark htyped
    obtain ⟨row, hrow, hv, hm⟩ := hf.mark e he l row' hrow' hmark' (by rw [hv']; exact hg.typed _ _ htyped)
    exact ⟨row, hrow, hv.trans hv', hm⟩
  · exact (hf.kept e v h).elim (fun h => hg.kept _ v h) Or.inr

/-- A listing whose mark is not edited. -/
theorem modifyListing {loaded edited : SupplierListing} (h : edited.priceManual = loaded.priceManual) :
    RuleWrite x V (ListingDb.modifyListing l (loaded.write edited)) := by
  refine ⟨keepsListings_modifyListing l loaded edited, fun e _ l' row' hrow hmark _ => ?_, fun _ _ h => h,
    fun _ _ h => Or.inl h, fun _ _ _ => rfl⟩
  change (e.listings.modify l _).get? l' = some row' at hrow
  rw [Table.get?_modify] at hrow
  split_ifs at hrow
  · obtain ⟨row, hrow₀, rfl⟩ := Option.map_eq_some_iff.mp hrow
    refine ⟨row, hrow₀, rfl, ?_⟩
    simpa [SupplierListing.write, writeColumn, h] using hmark
  · exact ⟨row', hrow, rfl, hmark⟩

/-- A package whose price may change, or is not edited. -/
theorem modifyVariant {loaded edited : Package} (h : V v ∨ edited.price = loaded.price) :
    RuleWrite x V (ListingDb.modifyVariant v (loaded.write edited)) := by
  refine ⟨fun _ _ _ => Iff.rfl, fun _ _ _ row' hrow hmark _ => ⟨row', hrow, rfl, hmark⟩, fun _ _ h => h,
    fun _ _ h => Or.inl h, fun e v' hv' => ?_⟩
  change ((e.variants.modify v _).get? v').map Package.price = _
  rw [Table.get?_modify]
  split_ifs with hv
  · subst hv
    rw [Option.map_map, ListingDb.priceOf]
    congr 1
    funext row
    simp [Package.write, writeColumn, h.resolve_left hv']
  · rfl

/-- A listing that is handed back with its package. -/
theorem handBack (loaded edited : SupplierListing) (hl : x.Lists l v) (hV : V v) :
    RuleWrite x V fun e => (e.modifyListing l (loaded.write edited)).noteTyped v false := by
  refine ⟨keepsListings_modifyListing l loaded edited, fun e he l' row' hrow hmark htyped => ?_, fun e v' h => ?_,
    fun e v' h => ?_, fun _ _ _ => rfl⟩
  · change (e.listings.modify l _).get? l' = some row' at hrow
    change Function.update e.typed v false row'.variantId = true at htyped
    rw [Table.get?_modify] at hrow
    split_ifs at hrow with hl'
    · -- this listing is the one of the package
      obtain ⟨row, hrow₀, rfl⟩ := Option.map_eq_some_iff.mp hrow
      obtain ⟨row₁, hrow₁, hv⟩ := he l v hl
      obtain rfl := Option.some.inj (hrow₀.symm.trans (by rw [hl']; exact hrow₁))
      change Function.update e.typed v false row.variantId = true at htyped
      rw [hv, Function.update_self] at htyped
      exact absurd htyped (by simp)
    · exact ⟨row', hrow, rfl, hmark⟩
  · change Function.update e.typed v false v' = true at h
    rw [Function.update_apply] at h
    split_ifs at h
    exact h
  · by_cases hv : v' = v
    · exact Or.inr (hv ▸ hV)
    · refine Or.inl ?_
      change Function.update e.typed v false v' = true
      rwa [Function.update_of_ne hv]

/-- **The invariant.** -/
theorem marked (h : RuleWrite x V f) (hx : ∀ l v, x.Lists l v → e.Lists l v) (he : e.Marked) : (f e).Marked := by
  refine ⟨fun l l' v hl hl' => he.unique l l' v ((h.lists e l v).mp hl) ((h.lists e l' v).mp hl'),
    fun l row' hrow htyped => ?_⟩
  by_contra hmark
  obtain ⟨row, hrow', hv, hm⟩ := h.mark e hx l row' hrow (by simpa using hmark) htyped
  have := he.marked l row hrow' (by rw [hv]; exact h.typed e _ htyped)
  rw [hm] at this
  exact absurd this (by simp)

end RuleWrite

/-- A listing whose mark, where the price is typed, is there afterwards. -/
theorem marked_modifyListing {loaded edited : SupplierListing} (he : e.Marked)
    (h : ∀ row, e.listings.get? l = some row → e.typed row.variantId = true → row.priceManual = true →
      (loaded.write edited row).priceManual = true) :
    (e.modifyListing l (loaded.write edited)).Marked := by
  have hlists := keepsListings_modifyListing l loaded edited
  refine ⟨fun a b v ha hb => he.unique a b v ((hlists e a v).mp ha) ((hlists e b v).mp hb),
    fun a row' hrow htyped => ?_⟩
  change (e.listings.modify l _).get? a = some row' at hrow
  rw [Table.get?_modify] at hrow
  split_ifs at hrow with ha
  · subst ha
    obtain ⟨row, hrow₀, rfl⟩ := Option.map_eq_some_iff.mp hrow
    exact h row hrow₀ htyped (he.marked a row hrow₀ htyped)
  · exact he.marked a row' hrow htyped

/-- The price of a package that is written. -/
theorem priceOf_modifyVariant (v v' : ℕ) (loaded edited : Package) (e : ListingDb) :
    (e.modifyVariant v (loaded.write edited)).priceOf v' =
      if v' = v then (e.priceOf v').map (writeColumn loaded.price edited.price) else e.priceOf v' := by
  change ((e.variants.modify v _).get? v').map Package.price = _
  rw [Table.get?_modify]
  split_ifs with hv
  · rw [Option.map_map, ListingDb.priceOf, Option.map_map]
    rfl
  · rfl

end Writes

/-! ### Every call owes it -/

section Owes

variable {F : Floats} {c : ListingCall} {w : ListingDb → ListingDb} {L : List ListingKey} {s : List ListingDb}
  {d x : ListingDb} {I : ListingDb → Prop}

/-- What a session owes. -/
def ListingOwes (F : Floats) (c : ListingCall) :
    Unit → (ListingDb → ListingDb) → List ListingKey → List ListingDb → ListingDb → Prop :=
  Commits listingRely ListingDb.Marked (listingMachine F) (fun c _ d d' => PricePost c d d') c

/-- A call that leaves prices and what is typed alone. -/
theorem PricePost.same {e e' : ListingDb} (hedit : ∀ v, ¬c.Edits e v) (htyped : e'.typed = e.typed)
    (hprice : ∀ v price, e.priceOf v = some price → e'.priceOf v = some price) : PricePost c e e' :=
  ⟨fun v price _ h => Or.inl (hprice v price h), fun v h => Or.inl (by rw [htyped]; exact h),
    fun v h => absurd h (hedit v)⟩

/-- **A commit of the rule of a source**, where what it may change is not typed or is handed back. -/
theorem owes_ruleWrite {V : ℕ → Prop} {g : ListingDb → ListingDb} (hg : RuleWrite x V g)
    (hx : ListingRel [] x d) (hw : w = g) (hedit : ∀ e v, ¬c.Edits e v)
    (hV : ∀ e, ListingRel [] x e → e.Marked → c.Undisturbed s e → ∀ v, V v → e.typed v = true → c.Releases e v) :
    ListingOwes F c () w L s d := by
  subst hw
  intro e he hI hallow
  have hxe : ListingRel [] x e := listingRely.trans hx (listingRely.anti (List.nil_subset _) he)
  refine ⟨hg.marked hxe.lists hI, ⟨fun v price htyped hprice => ?_, fun v htyped => ?_, fun v h => absurd h (hedit e v)⟩,
    fun L' _ => hg.lists.rel L' e⟩
  · by_cases hv : V v
    · exact Or.inr (Or.inr (hV e hxe hI hallow v hv htyped))
    · exact Or.inl ((hg.price e v hv).trans hprice)
  · exact (hg.kept e v htyped).imp_right fun hv => hV e hxe hI hallow v hv htyped

/-- What a lookup in the source is followed by. -/
theorem wp_getSource {providerId : ℕ} {Q : PriceSource → (ListingDb → ListingDb) → List ListingKey → List ListingDb →
      ListingDb → Prop}
    (h : ∀ source d', ListingRel L d d' → Q source w L (w d' :: s) d') :
    (getSource providerId).wp listingRely I Q w L s d := by
  simp only [getSource, Tx.wp_bind, Tx.wp_read, Tx.wp_getOrElse]
  exact fun d' hd _ source _ => h source d' hd

/-! ### The rule of the source -/

/-- The packages of the source whose listings were not marked. -/
def OfUnmarked (p : ℕ) (x : ListingDb) (v : ℕ) : Prop :=
  ∃ l row, x.listings.get? l = some row ∧ row.providerId = p ∧ row.priceManual = false ∧ row.variantId = v

/-- **What is still unmarked is not typed.** -/
theorem not_typed_of_stillUnmarked {p v : ℕ} {e : ListingDb} (hV : OfUnmarked p x v) (hx : ListingRel [] x e)
    (he : e.Marked) (hstill : StillUnmarked p x e) : e.typed v ≠ true := by
  obtain ⟨l, row, hrow, hp, hm, rfl⟩ := hV
  obtain ⟨row', hrow', hv⟩ := hx.lists l row.variantId ⟨row, hrow, rfl⟩
  intro htyped
  have := he.marked l row' hrow' (by rw [hv]; exact htyped)
  rw [hstill (l, row) (Table.get?_eq_some_iff.mp hrow) hp hm row' hrow'] at this
  exact absurd this (by simp)

theorem writes_flushListing {P : (ListingDb → ListingDb) → Prop} {l : ℕ} {loaded edited : SupplierListing}
    (h : P (ListingDb.modifyListing l (loaded.write edited))) : (flushListing l loaded edited).Writes P :=
  .bind (t := Tx.stmt _ _) (fun _ => trivial) fun _ => Tx.writes_modify.mpr h

theorem writes_flushVariant {P : (ListingDb → ListingDb) → Prop} {v : ℕ} {loaded edited : Package}
    (h : P (ListingDb.modifyVariant v (loaded.write edited))) : (flushVariant v loaded edited).Writes P :=
  .bind (t := Tx.stmt _ _) (fun _ => trivial) fun _ => Tx.writes_modify.mpr h

/-- A listing that is synced keeps its mark. -/
theorem syncedListing_priceManual (source : PriceSource) (catalog : List UpstreamItem) (listing : SupplierListing) :
    (syncedListing source catalog listing).priceManual = listing.priceManual := by
  rw [syncedListing]
  split <;> rfl

/-- The price of a listing that is marked is not synced. -/
theorem syncedPrice_of_manual (source : PriceSource) (catalog : List UpstreamItem) {listing : SupplierListing} {price : ℤ}
    (h : listing.priceManual = true) : syncedPrice F source catalog listing price = price := by
  rw [syncedPrice]
  split
  · rfl
  · rw [if_neg (by simp [h])]

theorem writes_syncListing {p : ℕ} {source : PriceSource} {catalog : List UpstreamItem} {variants : ℕ → Option Package}
    {row : ℕ × SupplierListing} (hrow : x.listings.get? row.1 = some row.2) (hp : row.2.providerId = p) :
    (syncListing F source catalog variants row).Writes (RuleWrite x (OfUnmarked p x)) := by
  refine .bind (Tx.writes_forEach fun variant => writes_flushVariant (RuleWrite.modifyVariant ?_)) fun _ =>
    writes_flushListing (RuleWrite.modifyListing (syncedListing_priceManual source catalog row.2))
  by_cases hm : row.2.priceManual = true
  · exact Or.inr (syncedPrice_of_manual source catalog hm)
  · exact Or.inl ⟨row.1, row.2, hrow, hp, by simpa using hm, rfl⟩

theorem ruleWrite_snapshot {V : ℕ → Prop} (p : ℕ) (catalog : List UpstreamItem) :
    RuleWrite x V (replaceCatalogSnapshot p catalog) :=
  ⟨fun _ _ _ => Iff.rfl, fun _ _ _ row' hrow hm _ => ⟨row', hrow, rfl, hm⟩, fun _ _ h => h, fun _ _ h => Or.inl h,
    fun _ _ _ => rfl⟩

theorem syncProviderListings_owes (p : ℕ) (answer : Except String (List UpstreamItem)) :
    (syncProviderListings F p answer).wp listingRely ListingDb.Marked
      (ListingOwes F (.syncProviderListings p answer)) id [] [] d := by
  rw [syncProviderListings, Tx.wp_bind]
  refine wp_getSource fun source d₁ hd₁ => ?_
  rw [Tx.wp_bind, Tx.wp_read]
  intro x hx _
  -- the listings are those of `x`, which the session saw with its second statement
  have hrows : ∀ row ∈ x.listings.rows.filter fun row => row.2.providerId = p,
      x.listings.get? row.1 = some row.2 ∧ row.2.providerId = p := by
    intro row hrow
    obtain ⟨hmem, hp⟩ := List.mem_filter.mp hrow
    exact ⟨Table.get?_eq_some_iff.mpr hmem, of_decide_eq_true hp⟩
  have howes : ∀ {t : ListingTx Unit}, t.Writes (RuleWrite x (OfUnmarked p x)) →
      t.wp listingRely ListingDb.Marked (ListingOwes F (.syncProviderListings p answer)) id [] [x, d₁] x := by
    intro t ht
    refine Tx.wp_mono (Tx.wp_frame RuleWrite.id (fun _ _ => RuleWrite.comp) ht) ?_
    rintro ⟨⟩ w' L' s' d' ⟨g, hg, hw, -, ⟨s₀, rfl⟩, hd'⟩
    refine owes_ruleWrite hg hd' hw (fun e v => id) fun e hxe he hallow v hv htyped => ?_
    exact absurd htyped (not_typed_of_stillUnmarked hv hxe he (hallow x (by simp)))
  rcases answer with message | catalog
  · refine howes (Tx.writes_forEach fun row => writes_flushListing (RuleWrite.modifyListing rfl))
  · refine howes (.bind (Tx.writes_modify.mpr (ruleWrite_snapshot p catalog)) fun _ =>
      .bind (Tx.writes_read _) fun variants => Tx.writes_forEach_of_mem fun row hrow => ?_)
    exact writes_syncListing (hrows row hrow).1 (hrows row hrow).2

/-- A row of the selection is a listing of the source. -/
theorem mem_listListings {p : ℕ} {scope : Option ℕ} {row : ListedPackage} (h : row ∈ listListings p scope x) :
    x.listings.get? row.listingId = some row.listing ∧ row.listing.providerId = p := by
  obtain ⟨⟨l, listing⟩, hmem, h⟩ := List.mem_filterMap.mp h
  simp only [Option.bind_eq_bind, Option.bind_eq_some_iff, Option.ite_none_right_eq_some, Option.some.injEq] at h
  obtain ⟨variant, -, product, -, ⟨hp, -⟩, rfl⟩ := h
  exact ⟨Table.get?_eq_some_iff.mpr hmem, hp⟩

/-- The packages of the listings a repricing is about. -/
def OfRepriced (o : RepriceOptions) (p : ℕ) (x : ListingDb) (v : ℕ) : Prop :=
  ∃ l row, x.listings.get? l = some row ∧ row.providerId = p ∧ row.variantId = v ∧
    (o.overrides = false → row.priceManual = false) ∧ ∀ ids ∈ o.listingIds, l ∈ ids

/-- A listing that gets a new price is among those that are named, and not marked unless that is overridden. -/
theorem of_newPrice {o : RepriceOptions} {source : PriceSource} {row : ListedPackage} {price : ℤ}
    (h : o.newPrice F source row = some price) :
    (∀ ids ∈ o.listingIds, row.listingId ∈ ids) ∧ (o.overrides = false → row.listing.priceManual = false) := by
  rw [RepriceOptions.newPrice, Option.ite_none_left_eq_some] at h
  simp only [not_or] at h
  obtain ⟨⟨hnamed, -, -, -, hmanual, -⟩, -⟩ := h
  refine ⟨fun ids hids => ?_, fun hover => ?_⟩
  · by_contra hnot
    exact hnamed ⟨ids, hids, hnot⟩
  · simp only [RepriceOptions.overrides, Bool.or_eq_false_iff, Option.isSome_eq_false_iff, Option.isNone_iff_eq_none]
      at hover
    by_contra hmark
    exact hmanual ⟨by simpa using hmark, hover.1, hover.2⟩

/-- What a repricing does to one listing. -/
theorem wp_reprice {o : RepriceOptions} {p : ℕ} {row : ListedPackage} {price : ℤ}
    (hrow : x.listings.get? row.listingId = some row.listing) (hV : OfRepriced o p x row.listing.variantId) :
    (o.reprice row price).wp listingRely I (fun _ w' L' s' d' => ∃ g, RuleWrite x (OfRepriced o p x) g ∧
      (w' = fun d => g (w d)) ∧ L ⊆ L' ∧ s <:+ s' ∧ listingRely.rel L d d') w L s d := by
  simp only [RepriceOptions.reprice, flushVariant, flushListing, Tx.wp_bind, Tx.wp_when]
  intro d₁ hd₁ _ d₂ hd₂ _
  have hmoves : listingRely.rel L d d₂ :=
    listingRely.trans hd₁ (listingRely.anti (List.subset_append_right _ _) hd₂)
  have hvariant : RuleWrite x (OfRepriced o p x) (ListingDb.modifyVariant row.listing.variantId
      (row.variant.write { row.variant with price })) := RuleWrite.modifyVariant (Or.inl hV)
  have hlocks : L ⊆ _ := List.Subset.trans (List.subset_append_right
      (if ({ row.variant with price } : Package) = row.variant then [] else [.variant row.listing.variantId]) L)
    (List.subset_append_right (if ({ row.listing with
      priceManual := if o.listingIds.isSome then false else row.listing.priceManual } : SupplierListing) = row.listing
      then [] else [.listing row.listingId]) _)
  have hseen := (List.suffix_cons (w d₁) s).trans (List.suffix_cons
    ((w d₂).modifyVariant row.listing.variantId (row.variant.write { row.variant with price })) (w d₁ :: s))
  refine ⟨fun _ => ?_, fun hover => ?_⟩
  · exact ⟨_, hvariant.comp (RuleWrite.handBack row.listing _ ⟨row.listing, hrow, rfl⟩ hV), rfl, hlocks, hseen, hmoves⟩
  · -- nobody asked to override a mark, so the listing is not edited
    have hplain : o.listingIds.isSome = false := by
      simp only [RepriceOptions.overrides, Bool.or_eq_true, not_or, Bool.not_eq_true] at hover
      exact hover.2
    exact ⟨_, hvariant.comp (RuleWrite.modifyListing (by simp [hplain])), rfl, hlocks, hseen, hmoves⟩

theorem repriceListings_owes (p : ℕ) (scope : Option ℕ) (o : RepriceOptions) :
    (repriceListings F p scope o).wp listingRely ListingDb.Marked
      (ListingOwes F (.repriceListings p scope o)) id [] [] d := by
  rw [repriceListings, Tx.wp_bind]
  refine wp_getSource fun source d₁ _ => ?_
  simp only [Tx.wp_bind, Tx.wp_read, Tx.wp_require]
  intro x _ _ _
  refine Tx.wp_mono (Tx.wp_forEach_frame (P := RuleWrite x (OfRepriced o p x)) RuleWrite.id (fun _ _ => RuleWrite.comp)
    fun row hrow w L s d => Tx.wp_forEach_frame RuleWrite.id (fun _ _ => RuleWrite.comp) fun price hprice w L s d => ?_) ?_
  · obtain ⟨hget, hp⟩ := mem_listListings hrow
    obtain ⟨hnamed, hunmarked⟩ := of_newPrice (Option.mem_toList.mp hprice)
    exact wp_reprice hget ⟨row.listingId, row.listing, hget, hp, rfl, hunmarked, hnamed⟩
  · rintro ⟨⟩ w' L' s' d' ⟨g, hg, hw, -, ⟨s₀, rfl⟩, hd'⟩
    refine owes_ruleWrite hg hd' hw (fun e v => id) fun e hxe he hallow v hv htyped => ?_
    obtain ⟨l, row, hrow, hp, rfl, hunmarked, hids⟩ := hv
    by_cases hover : o.overrides = true
    · simp only [RepriceOptions.overrides, Bool.or_eq_true, Option.isSome_iff_exists] at hover
      refine hover.imp_right ?_
      rintro ⟨ids, hsome⟩
      exact ⟨ids, hsome, l, hids ids hsome, hxe.lists l _ ⟨row, hrow, rfl⟩⟩
    · have hplain : o.overrides = false := by simpa using hover
      exact absurd htyped (not_typed_of_stillUnmarked ⟨l, row, hrow, hp, hunmarked hplain, rfl⟩ hxe he
        (hallow hplain x (by simp)))

/-! ### Edits -/

/-- A package that was loaded and edited, with the note that its price is typed if that is edited. -/
theorem updateVariant_owes (v sellerId : ℕ) (price : Option ℤ) (isActive : Option Bool) :
    (updateVariant v sellerId price isActive).wp listingRely ListingDb.Marked
      (ListingOwes F (.updateVariant v sellerId price isActive)) id [] [] d := by
  simp only [updateVariant, flushVariant, Tx.wp_bind, Tx.wp_read, Tx.wp_getOrElse, Tx.wp_require, Tx.wp_when]
  intro x _ _ variant hvariant d₂ hd₂ _ product _ _ d₃ hd₃ _
  set edited : Package :=
    { variant with price := price.getD variant.price, isActive := isActive.getD variant.isActive } with hedited
  refine ⟨fun hchange => ?_, fun hsame => ?_⟩
  · -- a new price, which is typed from now on
    rcases price with _ | amount
    · exact absurd rfl hchange
    intro e _ hI hallow
    have hmarked : ∀ row ∈ e.listings.rows, row.2.variantId = v → row.2.priceManual = true := by
      refine (hallow amount rfl).resolve_left fun h => hchange ?_
      have := h x (by simp)
      rw [ListingDb.priceOf, show x.variants.get? v = some variant from hvariant, Option.map_some] at this
      exact (Option.some.inj this).symm
    refine ⟨⟨hI.unique, fun l row hrow htyped => ?_⟩, ⟨fun v' p _ hp => ?_, fun v' htyped => Or.inl ?_,
      fun v' hedit _ hne => ?_⟩, fun L' _ => KeepsListings.rel
        (f := fun e => (e.modifyVariant v (variant.write edited)).noteTyped v true) (fun _ _ _ => Iff.rfl) L' e⟩
    · change Function.update e.typed v true row.variantId = true at htyped
      by_cases hv : row.variantId = v
      · exact hmarked (l, row) (Table.get?_eq_some_iff.mp hrow) hv
      · rw [Function.update_of_ne hv] at htyped
        exact hI.marked l row hrow htyped
    · by_cases hv : v' = v
      · exact Or.inr (Or.inl ⟨hv.symm, by simp⟩)
      · refine Or.inl ((priceOf_modifyVariant v v' variant edited e).trans ?_)
        rw [if_neg hv, hp]
    · change Function.update e.typed v true v' = true
      by_cases hv : v' = v
      · rw [hv, Function.update_self]
      · rwa [Function.update_of_ne hv]
    · obtain ⟨rfl, -⟩ := hedit
      refine ⟨Function.update_self _ _ _, ?_⟩
      change (ListingDb.priceOf (e.modifyVariant v (variant.write edited)) v).isSome = true
      change ListingDb.priceOf (e.modifyVariant v (variant.write edited)) v ≠ _ at hne
      rw [priceOf_modifyVariant, if_pos rfl] at hne ⊢
      rcases hp : e.priceOf v with _ | p
      · rw [hp] at hne
        exact absurd rfl hne
      · rfl
  · -- the price is not edited, so it is not written
    intro e _ hI _
    have hprice : ∀ v', (e.modifyVariant v (variant.write edited)).priceOf v' = e.priceOf v' := by
      intro v'
      rw [priceOf_modifyVariant]
      split_ifs
      · have : writeColumn variant.price edited.price = id := by
          funext p
          rw [writeColumn, if_pos (not_not.mp hsame)]
          rfl
        rw [this, Option.map_id, id]
      · rfl
    exact ⟨⟨hI.unique, hI.marked⟩, ⟨fun v' p _ hp => Or.inl ((hprice v').trans hp), fun v' h => Or.inl h,
      fun v' _ _ hne => absurd (hprice v') hne⟩, fun L' _ => KeepsListings.rel
        (f := fun e => e.modifyVariant v (variant.write edited)) (fun _ _ _ => Iff.rfl) L' e⟩

/-- What the steps of `update_listing` make of the price and the mark, unless the price is handed back: a new price was
sent, and is marked; and a mark stays. -/
theorem ListingUpdate.setManual_spec (u : ListingUpdate) (source : PriceSource) {listing edited switched : SupplierListing}
    {variant moved : Package} (hu : u.priceManual ≠ some false) (hedited : edited.priceManual = listing.priceManual)
    (hmoved : moved.price = variant.price)
    (hswitched : switched.priceManual = (u.setActive (u.setPrice (edited, moved))).1.priceManual) :
    ((u.setManual F source (switched, (u.setActive (u.setPrice (edited, moved))).2)).2.price ≠ variant.price →
      u.price ≠ none ∧ (u.setManual F source (switched, (u.setActive (u.setPrice (edited, moved))).2)).1.priceManual = true) ∧
      (listing.priceManual = true →
        (u.setManual F source (switched, (u.setActive (u.setPrice (edited, moved))).2)).1.priceManual = true) := by
  -- the switch changes neither
  have hactive : ∀ row : SupplierListing × Package, (u.setActive row).1.priceManual = row.1.priceManual ∧
      (u.setActive row).2.price = row.2.price := by
    intro row
    rw [ListingUpdate.setActive]
    split <;> exact ⟨rfl, rfl⟩
  rw [(hactive _).1] at hswitched
  -- the price is what it was, or was sent and marked
  have hprice : (u.setPrice (edited, moved)).2.price = variant.price ∧
        (u.setPrice (edited, moved)).1.priceManual = listing.priceManual ∨
      u.price ≠ none ∧ (u.setPrice (edited, moved)).1.priceManual = true := by
    rw [ListingUpdate.setPrice]
    rcases hp : u.price.filter (· ≠ (edited, moved).2.price) with _ | price
    · exact Or.inl ⟨hmoved, hedited⟩
    · refine Or.inr ⟨fun hc => ?_, rfl⟩
      rw [hc] at hp
      exact absurd hp (by simp)
  have hmanual : (u.setManual F source (switched, (u.setActive (u.setPrice (edited, moved))).2)).2.price =
        (u.setPrice (edited, moved)).2.price ∧
      (switched.priceManual = true →
        (u.setManual F source (switched, (u.setActive (u.setPrice (edited, moved))).2)).1.priceManual = true) := by
    rw [← (hactive (u.setPrice (edited, moved))).2, ListingUpdate.setManual]
    rcases hm : u.priceManual with _ | _ | _
    · exact ⟨rfl, fun h => h⟩
    · exact absurd hm hu
    · exact ⟨rfl, fun _ => rfl⟩
  refine ⟨fun hne => ?_, fun hmark => ?_⟩
  · rcases hprice with ⟨hsame, -⟩ | ⟨hsent, hmark⟩
    · exact absurd (hmanual.1.trans hsame) hne
    · exact ⟨hsent, hmanual.2 (hswitched.trans hmark)⟩
  · refine hmanual.2 (hswitched.trans ?_)
    rcases hprice with ⟨-, hsame⟩ | ⟨-, hmarked⟩
    · exact hsame.trans hmark
    · exact hmarked

/-- **A commit of an edited listing and its package.** -/
theorem owes_updateListing {l : ℕ} {scope : Option ℕ} {u : ListingUpdate} {listing edited : SupplierListing}
    {variant moved : Package} {g : ListingDb → ListingDb} (hrow : x.listings.get? l = some listing)
    (hx : ListingRel [] x d) (hlast : x ∈ s.getLast?)
    (hg : ∀ e, (g e).variants = e.variants ∧ (g e).listings = e.listings ∧ (g e).typed = e.typed)
    (hspec : u.priceManual ≠ some false →
      (moved.price ≠ variant.price → u.price ≠ none ∧ edited.priceManual = true) ∧
        (listing.priceManual = true → edited.priceManual = true)) :
    ListingOwes F (.updateListing l scope u) ()
      (fun e => u.note listing.variantId variant moved (((g e).modifyVariant listing.variantId
        (variant.write moved)).modifyListing l (listing.write edited))) L s d := by
  intro e he hI hallow
  set v := listing.variantId with hv
  have hxe : ListingRel [] x e := listingRely.trans hx (listingRely.anti (List.nil_subset _) he)
  obtain ⟨row, hget, hrowv⟩ : e.Lists l v := hxe.lists l v ⟨listing, hrow, rfl⟩
  set e₁ := ((g e).modifyVariant v (variant.write moved)).modifyListing l (listing.write edited) with he₁
  -- what is under the note
  have hlists : KeepsListings fun e => ((g e).modifyVariant v (variant.write moved)).modifyListing l
      (listing.write edited) := by
    intro e' l' v'
    refine (keepsListings_modifyListing l listing edited _ l' v').trans ?_
    change (∃ r ∈ (g e').listings.get? l', _) ↔ _
    rw [(hg e').2.1]
    rfl
  have htyped₁ : e₁.typed = e.typed := (hg e).2.2
  have hprice₁ : ∀ v', e₁.priceOf v' =
      if v' = v then (e.priceOf v').map (writeColumn variant.price moved.price) else e.priceOf v' := by
    intro v'
    change ((g e).modifyVariant v (variant.write moved)).priceOf v' = _
    rw [priceOf_modifyVariant]
    simp only [ListingDb.priceOf, (hg e).1]
  have hlisting₁ : ∀ l' row', e₁.listings.get? l' = some row' →
      l' ≠ l ∧ e.listings.get? l' = some row' ∨ l' = l ∧ row' = listing.write edited row := by
    intro l' row' h
    change ((g e).listings.modify l _).get? l' = some row' at h
    rw [(hg e).2.1, Table.get?_modify] at h
    split_ifs at h with hl
    · rw [hl, hget] at h
      exact Or.inr ⟨hl, (Option.some.inj h).symm⟩
    · exact Or.inl ⟨hl, h⟩
  -- a listing of another package
  have hother : ∀ l' row', e.listings.get? l' = some row' → l' ≠ l → row'.variantId ≠ v := fun l' row' h hne hc =>
    hne (hI.unique l' l v ⟨row', h, hc⟩ ⟨row, hget, hrowv⟩)
  -- the mark after the commit, if the price is not handed back
  have hmark : u.priceManual ≠ some false → (moved.price ≠ variant.price ∨ row.priceManual = true) →
      (listing.write edited row).priceManual = true := by
    intro hu hor
    obtain ⟨hnew, hkeep⟩ := hspec hu
    change writeColumn listing.priceManual edited.priceManual row.priceManual = true
    rw [writeColumn]
    split_ifs with hsame
    · rcases hor with hne | hrowm
      · exact hallow (hnew hne).1 hu x hlast listing hrow (hsame.symm.trans (hnew hne).2) row hget
      · exact hrowm
    · by_cases hl : listing.priceManual = true
      · exact hkeep hl
      · by_contra hc
        exact hsame (by rw [Bool.not_eq_true] at hc hl; rw [hc, hl])
  have hnote : ∀ v', (u.note v variant moved e₁).typed v' =
      if v' = v then
        if u.priceManual = some false then false else if moved.price ≠ variant.price then true else e.typed v
      else e.typed v' := by
    intro v'
    rw [ListingUpdate.note]
    by_cases hv' : v' = v
    · subst hv'
      rw [if_pos rfl]
      split_ifs
      · exact Function.update_self _ _ _
      · exact Function.update_self _ _ _
      · rw [htyped₁]
    · rw [if_neg hv', ← htyped₁]
      split_ifs
      · exact Function.update_of_ne hv' _ _
      · exact Function.update_of_ne hv' _ _
      · rfl
  have hnoted : ∀ e', (u.note v variant moved e').listings = e'.listings ∧
      (u.note v variant moved e').variants = e'.variants := by
    intro e'
    rw [ListingUpdate.note]
    split_ifs <;> exact ⟨rfl, rfl⟩
  have hkeeps : KeepsListings fun e => u.note v variant moved
      (((g e).modifyVariant v (variant.write moved)).modifyListing l (listing.write edited)) := by
    intro e' l' v'
    refine Iff.trans ?_ (hlists e' l' v')
    rw [ListingDb.Lists, (hnoted _).1]
    rfl
  refine ⟨⟨fun a b v' ha hb => hI.unique a b v' ((hkeeps e a v').mp ha) ((hkeeps e b v').mp hb),
    fun l' row' hrow' htyped => ?_⟩, ⟨fun v' price htyped hp => ?_, fun v' htyped => ?_, fun v' hedit hrel hne => ?_⟩,
    fun L' _ => hkeeps.rel L' e⟩
  · dsimp only at hrow' htyped
    rw [(hnoted e₁).1] at hrow'
    rw [hnote] at htyped
    rcases hlisting₁ l' row' hrow' with ⟨hne, hget'⟩ | ⟨rfl, rfl⟩
    · rw [if_neg (hother l' row' hget' hne)] at htyped
      exact hI.marked l' row' hget' htyped
    · change (if row.variantId = v then _ else _) = true at htyped
      rw [if_pos hrowv] at htyped
      split_ifs at htyped with hu hne
      · exact hmark hu (Or.inl hne)
      · exact hmark hu (Or.inr (hI.marked l' row hget (by rw [hrowv]; exact htyped)))
  · have hp₁ : (u.note v variant moved e₁).priceOf v' = e₁.priceOf v' := by
      rw [ListingDb.priceOf, (hnoted e₁).2]
      rfl
    by_cases hv' : v' = v
    · by_cases hu : u.priceManual = some false
      · exact Or.inr (Or.inr ⟨⟨row, hget, by rw [hrowv, hv']⟩, hu⟩)
      · by_cases hne : moved.price = variant.price
        · refine Or.inl (hp₁.trans ((hprice₁ v').trans ?_))
          rw [if_pos hv', hp, Option.map_some, writeColumn, if_pos hne]
        · exact Or.inr (Or.inl ⟨⟨row, hget, by rw [hrowv, hv']⟩, ((hspec hu).1 hne).1⟩)
    · refine Or.inl (hp₁.trans ((hprice₁ v').trans ?_))
      rw [if_neg hv', hp]
  · change (u.note v variant moved e₁).typed v' = true ∨ _
    rw [hnote]
    by_cases hv' : v' = v
    · rw [if_pos hv']
      by_cases hu : u.priceManual = some false
      · exact Or.inr ⟨⟨row, hget, by rw [hrowv, hv']⟩, hu⟩
      · rw [if_neg hu]
        split_ifs
        · exact Or.inl rfl
        · exact Or.inl (by rw [← hv']; exact htyped)
    · rw [if_neg hv']
      exact Or.inl htyped
  · obtain ⟨⟨row₁, hrow₁, hv₁⟩, hsent⟩ := hedit
    obtain rfl : row₁ = row := Option.some.inj (hrow₁.symm.trans hget)
    have hv' : v' = v := hv₁.symm.trans hrowv
    have hu : u.priceManual ≠ some false := fun hu => hrel ⟨⟨row₁, hget, hv₁⟩, hu⟩
    change (u.note v variant moved e₁).priceOf v' ≠ _ at hne
    change (u.note v variant moved e₁).typed v' = true ∧ ((u.note v variant moved e₁).priceOf v').isSome = true
    have hp₁ : (u.note v variant moved e₁).priceOf v' = (e.priceOf v').map (writeColumn variant.price moved.price) := by
      rw [ListingDb.priceOf, (hnoted e₁).2]
      exact (hprice₁ v').trans (if_pos hv')
    rw [hp₁] at hne ⊢
    rw [hnote, if_pos hv', if_neg hu]
    rcases hp : e.priceOf v' with _ | price
    · rw [hp] at hne
      exact absurd rfl hne
    · refine ⟨?_, rfl⟩
      rw [hp, Option.map_some] at hne
      rw [if_pos]
      intro hsame
      exact hne (by rw [writeColumn, if_pos hsame])

/-- A change that only concerns products. -/
def ProductsOnly (g : ListingDb → ListingDb) : Prop :=
  ∀ e, (g e).variants = e.variants ∧ (g e).listings = e.listings ∧ (g e).typed = e.typed

theorem ProductsOnly.id : ProductsOnly id := fun _ => ⟨rfl, rfl, rfl⟩

theorem ProductsOnly.comp {f g : ListingDb → ListingDb} (hf : ProductsOnly f) (hg : ProductsOnly g) :
    ProductsOnly fun e => g (f e) := fun e =>
  ⟨(hg (f e)).1.trans (hf e).1, (hg (f e)).2.1.trans (hf e).2.1, (hg (f e)).2.2.trans (hf e).2.2⟩

theorem writes_flushSource (productId providerId : ℕ) (loaded : PackagedProduct) :
    (flushSource productId providerId loaded).Writes ProductsOnly :=
  .bind (t := Tx.stmt _ _) (fun _ => trivial) fun _ =>
    Tx.writes_when (Tx.writes_modify.mpr fun _ => ⟨rfl, rfl, rfl⟩)

/-- **A part that returns a value with a property and only writes products.** -/
theorem wp_productsOnly {α : Type} {Q : α → Prop} {t : ListingTx α} (ht : t.Writes ProductsOnly) (hQ : t.Returns Q) :
    t.wp listingRely I (fun a w' L' s' d' => Q a ∧ ∃ g, ProductsOnly g ∧ (w' = fun e => g (w e)) ∧ L ⊆ L' ∧ s <:+ s' ∧
      listingRely.rel L d d') w L s d := by
  refine Tx.wp_mono (Tx.wp_and (Tx.wp_returns hQ) (Tx.wp_frame ProductsOnly.id (fun _ _ => ProductsOnly.comp) ht)) ?_
  rintro a w' L' s' d' ⟨ha, hg⟩
  exact ⟨ha, hg⟩

theorem writes_catalogItem (p : ℕ) (externalId : String) : (catalogItem p externalId).Writes ProductsOnly :=
  .bind (Tx.writes_read _) fun _ => Tx.writes_getOrElse _ _

theorem setStock_spec (u : ListingUpdate) (source : PriceSource) (listing : SupplierListing) :
    (u.setStock source listing).Writes ProductsOnly ∧
      (u.setStock source listing).Returns fun edited => edited.priceManual = listing.priceManual := by
  rw [ListingUpdate.setStock]
  rcases u.stock with _ | stock
  · exact ⟨Tx.writes_pure _, Tx.returns_pure rfl⟩
  · exact ⟨.bind (Tx.writes_require _ _) fun _ => Tx.writes_pure _, Tx.returns_bind fun _ => Tx.returns_pure rfl⟩

theorem move_spec (u : ListingUpdate) (listing : SupplierListing) (product : PackagedProduct) (variant : Package) :
    (u.move listing product variant).Writes ProductsOnly ∧
      (u.move listing product variant).Returns fun moved => moved.price = variant.price := by
  rw [ListingUpdate.move]
  rcases u.productId.filter (· ≠ variant.productId) with _ | productId
  · exact ⟨Tx.writes_pure _, Tx.returns_pure rfl⟩
  · refine ⟨.bind (Tx.writes_read _) fun _ => .bind (Tx.writes_getOrElse _ _) fun _ => .bind (Tx.writes_require _ _) fun _ =>
      .bind (Tx.writes_require _ _) fun _ => .bind (writes_flushSource _ _ _) fun _ => Tx.writes_pure _, ?_⟩
    exact Tx.returns_bind fun _ => Tx.returns_bind fun _ => Tx.returns_bind fun _ => Tx.returns_bind fun _ =>
      Tx.returns_bind fun _ => Tx.returns_pure rfl

theorem setItem_spec (u : ListingUpdate) (source : PriceSource) (listing : SupplierListing) :
    (u.setItem source listing).Writes ProductsOnly ∧
      (u.setItem source listing).Returns fun switched => switched.priceManual = listing.priceManual := by
  rw [ListingUpdate.setItem]
  rcases u.externalId.filter (· ≠ listing.externalProductId) with _ | externalId
  · exact ⟨Tx.writes_pure _, Tx.returns_pure rfl⟩
  · exact ⟨.bind (writes_catalogItem _ _) fun _ => Tx.writes_pure _, Tx.returns_bind fun _ => Tx.returns_pure rfl⟩

theorem scopedVariant_spec (v : ℕ) (scope : Option ℕ) :
    (scopedVariant v scope).Writes ProductsOnly ∧ (scopedVariant v scope).Returns fun _ => True := by
  refine ⟨.bind (Tx.writes_read _) fun _ => .bind (Tx.writes_getOrElse _ _) fun _ => .bind (Tx.writes_read _) fun _ =>
    .bind (Tx.writes_getOrElse _ _) fun _ => .bind (Tx.writes_require _ _) fun _ => Tx.writes_pure _, ?_⟩
  exact Tx.returns_bind fun _ => Tx.returns_bind fun _ => Tx.returns_bind fun _ => Tx.returns_bind fun _ =>
    Tx.returns_bind fun _ => Tx.returns_pure trivial

theorem updateListing_owes (l : ℕ) (scope : Option ℕ) (u : ListingUpdate) :
    (updateListing F l scope u).wp listingRely ListingDb.Marked (ListingOwes F (.updateListing l scope u)) id [] [] d := by
  rw [updateListing, Tx.wp_bind, Tx.wp_read]
  intro x _ _
  rw [Tx.wp_bind, Tx.wp_getOrElse]
  intro listing hrow
  rw [Tx.wp_bind]
  refine Tx.wp_mono (wp_productsOnly (scopedVariant_spec _ scope).1 (scopedVariant_spec _ scope).2) ?_
  rintro ⟨variant, product⟩ w₁ L₁ s₁ d₁ ⟨-, g₁, hg₁, rfl, -, hs₁, hd₁⟩
  rw [Tx.wp_bind]
  refine wp_getSource fun source d₂ hd₂ => ?_
  rw [Tx.wp_bind]
  refine Tx.wp_mono (wp_productsOnly (setStock_spec u source listing).1 (setStock_spec u source listing).2) ?_
  rintro edited w₃ L₃ s₃ d₃ ⟨hedited, g₃, hg₃, rfl, hL₃, hs₃, hd₃⟩
  rw [Tx.wp_bind]
  refine Tx.wp_mono (wp_productsOnly (move_spec u edited product variant).1 (move_spec u edited product variant).2) ?_
  rintro moved w₄ L₄ s₄ d₄ ⟨hmoved, g₄, hg₄, rfl, hL₄, hs₄, hd₄⟩
  simp only [Tx.wp_bind, Tx.wp_require]
  intro _
  refine Tx.wp_mono (wp_productsOnly (setItem_spec u source _).1 (setItem_spec u source _).2) ?_
  rintro switched w₅ L₅ s₅ d₅ ⟨hswitched, g₅, hg₅, rfl, hL₅, hs₅, hd₅⟩
  simp only [flushVariant, flushListing, Tx.wp_bind]
  intro d₆ hd₆ _ d₇ hd₇ _
  have hnil : ∀ {L d d'}, listingRely.rel L d d' → ListingRel [] d d' := fun h => listingRely.anti (List.nil_subset _) h
  have hx : ListingRel [] x d₇ := listingRely.trans (hnil hd₁) (listingRely.trans (hnil hd₂)
    (listingRely.trans (hnil hd₃) (listingRely.trans (hnil hd₄) (listingRely.trans (hnil hd₅)
      (listingRely.trans (hnil hd₆) (hnil hd₇))))))
  have hlast : ∀ a b : ListingDb, x ∈ (a :: b :: s₅).getLast? := by
    have hs : [x] <:+ s₅ := hs₁.trans ((List.suffix_cons _ _).trans (hs₃.trans (hs₄.trans hs₅)))
    obtain ⟨t, rfl⟩ := hs
    intro a b
    rw [← List.cons_append, ← List.cons_append, List.getLast?_append]
    rfl
  exact owes_updateListing (g := fun e => g₅ (g₄ (g₃ (g₁ e)))) hrow hx (hlast _ _)
    (((hg₁.comp hg₃).comp hg₄).comp hg₅) fun hu => u.setManual_spec source hu hedited hmoved hswitched

/-! ### Imports -/

/-- What only concerns products leaves prices and what is typed alone. -/
theorem ProductsOnly.post {g : ListingDb → ListingDb} (hg : ProductsOnly g) {e e' : ListingDb}
    (hedit : ∀ v, ¬c.Edits e v) (htyped : e'.typed = (g e).typed) (hvariants : e'.variants = (g e).variants) :
    PricePost c e e' :=
  .same hedit (htyped.trans (hg e).2.2) fun v price h => by
    rw [ListingDb.priceOf, hvariants, (hg e).1]
    exact h

/-- **A listing is added, or moved to another item.** -/
theorem attachListing_owes {l p v : ℕ} {up : UpstreamItem} {mark : Option Bool} (hw : ProductsOnly w)
    (hedit : ∀ e v, ¬c.Edits e v)
    (hmark : ∀ s e, c.Undisturbed s e → e.typed v = false ∨ mark = some true ∨
      mark = none ∧ ∃ row ∈ e.listings.rows, row.2.variantId = v) :
    (attachListing l p v up mark).wp listingRely ListingDb.Marked (ListingOwes F c) w L s d := by
  have hlists : ∀ e l v, (w e).Lists l v ↔ e.Lists l v := fun e l v => by
    rw [ListingDb.Lists, (hw e).2.1]
    rfl
  rw [attachListing, Tx.wp_bind, Tx.wp_read]
  intro x _ _
  split
  next hfind =>
    simp only [insertListing, Tx.wp_bind, Tx.wp_lock, Tx.wp_require, Tx.wp_modify]
    intro d₁ _ _ hnone e he hI hallow
    set new : SupplierListing := SupplierListing.applyUpstream
      { providerId := p, variantId := v, externalProductId := up.externalId, costPrice := 0, upstreamAmount := 0
        syncError := none, failStreak := 0, autoPausedAt := none, priceManual := mark.getD false } up false with hnew
    -- the package has no listing, and gets none from others
    have hfree : ∀ a, ¬e.Lists a v := by
      intro a ha
      obtain ⟨row, hrow, hv⟩ := (hlists d₁ a v).mpr (he.locked v List.mem_cons_self a ha)
      have := List.find?_eq_none.mp hnone (a, row) (Table.get?_eq_some_iff.mp hrow)
      exact this (decide_eq_true hv)
    have hmarked : e.typed v = true → new.priceManual = true := by
      intro htyped
      rcases hmark _ e hallow with h | h | ⟨-, row, hrow, hv⟩
      · rw [h] at htyped
        exact absurd htyped (by simp)
      · change mark.getD false = true
        rw [h, Option.getD_some]
      · exact absurd ⟨row.2, Table.get?_eq_some_iff.mpr hrow, hv⟩ (hfree row.1)
    have hget : ∀ a row, ((w e).listings.insert l new).get? a = some row →
        e.listings.get? a = some row ∨ a = l ∧ e.listings.get? l = none ∧ row = new := by
      intro a row h
      rw [(hw e).2.1, Table.get?_insert_eq] at h
      split_ifs at h with ha
      · rcases hold : e.listings.get? l with _ | old
        · rw [hold, Option.getD_none] at h
          exact Or.inr ⟨ha, rfl, (Option.some.inj h).symm⟩
        · rw [hold, Option.getD_some] at h
          exact Or.inl (by rw [ha, hold, h])
      · exact Or.inl h
    refine ⟨⟨fun a b v' ha hb => ?_, fun a row hrow htyped => ?_⟩, hw.post (hedit e) rfl rfl,
      fun L' hL' => ⟨fun a v' ha => ?_, fun v' hv' a ha => ?_⟩⟩
    · obtain ⟨ra, hra, hva⟩ := ha
      obtain ⟨rb, hrb, hvb⟩ := hb
      rcases hget a ra hra with ha | ⟨rfl, -, rfl⟩ <;> rcases hget b rb hrb with hb | ⟨rfl, -, rfl⟩
      · exact hI.unique a b v' ⟨ra, ha, hva⟩ ⟨rb, hb, hvb⟩
      · exact absurd ⟨ra, ha, hva.trans hvb.symm⟩ (hfree a)
      · exact absurd ⟨rb, hb, hvb.trans hva.symm⟩ (hfree b)
      · rfl
    · change (w e).typed row.variantId = true at htyped
      rw [(hw e).2.2] at htyped
      rcases hget a row hrow with ha | ⟨-, -, rfl⟩
      · exact hI.marked a row ha htyped
      · exact hmarked htyped
    · obtain ⟨row, hrow, hv⟩ := ha
      refine ⟨row, ?_, hv⟩
      change ((w e).listings.insert l new).get? a = some row
      rw [(hw e).2.1, Table.get?_insert_eq]
      split_ifs with hal
      · rw [← hal, hrow, Option.getD_some]
      · exact hrow
    · obtain ⟨row, hrow, hv⟩ := ha
      rcases hget a row hrow with ha | ⟨-, -, rfl⟩
      · exact ⟨row, ha, hv⟩
      · -- a session that holds the package does not mind a listing of another one
        obtain rfl : v = v' := hv
        exact absurd hv' (hL' _ List.mem_cons_self)
  next l' listing hfind =>
    have hl' : x.Lists l' v := by
      rw [← hlists]
      exact ⟨listing, Table.get?_eq_some_iff.mpr (List.mem_of_find?_eq_some hfind),
        by simpa using List.find?_some hfind⟩
    simp only [flushListing, Tx.wp_bind]
    intro d₁ hd₁ _ e he hI hallow
    set edited : SupplierListing := SupplierListing.applyUpstream
      { listing with
        providerId := p, externalProductId := up.externalId, priceManual := mark.getD listing.priceManual } up false with hedited
    have hkeep : KeepsListings fun e => (w e).modifyListing l' (listing.write edited) := fun e a v' =>
      (keepsListings_modifyListing l' listing edited (w e) a v').trans (hlists e a v')
    have hwI : (w e).Marked := by
      refine ⟨fun a b v' ha hb => hI.unique a b v' ((hlists e a v').mp ha) ((hlists e b v').mp hb),
        fun a row hrow htyped => ?_⟩
      rw [(hw e).2.1] at hrow
      rw [(hw e).2.2] at htyped
      exact hI.marked a row hrow htyped
    refine ⟨marked_modifyListing hwI fun row hrow htyped hrowm => ?_, hw.post (hedit e) rfl rfl,
      fun L' _ => hkeep.rel L' e⟩
    obtain ⟨row₁, hrow₁, hv₁⟩ := (listingRely.trans (listingRely.anti (List.nil_subset _) hd₁)
      (listingRely.anti (List.nil_subset _) he)).lists l' v hl'
    rw [(hw e).2.1] at hrow
    rw [(hw e).2.2] at htyped
    obtain rfl : row₁ = row := Option.some.inj (hrow₁.symm.trans hrow)
    change writeColumn listing.priceManual (mark.getD listing.priceManual) row₁.priceManual = true
    rcases hmark _ e hallow with h | rfl | ⟨rfl, -⟩
    · rw [hv₁, h] at htyped
      exact absurd htyped (by simp)
    · rw [writeColumn]
      split_ifs
      · exact hrowm
      · rfl
    · rw [Option.getD_none, writeColumn, if_pos rfl]
      exact hrowm

theorem attachExistingVariant_owes (l p v : ℕ) (scope : Option ℕ) (externalId : String) :
    (attachExistingVariant l p v scope externalId).wp listingRely ListingDb.Marked
      (ListingOwes F (.attachExistingVariant l p v scope externalId)) id [] [] d := by
  rw [attachExistingVariant, Tx.wp_bind]
  refine wp_getSource fun source d₁ hd₁ => ?_
  rw [Tx.wp_bind]
  refine Tx.wp_mono (wp_productsOnly (scopedVariant_spec _ scope).1 (scopedVariant_spec _ scope).2) ?_
  rintro ⟨variant, product⟩ w₁ L₁ s₁ d₂ ⟨-, g₁, hg₁, rfl, -⟩
  rw [Tx.wp_bind, Tx.wp_require]
  intro _
  rw [Tx.wp_bind]
  refine Tx.wp_mono (Tx.wp_frame ProductsOnly.id (fun _ _ => ProductsOnly.comp) (writes_catalogItem p externalId)) ?_
  rintro item w₂ L₂ s₂ d₃ ⟨g₂, hg₂, rfl, -⟩
  rw [Tx.wp_bind]
  refine Tx.wp_mono (Tx.wp_frame ProductsOnly.id (fun _ _ => ProductsOnly.comp) (writes_flushSource _ _ _)) ?_
  rintro _ w₃ L₃ s₃ d₄ ⟨g₃, hg₃, rfl, -⟩
  exact attachListing_owes ((hg₁.comp hg₂).comp hg₃) (fun e v => id) fun s e h =>
    h.imp_right fun hrow => Or.inr ⟨rfl, hrow⟩

theorem importListing_owes (l p v : ℕ) (item : UpstreamItem) (price rulePrice : ℤ) :
    (importListing l p v item price rulePrice).wp listingRely ListingDb.Marked
      (ListingOwes F (.importListing l p v item price rulePrice)) id [] [] d := by
  refine attachListing_owes ProductsOnly.id (fun e v => id) fun s e h => ?_
  rcases h with h | h
  · exact Or.inr (Or.inl (by rw [decide_eq_true h]))
  · exact Or.inl h

theorem importProduct_writes (p sellerId newProductId : ℕ) (productId : Option ℕ) :
    (importProduct p sellerId newProductId productId).Writes ProductsOnly := by
  rcases productId with _ | productId
  · exact .bind (Tx.writes_modify.mpr fun _ => ⟨rfl, rfl, rfl⟩) fun _ => Tx.writes_pure _
  · exact .bind (Tx.writes_read _) fun _ => .bind (Tx.writes_getOrElse _ _) fun _ => .bind (Tx.writes_require _ _) fun _ =>
      .bind (Tx.writes_require _ _) fun _ => .bind (writes_flushSource _ _ _) fun _ => Tx.writes_pure _

theorem importPackage_owes (p sellerId newProductId v : ℕ) (externalId : String) (price : Option ℤ)
    (productId : Option ℕ) :
    (importPackage F p sellerId newProductId v externalId price productId).wp listingRely ListingDb.Marked
      (ListingOwes F (.importPackage p sellerId newProductId v externalId price productId)) id [] [] d := by
  rw [importPackage, Tx.wp_bind]
  refine wp_getSource fun source d₁ _ => ?_
  rw [Tx.wp_bind, Tx.wp_require]
  intro _
  rw [Tx.wp_bind]
  refine Tx.wp_mono (Tx.wp_frame ProductsOnly.id (fun _ _ => ProductsOnly.comp) (writes_catalogItem p externalId)) ?_
  rintro item w₂ L₂ s₂ d₂ ⟨g₂, hg₂, rfl, -⟩
  rw [Tx.wp_bind]
  refine Tx.wp_mono (Tx.wp_frame ProductsOnly.id (fun _ _ => ProductsOnly.comp)
    (importProduct_writes p sellerId newProductId productId)) ?_
  rintro product w₃ L₃ s₃ d₃ ⟨g₃, hg₃, rfl, -⟩
  intro e _ hI _
  have hg := (hg₂.comp hg₃) e
  have hlists : ∀ a v', (∃ row ∈ (g₃ (g₂ e)).listings.get? a, row.variantId = v') ↔ e.Lists a v' := fun a v' => by
    rw [hg.2.1]
    rfl
  refine ⟨⟨fun a b v' ha hb => hI.unique a b v' ((hlists a v').mp ha) ((hlists b v').mp hb), fun a row hrow htyped => ?_⟩,
    .same (fun v => id) hg.2.2 fun v' amount h => ?_,
    fun L' _ => ⟨fun a v' => (hlists a v').mpr, fun v' _ a => (hlists a v').mp⟩⟩
  · change (g₃ (g₂ e)).listings.get? a = some row at hrow
    change (g₃ (g₂ e)).typed row.variantId = true at htyped
    rw [hg.2.1] at hrow
    rw [hg.2.2] at htyped
    exact hI.marked a row hrow htyped
  · change (((g₃ (g₂ e)).variants.insert v _).get? v').map Package.price = some amount
    rw [hg.1, Table.get?_insert_eq]
    obtain ⟨row, hrow, hp⟩ := Option.map_eq_some_iff.mp h
    split_ifs with hv
    · rw [← hv, hrow, Option.getD_some, Option.map_some, hp]
    · rw [hrow, Option.map_some, hp]

end Owes

theorem listingMachine_correct (F : Floats) :
    (listingMachine F).Correct listingRely ListingDb.Marked fun c _ d d' => PricePost c d d' := by
  intro c d _
  cases c with
  | importPackage p sellerId newProductId v externalId price productId =>
    exact importPackage_owes p sellerId newProductId v externalId price productId
  | importListing l p v item price rulePrice => exact importListing_owes l p v item price rulePrice
  | attachExistingVariant l p v scope externalId => exact attachExistingVariant_owes l p v scope externalId
  | updateVariant v sellerId price isActive => exact updateVariant_owes v sellerId price isActive
  | updateListing l scope u => exact updateListing_owes l scope u
  | repriceListings p scope o => exact repriceListings_owes p scope o
  | syncProviderListings p answer => exact syncProviderListings_owes p answer

/-- A step in which nobody edits the price of the package or hands it back. -/
def LeavesPrice {ι : Type} [DecidableEq ι] (M : Machine ListingDb ListingKey Abort Unit ListingCall) (v : ℕ)
    (C C' : Config ListingDb ListingKey Abort Unit ListingCall ι) : Prop :=
  ∃ l, Step M C l C' ∧ ∀ r ∈ l, ¬r.1.Edits C.db v ∧ ¬r.1.Releases C.db v

/-- **The rule of a source does not overwrite a price that was typed.** Once an edit that changed the price has committed,
the price stays, as long as no commit edits it or hands it back. -/
theorem typed_price_kept (F : Floats) {ι : Type} [DecidableEq ι] {d : ListingDb} (hd : d.Marked)
    {C C₁ C₂ : Config ListingDb ListingKey Abort Unit ListingCall ι} (h : Reachable (listingMachine F) d C)
    {c : ListingCall} {v : ℕ} (hstep : Step (listingMachine F) C (some (c, ())) C₁) (hedit : c.Edits C.db v)
    (hrelease : ¬c.Releases C.db v) (hchanged : C₁.db.priceOf v ≠ C.db.priceOf v)
    (hrun : Relation.ReflTransGen (LeavesPrice (listingMachine F) v) C₁ C₂) :
    C₂.db.priceOf v = C₁.db.priceOf v := by
  have hpost := (listingMachine_correct F).commit hd h hstep
  obtain ⟨htyped, hsome⟩ := hpost.noted v hedit hrelease hchanged
  obtain ⟨price, hprice⟩ := Option.isSome_iff_exists.mp hsome
  have h₁ : Reachable (listingMachine F) d C₁ := .tail h ⟨_, hstep⟩
  rw [hprice]
  suffices hall : Reachable (listingMachine F) d C₂ ∧ C₂.db.typed v = true ∧ C₂.db.priceOf v = some price from hall.2.2
  induction hrun with
  | refl => exact ⟨h₁, htyped, hprice⟩
  | tail _ hlast ih =>
    obtain ⟨hreach, htyped', hprice'⟩ := ih
    obtain ⟨l, hl, hleaves⟩ := hlast
    refine ⟨.tail hreach ⟨l, hl⟩, ?_⟩
    match l, hl, hleaves with
    | none, hl, _ => rw [hl.db_eq]; exact ⟨htyped', hprice'⟩
    | some (c', ()), hl, hleaves =>
      have hpost' := (listingMachine_correct F).commit hd hreach hl
      obtain ⟨hedit', hrelease'⟩ := hleaves _ rfl
      exact ⟨(hpost'.typed v htyped').resolve_right hrelease',
        ((hpost'.kept v price htyped' hprice').resolve_right fun h => h.elim hedit' hrelease')⟩

/-! ### An edit through the package, and an edit during a sync -/

/-- A source that follows the cost, with an item for `40000` that is sold for `52000`. -/
def samplePriceShop (manual : Bool) : ListingDb where
  providers := ⟨[(1, ⟨none, true, 30, 1000, true, 10, false⟩)], by simp⟩
  products := ⟨[(3, ⟨10, some 1⟩)], by simp⟩
  variants := ⟨[(4, ⟨3, 52000, true⟩)], by simp⟩
  listings := ⟨[(6, ⟨1, 4, "a", 40000, 5, none, 0, none, manual⟩)], by simp⟩
  items := ⟨[((1, "a"), ⟨"a", 40000, 5⟩)], by simp⟩
  typed _ := false

/-- The sync of the source; the cost of the item has not changed. -/
def samplePriceSync : ListingCall := .syncProviderListings 1 (.ok [⟨"a", 40000, 5⟩])

/-- The seller asks for `60000`, through the listing. -/
def samplePriceEdit : ListingCall := .updateListing 6 (some 10) ⟨some 60000, none, none, none, none, none⟩

theorem samplePriceShop_marked (manual : Bool) : (samplePriceShop manual).Marked := by
  refine ⟨fun l l' v hl hl' => ?_, fun _ _ _ h => absurd h (by simp [samplePriceShop])⟩
  obtain ⟨row, hrow, -⟩ := hl
  obtain ⟨row', hrow', -⟩ := hl'
  have h := Table.get?_eq_some_iff.mp hrow
  have h' := Table.get?_eq_some_iff.mp hrow'
  simp only [samplePriceShop, List.mem_singleton, Prod.mk.injEq] at h h'
  rw [h.1, h'.1]

/-- The price of the sample before the edit, after it and at the end. -/
def SamplePrices (price price' price'' : ℤ) (c : ListingCall) (d d' d'' : ListingDb) : Prop :=
  (c.Edits d 4 ∧ ¬c.Releases d 4) ∧ d.priceOf 4 = some price ∧ d'.priceOf 4 = some price' ∧ d''.priceOf 4 = some price''

instance decidableSamplePrices (price price' price'' : ℤ) (c : ListingCall) (d d' d'' : ListingDb) :
    Decidable (SamplePrices price price' price'' c d d' d'') := by
  unfold SamplePrices
  infer_instance

/-- An edit through the listing, and a sync after it. -/
theorem typed_price_kept_sample :
    ∃ C C₁ C₂ : Config ListingDb ListingKey Abort Unit ListingCall (Fin 1),
      Reachable (listingMachine sampleFloats) (samplePriceShop false) C ∧
        Relation.ReflTransGen (LeavesPrice (listingMachine sampleFloats) 4) C₁ C₂ ∧ C.db.priceOf 4 = some 52000 ∧
          C₁.db.priceOf 4 = some 60000 ∧ C₂.db.priceOf 4 = C₁.db.priceOf 4 := by
  obtain ⟨C, C₁, C₂, c, ⟨⟩, hC, hstep, hrun, ⟨hedit, hrelease⟩, h₀, h₁, -⟩ :=
    Machine.runs_of_play (M := listingMachine sampleFloats) (ι := Fin 1) (d := samplePriceShop false)
      (P := fun c _ => SamplePrices 52000 60000 60000 c) (Q := fun c d => ¬c.Edits d 4 ∧ ¬c.Releases d 4)
      (fun c s d => decide (c.Undisturbed s d))
      (fun c s d => decide (c.Undisturbed s d ∧ ¬c.Edits d 4 ∧ ¬c.Releases d 4))
      (.begin 0 samplePriceEdit :: List.replicate 9 (.step 0)) (.step 0)
      (.begin 0 samplePriceSync :: List.replicate 9 (.step 0))
      (fun c s d h => (of_decide_eq_true h : c.Undisturbed s d))
      (fun c s d h => (of_decide_eq_true h : c.Undisturbed s d ∧ ¬c.Edits d 4 ∧ ¬c.Releases d 4)) (by decide)
  exact ⟨C, C₁, C₂, hC, hrun, h₀, h₁, typed_price_kept sampleFloats (samplePriceShop_marked false) hC hstep hedit hrelease
    (by rw [h₀, h₁]; decide) hrun⟩

/-- **The rule overwrites a price that was typed**: one that was sent through the package, with nothing else going on, and
one that was sent through the listing while a sync was waiting for the supplier. -/
theorem typed_price_overwritten :
    (∃ (C C₁ C₂ : Config ListingDb ListingKey Abort Unit ListingCall (Fin 1)) (c : ListingCall),
      Reachable (Machine.ofCode (ListingCall.code sampleFloats)) (samplePriceShop false) C ∧
        Step (Machine.ofCode (ListingCall.code sampleFloats)) C (some (c, ())) C₁ ∧
          Relation.ReflTransGen (LeavesPrice (Machine.ofCode (ListingCall.code sampleFloats)) 4) C₁ C₂ ∧
            SamplePrices 52000 60000 52000 c C.db C₁.db C₂.db) ∧
      ∃ (C C₁ C₂ : Config ListingDb ListingKey Abort Unit ListingCall (Fin 2)) (c : ListingCall),
        Reachable (Machine.ofCode (ListingCall.code sampleFloats)) (samplePriceShop false) C ∧
          Step (Machine.ofCode (ListingCall.code sampleFloats)) C (some (c, ())) C₁ ∧
            Relation.ReflTransGen (LeavesPrice (Machine.ofCode (ListingCall.code sampleFloats)) 4) C₁ C₂ ∧
              SamplePrices 52000 60000 52000 c C.db C₁.db C₂.db := by
  constructor
  · obtain ⟨C, C₁, C₂, c, ⟨⟩, hC, hstep, hrun, hP⟩ :=
      Machine.runs_of_play (M := Machine.ofCode (ListingCall.code sampleFloats)) (ι := Fin 1) (d := samplePriceShop false)
        (P := fun c _ => SamplePrices 52000 60000 52000 c) (Q := fun c d => ¬c.Edits d 4 ∧ ¬c.Releases d 4)
        (fun _ _ _ => true) (fun c _ d => decide (¬c.Edits d 4 ∧ ¬c.Releases d 4))
        (.begin 0 (.updateVariant 4 10 (some 60000) none) :: List.replicate 5 (.step 0)) (.step 0)
        (.begin 0 samplePriceSync :: List.replicate 9 (.step 0))
        (fun _ _ _ _ => trivial) (fun c s d h => ⟨trivial, of_decide_eq_true h⟩) (by decide +kernel)
    exact ⟨C, C₁, C₂, c, hC, hstep, hrun, hP⟩
  · obtain ⟨C, C₁, C₂, c, ⟨⟩, hC, hstep, hrun, hP⟩ :=
      Machine.runs_of_play (M := Machine.ofCode (ListingCall.code sampleFloats)) (ι := Fin 2) (d := samplePriceShop false)
        (P := fun c _ => SamplePrices 52000 60000 52000 c) (Q := fun c d => ¬c.Edits d 4 ∧ ¬c.Releases d 4)
        (fun _ _ _ => true) (fun c _ d => decide (¬c.Edits d 4 ∧ ¬c.Releases d 4))
        (.begin 0 samplePriceSync :: List.replicate 2 (.step 0) ++
          .begin 1 samplePriceEdit :: List.replicate 9 (.step 1)) (.step 1) (List.replicate 7 (.step 0))
        (fun _ _ _ _ => trivial) (fun c s d h => ⟨trivial, of_decide_eq_true h⟩) (by decide +kernel)
    exact ⟨C, C₁, C₂, c, hC, hstep, hrun, hP⟩

end Marketplace
