import Marketplace.Lists.FirstSeen
import Marketplace.Resources.Normal
import Mathlib.Data.Finset.Card
import Mathlib.Data.List.MinMax

/-!
# What the restock preview says, and what the upload does

Before the seller uploads a file, `preview_restock` says how many of its lines are repeated in the file,
how many are in the stock already and how many will be added. It compares the lines as they were pasted and
looks into the one package; `bulk_add_resources` compares the digests of their normal forms and looks into
the whole shop, and only there. `preview_tells_iff` says when the two agree, and when each pasted line is
then held by the shop exactly once.
-/

namespace Marketplace

open Sql

/-! ### The source -/

/-- The pasted lines that are not blank, stripped. -/
def cleanedItems (items : List String) : List String := (items.map strip).filter fun item => item ≠ ""

/-- `_field_count`. -/
def fieldCountOf (item : String) : ℕ := item.toList.count '|' + 1

/-- `Counter(…).most_common(1)`: of the values that occur most often, the one that comes first. -/
def mostCommon (values : List ℕ) : Option ℕ := values.argmax values.count

namespace StockDb

variable (s : StockDb) (variantId sellerId : ℕ)

/-- The package holds a line with this digest, whoever it belongs to. -/
def InPackage (hash : String) : Prop :=
  ∃ r ∈ s.db.resources.rows, r.2.variantId = variantId ∧ s.dataHash r.1 = hash

instance (hash : String) : Decidable (s.InPackage variantId hash) := by
  unfold InPackage
  infer_instance

/-- The field counts `expected_field_count` reads, of the last lines of the package. -/
def recentFieldCounts (fieldCount : ℕ → Option ℕ) (sample : ℕ) : List ℕ :=
  ((((s.db.resources.rows.filter fun r => r.2.variantId = variantId).map Prod.fst).mergeSort
    fun a b => decide (b ≤ a)).filterMap fieldCount).take sample

/-- The lines of the file the preview finds in the package: of those with one digest, the last. -/
def existing (unique : List String) : List String :=
  (unique.pwFilter fun a b => resourceDataHash a ≠ resourceDataHash b).filter fun item =>
    s.InPackage variantId (resourceDataHash item)

/-- `by_hash` of an upload: the first line of each digest. -/
def byHash (items : List String) : List String :=
  (items.reverse.pwFilter fun a b => resourceDataHash a ≠ resourceDataHash b).reverse

/-- The digests of an upload the shop holds in packages of which `p` is true. -/
def takenHashes (p : ℕ → Prop) [DecidablePred p] (items : List String) : Finset String :=
  ((s.db.resources.rows.filter fun r => r.2.sellerId = sellerId ∧ p r.2.variantId ∧
    s.dataHash r.1 ∈ (byHash items).map resourceDataHash).map fun r => s.dataHash r.1).toFinset

end StockDb

/-- What `preview_restock` answers. -/
structure RestockPreview where
  totalLines : ℕ
  duplicateInFile : ℕ
  existingInStock : ℕ
  toAdd : ℕ
  expectedFieldCount : Option ℕ
  /-- The first lines with another number of fields: their number in the file and that of their fields. -/
  malformed : List (ℕ × ℕ)
  malformedTotal : ℕ
  deriving DecidableEq, Repr

/-- The lines that do not have the number of fields expected. -/
def malformedLines (expected : Option ℕ) (cleaned : List String) : List (ℕ × ℕ) :=
  match expected with
  | some n => if 1 < n then
      ((cleaned.map fieldCountOf).zipIdx 1).filterMap fun r =>
        if r.1 ≠ n then some (r.2, r.1) else none
    else []
  | none => []

/-- The numbers `preview_restock` answers with; `fieldCount` is the column `field_count`. -/
def StockDb.restockPreview (s : StockDb) (fieldCount : ℕ → Option ℕ) (variantId : ℕ) (cleaned : List String) :
    RestockPreview :=
  let unique := cleaned.eraseDups
  let existing := s.existing variantId unique
  let expected := (mostCommon (s.recentFieldCounts variantId fieldCount 500)).or
    (mostCommon (unique.map fieldCountOf))
  let toAdd := unique.filter fun item => item ∉ existing
  { totalLines := cleaned.length
    duplicateInFile := cleaned.length - unique.length
    existingInStock := unique.length - toAdd.length
    toAdd := toAdd.length
    expectedFieldCount := expected
    malformed := (malformedLines expected cleaned).take 50
    malformedTotal := (malformedLines expected cleaned).length }

/-- `preview_restock`. -/
def previewRestock (fieldCount : ℕ → Option ℕ) (variantId sellerId : ℕ) (items : List String) :
    StockTx RestockPreview := do
  let variant ← Tx.read fun s => s.db.variants.get? variantId
  let variant ← Tx.getOrElse variant (.api 404 "VARIANT_NOT_FOUND")
  let product ← Tx.read fun s => s.db.products.get? variant.productId
  Tx.require (product.map Product.sellerId = some sellerId) (.api 403 "NOT_OWNER")
  Tx.read fun s => s.restockPreview fieldCount variantId (cleanedItems items)

/-- What `bulk_add_resources` answers. -/
structure BulkAdded where
  count : ℕ
  skippedDuplicate : ℕ
  skippedExisting : ℕ
  skippedMarket : ℕ
  deriving DecidableEq, Repr

/-- The numbers `bulk_add_resources` answers with. -/
def StockDb.bulkAdded (s : StockDb) (variantId sellerId : ℕ) (cleaned : List String) : BulkAdded where
  count := (s.newItems sellerId cleaned).length
  skippedDuplicate := cleaned.length - (StockDb.byHash cleaned).length
  skippedExisting := (s.takenHashes sellerId (· = variantId) cleaned).card
  skippedMarket := (s.takenHashes sellerId (· ≠ variantId) cleaned).card

/-- `bulk_add_resources` with its answer, for lines without a batch; `numbers` are the numbers of the new
lines. Commits. -/
def bulkAdd (cfg : Settings) (variantId sellerId : ℕ) (items : List String) (numbers : List ℕ) :
    StockTx BulkAdded := do
  let variant ← Tx.lock (.variant variantId) fun s => s.db.variants.get? variantId
  let variant ← Tx.getOrElse variant (.api 404 "VARIANT_NOT_FOUND")
  let product ← Tx.read fun s => s.db.products.get? variant.productId
  Tx.require (product.map Product.sellerId = some sellerId) (.api 403 "NOT_OWNER")
  Tx.require (variant.deliveryMode = .instant) (.api 400 "INVENTORY_NOT_INSTANT")
  let cleaned := cleanedItems items
  Tx.require (∀ item ∈ cleaned, item.length ≤ resourceDataMaxLength) (.api 422 "RESOURCE_TOO_LONG")
  let found ← Tx.read fun s => (s.newItems sellerId cleaned, s.bulkAdded variantId sellerId cleaned)
  Tx.forEach (numbers.zip found.1) fun r => addResource cfg variantId sellerId r.1 r.2
  pure found.2

/-! ### Counting digests -/

/-- Where no two elements have one key, as many are kept by their keys as keys are kept. -/
theorem length_filter_of_nodup_map {α β : Type} [DecidableEq β] {f : α → β} {l : List α}
    (hl : (l.map f).Nodup) (p : β → Prop) [DecidablePred p] :
    (l.filter fun a => p (f a)).length = ((l.map f).toFinset.filter p).card := by
  have hmap : (l.filter fun a => decide (p (f a))).map f = (l.map f).filter fun b => decide (p b) := by
    rw [List.filter_map]
    rfl
  calc (l.filter fun a => decide (p (f a))).length
      = ((l.map f).filter fun b => decide (p b)).length := by rw [← hmap, List.length_map]
    _ = ((l.map f).filter fun b => decide (p b)).toFinset.card :=
        (List.toFinset_card_of_nodup (hl.filter _)).symm
    _ = ((l.map f).toFinset.filter p).card := by rw [List.toFinset_filter]; simp

/-- The digests of the lines. -/
def pastedHashes (cleaned : List String) : Finset String := cleaned.toFinset.image resourceDataHash

theorem toFinset_map_hash (l : List String) : (l.map resourceDataHash).toFinset = pastedHashes l := by
  ext h
  simp [pastedHashes]

namespace StockDb

theorem map_byHash (items : List String) :
    (byHash items).map resourceDataHash = (items.map resourceDataHash).reverse.dedup.reverse := by
  rw [byHash, List.map_reverse, ← List.map_reverse (l := items), List.dedup, List.pwFilter_map]

theorem nodup_map_byHash (items : List String) : ((byHash items).map resourceDataHash).Nodup := by
  rw [map_byHash]
  exact List.nodup_reverse.mpr (List.nodup_dedup _)

theorem toFinset_map_byHash (items : List String) :
    ((byHash items).map resourceDataHash).toFinset = pastedHashes items := by
  rw [← toFinset_map_hash]
  ext h
  simp [map_byHash]

theorem length_byHash (items : List String) : (byHash items).length = (pastedHashes items).card := by
  rw [← toFinset_map_byHash, List.toFinset_card_of_nodup (nodup_map_byHash items), List.length_map]

variable (s : StockDb) (variantId sellerId : ℕ)

theorem newItems_eq (cleaned : List String) : s.newItems sellerId cleaned =
    (byHash cleaned).filter fun item => ¬s.Holds sellerId (resourceDataHash item) none := rfl

theorem length_newItems (cleaned : List String) : (s.newItems sellerId cleaned).length =
    ((pastedHashes cleaned).filter fun hash => ¬s.Holds sellerId hash none).card := by
  rw [newItems_eq, ← toFinset_map_byHash]
  exact length_filter_of_nodup_map (nodup_map_byHash cleaned) fun hash => ¬s.Holds sellerId hash none

theorem length_existing (unique : List String) : (s.existing variantId unique).length =
    ((pastedHashes unique).filter fun hash => s.InPackage variantId hash).card := by
  have hmap : (unique.pwFilter fun a b => resourceDataHash a ≠ resourceDataHash b).map resourceDataHash =
      (unique.map resourceDataHash).dedup := by
    rw [List.dedup, List.pwFilter_map]
  have hset : ((unique.pwFilter fun a b => resourceDataHash a ≠ resourceDataHash b).map
      resourceDataHash).toFinset = pastedHashes unique := by
    rw [hmap, ← toFinset_map_hash]
    ext h
    simp
  have hnodup : ((unique.pwFilter fun a b => resourceDataHash a ≠ resourceDataHash b).map
      resourceDataHash).Nodup := by
    rw [hmap]
    exact List.nodup_dedup _
  rw [existing, ← hset]
  exact length_filter_of_nodup_map hnodup fun hash => s.InPackage variantId hash

theorem existing_subset {unique : List String} : s.existing variantId unique ⊆ unique :=
  fun _ h => (List.pwFilter_sublist _).subset (List.mem_of_mem_filter h)

theorem mem_takenHashes {p : ℕ → Prop} [DecidablePred p] {items : List String} {hash : String} :
    hash ∈ s.takenHashes sellerId p items ↔ hash ∈ pastedHashes items ∧
      ∃ r ∈ s.db.resources.rows, r.2.sellerId = sellerId ∧ p r.2.variantId ∧ s.dataHash r.1 = hash := by
  rw [takenHashes, ← toFinset_map_byHash]
  simp only [List.mem_toFinset, List.mem_map, List.mem_filter, decide_eq_true_eq]
  constructor
  · rintro ⟨r, ⟨hr, hseller, hp, item, hitem, he⟩, rfl⟩
    exact ⟨⟨item, hitem, he⟩, r, hr, hseller, hp, rfl⟩
  · rintro ⟨⟨item, hitem, rfl⟩, r, hr, hseller, hp, he⟩
    exact ⟨r, ⟨hr, hseller, hp, item, hitem, he.symm⟩, he⟩

/-- The unique index on the shop and the digest. -/
def Indexed : Prop :=
  ∀ r ∈ s.db.resources.rows, ∀ r' ∈ s.db.resources.rows,
    r.2.sellerId = r'.2.sellerId → s.dataHash r.1 = s.dataHash r'.1 → r = r'

variable {s} in
/-- The lines an upload leaves out are those whose digests the shop holds. -/
theorem card_takenHashes (hindex : s.Indexed) (items : List String) :
    (s.takenHashes sellerId (· = variantId) items).card + (s.takenHashes sellerId (· ≠ variantId) items).card =
      ((pastedHashes items).filter fun hash => s.Holds sellerId hash none).card := by
  rw [← Finset.card_union_of_disjoint]
  · congr 1
    ext hash
    rw [Finset.mem_union, mem_takenHashes, mem_takenHashes, ← and_or_left, Finset.mem_filter, Holds]
    refine and_congr_right fun _ => ?_
    constructor
    · rintro (⟨r, hr, hseller, -, he⟩ | ⟨r, hr, hseller, -, he⟩) <;>
        exact ⟨r, hr, hseller, he, by simp⟩
    · rintro ⟨r, hr, hseller, he, -⟩
      by_cases hv : r.2.variantId = variantId
      · exact .inl ⟨r, hr, hseller, hv, he⟩
      · exact .inr ⟨r, hr, hseller, hv, he⟩
  · -- One row of the shop has the digest, and it is in one package.
    rw [Finset.disjoint_left]
    intro hash hin hout
    obtain ⟨-, r, hr, hseller, hv, he⟩ := (mem_takenHashes s sellerId).mp hin
    obtain ⟨-, r', hr', hseller', hv', he'⟩ := (mem_takenHashes s sellerId).mp hout
    have : r = r' := hindex r hr r' hr' (hseller.trans hseller'.symm) (he.trans he'.symm)
    exact hv' (this ▸ hv)

end StockDb

/-! ### The preview -/

/-- Lines that are in a list without repetitions are left out of it. -/
theorem length_filter_not_mem {l m : List String} (hl : l.Nodup) (hm : m.Nodup) (hsub : m ⊆ l) :
    l.length - (l.filter fun item => item ∉ m).length = m.length := by
  have hkept : (l.filter fun item => item ∈ m).length = m.length := by
    refine (List.Perm.length_eq ?_)
    rw [List.perm_ext_iff_of_nodup (hl.filter _) hm]
    intro item
    simp only [List.mem_filter, decide_eq_true_eq, and_iff_right_iff_imp]
    exact fun h => hsub h
  have hsplit := List.length_eq_length_filter_add (l := l) fun item => decide (item ∈ m)
  simp only [decide_not] at hsplit ⊢
  omega

/-- **What the preview says.** -/
theorem restockPreview_says (s : StockDb) (fieldCount : ℕ → Option ℕ) (variantId : ℕ) (cleaned : List String) :
    (s.restockPreview fieldCount variantId cleaned).duplicateInFile =
        cleaned.length - cleaned.toFinset.card ∧
      (s.restockPreview fieldCount variantId cleaned).existingInStock =
        ((pastedHashes cleaned).filter fun hash => s.InPackage variantId hash).card ∧
      (s.restockPreview fieldCount variantId cleaned).toAdd +
        ((pastedHashes cleaned).filter fun hash => s.InPackage variantId hash).card =
          cleaned.toFinset.card := by
  have hunique : cleaned.eraseDups.length = cleaned.toFinset.card := by
    rw [← List.toFinset_card_of_nodup (Lists.nodup_eraseDups _)]
    congr 1
    ext item
    simp
  have hhashes : pastedHashes cleaned.eraseDups = pastedHashes cleaned := by
    ext hash
    simp [pastedHashes]
  have hexisting := s.length_existing variantId cleaned.eraseDups
  have hsubset : s.existing variantId cleaned.eraseDups ⊆ cleaned.eraseDups := s.existing_subset variantId
  have hfound := length_filter_not_mem (Lists.nodup_eraseDups cleaned)
    (((Lists.nodup_eraseDups cleaned).sublist (List.pwFilter_sublist _)).filter _)
    hsubset
  have hle := List.length_filter_le (fun item => decide (item ∉ s.existing variantId cleaned.eraseDups))
    cleaned.eraseDups
  rw [hhashes] at hexisting
  refine ⟨?_, ?_, ?_⟩
  · show _ - _ = _ - _
    rw [hunique]
  · exact hfound.trans hexisting
  · show (cleaned.eraseDups.filter fun item => decide (item ∉ s.existing variantId cleaned.eraseDups)).length + _ = _
    rw [← hexisting, ← hunique]
    have := hfound
    rw [StockDb.existing] at hle ⊢
    omega

theorem previewRestock_eq {s s' : StockDb} {fieldCount : ℕ → Option ℕ} {variantId sellerId : ℕ}
    {items : List String} {preview : RestockPreview}
    (h : (previewRestock fieldCount variantId sellerId items).run s = .ok (preview, s')) :
    preview = s.restockPreview fieldCount variantId (cleanedItems items) ∧ s' = s := by
  simp only [previewRestock, Tx.run_bind_eq_ok, Tx.run_read, Tx.run_getOrElse_eq_ok, Tx.run_require_eq_ok,
    Except.ok.injEq, Prod.mk.injEq] at h
  obtain ⟨_, _, ⟨rfl, rfl⟩, _, _, ⟨-, rfl⟩, _, _, ⟨rfl, rfl⟩, _, _, ⟨-, rfl⟩, rfl, rfl⟩ := h
  exact ⟨rfl, rfl⟩

/-! ### The upload -/

/-- A line of the shop has this text, as far as the normal form goes. -/
def StockDb.HoldsText (s : StockDb) (sellerId : ℕ) (text : String) (n : ℕ) : Prop :=
  ∃ r, s.db.resources.get? n = some r ∧ r.sellerId = sellerId ∧
    normalizeResourceData (s.data n) = normalizeResourceData text

/-- Every line is as it was. -/
def StockDb.Kept (s s' : StockDb) : Prop :=
  ∀ n r, s.db.resources.get? n = some r →
    s'.db.resources.get? n = some r ∧ s'.data n = s.data n ∧ s'.dataHash n = s.dataHash n

theorem StockDb.Kept.trans {s s' s'' : StockDb} (h : s.Kept s') (h' : s'.Kept s'') : s.Kept s'' := by
  intro n r hr
  obtain ⟨hr', hd, hh⟩ := h n r hr
  obtain ⟨hr'', hd', hh'⟩ := h' n r hr'
  exact ⟨hr'', hd'.trans hd, hh'.trans hh⟩

section Upload

variable {cfg : Settings} {variantId sellerId : ℕ} {s s' : StockDb}

/-- One new line: its number was free, every line is as it was, and the shop holds its text. -/
theorem addResource_spec {n : ℕ} {item : String}
    (h : (addResource cfg variantId sellerId n item).run s = .ok ((), s')) :
    s.db.resources.get? n = none ∧ s.Kept s' ∧ ∀ text m, s'.HoldsText sellerId text m ↔
      s.HoldsText sellerId text m ∨ m = n ∧ normalizeResourceData item = normalizeResourceData text := by
  simp only [addResource, Tx.run_bind_eq_ok, Tx.run_lock, Tx.run_require_eq_ok, Tx.run_modify,
    Except.ok.injEq, Prod.mk.injEq] at h
  obtain ⟨_, _, ⟨rfl, rfl⟩, _, _, ⟨htaken, rfl⟩, -, rfl⟩ := h
  simp only [decide_eq_false_iff_not, not_or, not_not] at htaken
  obtain ⟨hfree, -⟩ := htaken
  refine ⟨hfree, ?_, ?_⟩
  · intro m r hr
    have hne : m ≠ n := fun he => by simp [he, hfree] at hr
    refine ⟨?_, Function.update_of_ne hne _ _, Function.update_of_ne hne _ _⟩
    rw [StockDb.addResource, Db.insertResource_resources, Table.get?_insert_of_ne hne, hr]
  · intro text m
    rw [StockDb.HoldsText, StockDb.HoldsText, StockDb.addResource, Db.insertResource_resources]
    by_cases hm : m = n
    · subst hm
      simp [hfree]
    · simp [hm, Table.get?_insert_of_ne hm]

/-- **New lines**, one after the other. -/
theorem forEach_addResource_spec {lines : List (ℕ × String)}
    (h : (Tx.forEach lines fun r => addResource cfg variantId sellerId r.1 r.2).run s = .ok ((), s')) :
    (lines.map Prod.fst).Nodup ∧ (∀ n ∈ lines.map Prod.fst, s.db.resources.get? n = none) ∧ s.Kept s' ∧
      ∀ text m, s'.HoldsText sellerId text m ↔ s.HoldsText sellerId text m ∨
        ∃ item, (m, item) ∈ lines ∧ normalizeResourceData item = normalizeResourceData text := by
  induction lines generalizing s with
  | nil =>
    obtain rfl : s = s' := by simpa [Tx.forEach] using h
    exact ⟨List.nodup_nil, by simp, fun n r hr => ⟨hr, rfl, rfl⟩, by simp⟩
  | cons line lines ih =>
    obtain ⟨n, item⟩ := line
    obtain ⟨t, hone, hrest⟩ := (Tx.run_forEach_cons_eq_ok _ _ _ _).mp h
    obtain ⟨hfree, hkept, hholds⟩ := addResource_spec hone
    obtain ⟨hnodup, hfrees, hkept', hholds'⟩ := ih hrest
    have hthere : ∃ r, t.db.resources.get? n = some r := by
      obtain ⟨r, hr, -⟩ := (hholds item n).mpr (.inr ⟨rfl, rfl⟩)
      exact ⟨r, hr⟩
    refine ⟨?_, ?_, hkept.trans hkept', ?_⟩
    · rw [List.map_cons, List.nodup_cons]
      refine ⟨fun hmem => ?_, hnodup⟩
      obtain ⟨r, hr⟩ := hthere
      have := hfrees n hmem
      simp [this] at hr
    · intro m hm
      rcases List.mem_cons.mp hm with rfl | hm
      · exact hfree
      · by_contra hsome
        obtain ⟨r, hr⟩ := Option.ne_none_iff_exists'.mp hsome
        have := hfrees m hm
        simp [(hkept m r hr).1] at this
    · intro text m
      rw [hholds', hholds]
      constructor
      · rintro ((hold | ⟨rfl, he⟩) | ⟨item', hmem, he⟩)
        · exact .inl hold
        · exact .inr ⟨item, by simp, he⟩
        · exact .inr ⟨item', List.mem_cons_of_mem _ hmem, he⟩
      · rintro (hold | ⟨item', hmem, he⟩)
        · exact .inl (.inl hold)
        · rcases List.mem_cons.mp hmem with heq | hmem
          · obtain ⟨rfl, rfl⟩ := Prod.mk.inj heq
            exact .inl (.inr ⟨rfl, he⟩)
          · exact .inr ⟨item', hmem, he⟩

/-- **What an upload does**, taken apart. -/
theorem bulkAdd_eq {items : List String} {numbers : List ℕ} {added : BulkAdded}
    (h : (bulkAdd cfg variantId sellerId items numbers).run s = .ok (added, s')) :
    added = s.bulkAdded variantId sellerId (cleanedItems items) ∧
      (Tx.forEach (numbers.zip (s.newItems sellerId (cleanedItems items)))
        fun r => addResource cfg variantId sellerId r.1 r.2).run s = .ok ((), s') := by
  simp only [bulkAdd, Tx.run_bind_eq_ok, Tx.run_read, Tx.run_lock, Tx.run_getOrElse_eq_ok,
    Tx.run_require_eq_ok, Tx.run_pure, Except.ok.injEq, Prod.mk.injEq] at h
  obtain ⟨_, _, ⟨rfl, rfl⟩, _, _, ⟨-, rfl⟩, _, _, ⟨rfl, rfl⟩, _, _, ⟨-, rfl⟩, _, _, ⟨-, rfl⟩, _, _, ⟨-, rfl⟩,
    _, _, ⟨rfl, rfl⟩, _, _, hrun, rfl, rfl⟩ := h
  exact ⟨rfl, hrun⟩

/-- An upload that answers leaves the stock as `bulkAddResources` does. -/
theorem bulkAddResources_of_bulkAdd {items : List String} {numbers : List ℕ} {added : BulkAdded}
    (h : (bulkAdd cfg variantId sellerId items numbers).run s = .ok (added, s')) :
    (bulkAddResources cfg variantId sellerId items numbers).run s = .ok ((), s') := by
  simp only [bulkAdd, bulkAddResources, Tx.run_bind_eq_ok, Tx.run_read, Tx.run_lock,
    Tx.run_getOrElse_eq_ok, Tx.run_require_eq_ok, Tx.run_pure, Except.ok.injEq, Prod.mk.injEq] at h ⊢
  obtain ⟨_, _, ⟨rfl, rfl⟩, _, _, ⟨hv, rfl⟩, _, _, ⟨rfl, rfl⟩, _, _, ⟨ho, rfl⟩, _, _, ⟨hi, rfl⟩, _, _, ⟨hl, rfl⟩,
    _, _, ⟨rfl, rfl⟩, _, _, hrun, -, rfl⟩ := h
  exact ⟨_, _, ⟨rfl, rfl⟩, _, _, ⟨hv, rfl⟩, _, _, ⟨rfl, rfl⟩, (), _, ⟨ho, rfl⟩, (), _, ⟨hi, rfl⟩, (), _, ⟨hl, rfl⟩,
    _, _, ⟨rfl, rfl⟩, hrun⟩

/-- **What the shop holds after an upload**: a text it held by a digest as often as before, and a pasted
text it did not once more. -/
theorem existsUnique_holdsText_iff {items : List String} {numbers : List ℕ} {added : BulkAdded}
    (h : (bulkAdd cfg variantId sellerId items numbers).run s = .ok (added, s'))
    (hnumbers : added.count ≤ numbers.length) {item : String} (hitem : item ∈ cleanedItems items) :
    (∃! n, s'.HoldsText sellerId item n) ↔
      if s.Holds sellerId (resourceDataHash item) none then ∃! n, s.HoldsText sellerId item n
      else ∀ n, ¬s.HoldsText sellerId item n := by
  obtain ⟨rfl, hrun⟩ := bulkAdd_eq h
  obtain ⟨hnodup, hfree, -, hholds⟩ := forEach_addResource_spec hrun
  split_ifs with hheld
  · -- No new line has the digest, so none has the text.
    have hsame : ∀ n, s'.HoldsText sellerId item n ↔ s.HoldsText sellerId item n := by
      intro n
      rw [hholds, or_iff_left_iff_imp]
      rintro ⟨item', hmem, he⟩
      have hnew := (List.of_mem_zip hmem).2
      rw [StockDb.newItems_eq, List.mem_filter, decide_eq_true_eq] at hnew
      exact absurd (show resourceDataHash item' = resourceDataHash item from he) fun hh =>
        hnew.2 (hh ▸ hheld)
    simp only [ExistsUnique, hsame]
  · -- One new line has the text, and one number is its own.
    obtain ⟨first, hfirst, hhash⟩ : ∃ first ∈ StockDb.byHash (cleanedItems items),
        resourceDataHash first = resourceDataHash item := by
      have : resourceDataHash item ∈ pastedHashes (cleanedItems items) :=
        Finset.mem_image_of_mem _ (List.mem_toFinset.mpr hitem)
      rw [← StockDb.toFinset_map_byHash, List.mem_toFinset, List.mem_map] at this
      exact this
    have hnew : first ∈ s.newItems sellerId (cleanedItems items) := by
      rw [StockDb.newItems_eq, List.mem_filter, decide_eq_true_eq]
      exact ⟨hfirst, hhash ▸ hheld⟩
    obtain ⟨i, hi, rfl⟩ := List.getElem_of_mem hnew
    have hi' : i < numbers.length := hi.trans_le hnumbers
    have hline : (numbers[i], (s.newItems sellerId (cleanedItems items))[i]) ∈
        numbers.zip (s.newItems sellerId (cleanedItems items)) := by
      rw [List.mem_iff_getElem]
      exact ⟨i, by simp [hi, hi'], by simp⟩
    have hown : s'.HoldsText sellerId item numbers[i] := (hholds item _).mpr (.inr ⟨_, hline, hhash⟩)
    constructor
    · intro hone n hn
      have hn' : s'.HoldsText sellerId item n := (hholds item n).mpr (.inl hn)
      obtain ⟨r, hr, -⟩ := hn
      have := hfree _ (List.mem_map_of_mem hline)
      rw [hone.unique hown hn'] at this
      simp [hr] at this
    · intro hnone
      refine ⟨numbers[i], hown, fun n hn => ?_⟩
      rcases (hholds item n).mp hn with hold | ⟨item', hmem, he⟩
      · exact absurd hold (hnone n)
      · -- Both new lines have the digest, so they are one.
        have hsame : item' = (s.newItems sellerId (cleanedItems items))[i] := by
          have hin := (List.of_mem_zip hmem).2
          rw [StockDb.newItems_eq] at hin
          exact List.inj_on_of_nodup_map (StockDb.nodup_map_byHash _) (List.mem_of_mem_filter hin) hfirst
            (show normalizeResourceData item' = resourceDataHash _ from he.trans hhash.symm)
        obtain ⟨j, hj, hjmem⟩ := List.getElem_of_mem hmem
        have hnodupItems : (s.newItems sellerId (cleanedItems items)).Nodup := by
          rw [StockDb.newItems_eq]
          exact (List.Nodup.of_map _ (StockDb.nodup_map_byHash _)).filter _
        rw [List.getElem_zip, Prod.mk.injEq] at hjmem
        have hij : j = i := (hnodupItems.getElem_inj_iff).mp (hjmem.2.trans hsame)
        subst hij
        exact hjmem.1.symm

end Upload

/-! ### When the preview tells the truth -/

namespace StockDb

variable (s : StockDb) (variantId sellerId : ℕ) (cleaned : List String)

/-- Digests only other packages of the shop hold. -/
def onlyElsewhere : Finset String :=
  (pastedHashes cleaned).filter fun hash => s.Holds sellerId hash none ∧ ¬s.InPackage variantId hash

/-- Digests only other sellers' lines in the package have. -/
def onlyOthers : Finset String :=
  (pastedHashes cleaned).filter fun hash => s.InPackage variantId hash ∧ ¬s.Holds sellerId hash none

/-- What the preview needs of the pasted lines and of the stock. -/
structure PreviewTells : Prop where
  /-- No two lines that differ have one normal form. -/
  forms : ∀ a ∈ cleaned, ∀ b ∈ cleaned, resourceDataHash a = resourceDataHash b → a = b
  /-- The preview finds as many lines too much as it misses. -/
  places : (s.onlyElsewhere variantId sellerId cleaned).card = (s.onlyOthers variantId sellerId cleaned).card
  /-- A text the shop has it has once, and under its digest. -/
  texts : ∀ item ∈ cleaned, if s.Holds sellerId (resourceDataHash item) none
    then ∃! n, s.HoldsText sellerId item n else ∀ n, ¬s.HoldsText sellerId item n

theorem card_pastedHashes_le : (pastedHashes cleaned).card ≤ cleaned.toFinset.card := Finset.card_image_le

theorem card_pastedHashes_eq_iff : (pastedHashes cleaned).card = cleaned.toFinset.card ↔
    ∀ a ∈ cleaned, ∀ b ∈ cleaned, resourceDataHash a = resourceDataHash b → a = b := by
  rw [pastedHashes, Finset.card_image_iff]
  constructor
  · intro h a ha b hb he
    exact h (by simpa using ha) (by simpa using hb) he
  · intro h a ha b hb he
    exact h a (by simpa using ha) b (by simpa using hb) he

/-- As many digests are in the package as in the shop when as many are only in the one as only in the other. -/
theorem card_inPackage_eq_iff :
    ((pastedHashes cleaned).filter fun hash => s.InPackage variantId hash).card =
        ((pastedHashes cleaned).filter fun hash => s.Holds sellerId hash none).card ↔
      (s.onlyElsewhere variantId sellerId cleaned).card = (s.onlyOthers variantId sellerId cleaned).card := by
  have hpackage := Finset.card_filter_add_card_filter_not
    (s := (pastedHashes cleaned).filter fun hash => s.InPackage variantId hash) fun hash => s.Holds sellerId hash none
  have hshop := Finset.card_filter_add_card_filter_not
    (s := (pastedHashes cleaned).filter fun hash => s.Holds sellerId hash none) fun hash => s.InPackage variantId hash
  rw [Finset.filter_filter, Finset.filter_filter] at hpackage hshop
  have hboth : ((pastedHashes cleaned).filter fun hash => s.Holds sellerId hash none ∧ s.InPackage variantId hash) =
      (pastedHashes cleaned).filter fun hash => s.InPackage variantId hash ∧ s.Holds sellerId hash none := by
    ext hash
    simp only [Finset.mem_filter]
    tauto
  rw [hboth] at hshop
  rw [onlyElsewhere, onlyOthers]
  omega

end StockDb

/-- **The preview tells the truth** exactly where no two pasted lines that differ have one normal form, where
it finds as many lines too much as it misses (it looks into the package, the upload into the shop), and
where the shop holds each pasted text once and under its own digest, or not at all. -/
theorem preview_tells_iff {cfg : Settings} {fieldCount : ℕ → Option ℕ} {variantId sellerId : ℕ}
    {items : List String} {numbers : List ℕ} {preview : RestockPreview} {added : BulkAdded} {s s' t : StockDb}
    (hpreview : (previewRestock fieldCount variantId sellerId items).run s = .ok (preview, t))
    (hadd : (bulkAdd cfg variantId sellerId items numbers).run s = .ok (added, s'))
    (hindex : s.Indexed) (hnumbers : added.count ≤ numbers.length) :
    ((preview.toAdd = added.count ∧ preview.duplicateInFile = added.skippedDuplicate ∧
        preview.existingInStock = added.skippedExisting + added.skippedMarket) ∧
      (∀ item ∈ items, strip item ≠ "" → ∃! n, s'.HoldsText sellerId (strip item) n) ∧ s.Kept s') ↔
      s.PreviewTells variantId sellerId (cleanedItems items) := by
  have htexts := fun item (hitem : item ∈ cleanedItems items) => existsUnique_holdsText_iff hadd hnumbers hitem
  obtain ⟨rfl, -⟩ := previewRestock_eq hpreview
  obtain ⟨rfl, hrun⟩ := bulkAdd_eq hadd
  obtain ⟨-, -, hkept, -⟩ := forEach_addResource_spec hrun
  obtain ⟨hdup, hexisting, htoAdd⟩ := restockPreview_says s fieldCount variantId (cleanedItems items)
  have hcount : (s.bulkAdded variantId sellerId (cleanedItems items)).count = _ :=
    s.length_newItems sellerId (cleanedItems items)
  have hskipped : (s.bulkAdded variantId sellerId (cleanedItems items)).skippedExisting +
      (s.bulkAdded variantId sellerId (cleanedItems items)).skippedMarket = _ :=
    StockDb.card_takenHashes variantId sellerId hindex (cleanedItems items)
  have hdupAdd : (s.bulkAdded variantId sellerId (cleanedItems items)).skippedDuplicate =
      (cleanedItems items).length - (pastedHashes (cleanedItems items)).card := by
    rw [← StockDb.length_byHash]
    rfl
  have hsplit := Finset.card_filter_add_card_filter_not (s := pastedHashes (cleanedItems items))
    fun hash => s.Holds sellerId hash none
  have hle := StockDb.card_pastedHashes_le (cleanedItems items)
  have hlength := List.toFinset_card_le (cleanedItems items)
  have hforms := StockDb.card_pastedHashes_eq_iff (cleanedItems items)
  have hplaces := s.card_inPackage_eq_iff variantId sellerId (cleanedItems items)
  have hitems : (∀ item ∈ items, strip item ≠ "" → ∃! n, s'.HoldsText sellerId (strip item) n) ↔
      ∀ item ∈ cleanedItems items, ∃! n, s'.HoldsText sellerId item n := by
    simp [cleanedItems]
  rw [hitems, hdup, hexisting, hskipped, hdupAdd, hcount]
  constructor
  · rintro ⟨⟨hadds, hdups, hfound⟩, hone, -⟩
    exact ⟨hforms.mp (by omega), hplaces.mp hfound, fun item hitem => (htexts item hitem).mp (hone item hitem)⟩
  · rintro ⟨hf, hp, ht⟩
    have hf' := hforms.mpr hf
    have hp' := hplaces.mpr hp
    refine ⟨⟨?_, ?_, hp'⟩, fun item hitem => (htexts item hitem).mpr (ht item hitem), hkept⟩
    · omega
    · rw [hf']

/-- In a package whose lines are the shop's, and where no supplier delivered, the preview needs that no two
pasted lines that differ have one normal form, and that no line pasted is in another package of the shop. -/
theorem StockDb.PreviewTells.of_plain {s : StockDb} {variantId sellerId : ℕ} {cleaned : List String}
    (hindex : s.Indexed)
    (hown : ∀ r ∈ s.db.resources.rows, r.2.variantId = variantId → r.2.sellerId = sellerId)
    (hplain : ∀ r ∈ s.db.resources.rows, r.2.sellerId = sellerId → s.dataHash r.1 = resourceDataHash (s.data r.1))
    (hforms : ∀ a ∈ cleaned, ∀ b ∈ cleaned, resourceDataHash a = resourceDataHash b → a = b)
    (hhere : ∀ r ∈ s.db.resources.rows, r.2.sellerId = sellerId → r.2.variantId ≠ variantId →
      s.dataHash r.1 ∉ pastedHashes cleaned) :
    s.PreviewTells variantId sellerId cleaned where
  forms := hforms
  places := by
    have helsewhere : s.onlyElsewhere variantId sellerId cleaned = ∅ := by
      rw [onlyElsewhere, Finset.filter_eq_empty_iff]
      rintro hash hmem ⟨⟨r, hr, hseller, rfl, -⟩, hout⟩
      by_cases hv : r.2.variantId = variantId
      · exact hout ⟨r, hr, hv, rfl⟩
      · exact hhere r hr hseller hv hmem
    have hothers : s.onlyOthers variantId sellerId cleaned = ∅ := by
      rw [onlyOthers, Finset.filter_eq_empty_iff]
      rintro hash - ⟨⟨r, hr, hv, rfl⟩, hout⟩
      exact hout ⟨r, hr, hown r hr hv, rfl, by simp⟩
    rw [helsewhere, hothers]
  texts := by
    intro item _
    have htext : ∀ n, s.HoldsText sellerId item n ↔ ∃ r, (n, r) ∈ s.db.resources.rows ∧
        r.sellerId = sellerId ∧ s.dataHash n = resourceDataHash item := by
      intro n
      constructor
      · rintro ⟨r, hr, hseller, he⟩
        have hmem := Table.get?_eq_some_iff.mp hr
        exact ⟨r, hmem, hseller, (hplain _ hmem hseller).trans he⟩
      · rintro ⟨r, hmem, hseller, he⟩
        exact ⟨r, Table.get?_eq_some_iff.mpr hmem, hseller, (hplain _ hmem hseller).symm.trans he⟩
    split_ifs with hheld
    · obtain ⟨r, hr, hseller, he, -⟩ := hheld
      refine ⟨r.1, (htext r.1).mpr ⟨r.2, hr, hseller, he⟩, fun n hn => ?_⟩
      obtain ⟨r', hr', hseller', he'⟩ := (htext n).mp hn
      have := hindex _ hr' _ hr (hseller'.trans hseller.symm) (he'.trans he.symm)
      rw [← this]
    · intro n hn
      obtain ⟨r, hr, hseller, he⟩ := (htext n).mp hn
      exact hheld ⟨_, hr, hseller, he, by simp⟩

/-- A shop with two packages, and one line in the second. -/
def twoPackages : StockDb where
  db :=
    { Db.empty with
      products := ⟨[(1, ⟨3, true, none, 1⟩)], by decide⟩
      variants := ⟨[(7, ⟨1, 1000, .instant, 24, true, none, 1, none, none⟩),
        (8, ⟨1, 1000, .instant, 24, true, none, 1, none, none⟩)], by decide⟩
      resources := ⟨[(1, ⟨8, 3, .available, none, none, none, none, false, 0⟩)], by decide⟩ }
  data := fun _ => "a|1"
  dataHash := fun _ => "a|1"

theorem twoPackages_indexed : twoPackages.Indexed := by
  intro r hr r' hr' _ _
  simp only [twoPackages, List.mem_singleton] at hr hr'
  rw [hr, hr']

theorem twoPackages_tells : twoPackages.PreviewTells 7 3 (cleanedItems ["b|1", " c|2 ", "b|1"]) := by
  refine .of_plain twoPackages_indexed ?_ ?_ (by decide) ?_
  · intro r hr hv
    simp only [twoPackages, List.mem_singleton] at hr
    simp [hr] at hv
  · intro r hr _
    show "a|1" = resourceDataHash "a|1"
    decide
  · intro r hr _ _
    show "a|1" ∉ pastedHashes _
    decide

/-- Two new lines, and one of them pasted twice. -/
theorem preview_tells_new_lines : ∃ preview added s' t,
    (previewRestock (fun _ => none) 7 3 ["b|1", " c|2 ", "b|1"]).run twoPackages = .ok (preview, t) ∧
      (bulkAdd (.sample 0) 7 3 ["b|1", " c|2 ", "b|1"] [4, 5]).run twoPackages = .ok (added, s') ∧
      preview.toAdd = added.count ∧ preview.duplicateInFile = added.skippedDuplicate ∧
      ∃! n, s'.HoldsText 3 (strip " c|2 ") n := by
  have hp : ((previewRestock (fun _ => none) 7 3 ["b|1", " c|2 ", "b|1"]).run twoPackages).toOption.isSome := by
    decide
  have hcount : ((bulkAdd (.sample 0) 7 3 ["b|1", " c|2 ", "b|1"] [4, 5]).run twoPackages).toOption.map
      (fun r => r.1.count) = some 2 := by
    decide
  cases hpreview : (previewRestock (fun _ => none) 7 3 ["b|1", " c|2 ", "b|1"]).run twoPackages with
  | error e => simp [hpreview, Except.toOption] at hp
  | ok preview =>
    cases hadd : (bulkAdd (.sample 0) 7 3 ["b|1", " c|2 ", "b|1"] [4, 5]).run twoPackages with
    | error e => simp [hadd, Except.toOption] at hcount
    | ok added =>
      have hlength : added.1.count ≤ [4, 5].length := by
        simp only [hadd, Except.toOption, Option.map_some, Option.some.injEq] at hcount
        simp [hcount]
      obtain ⟨⟨hadds, hdups, -⟩, hone, -⟩ :=
        (preview_tells_iff hpreview hadd twoPackages_indexed hlength).mpr twoPackages_tells
      exact ⟨preview.1, added.1, added.2, preview.2, rfl, rfl, hadds, hdups,
        hone " c|2 " (by simp) (by decide)⟩

/-- A line the shop has in another package: the preview promises it, and the upload leaves it out. Two lines
that differ in their line ending: the preview promises both, and the upload adds one. -/
theorem preview_promises_too_much :
    ((previewRestock (fun _ => none) 7 3 ["a|1"]).run twoPackages).toOption.map (fun r => r.1.toAdd) = some 1 ∧
      ((bulkAdd (.sample 0) 7 3 ["a|1"] [4]).run twoPackages).toOption.map (fun r => r.1.count) = some 0 ∧
      ((previewRestock (fun _ => none) 7 3 ["b\r\nc", "b\nc"]).run twoPackages).toOption.map
        (fun r => r.1.toAdd) = some 2 ∧
      ((bulkAdd (.sample 0) 7 3 ["b\r\nc", "b\nc"] [4, 5]).run twoPackages).toOption.map
        (fun r => r.1.count) = some 1 := by
  decide

end Marketplace
