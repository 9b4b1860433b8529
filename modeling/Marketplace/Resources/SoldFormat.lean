import Marketplace.Resources.Batches
import Marketplace.Sql.Play
import Marketplace.Sql.Rely

/-!
# An order keeps the format it was sold with

Checkouts, edits of batches and `assign_format` in any number of sessions. What a buyer is shown above a line is to
stay as it is, and a line is to be in a batch of its own package.

Lines that are sold are safe from being moved, as the `UPDATE` looks at a line once nobody else holds it. An edit in place
is another matter: it counts the sold lines without taking them, so a line can be sold before the edit commits, and
`sold_format_changed` is that run. The condition `BatchCall.Undisturbed` is that a batch without a sold line has none
when the edit commits, and `sold_format_kept` is what holds of the runs whose commits meet it.
-/

namespace Marketplace

open Sql

/-! ### The sessions -/

/-- The calls. -/
inductive BatchCall
  | checkout (variantId quantity orderId : ℕ) (skipped : List ℕ)
  | updateBatch (batchId copyId sellerId : ℕ) (edit : BatchEdit)
  | assignFormat (variantId batchId sellerId : ℕ) (formatLine : String) (loginNote : Option String)
      (resourceIds : Option (List ℕ)) (fieldCount : Option ℕ)

/-- What a session runs. -/
def BatchCall.code : BatchCall → BatchTx Unit
  | .checkout variantId quantity orderId skipped => checkoutLines variantId quantity orderId skipped
  | .updateBatch batchId copyId sellerId edit => Marketplace.updateBatch batchId copyId sellerId edit
  | .assignFormat variantId batchId sellerId formatLine loginNote resourceIds fieldCount =>
    Marketplace.assignFormat variantId batchId sellerId formatLine loginNote resourceIds fieldCount

/-- **A batch that had no sold line when an edit counted has none now.** The count is the second statement. -/
def BatchCall.Undisturbed : BatchCall → List BatchDb → BatchDb → Prop
  | .updateBatch batchId .., seen, d =>
    ∀ x ∈ seen.reverse[1]?, x.linesWhere (soldOf batchId) = [] → d.linesWhere (soldOf batchId) = []
  | .checkout .., _, _ => True
  | .assignFormat .., _, _ => True

instance decidableUndisturbedBatch (c : BatchCall) (seen : List BatchDb) (d : BatchDb) :
    Decidable (c.Undisturbed seen d) := by
  cases c <;> unfold BatchCall.Undisturbed <;> infer_instance

/-- The sessions, in the runs whose commits meet the condition. -/
def batchMachine : Machine BatchDb BatchKey Abort Unit BatchCall := ⟨BatchCall.code, BatchCall.Undisturbed⟩

/-! ### What is to hold -/

/-- **A line that has a batch has one of its own package.** -/
def BatchDb.Filed (d : BatchDb) : Prop :=
  ∀ l line, d.resources.get? l = some line → ∀ b ∈ line.batchId,
    ∃ batch, d.batches.get? b = some batch ∧ batch.variantId = line.variantId

/-- What happens to a line: it stays in its package, it stays in a batch, and when it is sold it stays with its order and
is shown as it was. -/
def FormatKept (d d' : BatchDb) : Prop :=
  ∀ l line, d.resources.get? l = some line → ∃ line', d'.resources.get? l = some line' ∧
    line'.variantId = line.variantId ∧ (line.batchId ≠ none → line'.batchId ≠ none) ∧
      ∀ o, line.orderId = some o → line'.orderId = some o ∧ d'.shownFormat o l = d.shownFormat o l

theorem FormatKept.refl (d : BatchDb) : FormatKept d d := fun _ line h => ⟨line, h, rfl, id, fun _ ho => ⟨ho, rfl⟩⟩

theorem FormatKept.trans {d d' d'' : BatchDb} (h : FormatKept d d') (h' : FormatKept d' d'') : FormatKept d d'' := by
  intro l line hline
  obtain ⟨line₁, hline₁, hv₁, hb₁, ho₁⟩ := h l line hline
  obtain ⟨line₂, hline₂, hv₂, hb₂, ho₂⟩ := h' l line₁ hline₁
  refine ⟨line₂, hline₂, hv₂.trans hv₁, fun hb => hb₂ (hb₁ hb), fun o ho => ?_⟩
  obtain ⟨hsold₁, hshown₁⟩ := ho₁ o ho
  obtain ⟨hsold₂, hshown₂⟩ := ho₂ o hsold₁
  exact ⟨hsold₂, hshown₂.trans hshown₁⟩

/-- What a buyer sees above a line is what the batch of the line says. -/
theorem shownFormat_eq {d : BatchDb} {o l : ℕ} {line : BatchLine} (hline : d.resources.get? l = some line)
    (ho : line.orderId = some o) :
    d.shownFormat o l =
      line.batchId.bind fun b => (d.batches.get? b).map fun batch => (batch.format, batch.loginNote) := by
  rw [BatchDb.shownFormat, hline]
  rcases hb : line.batchId with _ | b
  · simp [hb]
  · have hmem : (l, line) ∈ d.resources.rows := Table.get?_eq_some_iff.mp hline
    have hfind : ((d.orderBatches o).find? fun row => row.1 = b).map Prod.snd = d.batches.get? b := by
      rcases hget : d.batches.get? b with _ | batch
      · rw [Option.map_eq_none_iff, List.find?_eq_none]
        intro row hrow hkey
        refine Table.get?_eq_none_iff.mp hget (List.mem_map.mpr ⟨row, (List.mem_filter.mp hrow).1, ?_⟩)
        exact of_decide_eq_true hkey
      · rcases hf : (d.orderBatches o).find? fun row => row.1 = b with _ | row
        · refine absurd (decide_eq_true rfl) (List.find?_eq_none.mp hf (b, batch) (List.mem_filter.mpr
            ⟨Table.get?_eq_some_iff.mp hget, ?_⟩))
          exact List.any_eq_true.mpr ⟨_, hmem, decide_eq_true ⟨ho, hb⟩⟩
        · have hrow := (List.mem_filter.mp (List.mem_of_find?_eq_some hf)).1
          have hkey : row.1 = b := by simpa using List.find?_some hf
          have := Table.get?_eq_some_iff.mpr hrow
          rw [hkey, hget] at this
          rw [hf, Option.map_some]
          exact this.symm
    rw [Option.bind_some, ← hfind]
    simp only [hb, Option.bind_eq_bind, Option.bind_some, Option.map_map]
    exact Option.map_eq_bind.symm

/-- What the others leave alone: a line keeps its package and a batch too, a line that is locked stays as it is, and no
batch is added under a locked key. -/
structure BatchRel (L : List BatchKey) (d d' : BatchDb) : Prop where
  line : ∀ l line, d.resources.get? l = some line →
    ∃ line', d'.resources.get? l = some line' ∧ line'.variantId = line.variantId
  locked : ∀ l, .resource l ∈ L → d'.resources.get? l = d.resources.get? l
  batch : ∀ b batch, d.batches.get? b = some batch →
    ∃ batch', d'.batches.get? b = some batch' ∧ batch'.variantId = batch.variantId
  fresh : ∀ b, .batch b ∈ L → d.batches.get? b = none → d'.batches.get? b = none

/-- What the others leave alone. -/
def batchRely : Rely BatchDb BatchKey where
  rel := BatchRel
  refl _ _ := ⟨fun _ line h => ⟨line, h, rfl⟩, fun _ _ => rfl, fun _ batch h => ⟨batch, h, rfl⟩, fun _ _ h => h⟩
  trans h h' := by
    refine ⟨fun l line hline => ?_, fun l hl => (h'.locked l hl).trans (h.locked l hl), fun b batch hbatch => ?_,
      fun b hb hnone => h'.fresh b hb (h.fresh b hb hnone)⟩
    · obtain ⟨line₁, hline₁, hv₁⟩ := h.line l line hline
      obtain ⟨line₂, hline₂, hv₂⟩ := h'.line l line₁ hline₁
      exact ⟨line₂, hline₂, hv₂.trans hv₁⟩
    · obtain ⟨batch₁, hbatch₁, hv₁⟩ := h.batch b batch hbatch
      obtain ⟨batch₂, hbatch₂, hv₂⟩ := h'.batch b batch₁ hbatch₁
      exact ⟨batch₂, hbatch₂, hv₂.trans hv₁⟩
  anti hL h := ⟨h.line, fun l hl => h.locked l (hL hl), h.batch, fun b hb => h.fresh b (hL hb)⟩

/-! ### What a commit changes -/

/-- A change of unsold lines and of batches: the lines keep their packages, and their batches or get one of their own
package; a batch keeps its package, and what it says if a line of it is sold. -/
structure BatchEffect (ids : List ℕ) (e e' : BatchDb) : Prop where
  other : ∀ l, l ∉ ids → e'.resources.get? l = e.resources.get? l
  absent : ∀ l, e.resources.get? l = none → e'.resources.get? l = none
  line : ∀ l ∈ ids, ∀ line, e.resources.get? l = some line → line.orderId = none ∧
    ∃ line', e'.resources.get? l = some line' ∧ line'.variantId = line.variantId ∧
      (line'.batchId = line.batchId ∨
        ∃ b batch, line'.batchId = some b ∧ e'.batches.get? b = some batch ∧ batch.variantId = line.variantId)
  batch : ∀ b batch, e.batches.get? b = some batch →
    ∃ batch', e'.batches.get? b = some batch' ∧ batch'.variantId = batch.variantId ∧
      ((∃ l line, e.resources.get? l = some line ∧ soldOf b l line = true) →
        batch'.format = batch.format ∧ batch'.loginNote = batch.loginNote)

namespace BatchEffect

variable {ids : List ℕ} {e e' : BatchDb}

/-- What becomes of a line. -/
theorem get?_line (h : BatchEffect ids e e') {l : ℕ} {line : BatchLine} (hline : e.resources.get? l = some line) :
    e'.resources.get? l = some line ∨ line.orderId = none ∧
      ∃ line', e'.resources.get? l = some line' ∧ line'.variantId = line.variantId ∧
        (line'.batchId = line.batchId ∨
          ∃ b batch, line'.batchId = some b ∧ e'.batches.get? b = some batch ∧ batch.variantId = line.variantId) := by
  by_cases hl : l ∈ ids
  · exact Or.inr (h.line l hl line hline)
  · exact Or.inl (by rw [h.other l hl, hline])

theorem filed (h : BatchEffect ids e e') (he : e.Filed) : e'.Filed := by
  -- a line that stays in its batch
  have hold : ∀ l line, e.resources.get? l = some line → ∀ b ∈ line.batchId,
      ∃ batch, e'.batches.get? b = some batch ∧ batch.variantId = line.variantId := by
    intro l line hline b hb
    obtain ⟨batch, hbatch, hv⟩ := he l line hline b hb
    obtain ⟨batch', hbatch', hv', -⟩ := h.batch b batch hbatch
    exact ⟨batch', hbatch', hv'.trans hv⟩
  intro l line' hline' b hb
  rcases hline : e.resources.get? l with _ | line
  · rw [h.absent l hline] at hline'
    exact absurd hline' (by simp)
  · rcases h.get?_line hline with hsame | ⟨-, line₁, hline₁, hv, hbatch⟩
    · obtain rfl := Option.some.inj (hsame.symm.trans hline')
      exact hold l line hline b hb
    · obtain rfl := Option.some.inj (hline₁.symm.trans hline')
      rcases hbatch with hkept | ⟨b', batch, hb', hbatch, hv'⟩
      · obtain ⟨batch, hbatch, hv'⟩ := hold l line hline b (hkept ▸ hb)
        exact ⟨batch, hbatch, hv'.trans hv.symm⟩
      · obtain rfl : b' = b := Option.some.inj (hb'.symm.trans hb)
        exact ⟨batch, hbatch, hv'.trans hv.symm⟩

theorem kept (h : BatchEffect ids e e') (he : e.Filed) : FormatKept e e' := by
  intro l line hline
  rcases h.get?_line hline with hsame | ⟨hunsold, line', hline', hv, hbatch⟩
  · refine ⟨line, hsame, rfl, id, fun o ho => ⟨ho, ?_⟩⟩
    rw [shownFormat_eq hsame ho, shownFormat_eq hline ho]
    rcases hb : line.batchId with _ | b
    · rfl
    · obtain ⟨batch, hget, -⟩ := he l line hline b hb
      obtain ⟨batch', hget', -, hspoken⟩ := h.batch b batch hget
      obtain ⟨hformat, hnote⟩ := hspoken ⟨l, line, hline, decide_eq_true ⟨hb, by rw [ho]; simp⟩⟩
      rw [Option.bind_some, Option.bind_some, hget, hget', Option.map_some, Option.map_some, hformat, hnote]
  · refine ⟨line', hline', hv, fun hb => ?_, fun o ho => absurd (hunsold.symm.trans ho) (by simp)⟩
    rcases hbatch with hkept | ⟨b, -, hb', -⟩
    · rwa [hkept]
    · rw [hb']
      simp

theorem rel (h : BatchEffect ids e e') {L' : List BatchKey} (hids : ∀ l ∈ ids, .resource l ∉ L')
    (hfresh : ∀ b, .batch b ∈ L' → e.batches.get? b = none → e'.batches.get? b = none) : BatchRel L' e e' := by
  refine ⟨fun l line hline => ?_, fun l hl => h.other l fun hmem => hids l hmem hl, fun b batch hbatch => ?_, hfresh⟩
  · rcases h.get?_line hline with hsame | ⟨-, line', hline', hv, -⟩
    · exact ⟨line, hsame, rfl⟩
    · exact ⟨line', hline', hv⟩
  · obtain ⟨batch', hbatch', hv, -⟩ := h.batch b batch hbatch
    exact ⟨batch', hbatch', hv⟩

/-- Unsold lines are rewritten. -/
theorem modifyLines {f : BatchLine → BatchLine} {d : BatchDb}
    (hres : d.resources = e.resources)
    (hunsold : ∀ l ∈ ids, ∀ line, e.resources.get? l = some line → line.orderId = none)
    (hf : ∀ l ∈ ids, ∀ line, e.resources.get? l = some line → (f line).variantId = line.variantId ∧
      ((f line).batchId = line.batchId ∨
        ∃ b batch, (f line).batchId = some b ∧ d.batches.get? b = some batch ∧ batch.variantId = line.variantId))
    (hbatch : ∀ b batch, e.batches.get? b = some batch → d.batches.get? b = some batch) :
    BatchEffect ids e (d.modifyLines ids f) := by
  have hget : ∀ l, (d.modifyLines ids f).resources.get? l =
      if l ∈ ids then (e.resources.get? l).map f else e.resources.get? l := fun l => by
    rw [← hres]
    exact Table.get?_modifyAll _ _ _ _
  refine ⟨fun l hl => by rw [hget, if_neg hl], fun l hl => by rw [hget, hl, Option.map_none, ite_self],
    fun l hl line hline => ⟨hunsold l hl line hline, f line, ?_, hf l hl line hline⟩,
    fun b batch h => ⟨batch, hbatch b batch h, rfl, fun _ => ⟨rfl, rfl⟩⟩⟩
  rw [hget, if_pos hl, hline, Option.map_some]

/-- A batch without sold lines is rewritten. -/
theorem modifyBatch {b : ℕ} {f : StockBatch → StockBatch} (hf : ∀ batch, (f batch).variantId = batch.variantId)
    (hsold : e.linesWhere (soldOf b) = []) : BatchEffect [] e (e.modifyBatch b f) := by
  refine ⟨fun _ _ => rfl, fun _ h => h, fun _ h => absurd h List.not_mem_nil, fun b' batch hbatch => ?_⟩
  change ∃ batch', (e.batches.modify b f).get? b' = some batch' ∧ _
  rw [Table.get?_modify]
  split_ifs with hb
  · subst hb
    refine ⟨f batch, by rw [hbatch, Option.map_some], hf batch, ?_⟩
    rintro ⟨l, line, hline, hs⟩
    have hmem : l ∈ e.linesWhere (soldOf b') :=
      List.mem_map.mpr ⟨(l, line), List.mem_filter.mpr ⟨Table.get?_eq_some_iff.mp hline, hs⟩, rfl⟩
    rw [hsold] at hmem
    exact absurd hmem List.not_mem_nil
  · exact ⟨batch, hbatch, rfl, fun _ => ⟨rfl, rfl⟩⟩

end BatchEffect

/-! ### What each call owes -/

section Owes

variable {c : BatchCall} {w : BatchDb → BatchDb} {L : List BatchKey} {s : List BatchDb} {d : BatchDb}

/-- What a session owes at its commit. -/
def BatchOwes (c : BatchCall) : Unit → (BatchDb → BatchDb) → List BatchKey → List BatchDb → BatchDb → Prop :=
  Commits batchRely BatchDb.Filed batchMachine (fun _ _ d d' => FormatKept d d') c

/-- A change whose lines are locked, and whose new batches are. -/
theorem BatchEffect.owes (ids : List ℕ) {a : Unit}
    (h : ∀ e, batchRely.rel L d e → e.Filed → batchMachine.allows c s e → BatchEffect ids e (w e) ∧
      ∀ b, e.batches.get? b = none → (w e).batches.get? b ≠ none → .batch b ∈ L)
    (hids : ∀ l ∈ ids, .resource l ∈ L) : BatchOwes c a w L s d := by
  intro e he hI hallow
  obtain ⟨heffect, hnew⟩ := h e he hI hallow
  refine ⟨heffect.filed hI, heffect.kept hI, fun L' hL' => heffect.rel (fun l hl => hL' _ (hids l hl)) ?_⟩
  intro b hb hnone
  by_contra hsome
  exact hL' _ (hnew b hnone hsome) hb

theorem checkoutLines_owes (variantId quantity orderId : ℕ) (skipped : List ℕ) :
    (checkoutLines variantId quantity orderId skipped).wp batchRely BatchDb.Filed
      (BatchOwes (.checkout variantId quantity orderId skipped)) id [] [] d := by
  rw [checkoutLines, Tx.wp_bind]
  intro x _ _
  change Tx.wp _ _ (do Tx.require _ _; Tx.modify _ : BatchTx Unit) _ _ _ _ _
  rw [Tx.wp_bind, Tx.wp_require]
  intro _
  rw [Tx.wp_modify]
  set ids := (x.claimable variantId skipped).take quantity with hids
  refine BatchEffect.owes ids (fun e he _ _ => ⟨?_, fun b hnone hsome => absurd hnone hsome⟩) fun l hl =>
    List.mem_append_left _ (List.mem_map_of_mem hl)
  refine BatchEffect.modifyLines rfl (fun l hl line hline => ?_) (fun _ _ _ _ => ⟨rfl, Or.inl rfl⟩) fun _ _ h => h
  -- a line that was taken was in stock, and nobody has touched it
  rw [he.locked l (List.mem_append_left _ (List.mem_map_of_mem hl))] at hline
  obtain ⟨row, hrow, rfl⟩ := List.mem_map.mp (List.mem_of_mem_take hl)
  obtain ⟨hmem, hp⟩ := List.mem_filter.mp (List.mem_mergeSort.mp hrow)
  obtain rfl := Option.some.inj ((Table.get?_eq_some_iff.mpr hmem).symm.trans hline)
  exact (of_decide_eq_true hp).2.2.1.1

/-- **Unsold lines of the package move to a batch that is new.** -/
theorem moveLines_owes {b variantId sellerId : ℕ} {formatLine source : String} {loginNote : Option String}
    {p : ℕ → BatchLine → Bool}
    (hp : ∀ x, batchRely.rel L d x → x.Filed → ∀ l line, x.resources.get? l = some line → p l line = true →
      line.orderId = none ∧ line.variantId = variantId) :
    (do newBatch b variantId sellerId formatLine loginNote source; moveLines p b : BatchTx Unit).wp batchRely
      BatchDb.Filed (BatchOwes c) id L s d := by
  simp only [newBatch, moveLines, Tx.wp_bind, Tx.wp_getOrElse, Tx.wp_lock, Tx.wp_require, Tx.wp_modify]
  intro cleaned _ d₁ hd₁ _ hnone x hx hI
  dsimp only [id] at hnone
  set batch : StockBatch :=
    { variantId, sellerId, format := cleaned.1, fieldCount := cleaned.2
      loginNote := loginNote.bind StockBatch.cleanNote, source }
  set ids := (x.insertBatch b batch).linesWhere p with hids
  have hlocked : ∀ l ∈ ids, .resource l ∈ ids.map BatchKey.resource ++ .batch b :: L := fun l hl =>
    List.mem_append_left _ (List.mem_map_of_mem hl)
  refine BatchEffect.owes ids (fun e he _ _ => ?_) hlocked
  have hfree : e.batches.get? b = none :=
    he.fresh b (List.mem_append_right _ List.mem_cons_self) (hx.fresh b List.mem_cons_self hnone)
  have hget : ∀ b', (e.insertBatch b batch).batches.get? b' = if b' = b then some batch else e.batches.get? b' :=
    fun b' => Table.get?_insert hfree batch b'
  -- the lines are as they were when they were taken
  have hline : ∀ l ∈ ids, ∀ line, e.resources.get? l = some line → line.orderId = none ∧ line.variantId = variantId := by
    intro l hl line hline
    rw [he.locked l (hlocked l hl)] at hline
    obtain ⟨row, hrow, rfl⟩ := List.mem_map.mp hl
    obtain ⟨hmem, hp'⟩ := List.mem_filter.mp hrow
    obtain rfl := Option.some.inj ((Table.get?_eq_some_iff.mpr hmem).symm.trans hline)
    exact hp x (batchRely.trans hd₁ (batchRely.anti (List.subset_cons_self _ _) hx)) hI row.1 row.2
      (Table.get?_eq_some_iff.mpr hmem) hp'
  constructor
  · refine BatchEffect.modifyLines rfl (fun l hl line h => (hline l hl line h).1)
      (fun l hl line h => ⟨rfl, Or.inr ⟨b, batch, rfl, (hget b).trans (if_pos rfl), (hline l hl line h).2.symm⟩⟩)
      fun b' old hold => (hget b').trans ((if_neg ?_).trans hold)
    rintro rfl
    rw [hfree] at hold
    exact absurd hold (by simp)
  · intro b' hnone' hsome
    change (e.insertBatch b batch).batches.get? b' ≠ none at hsome
    rw [hget] at hsome
    split_ifs at hsome with hb
    · rw [hb]
      exact List.mem_append_right _ List.mem_cons_self
    · exact absurd hnone' hsome

theorem updateBatch_owes (batchId copyId sellerId : ℕ) (edit : BatchEdit) :
    (updateBatch batchId copyId sellerId edit).wp batchRely BatchDb.Filed
      (BatchOwes (.updateBatch batchId copyId sellerId edit)) id [] [] d := by
  simp only [updateBatch, ownedBatch, Tx.wp_bind, Tx.wp_read, Tx.wp_getOrElse, Tx.wp_require, Tx.wp_pure, Tx.wp_when]
  intro x hx _ batch hbatch _ cleaned _
  dsimp only [id] at hbatch
  refine ⟨fun _ => ?_, fun _ => ?_⟩
  · rw [changeBatch, Tx.wp_bind, Tx.wp_read]
    intro x₁ hx₁ _
    rw [Tx.wp_ite]
    refine ⟨fun _ => moveLines_owes fun x₂ hx₂ hI l line hline hp => ?_, fun hcount => ?_⟩
    · obtain ⟨hin, hunsold, -⟩ := of_decide_eq_true hp
      obtain ⟨batch₁, hbatch₁, hv₁⟩ := (batchRely.trans hx₁ hx₂).batch batchId batch hbatch
      obtain ⟨batch₂, hbatch₂, hv₂⟩ := hI l line hline batchId hin
      obtain rfl := Option.some.inj (hbatch₁.symm.trans hbatch₂)
      exact ⟨hunsold, hv₂.symm.trans hv₁⟩
    · have hnil : x₁.linesWhere (soldOf batchId) = [] := List.length_eq_zero_iff.mp (not_not.mp hcount)
      simp only [editBatch, Tx.wp_bind, Tx.wp_lock, Tx.wp_modify]
      intro x₂ _ _
      refine BatchEffect.owes [] (fun e _ _ hallow => ⟨?_, fun b hnone hsome => ?_⟩) fun l hl =>
        absurd hl List.not_mem_nil
      · exact .modifyBatch (fun _ => rfl) (hallow x₁ rfl hnil)
      · change (e.batches.modify batchId _).get? b ≠ none at hsome
        rw [Table.get?_modify, hnone, Option.map_none, ite_self] at hsome
        exact absurd rfl hsome
  · refine BatchEffect.owes [] (fun e _ _ _ => ⟨?_, fun b hnone hsome => absurd hnone hsome⟩) fun l hl =>
      absurd hl List.not_mem_nil
    exact ⟨fun _ _ => rfl, fun _ h => h, fun _ h => absurd h List.not_mem_nil,
      fun _ batch h => ⟨batch, h, rfl, fun _ => ⟨rfl, rfl⟩⟩⟩

theorem assignFormat_owes (variantId batchId sellerId : ℕ) (formatLine : String) (loginNote : Option String)
    (resourceIds : Option (List ℕ)) (fieldCount : Option ℕ) :
    (assignFormat variantId batchId sellerId formatLine loginNote resourceIds fieldCount).wp batchRely BatchDb.Filed
      (BatchOwes (.assignFormat variantId batchId sellerId formatLine loginNote resourceIds fieldCount)) id [] [] d := by
  simp only [assignFormat, ownedVariant, Tx.wp_bind, Tx.wp_read, Tx.wp_getOrElse, Tx.wp_require]
  intro x₁ _ _ productId _ x₂ _ _ _ _ x₃ _ _ _
  rw [← Tx.wp_bind]
  refine moveLines_owes fun x _ _ l line _ hp => ?_
  simp only [assignable, Bool.and_eq_true, decide_eq_true_eq] at hp
  exact ⟨hp.1.2.2.2.1, hp.1.1⟩

end Owes

theorem batchMachine_correct :
    batchMachine.Correct batchRely BatchDb.Filed fun _ _ d d' => FormatKept d d' := by
  intro c d _
  cases c with
  | checkout variantId quantity orderId skipped => exact checkoutLines_owes variantId quantity orderId skipped
  | updateBatch batchId copyId sellerId edit => exact updateBatch_owes batchId copyId sellerId edit
  | assignFormat variantId batchId sellerId formatLine loginNote resourceIds fieldCount =>
    exact assignFormat_owes variantId batchId sellerId formatLine loginNote resourceIds fieldCount

/-- **An order keeps the format it was sold with, and a line is in a batch of its own package.** -/
theorem sold_format_kept {ι : Type} [DecidableEq ι] {d : BatchDb} (hd : d.Filed)
    {C C' : Config BatchDb BatchKey Abort Unit BatchCall ι} (h : Reachable batchMachine d C)
    (hrun : Relation.ReflTransGen (Steps batchMachine) C C') : C'.db.Filed ∧ FormatKept C.db C'.db := by
  refine ⟨(batchMachine_correct.reachable hd (h.trans hrun)).inv, ?_⟩
  induction hrun with
  | refl => exact .refl _
  | tail hinit hlast ih =>
    obtain ⟨l, hl⟩ := hlast
    refine ih.trans ?_
    rcases l with _ | ⟨c, ⟨⟩⟩
    · rw [hl.db_eq]
      exact .refl _
    · exact batchMachine_correct.commit hd (h.trans hinit) hl

/-! ### A sale during an edit -/

/-- One line in stock, of a batch. -/
def sampleBatches : BatchDb where
  resources := ⟨[(1, ⟨4, 10, .available, none, false, some 2, some 7, 0⟩)], by simp⟩
  batches := ⟨[(7, ⟨4, 10, "UID|PASS", 2, none, "upload"⟩)], by simp⟩
  variants := ⟨[(4, 3)], by simp⟩
  products := ⟨[(3, 10)], by simp⟩

/-- The seller has mistaken the columns. -/
def sampleBatchEdit : BatchCall := .updateBatch 7 8 10 ⟨some "MAIL|PASS", none, false⟩

/-- The order gets the line. -/
def sampleLineSale : BatchCall := .checkout 4 1 9 []

/-- The call is this sale. -/
def isLineSale : BatchCall → Bool
  | .checkout 4 1 9 [] => true
  | _ => false

theorem eq_of_isLineSale {c : BatchCall} (h : isLineSale c = true) : c = sampleLineSale := by
  rw [isLineSale.eq_def] at h
  split at h
  · rfl
  · cases h

theorem sampleBatches_filed : sampleBatches.Filed := by
  intro l line hline b hb
  obtain ⟨rfl, rfl⟩ : l = 1 ∧ line = ⟨4, 10, .available, none, false, some 2, some 7, 0⟩ := by
    simpa [sampleBatches] using Table.get?_eq_some_iff.mp hline
  obtain rfl : 7 = b := by simpa using hb
  exact ⟨_, rfl, rfl⟩

/-- The line is sold, and the edit finds it sold. -/
theorem sold_format_kept_sample :
    ∃ C C' : Config BatchDb BatchKey Abort Unit BatchCall (Fin 1),
      Reachable batchMachine sampleBatches C ∧ C.db.shownFormat 9 1 = some ("UID|PASS", none) ∧
        C'.db.batches.get? 8 = some ⟨4, 10, "MAIL|PASS", 2, none, "split"⟩ ∧
          C'.db.shownFormat 9 1 = C.db.shownFormat 9 1 := by
  obtain ⟨C₀, C, C', c, ⟨⟩, hC₀, hstep, hrun, ⟨line, hline, hsold⟩, hshown, hcopy⟩ :=
    Machine.runs_of_play (M := batchMachine) (ι := Fin 1) (d := sampleBatches)
      (P := fun _ _ _ d d' => (∃ line ∈ d.resources.get? 1, line.orderId = some 9) ∧
        d.shownFormat 9 1 = some ("UID|PASS", none) ∧ d'.batches.get? 8 = some ⟨4, 10, "MAIL|PASS", 2, none, "split"⟩)
      (Q := fun _ _ => True) (fun c s d => decide (c.Undisturbed s d)) (fun c s d => decide (c.Undisturbed s d))
      (.begin 0 sampleLineSale :: List.replicate 2 (.step 0)) (.step 0)
      (.begin 0 sampleBatchEdit :: List.replicate 7 (.step 0))
      (fun c s d h => (of_decide_eq_true h : c.Undisturbed s d))
      (fun c s d h => ⟨(of_decide_eq_true h : c.Undisturbed s d), trivial⟩) (by decide +kernel)
  have hsteps : Relation.ReflTransGen (Steps batchMachine) C C' := hrun.lift id fun _ _ h => h.imp fun _ => And.left
  have hC : Reachable batchMachine sampleBatches C := .tail hC₀ ⟨_, hstep⟩
  obtain ⟨line', -, -, -, hkept⟩ := (sold_format_kept sampleBatches_filed hC hsteps).2 1 line hline
  exact ⟨C, C', hC, hshown, hcopy, (hkept 9 hsold).2⟩

/-- **The format above a line changes after the sale**: the seller's edit has counted no sold line, then a checkout sells
the line, and then the edit commits. -/
theorem sold_format_changed :
    ∃ (C C₁ C₂ : Config BatchDb BatchKey Abort Unit BatchCall (Fin 2)),
      Reachable (Machine.ofCode BatchCall.code) sampleBatches C ∧
        Step (Machine.ofCode BatchCall.code) C (some (sampleLineSale, ())) C₁ ∧
          Relation.ReflTransGen (Steps (Machine.ofCode BatchCall.code)) C₁ C₂ ∧
            C₁.db.shownFormat 9 1 = some ("UID|PASS", none) ∧ C₂.db.shownFormat 9 1 = some ("MAIL|PASS", none) := by
  obtain ⟨C, C₁, C₂, c, ⟨⟩, hC, hstep, hrun, hc, h₁, h₂⟩ :=
    Machine.runs_of_play (M := Machine.ofCode BatchCall.code) (ι := Fin 2) (d := sampleBatches)
      (P := fun c _ _ d d' => isLineSale c = true ∧
        d.shownFormat 9 1 = some ("UID|PASS", none) ∧ d'.shownFormat 9 1 = some ("MAIL|PASS", none))
      (Q := fun _ _ => True) (fun _ _ _ => true) (fun _ _ _ => true)
      (.begin 0 sampleBatchEdit :: List.replicate 2 (.step 0) ++ .begin 1 sampleLineSale :: List.replicate 2 (.step 1))
      (.step 1) (List.replicate 3 (.step 0))
      (fun _ _ _ _ => trivial) (fun _ _ _ _ => ⟨trivial, trivial⟩) (by decide +kernel)
  obtain rfl := eq_of_isLineSale hc
  exact ⟨C, C₁, C₂, hC, hstep, hrun.lift id fun _ _ h => h.imp fun _ => And.left, h₁, h₂⟩

end Marketplace
