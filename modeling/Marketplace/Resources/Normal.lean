import Marketplace.Resources.Stock

/-!
# The normal form of a stock line

A line is known by the text it has with one kind of line ending and without blanks around it
(`normalize_resource_data`). The service takes Python's spaces off first, more than the normal form does;
`normalize_strip` says that this is the same as taking them off afterwards, so two texts
with one normal form still have one once stripped.
-/

namespace Marketplace

open Text

/-- The blanks the normal form does without. -/
def isBlank (c : Char) : Bool := c ∈ [' ', '\t', '\r', '\n']

theorem isSpace_of_isBlank {c : Char} (h : isBlank c = true) : isSpace c = true := by
  simp only [isBlank, List.mem_cons, List.not_mem_nil, or_false, decide_eq_true_eq] at h
  rcases h with rfl | rfl | rfl | rfl <;> decide

theorem toList_normalizeResourceData (data : String) :
    (normalizeResourceData data).toList = stripChars isBlank (normalizeNewlines data.toList) := by
  rw [normalizeResourceData, String.toList_ofList]
  rfl

theorem toList_strip (data : String) : (strip data).toList = stripChars isSpace data.toList := by
  rw [strip, String.toList_ofList]

/-! ### Line endings -/

theorem carriageReturn_not_mem_normalizeNewlines (cs : List Char) : '\r' ∉ normalizeNewlines cs := by
  fun_induction normalizeNewlines cs with
  | case1 => simp
  | case2 cs ih => simpa using ih
  | case3 cs hn ih => simpa using ih
  | case4 c cs h1 h2 ih =>
    simp only [List.mem_cons, not_or]
    exact ⟨fun hc => h2 hc.symm, ih⟩

theorem normalizeNewlines_eq_self {cs : List Char} (h : '\r' ∉ cs) : normalizeNewlines cs = cs := by
  fun_induction normalizeNewlines cs with
  | case1 => rfl
  | case2 cs ih => simp at h
  | case3 cs hn ih => simp at h
  | case4 c cs h1 h2 ih => rw [ih fun hmem => h (by simp [hmem])]

/-- What `normalizeNewlines` puts in is a newline. -/
theorem mem_normalizeNewlines {cs : List Char} {c : Char} (h : c ∈ normalizeNewlines cs) : c ∈ cs ∨ c = '\n' := by
  fun_induction normalizeNewlines cs with
  | case1 => simp at h
  | case2 cs ih | case3 cs hn ih =>
    rcases List.mem_cons.mp h with rfl | h
    · exact .inr rfl
    · exact (ih h).imp_left fun hmem => by simp [hmem]
  | case4 d cs h1 h2 ih =>
    rcases List.mem_cons.mp h with rfl | h
    · exact .inl (by simp)
    · exact (ih h).imp_left fun hmem => by simp [hmem]

theorem normalizeNewlines_cons {c : Char} (hc : c ≠ '\r') (cs : List Char) :
    normalizeNewlines (c :: cs) = c :: normalizeNewlines cs :=
  normalizeNewlines.eq_4 c cs (fun _ h _ => hc h) hc

/-- Two texts that do not share a line ending. -/
theorem normalizeNewlines_append {a b : List Char} (h : ¬(a.getLast? = some '\r' ∧ b.head? = some '\n')) :
    normalizeNewlines (a ++ b) = normalizeNewlines a ++ normalizeNewlines b := by
  fun_induction normalizeNewlines a with
  | case1 => rfl
  | case2 cs ih =>
    have := ih fun hb => h ⟨by rw [List.getLast?_cons_cons, List.getLast?_cons, hb.1]; rfl, hb.2⟩
    simp [normalizeNewlines, this]
  | case3 cs hn ih =>
    cases cs with
    | nil =>
      have hb : ∀ rest, b ≠ '\n' :: rest := fun rest hb => h ⟨rfl, by rw [hb]; rfl⟩
      rw [List.singleton_append, normalizeNewlines.eq_3 _ hb]
      rfl
    | cons c cs =>
      have := ih fun hb => h ⟨by rw [List.getLast?_cons_cons]; exact hb.1, hb.2⟩
      have hc : ∀ rest, c :: cs ++ b ≠ '\n' :: rest := fun rest hr => by
        simp only [List.cons_append, List.cons.injEq] at hr
        exact hn cs (by rw [hr.1])
      rw [List.cons_append, normalizeNewlines.eq_3 _ hc, this]
      rfl
  | case4 c cs h1 h2 ih =>
    have hcons := normalizeNewlines_cons h2
    cases cs with
    | nil => exact hcons b
    | cons d cs =>
      rw [List.cons_append, hcons, ih fun hb => h ⟨by rw [List.getLast?_cons_cons]; exact hb.1, hb.2⟩]
      rfl

/-- A text of spaces stays one. -/
theorem isSpace_of_mem_normalizeNewlines {cs : List Char} (h : ∀ c ∈ cs, isSpace c = true) :
    ∀ c ∈ normalizeNewlines cs, isSpace c = true := by
  intro c hc
  rcases mem_normalizeNewlines hc with hc | rfl
  · exact h c hc
  · decide

/-- **Line endings may be made one before the spaces are taken off or after.** -/
theorem strip_normalizeNewlines (cs : List Char) :
    stripChars isSpace (normalizeNewlines cs) = normalizeNewlines (stripChars isSpace cs) := by
  obtain ⟨left, right, hcs, hleft, hright⟩ := exists_append_stripChars isSpace cs
  obtain ⟨hfirst, hlast⟩ := stripChars_eq_self_iff.mp (stripChars_idem isSpace cs)
  generalize stripChars isSpace cs = core at *
  have hr : isSpace '\r' = true := by decide
  have hn : isSpace '\n' = true := by decide
  by_cases hnil : core = []
  · -- nothing but spaces
    have hall : ∀ c ∈ cs, isSpace c = true := by
      rw [hcs, hnil]
      simp only [List.append_nil, List.mem_append]
      rintro c (hc | hc)
      · exact hleft c hc
      · exact hright c hc
    have := stripChars_append_right (p := isSpace) [] (isSpace_of_mem_normalizeNewlines hall)
    rw [hnil, ← List.nil_append (normalizeNewlines cs), this]
    rfl
  · -- the text in between neither starts with a newline nor ends before one
    obtain ⟨c, rest, rfl⟩ := List.exists_cons_of_ne_nil hnil
    have h1 : normalizeNewlines (c :: rest ++ right) = normalizeNewlines (c :: rest) ++ normalizeNewlines right :=
      normalizeNewlines_append fun h => by simp [hlast _ h.1] at hr
    have h2 : normalizeNewlines (left ++ (c :: rest ++ right)) =
        normalizeNewlines left ++ normalizeNewlines (c :: rest ++ right) :=
      normalizeNewlines_append fun h => by simp [hfirst _ h.2] at hn
    rw [hcs, List.append_assoc, h2, h1, ← List.append_assoc,
      stripChars_append_right _ (isSpace_of_mem_normalizeNewlines hright),
      stripChars_append_left (isSpace_of_mem_normalizeNewlines hleft)]
    have hc : c ≠ '\r' := fun h => absurd (h ▸ hfirst c rfl) (by decide)
    refine stripChars_eq_self_iff.mpr ⟨by simpa [normalizeNewlines_cons hc] using hfirst c rfl, ?_⟩
    obtain ⟨init, e, he⟩ := (List.eq_nil_or_concat (c :: rest)).resolve_left (by simp)
    have hespace : isSpace e = false := hlast e (by rw [he]; simp)
    have h3 : normalizeNewlines (init ++ [e]) = normalizeNewlines init ++ normalizeNewlines [e] :=
      normalizeNewlines_append fun h => by simp_all
    have he' : e ≠ '\r' := fun h => absurd (h ▸ hespace) (by decide)
    rw [he, List.concat_eq_append, h3, normalizeNewlines_cons he', normalizeNewlines]
    simpa using hespace

/-! ### The normal form -/

/-- **A normal form is its own.** -/
theorem normalize_normalize (data : String) :
    normalizeResourceData (normalizeResourceData data) = normalizeResourceData data := by
  rw [← String.toList_inj, toList_normalizeResourceData, toList_normalizeResourceData, normalizeNewlines_eq_self,
    stripChars_idem]
  exact fun h => carriageReturn_not_mem_normalizeNewlines _ (mem_stripChars h)

/-- **The normal form of the stripped text is the normal form, stripped.** -/
theorem normalize_strip (data : String) : normalizeResourceData (strip data) = strip (normalizeResourceData data) := by
  have hspace : stripChars isBlank (stripChars isSpace (normalizeNewlines data.toList)) =
      stripChars isSpace (normalizeNewlines data.toList) := by
    obtain ⟨h1, h2⟩ := stripChars_eq_self_iff.mp (stripChars_idem isSpace (normalizeNewlines data.toList))
    refine stripChars_eq_self_iff.mpr ⟨fun c hc => ?_, fun c hc => ?_⟩
    · by_contra hb
      simpa [h1 c hc] using isSpace_of_isBlank (c := c) (by simpa using hb)
    · by_contra hb
      simpa [h2 c hc] using isSpace_of_isBlank (c := c) (by simpa using hb)
  rw [← String.toList_inj, toList_normalizeResourceData, toList_strip, toList_strip, toList_normalizeResourceData,
    ← strip_normalizeNewlines, hspace, stripChars_stripChars fun c => isSpace_of_isBlank]

@[simp] theorem strip_strip (data : String) : strip (strip data) = strip data := by
  rw [← String.toList_inj, toList_strip, toList_strip, stripChars_idem]

end Marketplace
