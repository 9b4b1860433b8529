import Marketplace.Ledger.Journal

/-!
# The pages of the money journal

Following the cursors of the journal from its first page returns every row that matches the
filters once, newest first, and every item shows the sum of all the rows of its wallet up to its own:
`journal_paged`.

The steps are the round trip of a cursor (`decodeCursor_encodeCursor`), the balances of a page, which
are those of the whole ledger for every row there (`lookup_runningBalances`), and one page, which is the
front of what is left of the ordered rows (`listEntries_eq`). `Keyset.follow_eq` puts the pages
together.
-/

namespace Marketplace

open Text Keyset

/-! ### Cursors -/

section Cursor

variable (digits : DigitClass)

/-- The last separator is the one before a text without any. -/
theorem rpartition_append {sep : Char} (front : List Char) {rest : List Char} (hrest : sep ∉ rest) :
    rpartition sep (front ++ sep :: rest) = (front, rest) := by
  have hrev : (front ++ sep :: rest).reverse = rest.reverse ++ sep :: front.reverse := by simp
  have hne : ∀ c ∈ rest.reverse, decide (c ≠ sep) = true := by
    intro c hc
    refine decide_eq_true fun h => hrest ?_
    rw [← h]
    exact List.mem_reverse.mp hc
  rw [rpartition, hrev, List.takeWhile_append_of_pos hne, List.dropWhile_append_of_pos hne]
  simp

/-- No digit is stripped off. -/
theorem isSpace_eq_false_of_isDigit {c : Char} (hc : c.isDigit = true) : isSpace c = false := by
  have h := Char.isDigit_iff_toNat.mp hc
  have h1 : (48 : ℕ) ≤ c.val.toNat := h.1
  have h2 : c.val.toNat ≤ 57 := h.2
  have hval : ∀ n : UInt32, n.toNat < 48 ∨ 57 < n.toNat → c.val ≠ n := by
    rintro n hn rfl
    omega
  simp only [isSpace, Bool.or_eq_false_iff, decide_eq_false_iff_not, List.mem_cons,
    List.not_mem_nil, or_false, not_or, Bool.and_eq_false_iff]
  refine ⟨by repeat' first | constructor | exact hval _ (by decide), Or.inl ?_⟩
  rw [UInt32.le_iff_toNat_le, not_le]
  exact lt_of_le_of_lt h2 (by decide)

theorem stripChars_digits {ds : List Char} (hds : ∀ c ∈ ds, c.isDigit = true) :
    stripChars isSpace ds = ds := by
  have hdrop : ∀ l : List Char, (∀ c ∈ l, c.isDigit = true) → l.dropWhile isSpace = l := by
    intro l hl
    cases l with
    | nil => rfl
    | cons c cs =>
      rw [List.dropWhile_cons_of_neg (by simp [isSpace_eq_false_of_isDigit (hl c (by simp))])]
  rw [stripChars, hdrop ds hds, hdrop _ fun c hc => hds c (List.mem_reverse.mp hc),
    List.reverse_reverse]

theorem intOf_toString (n : ℕ) : intOf digits (toString n).toList = some (n : ℤ) := by
  have hdig : ∀ c ∈ (toString n).toList, c.isDigit = true := fun c hc => isDigit_of_mem_toString hc
  have hint := digits.int?_toString n
  rw [intOf, stripChars_digits hdig]
  rcases hl : (toString n).toList with _ | ⟨c, cs⟩
  · exact absurd hl (toList_toString_ne_nil n)
  · rw [hl] at hint hdig
    have hc := hdig c (by simp)
    split
    · next h =>
      obtain rfl : c = '-' := (List.cons.inj h).1
      exact absurd hc (by decide)
    · next h =>
      obtain rfl : c = '+' := (List.cons.inj h).1
      exact absurd hc (by decide)
    · rw [hint]
      rfl

/-- **A cursor stands for the moment and the id it was made of.** -/
theorem decodeCursor_encodeCursor (createdAt : AwareDatetime) (entryId : ℕ) :
    decodeCursor digits (encodeCursor createdAt entryId) = .ok (createdAt, (entryId : ℤ)) := by
  have hident : '_' ∉ (toString entryId).toList := fun h =>
    absurd (isDigit_of_mem_toString h) (by decide)
  simp only [decodeCursor, encodeCursor, String.toList_ofList, rpartition_append _ hident,
    fromisoformat_isoformat, intOf_toString]

theorem encodeCursor_ne_empty (createdAt : AwareDatetime) (entryId : ℕ) :
    encodeCursor createdAt entryId ≠ "" := by
  intro h
  have := congrArg String.toList h
  simp [encodeCursor] at this

end Cursor

/-! ### Balances -/

/-- The balance of a row's wallet right after the row, over the whole ledger. -/
def JournalDb.balanceAt (d : JournalDb) (t : JournalEntry) : ℤ :=
  journalSum JournalEntry.signed
    ((d.transactions.filter fun u => u.walletId = t.walletId).filter fun u => u.key ≤ t.key)

section Balances

variable {d : JournalDb} {rows : List JournalEntry}

/-- A span only grows, and covers what was added to it. -/
theorem foldl_span (rows : List JournalEntry) (lo hi : JournalKey) :
    ∃ lo' hi', (rows.foldl (fun (span : Option (JournalKey × JournalKey)) r =>
      match span with
      | none => some (r.key, r.key)
      | some (lo, hi) => some (min lo r.key, max hi r.key)) (some (lo, hi))) = some (lo', hi') ∧
      lo' ≤ lo ∧ hi ≤ hi' ∧ ∀ r ∈ rows, lo' ≤ r.key ∧ r.key ≤ hi' := by
  induction rows generalizing lo hi with
  | nil => exact ⟨lo, hi, rfl, le_refl _, le_refl _, by simp⟩
  | cons r rows ih =>
    obtain ⟨lo', hi', hfold, hlo, hhi, hall⟩ := ih (min lo r.key) (max hi r.key)
    refine ⟨lo', hi', hfold, hlo.trans (min_le_left _ _), (le_max_left _ _).trans hhi, ?_⟩
    intro x hx
    rcases List.mem_cons.mp hx with rfl | hx
    · exact ⟨hlo.trans (min_le_right _ _), (le_max_right _ _).trans hhi⟩
    · exact hall x hx

theorem walletSpan_of_mem {r : JournalEntry} (hr : r ∈ rows) :
    ∃ lo hi, walletSpan rows r.walletId = some (lo, hi) ∧ lo ≤ r.key ∧ r.key ≤ hi := by
  have hmem : r ∈ rows.filter fun x => x.walletId = r.walletId := by simp [hr]
  obtain ⟨x, xs, hl⟩ := List.exists_cons_of_ne_nil (List.ne_nil_of_mem hmem)
  obtain ⟨lo, hi, hfold, hlo, hhi, hall⟩ := foldl_span xs x.key x.key
  refine ⟨lo, hi, by rw [walletSpan, hl]; exact hfold, ?_⟩
  rw [hl] at hmem
  rcases List.mem_cons.mp hmem with rfl | hmem
  · exact ⟨hlo, hhi⟩
  · exact hall r hmem

/-- **The opening sum and the window sum together are the balance.** -/
theorem opening_add_window {t : JournalEntry} {lo hi : JournalKey} (hlo : lo ≤ t.key)
    (hhi : t.key ≤ hi) :
    openingBalance d t.walletId lo + windowSum d t.walletId lo hi t = d.balanceAt t :=
  journalSum_window JournalEntry.key JournalEntry.signed _ hlo hhi

theorem mem_walletBalances {wallet i : ℕ} {b : ℤ} (h : (i, b) ∈ walletBalances d rows wallet) :
    ∃ t ∈ d.transactions, t.id = i ∧ b = d.balanceAt t := by
  rw [walletBalances] at h
  rcases hspan : walletSpan rows wallet with _ | ⟨lo, hi⟩
  · simp [hspan] at h
  · simp only [hspan, List.mem_map, List.mem_filter, decide_eq_true_eq, Prod.mk.injEq] at h
    obtain ⟨t, ⟨ht, rfl, hlo, hhi⟩, hid, hb⟩ := h
    exact ⟨t, ht, hid, by rw [← hb, opening_add_window hlo hhi]⟩

theorem mem_runningBalances {r : JournalEntry} (hr : r ∈ rows) (hd : r ∈ d.transactions) :
    (r.id, d.balanceAt r) ∈ runningBalances d rows := by
  obtain ⟨lo, hi, hspan, hlo, hhi⟩ := walletSpan_of_mem hr
  have hwallet : (r.id, d.balanceAt r) ∈ walletBalances d rows r.walletId := by
    simp only [walletBalances, hspan, List.mem_map, List.mem_filter, decide_eq_true_eq]
    exact ⟨r, ⟨hd, rfl, hlo, hhi⟩, by rw [opening_add_window hlo hhi]⟩
  simp only [runningBalances, List.mem_filter, List.mem_flatMap, decide_eq_true_eq]
  exact ⟨⟨r.walletId, by simpa [pageWallets] using ⟨r, hr, rfl⟩, hwallet⟩, List.mem_map_of_mem hr⟩

theorem eq_of_id_eq {s t : JournalEntry} (hs : s ∈ d.transactions) (ht : t ∈ d.transactions)
    (h : s.id = t.id) : s = t :=
  List.inj_on_of_nodup_map d.idsUnique hs ht h

theorem lookup_eq_some {l : List (ℕ × ℤ)} {i : ℕ} {b : ℤ} (hmem : (i, b) ∈ l)
    (huniq : ∀ b', (i, b') ∈ l → b' = b) : l.lookup i = some b := by
  induction l with
  | nil => simp at hmem
  | cons p l ih =>
    obtain ⟨j, c⟩ := p
    by_cases hj : i = j
    · subst hj
      rw [List.lookup_cons_self, huniq c (by simp)]
    · have hne : (i == j) = false := by simpa using hj
      rw [List.lookup_cons, hne]
      refine ih ?_ fun b' hb' => huniq b' (by simp [hb'])
      simpa [hj] using hmem

/-- **Every row of a page is shown its true balance.** -/
theorem lookup_runningBalances {r : JournalEntry} (hr : r ∈ rows) (hd : r ∈ d.transactions) :
    (runningBalances d rows).lookup r.id = some (d.balanceAt r) := by
  refine lookup_eq_some (mem_runningBalances hr hd) fun b hb => ?_
  simp only [runningBalances, List.mem_filter, List.mem_flatMap] at hb
  obtain ⟨⟨wallet, -, hb⟩, -⟩ := hb
  obtain ⟨t, ht, hid, rfl⟩ := mem_walletBalances hb
  rw [eq_of_id_eq ht hd hid]

end Balances

/-! ### One page -/

section Page

variable (digits : DigitClass) (d : JournalDb)

/-- The item a row should have: the balance is the whole ledger's. -/
def JournalDb.itemOf (t : JournalEntry) : JournalItem :=
  { journalItem digits d [] t with balanceAfter := some (d.balanceAt t) }

theorem journalItem_eq {rows : List JournalEntry} {t : JournalEntry} (ht : t ∈ rows)
    (hd : t ∈ d.transactions) :
    journalItem digits d (runningBalances d rows) t = d.itemOf digits t := by
  rw [journalItem, lookup_runningBalances ht hd]
  rfl

theorem filterM_eq {α ε : Type} {f : α → Except ε Bool} {g : α → Bool} {l : List α}
    (h : ∀ a ∈ l, f a = .ok (g a)) : l.filterM f = .ok (l.filter g) := by
  have haux : ∀ (l acc : List α), (∀ a ∈ l, f a = .ok (g a)) →
      l.filterAuxM f acc = .ok ((l.filter g).reverse ++ acc) := by
    intro l
    induction l with
    | nil => intro acc _; rfl
    | cons a l ih =>
      intro acc h
      rw [List.filterAuxM, h a (by simp)]
      simp only [bind, Except.bind]
      rw [ih _ fun x hx => h x (by simp [hx])]
      cases hg : g a <;> simp [hg]
  rw [List.filterM, haux l [] h]
  simp [bind, Except.bind, pure, Except.pure]

/-- The rows the filters let through. -/
def JournalDb.matching (f : EntryFilters) : List JournalEntry :=
  newestFirst JournalEntry.key
    (d.transactions.filter fun t => matchesFilters digits d f t = .ok true)

variable {digits d}

theorem mem_matching {f : EntryFilters} {t : JournalEntry} :
    t ∈ d.matching digits f ↔ t ∈ d.transactions ∧ matchesFilters digits d f t = .ok true := by
  simp [JournalDb.matching]

theorem pairwise_matching (f : EntryFilters) :
    (d.matching digits f).Pairwise fun a b => b.key < a.key :=
  pairwise_newestFirst ((List.filter_sublist.map _).nodup d.keys_nodup)

theorem matchesFilters_ok {f : EntryFilters} {t : JournalEntry}
    (hgroup : ∀ key ∈ f.group, ∃ rows, groupCondition digits key = .ok rows)
    (hread : ∃ o, journalOrder digits t.referenceId = .ok o) :
    ∃ b, matchesFilters digits d f t = .ok b := by
  obtain ⟨o, ho⟩ := hread
  have h1 : ∃ b, groupMatches digits f t = .ok b := by
    rcases hg : f.group with _ | key
    · exact ⟨true, by rw [groupMatches, hg]⟩
    · obtain ⟨rows, hrows⟩ := hgroup key hg
      exact ⟨rows t.type t.referenceId, by simp only [groupMatches, hg, hrows]; rfl⟩
  have h2 : ∃ b, unseeded digits d f t = .ok b := by
    unfold unseeded
    split
    · exact ⟨true, rfl⟩
    · exact ⟨_, by rw [notSeed, ho]; rfl⟩
  obtain ⟨b1, h1⟩ := h1
  obtain ⟨b2, h2⟩ := h2
  refine ⟨(d.accountOf t).any (fun a => d.plainConditions f t a) && b1 && b2, ?_⟩
  rw [matchesFilters, h1, h2]
  rfl

theorem selectEntries_eq {f : EntryFilters}
    (hok : ∀ t ∈ d.transactions, ∃ b, matchesFilters digits d f t = .ok b) :
    selectEntries digits d f =
      .ok (d.transactions.filter fun t => matchesFilters digits d f t = .ok true) := by
  refine filterM_eq fun t ht => ?_
  obtain ⟨b, hb⟩ := hok t ht
  cases b <;> simp [hb]

/-- **A page is the front of the rows that are left**, each with its true balance. -/
theorem listEntries_eq {f : EntryFilters} {limit : ℕ} (h1 : 1 ≤ limit) (h200 : limit ≤ maxPage)
    (hwallet : f.accountId.any (fun a => d.walletId a = none) = false)
    (hok : ∀ t ∈ d.transactions, ∃ b, matchesFilters digits d f t = .ok b)
    {cursor : Option String} {below : JournalEntry → Bool}
    (hcursor : cursorCondition digits cursor = .ok below) :
    listEntries digits d f limit cursor =
      .ok (page limit (fun i => encodeCursor i.entry.createdAt i.entry.id)
        (((d.matching digits f).filter below).map (d.itemOf digits))) := by
  have hlimit : max 1 (min limit maxPage) = limit := by omega
  have hselected := selectEntries_eq hok
  have hkeys : ((d.transactions.filter fun t => matchesFilters digits d f t = .ok true).map
      JournalEntry.key).Nodup := (List.filter_sublist.map _).nodup d.keys_nodup
  have hleft := newestFirst_filter hkeys below
  set left := (d.matching digits f).filter below with hdef
  have hitems : ∀ rows : List JournalEntry, rows ⊆ left →
      rows.map (journalItem digits d (runningBalances d rows)) = rows.map (d.itemOf digits) := by
    intro rows hrows
    refine List.map_congr_left fun t ht => journalItem_eq digits d ht ?_
    have hmem := (List.mem_filter.mp (hrows ht)).1
    exact (mem_matching.mp hmem).1
  simp only [listEntries, hwallet, hlimit, hselected, hcursor, bind, Except.bind]
  rw [hleft, show (newestFirst JournalEntry.key (d.transactions.filter fun t =>
    matchesFilters digits d f t = .ok true)).filter below = left from hdef]
  have htake : (left.take (limit + 1)).take limit = left.take limit := by
    rw [List.take_take, min_eq_left (by omega)]
  have hmore : limit < (left.take (limit + 1)).length ↔ limit < left.length := by
    rw [List.length_take]
    omega
  rw [htake, hitems _ (List.take_subset limit left)]
  simp only [page, hmore, List.length_map, ← List.map_take, List.getLast?_map, Option.map_map]
  rfl

/-- A cursor asks for what comes after its row. -/
theorem cursorCondition_encode (createdAt : AwareDatetime) (entryId : ℕ) :
    cursorCondition digits (some (encodeCursor createdAt entryId)) =
      .ok fun t => t.key < journalKey createdAt entryId := by
  simp only [cursorCondition, if_neg (encodeCursor_ne_empty createdAt entryId),
    decodeCursor_encodeCursor]
  rfl

/-- Rows of an account without a wallet do not match. -/
theorem matching_eq_nil {f : EntryFilters}
    (hwallet : f.accountId.any (fun a => d.walletId a = none) = true) :
    d.matching digits f = [] := by
  refine List.eq_nil_iff_forall_not_mem.mpr fun t ht => ?_
  obtain ⟨-, hmatch⟩ := mem_matching.mp ht
  obtain ⟨a, ha, hnone⟩ : ∃ a ∈ f.accountId, d.walletId a = none := by
    obtain ⟨a, ha, h⟩ := (Option.any_eq_true _ _).mp hwallet
    exact ⟨a, ha, of_decide_eq_true h⟩
  have hplain : ∀ acc, d.plainConditions f t acc = false := by
    intro acc
    have ha' : f.accountId = some a := ha
    simp [JournalDb.plainConditions, ha', hnone]
  have hjoin : (d.accountOf t).any (fun a => d.plainConditions f t a) = false := by
    cases d.accountOf t <;> simp [hplain]
  rw [matchesFilters, hjoin] at hmatch
  -- whatever the other two conditions are, an error or a truth value, nothing makes it `true`
  rcases hg : groupMatches digits f t with _ | g <;> rcases hu : unseeded digits d f t with _ | u <;>
    simp [hg, hu, bind, Except.bind, pure, Except.pure] at hmatch

theorem follow_listEntries {f : EntryFilters} {limit : ℕ} (h1 : 1 ≤ limit) (h200 : limit ≤ maxPage)
    (hok : ∀ t ∈ d.transactions, ∃ b, matchesFilters digits d f t = .ok b) :
    follow (listEntries digits d f limit) (d.transactions.length + 1) none =
      .ok (some ((d.matching digits f).map (d.itemOf digits))) := by
  rcases hwallet : f.accountId.any (fun a => d.walletId a = none) with _ | _
  · have hall : (d.matching digits f).filter (fun _ => true) = d.matching digits f := by simp
    have hlimit : 0 < limit := by omega
    refine follow_eq hlimit (?_ : listEntries digits d f limit none = .ok (page limit
      (fun i => encodeCursor i.entry.createdAt i.entry.id) _)) ?_ ?_
    · rw [listEntries_eq h1 h200 hwallet hok rfl, hall]
    · intro front x left hitems
      obtain ⟨front', rest, hsplit, -, hrest⟩ := List.map_eq_append_iff.mp hitems
      obtain ⟨t, left', rfl, rfl, rfl⟩ := List.map_eq_cons_iff.mp hrest
      have hlt : (d.matching digits f).Pairwise fun a b => b.key < a.key := pairwise_matching f
      rw [hsplit] at hlt
      rw [listEntries_eq h1 h200 hwallet hok (cursorCondition_encode _ _), hsplit]
      congr 3
      exact filter_lt_eq hlt
    · rw [List.length_map, JournalDb.matching, length_newestFirst]
      exact Nat.lt_succ_of_le (List.length_filter_le _ _)
  · rw [matching_eq_nil hwallet, follow, listEntries, if_pos hwallet]
    rfl

end Page

/-! ### The journal as a whole -/

/-- What a reader of the journal relies on: following the cursors from the first page returns every
matching row once, newest first; every item of every page shows the balance of the whole
ledger; and a cursor stands for the row it was made of. -/
structure JournalPaged (digits : DigitClass) (d : JournalDb) (f : EntryFilters) (limit : ℕ) :
    Prop where
  complete : ∃ items, follow (listEntries digits d f limit) (d.transactions.length + 1) none =
      .ok (some items) ∧
    (∀ t, t ∈ items.map JournalItem.entry ↔
      t ∈ d.transactions ∧ matchesFilters digits d f t = .ok true) ∧
    items.Pairwise fun a b => b.entry.key < a.entry.key
  balances : ∀ cursor items next, listEntries digits d f limit cursor = .ok (items, next) →
    ∀ i ∈ items, i.balanceAfter = some (d.balanceAt i.entry)
  cursors : ∀ createdAt entryId, decodeCursor digits (encodeCursor createdAt entryId) =
    .ok (createdAt, (entryId : ℤ))

/-- **The pages of the journal are complete, without repetition, and carry true balances.** A
reference that reads like an order's is taken to name an order, whose id has 32 bits. -/
theorem journal_paged (digits : DigitClass) (d : JournalDb) (f : EntryFilters) {limit : ℕ}
    (h1 : 1 ≤ limit) (h200 : limit ≤ 200)
    (hgroup : ∀ key ∈ f.group, ∃ rows, groupCondition digits key = .ok rows)
    (hread : ∀ t ∈ d.transactions, ∃ o, journalOrder digits t.referenceId = .ok o) :
    JournalPaged digits d f limit := by
  have hok : ∀ t ∈ d.transactions, ∃ b, matchesFilters digits d f t = .ok b :=
    fun t ht => matchesFilters_ok hgroup (hread t ht)
  have hentry : ((d.matching digits f).map (d.itemOf digits)).map JournalItem.entry =
      d.matching digits f := by
    rw [List.map_map]
    exact List.map_id _
  refine ⟨⟨_, follow_listEntries h1 h200 hok, ?_, ?_⟩, ?_, decodeCursor_encodeCursor digits⟩
  · intro t
    rw [hentry]
    exact mem_matching
  · exact List.pairwise_map.mpr (pairwise_matching f)
  · intro cursor items next hlist i hi
    rcases hwallet : f.accountId.any (fun a => d.walletId a = none) with _ | _
    · rcases hcursor : cursorCondition digits cursor with e | below
      · -- a cursor that cannot be read gives no page
        simp [listEntries, hwallet, selectEntries_eq hok, hcursor, bind, Except.bind] at hlist
      · rw [listEntries_eq h1 h200 hwallet hok hcursor] at hlist
        obtain rfl : _ = items := congrArg Prod.fst (Except.ok.inj hlist)
        obtain ⟨t, -, rfl⟩ := List.mem_map.mp (List.mem_of_mem_take hi)
        rfl
    · rw [listEntries, if_pos hwallet] at hlist
      obtain rfl : [] = items := congrArg Prod.fst (Except.ok.inj hlist)
      simp at hi

/-- Two rows of one moment. -/
def sampleJournal : JournalDb where
  transactions :=
    [⟨1, 7, ⟨⟨2026, 1, 2, 3, 4, 5, 0, 0⟩, by decide⟩, .topup, 500, none, none⟩,
      ⟨2, 7, ⟨⟨2026, 1, 2, 3, 4, 5, 0, 0⟩, by decide⟩, .withdrawLock, 200, none, none⟩]
  wallets := [⟨7, 3⟩]
  accounts := [⟨3, false, true⟩]
  seededOrders := []
  platformAccountId := 1
  idsUnique := by decide

theorem journal_paged_sample : JournalPaged .ascii sampleJournal
    ⟨none, none, none, [], none, some 3, none, none, none, none, false⟩ 1 :=
  journal_paged .ascii sampleJournal _ (by decide) (by decide) (by simp)
    (by simp [sampleJournal, journalOrder])

end Marketplace
