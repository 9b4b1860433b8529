import Marketplace.Arith.Journal

/-!
# Paging by keyset

A list is served in pages, newest first. Where there is more, a page comes with a token of its last
item, and the next page is asked for by that token: it holds what is older than the item, so
nothing needs to be counted or skipped.

`Keyset.follow` asks for page after page until one comes without a token, and `follow_eq` is what
has to be shown of a service for this to return the whole list: the first page is the front of the
list, and the page after an item is the front of what comes after the item. `filter_lt_eq` says
that in a strictly decreasing list the latter is what is smaller than the item.

Rows may carry running sums, which a page computes from an opening sum and the rows between its
first and its last: `journalSum_window`.
-/

namespace Keyset

/-! ### Following the tokens -/

section Follow

variable {β σ ε : Type}

/-- The front of what is left and, where that is not all, the token of its last item. -/
def page (limit : ℕ) (token : β → σ) (left : List β) : List β × Option σ :=
  (left.take limit, if limit < left.length then (left.take limit).getLast?.map token else none)

/-- All the items of at most `fuel` pages; `none` where that was not the end. -/
def follow (fetch : Option σ → Except ε (List β × Option σ)) :
    ℕ → Option σ → Except ε (Option (List β))
  | 0, _ => .ok none
  | fuel + 1, cursor => do
    let (items, next) ← fetch cursor
    match next with
    | none => pure (some items)
    | some token => do
      let rest ← follow fetch fuel (some token)
      pure (rest.map (items ++ ·))

variable {fetch : Option σ → Except ε (List β × Option σ)} {limit : ℕ} {token : β → σ}
  {items : List β}

/-- From any cursor that is answered by the front of what is left. -/
theorem follow_suffix (hlimit : 0 < limit)
    (hnext : ∀ front x left, items = front ++ x :: left →
      fetch (some (token x)) = .ok (page limit token left))
    {front left : List β} (hitems : items = front ++ left) {cursor : Option σ}
    (hcursor : fetch cursor = .ok (page limit token left)) {fuel : ℕ} (hfuel : left.length < fuel) :
    follow fetch fuel cursor = .ok (some left) := by
  -- by induction on the fuel: a page that has a next one takes at least one item off
  induction fuel generalizing front left cursor with
  | zero => omega
  | succ fuel ih =>
    by_cases hmore : limit < left.length
    · obtain ⟨shown, x, hshown⟩ : ∃ shown x, left.take limit = shown ++ [x] := by
        have hne : left.take limit ≠ [] := by
          intro h
          have := congrArg List.length h
          rw [List.length_take, List.length_nil] at this
          omega
        exact ⟨_, _, (List.dropLast_append_getLast hne).symm⟩
      have hleft : left = shown ++ x :: left.drop limit := by
        conv_lhs => rw [← List.take_append_drop limit left, hshown]
        simp
      have hsplit : items = (front ++ shown) ++ x :: left.drop limit := by
        rw [hitems]
        conv_lhs => rw [hleft]
        simp
      have hitems' : items = (front ++ shown ++ [x]) ++ left.drop limit := by
        rw [hsplit]
        simp
      have hrest := ih hitems' (hnext _ _ _ hsplit) (by rw [List.length_drop]; omega)
      have hpage : page limit token left = (left.take limit, some (token x)) := by
        rw [page, if_pos hmore, hshown]
        simp
      rw [follow, hcursor, hpage]
      simp only [bind, Except.bind, hrest, pure, Except.pure, Option.map_some]
      rw [List.take_append_drop]
    · have hpage : page limit token left = (left, none) := by
        rw [page, if_neg hmore, List.take_of_length_le (by omega)]
      rw [follow, hcursor, hpage]
      rfl

/-- **Following the tokens returns the whole list**, of a service that answers the first question by the front
of the list and every token by the front of what comes after its item. -/
theorem follow_eq (hlimit : 0 < limit) (hfirst : fetch none = .ok (page limit token items))
    (hnext : ∀ front x left, items = front ++ x :: left →
      fetch (some (token x)) = .ok (page limit token left))
    {fuel : ℕ} (hfuel : items.length < fuel) : follow fetch fuel none = .ok (some items) :=
  follow_suffix hlimit hnext (List.nil_append items).symm hfirst hfuel

end Follow

/-! ### Newest first -/

section Sorted

variable {α κ : Type} [LinearOrder κ] (key : α → κ)

/-- The rows by descending key. -/
def newestFirst (rows : List α) : List α := rows.insertionSort fun a b => key b ≤ key a

@[simp] theorem mem_newestFirst {rows : List α} {x : α} : x ∈ newestFirst key rows ↔ x ∈ rows :=
  List.mem_insertionSort _

@[simp] theorem length_newestFirst (rows : List α) :
    (newestFirst key rows).length = rows.length :=
  List.length_insertionSort _ _

variable {key}

/-- Keys that are told apart are in strictly decreasing order. -/
theorem pairwise_newestFirst {rows : List α} (hkey : (rows.map key).Nodup) :
    (newestFirst key rows).Pairwise fun a b => key b < key a := by
  have hnodup : ((newestFirst key rows).map key).Nodup :=
    ((List.perm_insertionSort _ rows).map key).nodup_iff.mpr hkey
  have hle : (newestFirst key rows).Pairwise fun a b => key b ≤ key a := by
    have : Std.Total fun a b : α => key b ≤ key a := ⟨fun a b => le_total _ _⟩
    have : IsTrans α fun a b => key b ≤ key a := ⟨fun a b c h1 h2 => h2.trans h1⟩
    exact List.pairwise_insertionSort _ rows
  have hne : (newestFirst key rows).Pairwise fun a b => key a ≠ key b :=
    List.pairwise_map.mp hnodup
  exact (hle.and hne).imp fun h => lt_of_le_of_ne h.1 (Ne.symm h.2)

/-- Selecting before the rows are ordered is selecting after. -/
theorem newestFirst_filter {rows : List α} (hkey : (rows.map key).Nodup) (p : α → Bool) :
    newestFirst key (rows.filter p) = (newestFirst key rows).filter p := by
  have hsub : ((rows.filter p).map key).Nodup :=
    (List.filter_sublist.map key).nodup hkey
  have hperm : (newestFirst key (rows.filter p)).Perm ((newestFirst key rows).filter p) :=
    (List.perm_insertionSort _ _).trans ((List.perm_insertionSort _ rows).symm.filter p)
  refine hperm.eq_of_pairwise (fun a b _ _ h1 h2 => absurd h1 (lt_asymm h2))
    (pairwise_newestFirst hsub) ((pairwise_newestFirst hkey).filter p)

/-- **What comes after an item is what is smaller.** -/
theorem filter_lt_eq {front left : List α} {x : α}
    (h : (front ++ x :: left).Pairwise fun a b => key b < key a) :
    (front ++ x :: left).filter (fun a => key a < key x) = left := by
  obtain ⟨-, hleft, hfront⟩ := List.pairwise_append.mp h
  have h1 : front.filter (fun a => decide (key a < key x)) = [] := by
    refine List.filter_eq_nil_iff.mpr fun a ha => ?_
    have := hfront a ha x (by simp)
    simpa using this.le
  have h2 : left.filter (fun a => decide (key a < key x)) = left := by
    refine List.filter_eq_self.mpr fun a ha => ?_
    simpa using (List.pairwise_cons.mp hleft).1 a ha
  rw [List.filter_append, h1, List.filter_cons_of_neg (by simp), h2, List.nil_append]

/-! ### Running sums -/

variable (key) in
/-- **The sum up to a row is the sum before a window and the window's own sum up to the row.** -/
theorem journalSum_window (amount : α → ℤ) (rows : List α) {lo k hi : κ} (hlo : lo ≤ k)
    (hhi : k ≤ hi) :
    journalSum amount (rows.filter fun a => key a < lo) +
        journalSum amount (rows.filter fun a => (lo ≤ key a ∧ key a ≤ hi) ∧ key a ≤ k) =
      journalSum amount (rows.filter fun a => key a ≤ k) := by
  have h := journalSum_filter_add amount (fun a => decide (key a < lo))
    (rows.filter fun a => decide (key a ≤ k))
  rw [List.filter_filter, List.filter_filter] at h
  rw [← h]
  congr 2
  · refine List.filter_congr fun a _ => ?_
    have : key a < lo → key a ≤ k := fun hlt => hlt.le.trans hlo
    simp only [Bool.and_eq_decide, decide_eq_decide, decide_eq_true_eq]
    tauto
  · refine List.filter_congr fun a _ => ?_
    have : key a ≤ k → key a ≤ hi := fun hle => hle.trans hhi
    simp only [Bool.and_eq_decide, decide_eq_decide, decide_eq_true_eq, Bool.not_eq_true',
      decide_eq_false_iff_not, not_lt]
    tauto

end Sorted

end Keyset
