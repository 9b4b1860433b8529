import Marketplace.Wallet.Service

/-!
# What the seller of a promo order is paid

The buyer of a promo order pays the list price less a discount, and at settlement the platform adds
its share of the discount (`promoSubsidy`), less a fee, so that the seller is where they would be
had the buyer paid the list price. `listPart` is the part of the list price that is left after
refunds: the remaining escrow and the share together (`remaining_add_share`).

The fee on the share is not the percentage of the share. It is the share's proportion of a fee
whose decimals were cut off before, so the seller is paid as if the two amounts together had the
rate of the cut fee (`fee_add_shareFee`): never less than at list price (`listNet_le_settlementNet`),
and more by what was cut off, multiplied by `listPart / remaining`. `paidAsListed_iff` says exactly
when that stays within two đồng; a discount of at most half the list price is
always enough (`cutWithin_of_le`).
-/

namespace Marketplace

open Arith

section Amounts

variable {discount total remaining fee : ℤ}

/-! ### The share -/

/-- The part of the list price that is left once refunds are taken off. -/
def listPart (discount total remaining : ℤ) : ℤ := (total + discount) * remaining / total

theorem promoSubsidy_eq (hd : 0 ≤ discount) (ht : 0 < total) (hr : 0 < remaining) :
    promoSubsidy discount total remaining fee =
      (discount * remaining / total, discount * remaining / total * fee / remaining) := by
  rw [promoSubsidy]
  split_ifs with h
  · obtain rfl : discount = 0 := by omega
    simp
  · rfl

/-- The remaining escrow and the share are the remaining part of the list price. -/
theorem remaining_add_share (ht : 0 < total) :
    remaining + discount * remaining / total = listPart discount total remaining := by
  have h : (total + discount) * remaining = discount * remaining + total * remaining := by ring
  rw [listPart, h, Int.add_mul_ediv_left _ _ ht.ne']
  omega

theorem remaining_le_listPart (hd : 0 ≤ discount) (ht : 0 < total) (hr : 0 < remaining) :
    remaining ≤ listPart discount total remaining := by
  have hshare : 0 ≤ discount * remaining / total :=
    Int.ediv_nonneg (mul_nonneg hd hr.le) ht.le
  have : remaining + discount * remaining / total = listPart discount total remaining :=
    remaining_add_share ht
  omega

theorem share_mono {remaining' fee' : ℤ} (hd : 0 ≤ discount) (ht : 0 < total)
    (hr : 0 ≤ remaining) (hle : remaining ≤ remaining') :
    (promoSubsidy discount total remaining fee).1 ≤
      (promoSubsidy discount total remaining' fee').1 := by
  rcases hr.eq_or_lt with rfl | hr
  · -- nothing is left, so there is no share
    have h0 : (promoSubsidy discount total 0 fee).1 = 0 := by simp [promoSubsidy]
    rw [h0, promoSubsidy]
    split_ifs with h
    · exact le_refl 0
    · push Not at h
      exact Int.ediv_nonneg (mul_nonneg h.1.le h.2.1.le) h.2.2.le
  · rw [promoSubsidy_eq hd ht hr, promoSubsidy_eq hd ht (hr.trans_le hle)]
    exact Int.ediv_le_ediv ht (mul_le_mul_of_nonneg_left hle hd)

/-- The fee on the share does not exceed it, as the fee does not exceed what it is taken from. -/
theorem shareFee_le (hd : 0 ≤ discount) (ht : 0 < total) (hr : 0 < remaining)
    (hfee : fee ≤ remaining) :
    (promoSubsidy discount total remaining fee).2 ≤
      (promoSubsidy discount total remaining fee).1 := by
  rw [promoSubsidy_eq hd ht hr]
  refine Int.ediv_le_of_le_mul hr ?_
  have hshare : 0 ≤ discount * remaining / total :=
    Int.ediv_nonneg (mul_nonneg hd hr.le) ht.le
  exact mul_le_mul_of_nonneg_left hfee hshare

/-- **Both fees together are the cut fee's rate on the part of the list price that is left.** -/
theorem fee_add_shareFee (hd : 0 ≤ discount) (ht : 0 < total) (hr : 0 < remaining) :
    fee + (promoSubsidy discount total remaining fee).2 =
      listPart discount total remaining * fee / remaining := by
  have h : listPart discount total remaining * fee =
      discount * remaining / total * fee + remaining * fee := by
    rw [← remaining_add_share ht]
    ring
  rw [promoSubsidy_eq hd ht hr, h, Int.add_mul_ediv_left _ _ hr.ne']
  omega

end Amounts

/-! ### Against the list price -/

/-- What `release_escrow` pays the seller: the escrow less the fee, and the share less its fee. -/
def settlementNet (discount total remaining fee : ℤ) : ℤ :=
  let (share, shareFee) := promoSubsidy discount total remaining fee
  remaining - fee + share - shareFee

/-- What the seller would be paid had the buyer paid `gross`. -/
def listNet (gross : ℤ) (feePercent : ℚ) : ℤ := gross - percentOf gross feePercent

/-- The decimals cut off the fee on the remaining amount, scaled up to the remaining part of the
list price. -/
def cutScaled (discount total remaining : ℤ) (feePercent : ℚ) : ℚ :=
  Int.fract ((remaining : ℚ) * feePercent / 100) * listPart discount total remaining / remaining

/-- The scaled cut is at most `k` đồng and the decimals that the fee at list price would lose. -/
def CutWithin (k discount total remaining : ℤ) (feePercent : ℚ) : Prop :=
  cutScaled discount total remaining feePercent ≤
    k + Int.fract ((listPart discount total remaining : ℚ) * feePercent / 100)

instance (k discount total remaining : ℤ) (feePercent : ℚ) :
    Decidable (CutWithin k discount total remaining feePercent) := by
  unfold CutWithin
  infer_instance

section Net

variable {discount total remaining : ℤ} {feePercent : ℚ}

theorem cutScaled_nonneg (hd : 0 ≤ discount) (ht : 0 < total) (hr : 0 < remaining) :
    0 ≤ cutScaled discount total remaining feePercent := by
  have hpart : (0 : ℚ) ≤ listPart discount total remaining := by
    exact_mod_cast hr.le.trans (remaining_le_listPart hd ht hr)
  have hrem : (0 : ℚ) ≤ remaining := by exact_mod_cast hr.le
  exact div_nonneg (mul_nonneg (Int.fract_nonneg _) hpart) hrem

/-- The seller is paid the list price's net and, on top, what the two fees are short of
the fee at list price. -/
theorem settlementNet_sub_listNet (hd : 0 ≤ discount) (ht : 0 < total) (hr : 0 < remaining) :
    settlementNet discount total remaining (percentOf remaining feePercent) -
        listNet (listPart discount total remaining) feePercent =
      ⌊(listPart discount total remaining : ℚ) * feePercent / 100⌋ -
        ⌊(listPart discount total remaining : ℚ) * feePercent / 100 -
          cutScaled discount total remaining feePercent⌋ := by
  set part := listPart discount total remaining with hpart
  set fee := percentOf remaining feePercent with hfee
  have hsum : fee + (promoSubsidy discount total remaining fee).2 = part * fee / remaining :=
    fee_add_shareFee hd ht hr
  have hpaid : remaining + discount * remaining / total = listPart discount total remaining :=
    remaining_add_share ht
  have hshare : (promoSubsidy discount total remaining fee).1 = discount * remaining / total := by
    rw [promoSubsidy_eq hd ht hr]
  -- the cut fee is the exact one less its decimals, at the scale of the list price too
  have hscaled : ((part * fee : ℤ) : ℚ) / remaining =
      (part : ℚ) * feePercent / 100 - cutScaled discount total remaining feePercent := by
    have hrem : (remaining : ℚ) ≠ 0 := by exact_mod_cast hr.ne'
    have hfloor : (fee : ℚ) =
        remaining * feePercent / 100 - Int.fract ((remaining : ℚ) * feePercent / 100) := by
      rw [hfee, percentOf_eq_floor]
      exact eq_sub_of_add_eq (Int.floor_add_fract _)
    rw [cutScaled, ← hpart, Int.cast_mul, hfloor]
    field_simp
  rw [← hscaled, ← ediv_eq_floor _ hr, ← percentOf_eq_floor, ← hsum, settlementNet, listNet]
  dsimp only
  rw [hshare]
  omega

/-- **The seller is never paid less than at list price.** -/
theorem listNet_le_settlementNet (hd : 0 ≤ discount) (ht : 0 < total) (hr : 0 < remaining) :
    listNet (listPart discount total remaining) feePercent ≤
      settlementNet discount total remaining (percentOf remaining feePercent) := by
  have hcut : 0 ≤ cutScaled discount total remaining feePercent := cutScaled_nonneg hd ht hr
  have hfloor := Int.floor_le_floor (show
    (listPart discount total remaining : ℚ) * feePercent / 100 -
      cutScaled discount total remaining feePercent ≤
        (listPart discount total remaining : ℚ) * feePercent / 100 by linarith)
  rw [← sub_nonneg, settlementNet_sub_listNet hd ht hr]
  omega

theorem settlementNet_le_iff (hd : 0 ≤ discount) (ht : 0 < total) (hr : 0 < remaining) (k : ℤ) :
    settlementNet discount total remaining (percentOf remaining feePercent) -
        listNet (listPart discount total remaining) feePercent ≤ k ↔
      CutWithin k discount total remaining feePercent := by
  rw [settlementNet_sub_listNet hd ht hr, floor_sub_floor_le_iff, CutWithin]

/-- A discount of at most what the buyer paid is harmless: the part of the list price is then at
most twice the remaining amount. -/
theorem cutWithin_of_le (hd : 0 ≤ discount) (ht : 0 < total) (hr : 0 < remaining)
    (hle : discount ≤ total) : CutWithin 2 discount total remaining feePercent := by
  have hpart : listPart discount total remaining ≤ 2 * remaining := by
    refine Int.ediv_le_of_le_mul ht ?_
    nlinarith
  have hrem : (0 : ℚ) < remaining := by exact_mod_cast hr
  have hpart' : (listPart discount total remaining : ℚ) ≤ 2 * remaining := by exact_mod_cast hpart
  have h0 : (0 : ℚ) ≤ listPart discount total remaining := by
    exact_mod_cast hr.le.trans (remaining_le_listPart hd ht hr)
  have hcut : cutScaled discount total remaining feePercent ≤ 2 := by
    rw [cutScaled, div_le_iff₀ hrem]
    have hlt := (Int.fract_lt_one ((remaining : ℚ) * feePercent / 100)).le
    calc Int.fract ((remaining : ℚ) * feePercent / 100) * listPart discount total remaining
        ≤ 1 * listPart discount total remaining := mul_le_mul_of_nonneg_right hlt h0
      _ ≤ 2 * remaining := by rw [one_mul]; exact hpart'
  have hfract := Int.fract_nonneg ((listPart discount total remaining : ℚ) * feePercent / 100)
  rw [CutWithin]
  push_cast
  linarith

end Net

/-! ### The settlement as a whole -/

/-- The settlement of an order with a promo pays the seller as if the buyer had paid the
list price: the fee on the share is between zero and the share, the share between it and the
discount and no smaller for a smaller refund, and the net is that of the list price up to
two đồng. -/
def PaidAsListed (discount total refunded : ℤ) (feePercent : ℚ) : Prop :=
  ∃ remaining fee, escrowSettlement total refunded feePercent = some (remaining, fee) ∧
    0 ≤ (promoSubsidy discount total remaining fee).2 ∧
    (promoSubsidy discount total remaining fee).2 ≤ (promoSubsidy discount total remaining fee).1 ∧
    (promoSubsidy discount total remaining fee).1 ≤ discount ∧
    (∀ refunded' remaining' fee', refunded ≤ refunded' →
      escrowSettlement total refunded' feePercent = some (remaining', fee') →
      (promoSubsidy discount total remaining' fee').1 ≤
        (promoSubsidy discount total remaining fee).1) ∧
    |settlementNet discount total remaining fee -
      listNet (remaining + (promoSubsidy discount total remaining fee).1) feePercent| ≤ 2

theorem escrowSettlement_of_valid {total refunded : ℤ} {feePercent : ℚ} (hr : 0 ≤ refunded)
    (hle : refunded ≤ total) (h0 : 0 ≤ feePercent) (h1 : feePercent ≤ 100) :
    escrowSettlement total refunded feePercent =
      some (total - refunded, percentOf (total - refunded) feePercent) := by
  rw [escrowSettlement, if_neg (by omega), if_neg (by simp [h0, h1])]

/-- **Up to two đồng exactly where the scaled cut is small**; the other bounds always hold. -/
theorem paidAsListed_iff {discount total refunded : ℤ} {feePercent : ℚ} (hd : 0 ≤ discount)
    (ht : 1 ≤ total) (hr : 0 ≤ refunded) (hlt : refunded < total) (h0 : 0 ≤ feePercent)
    (h1 : feePercent ≤ 100) :
    PaidAsListed discount total refunded feePercent ↔
      CutWithin 2 discount total (total - refunded) feePercent := by
  have htotal : 0 < total := by omega
  have hrem : 0 < total - refunded := by omega
  have hsettled := escrowSettlement_of_valid hr hlt.le h0 h1
  obtain ⟨-, -, hfee, hfee'⟩ := escrowSettlement_eq_some hsettled
  have hshare : total - refunded + (promoSubsidy discount total (total - refunded)
      (percentOf (total - refunded) feePercent)).1 =
        listPart discount total (total - refunded) := by
    rw [promoSubsidy_eq hd htotal hrem]
    exact remaining_add_share htotal
  have hnet : listNet (listPart discount total (total - refunded)) feePercent ≤
      settlementNet discount total (total - refunded)
        (percentOf (total - refunded) feePercent) := listNet_le_settlementNet hd htotal hrem
  rw [← settlementNet_le_iff hd htotal hrem]
  constructor
  · rintro ⟨remaining, fee, hsome, -, -, -, -, habs⟩
    obtain ⟨rfl, rfl⟩ : total - refunded = remaining ∧
        percentOf (total - refunded) feePercent = fee := by simpa [hsettled] using hsome
    rw [hshare] at habs
    exact (abs_le.mp habs).2
  · intro hle
    refine ⟨_, _, hsettled, promoSubsidy_nonneg hfee, shareFee_le hd htotal hrem hfee',
      promoSubsidy_le hd (by omega), ?_, ?_⟩
    · intro refunded' remaining' fee' hle' hsettled'
      obtain ⟨rfl, hrem', -, -⟩ := escrowSettlement_eq_some hsettled'
      exact share_mono hd htotal hrem' (by omega)
    · rw [hshare, abs_le]
      constructor <;> omega

theorem paidAsListed_half_price : PaidAsListed 50000 50000 0 5 :=
  (paidAsListed_iff (by decide) (by decide) (by decide) (by decide) (by norm_num)
    (by norm_num)).mpr (cutWithin_of_le (by decide) (by decide) (by decide) (by decide))

/-- A list price of 50000 đồng with 49999 off: the one đồng left has no fee, so the share has none
either, and the seller is paid 2500 đồng too much. -/
theorem paidAsListed_one_dong : ¬ PaidAsListed 49999 1 0 5 := by
  rintro ⟨remaining, fee, hsome, -, -, -, -, habs⟩
  have hsettled : escrowSettlement 1 0 5 = some (1, 0) := by
    rw [escrowSettlement_of_valid (by decide) (by decide) (by norm_num) (by norm_num)]
    norm_num [percentOf]
  obtain ⟨rfl, rfl⟩ : 1 = remaining ∧ 0 = fee := by simpa [hsettled] using hsome
  norm_num [settlementNet, listNet, promoSubsidy, percentOf] at habs

end Marketplace
