import Marketplace.Sellers.Trust

/-!
# The tier job, day after day

What `decide` makes of a seller whose figures stay the same. A seller who breaks what the tier asks to be
kept sinks, after the days of grace at the latest (`exists_lower`); one who keeps it rises as long as
the next tier is open, and the day nothing is left to do nothing changes any more.

The danger is a tier that is open to a seller who does not keep it: the seller goes up and down for
good (`alternates`). `settles_iff` says that this is the only one, and when it is there: the criteria of a tier
compare the dispute rate rounded to two decimals, the job compares it as it is. `tiers_follow_figures` is about the
tables that the job leaves.
-/

namespace Marketplace

open Sql

/-! ### Days -/

/-- Where a seller stands. -/
structure TierStanding where
  tier : SellerTier
  atRiskSince : Option ℕ
  deriving DecidableEq, Repr

/-- What a decision makes of it. -/
def TierStanding.next (m : TrustFigures) (locked : Bool) (now : ℕ) (s : TierStanding) : TierStanding where
  tier := (decideSeller s.tier m locked s.atRiskSince now).target.getD s.tier
  atRiskSince :=
    match (decideSeller s.tier m locked s.atRiskSince now).action with
    | .warn => some now
    | _ => if (decideSeller s.tier m locked s.atRiskSince now).clearRisk = true then none else s.atRiskSince

/-- The moment of the job on a day. -/
def dayOf (start n : ℕ) : ℕ := start + n * 86400

/-- Where the seller stands on a day, before the job. -/
def standingOn (m : TrustFigures) (locked : Bool) (start : ℕ) (s : TierStanding) : ℕ → TierStanding
  | 0 => s
  | n + 1 => (standingOn m locked start s n).next m locked (dayOf start n)

/-- The decision of a day. -/
def decisionOn (m : TrustFigures) (locked : Bool) (start : ℕ) (s : TierStanding) (n : ℕ) : TierDecision :=
  decideSeller (standingOn m locked start s n).tier m locked (standingOn m locked start s n).atRiskSince (dayOf start n)

/-- From some day on nothing changes. -/
def Settles (m : TrustFigures) (locked : Bool) (start : ℕ) (s : TierStanding) : Prop :=
  ∃ N, ∀ n, N ≤ n → standingOn m locked start s n = standingOn m locked start s N

/-- A seller who was demoted from a tier is not promoted back to it. -/
def NeverBack (m : TrustFigures) (locked : Bool) (start : ℕ) (s : TierStanding) : Prop :=
  ∀ i j tier, i < j → (decisionOn m locked start s i).action = .demote → (standingOn m locked start s i).tier = tier →
    (decisionOn m locked start s j).action = .promote → (decisionOn m locked start s j).target ≠ some tier

/-! ### What one decision can be -/

/-- The dispute rate is above the ceiling of the tier. -/
def OverCeiling (m : TrustFigures) (tier : SellerTier) : Prop :=
  tier ≠ .new ∧ m.disputeRateCounts = true ∧ ∃ limit ∈ m.maxDisputePct tier, limit < m.disputePct

/-- What `decide` asks of a seller to keep the tier. -/
def KeepsTier (m : TrustFigures) (tier : SellerTier) : Prop := ¬OverCeiling m tier ∧ m.failing tier = []

/-- How the figures of one seller hang together. -/
structure TrustFigures.Sound (m : TrustFigures) : Prop where
  failing_new : m.failing .new = []
  eligible_next : ∀ t T, m.eligible t = some T → nextTier t = some T ∧ T ∈ promotable
  eligible_met : ∀ t T, m.eligible t = some T → m.failing T = []

section Decision

variable {m : TrustFigures} {tier : SellerTier} {since : Option ℕ} {now : ℕ}

theorem decideSeller_of_over (he : tier ≠ .enterprise) (h : OverCeiling m tier) :
    decideSeller tier m false since now =
      ⟨.demote, some (demotionTarget m tier), some "dispute_rate", ["max_dispute_pct"], true⟩ := by
  rw [decideSeller, if_neg (by decide), if_neg he]
  exact if_pos h

theorem decideSeller_of_not_over (he : tier ≠ .enterprise) (h : ¬OverCeiling m tier) :
    decideSeller tier m false since now = decideKeep tier m since now := by
  rw [decideSeller, if_neg (by decide), if_neg he]
  exact if_neg h

theorem decideSeller_of_eligible {T : SellerTier} (he : tier ≠ .enterprise) (h : KeepsTier m tier)
    (hT : m.eligible tier = some T) :
    decideSeller tier m false since now = ⟨.promote, some T, some "promote", [], since.isSome⟩ := by
  rw [decideSeller_of_not_over he h.1]
  simp [decideKeep, h.2, hT]

theorem decideSeller_of_none (he : tier ≠ .enterprise) (h : KeepsTier m tier) (hT : m.eligible tier = none) :
    decideSeller tier m false since now =
      if since.isSome = true then ⟨.clear, none, none, [], true⟩ else .only .keep := by
  rw [decideSeller_of_not_over he h.1]
  simp [decideKeep, h.2, hT]

/-- A demotion says that the tier is not kept. -/
theorem not_keepsTier_of_demote (h : (decideSeller tier m false since now).action = .demote) : ¬KeepsTier m tier := by
  rintro hkeeps
  by_cases he : tier = .enterprise
  · subst he
    rw [decideSeller, if_neg (by decide), if_pos rfl] at h
    simp [TierDecision.only] at h
  cases hT : m.eligible tier with
  | none =>
    rw [decideSeller_of_none he hkeeps hT] at h
    split_ifs at h
    simp [TierDecision.only] at h
  | some T =>
    rw [decideSeller_of_eligible he hkeeps hT] at h
    simp at h

/-- A promotion is one from a tier that is kept into the one that is open. -/
theorem of_promote {T : SellerTier} (h : (decideSeller tier m false since now).action = .promote)
    (hT : (decideSeller tier m false since now).target = some T) :
    tier ≠ .enterprise ∧ KeepsTier m tier ∧ m.eligible tier = some T := by
  by_cases he : tier = .enterprise
  · subst he
    rw [decideSeller, if_neg (by decide), if_pos rfl] at h
    simp [TierDecision.only] at h
  by_cases hover : OverCeiling m tier
  · rw [decideSeller_of_over he hover] at h
    simp at h
  rw [decideSeller_of_not_over he hover] at h hT
  simp only [decideKeep] at h hT
  by_cases hfail : m.failing tier = []
  · simp only [hfail, ne_eq, not_true_eq_false, if_false] at h hT
    cases hel : m.eligible tier with
    | none =>
      rw [hel] at h
      simp only at h
      split_ifs at h
      simp [TierDecision.only] at h
    | some T' =>
      rw [hel] at hT
      exact ⟨he, ⟨hover, hfail⟩, hT⟩
  · simp only [ne_eq, hfail, not_false_eq_true, if_true] at h
    cases since with
    | none => simp at h
    | some t =>
      simp only at h
      split_ifs at h

/-- A demotion for the dispute rate goes down. -/
theorem demotionTarget_verified : demotionTarget m .verified = .new := by
  have horder : (tierOrder.take (tierOrder.idxOf .verified)).reverse = [.new] := by decide
  rw [demotionTarget, horder, List.find?_singleton]
  simp

theorem demotionTarget_trusted : demotionTarget m .trusted =
    if (m.maxDisputePct .verified).all (fun limit => m.disputePct ≤ limit) then .verified else .new := by
  have horder : (tierOrder.take (tierOrder.idxOf .trusted)).reverse = [.verified, .new] := by decide
  rw [demotionTarget, horder, List.find?_cons, List.find?_singleton]
  cases (m.maxDisputePct .verified).all (fun limit => decide (m.disputePct ≤ limit)) <;> simp

end Decision

/-! ### What one day does -/

section Day

variable {m : TrustFigures} {start n now : ℕ} {s : TierStanding}

/-- Nothing the job does on any day changes the standing. -/
def TierStanding.Fixed (m : TrustFigures) (locked : Bool) (s : TierStanding) : Prop := ∀ now, s.next m locked now = s

theorem settles_of_fixed {locked : Bool} (h : (standingOn m locked start s n).Fixed m locked) :
    Settles m locked start s := by
  refine ⟨n, fun k hk => ?_⟩
  induction k, hk using Nat.le_induction with
  | base => rfl
  | succ k _ ih => rw [standingOn, ih, h]

theorem fixed_of_locked : s.Fixed m true := by
  intro now
  rw [TierStanding.next, decideSeller_locked]
  rfl

theorem fixed_enterprise (h : s.tier = .enterprise) : s.Fixed m false := by
  intro now
  rw [TierStanding.next, h, decideSeller, if_neg (by decide), if_pos rfl]
  cases s
  simp_all [TierDecision.only]

/-- A tier that is kept, and nothing open above it: a warning is taken back, and that is all. -/
theorem next_of_none (he : s.tier ≠ .enterprise) (hk : KeepsTier m s.tier) (hT : m.eligible s.tier = none) :
    s.next m false now = ⟨s.tier, none⟩ := by
  rw [TierStanding.next, decideSeller_of_none he hk hT]
  cases hs : s.atRiskSince <;> simp [TierDecision.only]

/-- A tier that is kept, and one open above it. -/
theorem next_of_eligible {T : SellerTier} (he : s.tier ≠ .enterprise) (hk : KeepsTier m s.tier)
    (hT : m.eligible s.tier = some T) : s.next m false now = ⟨T, none⟩ := by
  rw [TierStanding.next, decideSeller_of_eligible he hk hT]
  cases hs : s.atRiskSince <;> simp

theorem next_of_over (he : s.tier ≠ .enterprise) (h : OverCeiling m s.tier) :
    s.next m false now = ⟨demotionTarget m s.tier, none⟩ := by
  rw [TierStanding.next, decideSeller_of_over he h]
  rfl

/-- A seller who fails the tier otherwise is warned, and demoted once the days of grace are over. -/
theorem next_of_failing (he : s.tier ≠ .enterprise) (h : ¬OverCeiling m s.tier) (hf : m.failing s.tier ≠ []) :
    s.next m false now = match s.atRiskSince with
      | none => ⟨s.tier, some now⟩
      | some since =>
        if since + m.graceDays * 86400 ≤ now then ⟨tierBelow s.tier, none⟩ else ⟨s.tier, some since⟩ := by
  rw [TierStanding.next, decideSeller_of_not_over he h]
  simp only [decideKeep, ne_eq, hf, not_false_eq_true, if_true]
  cases hs : s.atRiskSince with
  | none => rfl
  | some since =>
    by_cases hgrace : since + m.graceDays * 86400 ≤ now
    · simp [hgrace]
    · simp [hgrace]

end Day

/-! ### Sinking -/

/-- How high a tier is. -/
def SellerTier.rank : SellerTier → ℕ
  | .new => 0
  | .verified => 1
  | .trusted => 2
  | .enterprise => 3

section Runs

variable {m : TrustFigures} {start : ℕ} {s : TierStanding}

theorem rank_demotionTarget {tier : SellerTier} (hn : tier ≠ .new) (he : tier ≠ .enterprise) :
    (demotionTarget m tier).rank < tier.rank := by
  cases tier with
  | new => exact absurd rfl hn
  | verified =>
    rw [demotionTarget_verified]
    decide
  | trusted =>
    rw [demotionTarget_trusted]
    split_ifs <;> decide
  | enterprise => exact absurd rfl he

theorem rank_tierBelow {tier : SellerTier} (hn : tier ≠ .new) : (tierBelow tier).rank < tier.rank := by
  cases tier with
  | new => exact absurd rfl hn
  | verified | trusted | enterprise => decide

theorem dayOf_succ (n : ℕ) : dayOf start (n + 1) = dayOf start n + 86400 := by
  rw [dayOf, dayOf]
  omega

/-- A seller who is warned sinks when the days of grace are over. -/
theorem exists_lower_of_warned {n since : ℕ} {tier : SellerTier} (hn : tier ≠ .new) (he : tier ≠ .enterprise)
    (hover : ¬OverCeiling m tier) (hf : m.failing tier ≠ [])
    (hs : standingOn m false start s n = ⟨tier, some since⟩) :
    ∃ k, (standingOn m false start s k).tier.rank < tier.rank := by
  induction hleft : since + m.graceDays * 86400 - dayOf start n using Nat.strongRecOn generalizing n with
  | ind left ih =>
    have hday : standingOn m false start s (n + 1) =
        if since + m.graceDays * 86400 ≤ dayOf start n then ⟨tierBelow tier, none⟩ else ⟨tier, some since⟩ := by
      rw [standingOn, hs]
      exact next_of_failing he hover hf
    by_cases hgrace : since + m.graceDays * 86400 ≤ dayOf start n
    · rw [if_pos hgrace] at hday
      refine ⟨n + 1, ?_⟩
      rw [hday]
      exact rank_tierBelow hn
    · rw [if_neg hgrace] at hday
      have hnext : dayOf start (n + 1) = dayOf start n + 86400 := dayOf_succ n
      exact ih _ (by omega) hday rfl

/-- **A tier that is not kept is lost.** -/
theorem exists_lower (hsound : m.Sound) {n : ℕ} (he : (standingOn m false start s n).tier ≠ .enterprise)
    (h : ¬KeepsTier m (standingOn m false start s n).tier) :
    ∃ k, (standingOn m false start s k).tier.rank < (standingOn m false start s n).tier.rank := by
  by_cases hover : OverCeiling m (standingOn m false start s n).tier
  · refine ⟨n + 1, ?_⟩
    rw [standingOn, next_of_over he hover]
    exact rank_demotionTarget hover.1 he
  · have hf : m.failing (standingOn m false start s n).tier ≠ [] := fun hf => h ⟨hover, hf⟩
    have hn : (standingOn m false start s n).tier ≠ .new := fun hn => hf (hn ▸ hsound.failing_new)
    cases hrisk : (standingOn m false start s n).atRiskSince with
    | some since => exact exists_lower_of_warned hn he hover hf (by rw [← hrisk])
    | none =>
      -- The first day brings the warning.
      have hday : standingOn m false start s (n + 1) =
          ⟨(standingOn m false start s n).tier, some (dayOf start n)⟩ := by
        rw [standingOn, next_of_failing he hover hf, hrisk]
      exact exists_lower_of_warned hn he hover hf hday

/-! ### Rising -/

/-- A tier that opens to a seller who keeps the one below is kept. -/
def Lasting (m : TrustFigures) : Prop :=
  ∀ t T, KeepsTier m t → m.eligible t = some T → KeepsTier m T

theorem fixed_of_none (he : s.tier ≠ .enterprise) (hk : KeepsTier m s.tier) (hT : m.eligible s.tier = none)
    (hs : s.atRiskSince = none) : s.Fixed m false := by
  intro now
  rw [next_of_none he hk hT, ← hs]

/-- The highest tier that is open. -/
theorem rank_lt_of_eligible (hsound : m.Sound) {t T : SellerTier} (h : m.eligible t = some T) :
    t.rank < T.rank ∧ T.rank ≤ 2 := by
  obtain ⟨hnext, hprom⟩ := hsound.eligible_next t T h
  cases t <;> simp only [nextTier, Option.some.injEq, reduceCtorEq] at hnext <;> subst hnext <;>
    first | decide | simp [promotable] at hprom

/-- **A seller who keeps the tier rises** until nothing changes any more. -/
theorem exists_fixed_of_keeps (hsound : m.Sound) (hlasting : Lasting m) {n : ℕ}
    (he : (standingOn m false start s n).tier ≠ .enterprise) (hk : KeepsTier m (standingOn m false start s n).tier) :
    ∃ k, (standingOn m false start s k).Fixed m false := by
  induction hleft : 3 - (standingOn m false start s n).tier.rank using Nat.strongRecOn generalizing n with
  | ind left ih =>
    cases hT : m.eligible (standingOn m false start s n).tier with
    | none =>
      refine ⟨n + 1, ?_⟩
      rw [standingOn, next_of_none he hk hT]
      exact fixed_of_none he hk hT rfl
    | some T =>
      have hday : standingOn m false start s (n + 1) = ⟨T, none⟩ := by
        rw [standingOn, next_of_eligible he hk hT]
      obtain ⟨hrank, htop⟩ := rank_lt_of_eligible hsound hT
      have hTe : T ≠ .enterprise := by
        rintro rfl
        exact absurd htop (by decide)
      refine ih (3 - T.rank) (by omega) (n := n + 1) ?_ ?_ ?_ <;> rw [hday]
      · exact hTe
      · exact hlasting _ _ hk hT

/-- **Every seller settles**, if what opens is kept. -/
theorem exists_fixed (hsound : m.Sound) (hlasting : Lasting m) (n : ℕ) :
    ∃ k, (standingOn m false start s k).Fixed m false := by
  induction hrank : (standingOn m false start s n).tier.rank using Nat.strongRecOn generalizing n with
  | ind rank ih =>
    by_cases he : (standingOn m false start s n).tier = .enterprise
    · exact ⟨n, fixed_enterprise he⟩
    by_cases hk : KeepsTier m (standingOn m false start s n).tier
    · exact exists_fixed_of_keeps hsound hlasting he hk
    · obtain ⟨k, hlower⟩ := exists_lower hsound he hk
      exact ih _ (hrank ▸ hlower) k rfl

/-! ### Going up and down -/

variable (start) in
/-- **Where a tier opens that is not kept**, the seller is demoted from it one day and promoted the next, for good. -/
theorem alternates (hsound : m.Sound) {t T : SellerTier} (hk : KeepsTier m t) (hT : m.eligible t = some T)
    (hlost : ¬KeepsTier m T) (k : ℕ) :
    standingOn m false start ⟨T, none⟩ (2 * k) = ⟨T, none⟩ ∧
      standingOn m false start ⟨T, none⟩ (2 * k + 1) = ⟨t, none⟩ := by
  obtain ⟨hnext, hprom⟩ := hsound.eligible_next t T hT
  have hover : OverCeiling m T := by
    by_contra hover
    exact hlost ⟨hover, hsound.eligible_met t T hT⟩
  have he : T ≠ .enterprise := by
    rintro rfl
    simp [promotable] at hprom
  have hte : t ≠ .enterprise := by
    rintro rfl
    simp [nextTier] at hnext
  -- The demotion goes to the tier below, which is kept.
  have htarget : demotionTarget m T = t := by
    cases t with
    | new =>
      obtain rfl : SellerTier.verified = T := by simpa [nextTier] using hnext
      exact demotionTarget_verified
    | verified =>
      obtain rfl : SellerTier.trusted = T := by simpa [nextTier] using hnext
      rw [demotionTarget_trusted, if_pos]
      rw [Option.all_eq_true]
      intro limit hlimit
      rw [decide_eq_true_eq, ← not_lt]
      exact fun hlt => hk.1 ⟨by decide, hover.2.1, limit, hlimit, hlt⟩
    | trusted =>
      obtain rfl : SellerTier.enterprise = T := by simpa [nextTier] using hnext
      exact absurd rfl he
    | enterprise => exact absurd rfl hte
  have hdown : ∀ now, (⟨T, none⟩ : TierStanding).next m false now = ⟨t, none⟩ := fun now => by
    rw [next_of_over he hover, htarget]
  have hup : ∀ now, (⟨t, none⟩ : TierStanding).next m false now = ⟨T, none⟩ := fun now =>
    next_of_eligible hte hk hT
  have heven : standingOn m false start ⟨T, none⟩ (2 * k) = ⟨T, none⟩ := by
    induction k with
    | zero => rfl
    | succ k ih =>
      rw [show 2 * (k + 1) = 2 * k + 1 + 1 by omega, standingOn, standingOn, ih, hdown, hup]
  exact ⟨heven, by rw [standingOn, heven, hdown]⟩

/-- Such a seller never settles. -/
theorem not_settles (hsound : m.Sound) {t T : SellerTier} (hk : KeepsTier m t) (hT : m.eligible t = some T)
    (hlost : ¬KeepsTier m T) : ¬Settles m false start ⟨T, none⟩ := by
  rintro ⟨N, hN⟩
  obtain ⟨heven, hodd⟩ := alternates start hsound hk hT hlost N
  have hsame : (⟨T, none⟩ : TierStanding) = ⟨t, none⟩ := by
    rw [← heven, ← hodd, hN (2 * N) (by omega), hN (2 * N + 1) (by omega)]
  have := rank_lt_of_eligible hsound hT
  rw [(TierStanding.mk.inj hsame).1] at this
  omega

/-- And is promoted back into the tier. -/
theorem not_neverBack (hsound : m.Sound) {t T : SellerTier} (hk : KeepsTier m t) (hT : m.eligible t = some T)
    (hlost : ¬KeepsTier m T) : ¬NeverBack m false start ⟨T, none⟩ := by
  intro hback
  obtain ⟨-, hodd⟩ := alternates start hsound hk hT hlost 0
  obtain ⟨hnext, -⟩ := hsound.eligible_next t T hT
  have hte : t ≠ .enterprise := by
    rintro rfl
    simp [nextTier] at hnext
  have he : T ≠ .enterprise := by
    have := rank_lt_of_eligible hsound hT
    rintro rfl
    exact absurd this.2 (by decide)
  have hover : OverCeiling m T := by
    by_contra hover
    exact hlost ⟨hover, hsound.eligible_met t T hT⟩
  refine hback 0 1 T (by omega) ?_ rfl ?_ ?_
  · rw [decisionOn, standingOn, decideSeller_of_over he hover]
  · rw [decisionOn, hodd, decideSeller_of_eligible hte hk hT]
  · rw [decisionOn, hodd, decideSeller_of_eligible hte hk hT]

/-- **The job settles for every seller, and brings nobody back,** exactly where what opens is kept. -/
theorem settles_iff_lasting (hsound : m.Sound) :
    (∀ locked start s, Settles m locked start s ∧ NeverBack m locked start s) ↔ Lasting m := by
  constructor
  · intro h t T hk hT
    by_contra hlost
    exact not_neverBack hsound hk hT hlost (h false 0 ⟨T, none⟩).2
  · intro hlasting locked start s
    cases locked with
    | true =>
      refine ⟨settles_of_fixed (n := 0) fixed_of_locked, fun i j tier _ hdown => ?_⟩
      rw [decisionOn, decideSeller_locked] at hdown
      simp [TierDecision.only] at hdown
    | false =>
      obtain ⟨k, hfixed⟩ : ∃ k, (standingOn m false start s k).Fixed m false := exists_fixed hsound hlasting 0
      refine ⟨settles_of_fixed hfixed, fun i j tier _ hdown htier hup htarget => ?_⟩
      -- The tier was not kept when it was lost, and is kept when it is won.
      obtain ⟨-, hk, hT⟩ := of_promote hup htarget
      exact not_keepsTier_of_demote hdown (htier ▸ hlasting _ _ hk hT)

end Runs

/-! ### The job -/

section Job

variable {m : TrustFigures} {a now : ℕ} {actorId : Option ℕ} {d d' : TierDb}

/-- Where a seller stands in the database. -/
def TierDb.standing (a : ℕ) (d : TierDb) : Option TierStanding :=
  (d.accounts.get? a).map fun v => ⟨v.sellerTier, (d.states.get? a).bind SellerTierState.atRiskSince⟩

/-- The seller's tier is locked. -/
def TierDb.lockedTier (a : ℕ) (d : TierDb) : Bool := ((d.states.get? a).map SellerTierState.locked).getD false

theorem standing_eq_some {s : TierStanding} : d.standing a = some s ↔
    ∃ v, d.accounts.get? a = some v ∧ s = ⟨v.sellerTier, (d.states.get? a).bind SellerTierState.atRiskSince⟩ := by
  rw [TierDb.standing, Option.map_eq_some_iff]
  exact exists_congr fun v => and_congr_right fun _ => eq_comm

/-- A decision that leaves the seller alone leaves the standing. -/
theorem next_of_alone {s : TierStanding} {locked : Bool}
    (h : (decideSeller s.tier m locked s.atRiskSince now).action = .locked ∨
      (decideSeller s.tier m locked s.atRiskSince now).action = .skip ∨
        (decideSeller s.tier m locked s.atRiskSince now).action = .keep) : s.next m locked now = s := by
  -- Such a decision says nothing else.
  have honly : decideSeller s.tier m locked s.atRiskSince now =
      .only (decideSeller s.tier m locked s.atRiskSince now).action := by
    revert h
    simp only [decideSeller, decideKeep]
    split_ifs <;> (try split) <;> (try split_ifs) <;> simp [TierDecision.only]
  rw [TierStanding.next, honly]
  rcases h with h | h | h <;> rw [h] <;> rfl

/-- The state that is there, or a new one. -/
theorem exists_run_tierState (a : ℕ) (d : TierDb) : ∃ state e, (tierState a).run d = .ok (state, e) ∧
    e.accounts = d.accounts ∧ e.states.get? a = some state ∧
      state.atRiskSince = (d.states.get? a).bind SellerTierState.atRiskSince ∧ state.locked = d.lockedTier a := by
  rw [tierState, Sql.Tx.run_bind, Sql.Tx.run_lock, TierDb.lockedTier]
  dsimp only
  cases hstate : d.states.get? a with
  | some state => exact ⟨state, d, rfl, rfl, hstate, rfl, rfl⟩
  | none =>
    refine ⟨.fresh, TierDb.insertState a .fresh d, rfl, rfl, ?_, rfl, rfl⟩
    rw [TierDb.insertState_states, Table.get?_insert_self hstate]

/-- A change of tier is one of the account's row. -/
theorem exists_run_moveSeller (actorId : Option ℕ) {v : TierAccount} (hv : d.accounts.get? a = some v) (decision : TierDecision) :
    ∃ d', (moveSeller a v decision actorId).run d = .ok ((), d') ∧ d'.states = d.states ∧
      ∃ v', d'.accounts.get? a = some v' ∧ v'.sellerTier = decision.target.getD v.sellerTier := by
  rw [moveSeller]
  cases decision.target with
  | none => exact ⟨d, rfl, rfl, v, hv, rfl⟩
  | some target =>
    dsimp only
    rw [changeSellerTier]
    split_ifs with hsame
    · exact ⟨d, rfl, rfl, v, hv, hsame⟩
    · refine ⟨_, rfl, rfl, { v with sellerTier := target }, ?_, rfl⟩
      rw [TierDb.addEvent_accounts, TierDb.modifyAccount_accounts, Table.get?_modify_self, hv]
      rfl

/-- What the job notes in the state is the warning of the next standing, and no lock. -/
theorem atRiskSince_evaluated (decision : TierDecision) (state : SellerTierState) :
    ((state.evaluated decision now).atRiskSince = match decision.action with
      | .warn => some now
      | _ => if decision.clearRisk = true then none else state.atRiskSince) ∧
      (state.evaluated decision now).locked = state.locked := by
  obtain ⟨action, target, reason, keys, clearRisk⟩ := decision
  cases action <;> cases clearRisk <;> exact ⟨rfl, rfl⟩

/-- **The job does what `decide` says**: its visit leaves the seller where the decision puts them. -/
theorem standing_of_applySeller {s : TierStanding} (hs : d.standing a = some s) :
    ((applySeller a m now actorId).exec d).standing a = some (s.next m (d.lockedTier a) now) ∧
      ((applySeller a m now actorId).exec d).lockedTier a = d.lockedTier a := by
  obtain ⟨v, hv, rfl⟩ := standing_eq_some.mp hs
  let decision := decideSeller v.sellerTier m (d.lockedTier a) ((d.states.get? a).bind SellerTierState.atRiskSince) now
  have hrun : (applySeller a m now actorId).run d =
      if decision.action = .locked ∨ decision.action = .skip ∨ decision.action = .keep
      then (noteEvaluation a (d.states.get? a) now).run d else (actOnSeller a v decision now actorId).run d := by
    rw [applySeller, Sql.Tx.run_bind, Sql.Tx.run_lock, hv]
    exact apply_ite (Sql.Tx.run · d) _ _ _
  rw [Sql.Tx.exec, hrun]
  split_ifs with halone
  · -- The decision leaves the seller alone, and so does the job.
    rw [next_of_alone halone, noteEvaluation, Sql.Tx.run_require_bind]
    cases hstate : d.states.get? a with
    | none =>
      rw [hstate] at hs
      exact ⟨hs, rfl⟩
    | some state =>
      refine ⟨standing_eq_some.mpr ⟨v, hv, ?_⟩, ?_⟩
      · change _ = (⟨_, ((d.states.modify a _).get? a).bind _⟩ : TierStanding)
        rw [Table.get?_modify_self, hstate]
        rfl
      · change Option.getD (((d.states.modify a _).get? a).map _) _ = _
        rw [Table.get?_modify_self, TierDb.lockedTier, hstate]
        rfl
  · obtain ⟨state, e, hstate, haccounts, hrow, hsince, hlocked⟩ := exists_run_tierState a d
    obtain ⟨e', hmove, hstates, v', hv', htier⟩ := exists_run_moveSeller actorId (haccounts ▸ hv) decision
    simp only [actOnSeller, Sql.Tx.run_bind, hstate, hmove, Sql.Tx.run_modify]
    refine ⟨standing_eq_some.mpr ⟨v', hv', ?_⟩, ?_⟩
    · rw [TierDb.modifyState_states, Table.get?_modify_self, hstates, hrow, Option.map_some, Option.bind_some,
        (atRiskSince_evaluated _ _).1, hsince, htier]
      rfl
    · rw [TierDb.lockedTier, TierDb.modifyState_states, Table.get?_modify_self, hstates, hrow, Option.map_some,
        Option.map_some, Option.getD_some, (atRiskSince_evaluated _ _).2, hlocked]

/-- The tables before the job of a day, which visits the seller every day. -/
def TierDb.onDay (a : ℕ) (m : TrustFigures) (start : ℕ) (actorId : Option ℕ) (d : TierDb) : ℕ → TierDb
  | 0 => d
  | n + 1 => (applySeller a m (dayOf start n) actorId).exec (d.onDay a m start actorId n)

/-- Day by day, the tables say what the decisions do. -/
theorem standing_onDay {start : ℕ} {s : TierStanding} (hs : d.standing a = some s) (n : ℕ) :
    (d.onDay a m start actorId n).standing a = some (standingOn m (d.lockedTier a) start s n) ∧
      (d.onDay a m start actorId n).lockedTier a = d.lockedTier a := by
  induction n with
  | zero => exact ⟨hs, rfl⟩
  | succ n ih =>
    refine ⟨(standing_of_applySeller ih.1).1.trans ?_, (standing_of_applySeller ih.1).2.trans ih.2⟩
    rw [ih.2, standingOn]

end Job

/-! ### The criteria -/

section Criteria

variable (log1p : ℚ → ℚ) (m : Metrics) (cfg : TrustConfig)

/-- The rows of a tier are those of its criteria. -/
theorem mem_checkCriteria {tier : SellerTier} {score : Option ℤ} {keepOnly : Bool} {row : CriterionRow} :
    row ∈ checkCriteria tier m score cfg keepOnly ↔ ∃ criteria ∈ cfg.criteria tier, ∃ c target,
      criteria.get c = some target ∧ (keepOnly = true → c.isKeep = true) ∧
        row = ⟨c, criterionValue m score c, target, criterionMet m cfg score c target, c.isKeep⟩ := by
  have hall : ∀ c : Criterion, c ∈ Criterion.all := by
    intro c
    cases c <;> decide
  rw [checkCriteria]
  cases cfg.criteria tier with
  | none => simp
  | some criteria =>
    simp only [List.mem_filterMap, hall, true_and, criterionRow, Option.bind_eq_some_iff, Option.mem_def,
      Option.some.injEq, exists_eq_left']
    refine exists_congr fun c => exists_congr fun target => and_congr_right fun _ => ?_
    by_cases hkeep : keepOnly = true ∧ c.isKeep = false
    · simp [hkeep]
    · rw [if_neg hkeep, Option.some.injEq]
      constructor
      · rintro rfl
        refine ⟨fun hk => ?_, rfl⟩
        by_contra hc
        exact hkeep ⟨hk, by simpa using hc⟩
      · rintro ⟨-, rfl⟩
        rfl

/-- What is not set is not failed. -/
theorem failing_eq_nil_iff {tier : SellerTier} : (trustFigures log1p m cfg).failing tier = [] ↔
    ∀ row ∈ checkCriteria tier m (trustScore log1p m cfg) cfg true, row.key ≠ .maxDisputePct → row.met ≠ some false := by
  simp only [trustFigures, List.map_eq_nil_iff, List.filter_eq_nil_iff, decide_eq_true_eq, not_and]
  exact forall₂_congr fun row _ => ⟨fun h hk hm => h hm hk, fun h hm hk => h hk hm⟩

/-- An open tier is the next one, and every criterion of it that can be checked is met. -/
theorem eligible_eq_some {t T : SellerTier} (h : (trustFigures log1p m cfg).eligible t = some T) :
    nextTier t = some T ∧ T ∈ promotable ∧
      ∀ row ∈ checkCriteria T m (trustScore log1p m cfg) cfg false, row.met ≠ some false := by
  simp only [trustFigures] at h
  split_ifs at h with heligible
  simp only [evaluate, h, Bool.and_eq_true, decide_eq_true_eq, Option.mem_def, Option.some.injEq, exists_eq_left',
    Option.map_some, Option.getD_some, List.all_eq_true] at heligible
  exact ⟨h, heligible.1.1, heligible.2⟩

theorem trustFigures_sound : (trustFigures log1p m cfg).Sound where
  failing_new := rfl
  eligible_next t T h := by
    obtain ⟨hnext, hprom, -⟩ := eligible_eq_some log1p m cfg h
    exact ⟨hnext, hprom⟩
  eligible_met t T h := by
    obtain ⟨-, -, hmet⟩ := eligible_eq_some log1p m cfg h
    rw [failing_eq_nil_iff]
    intro row hrow _
    obtain ⟨criteria, hcriteria, c, target, hget, -, rfl⟩ := (mem_checkCriteria m cfg).mp hrow
    exact hmet _ ((mem_checkCriteria m cfg).mpr ⟨criteria, hcriteria, c, target, hget, by simp, rfl⟩)

/-- The ceiling an open tier has is met by the rate as it is rounded. -/
theorem roundCents_le_of_eligible {t T : SellerTier} {limit : ℚ} (h : (trustFigures log1p m cfg).eligible t = some T)
    (hcounts : disputeRateCounts m cfg = true) (hlimit : (trustFigures log1p m cfg).maxDisputePct T = some limit) :
    roundCents m.disputePct ≤ limit := by
  obtain ⟨-, -, hmet⟩ := eligible_eq_some log1p m cfg h
  obtain ⟨criteria, hcriteria, hget⟩ := Option.bind_eq_some_iff.mp hlimit
  have hrow := hmet _ ((mem_checkCriteria m cfg).mpr ⟨criteria, hcriteria, .maxDisputePct, limit, hget, by simp, rfl⟩)
  simpa [criterionMet, criterionValue, hcounts, Criterion.isCeiling] using hrow

/-- The criteria of a tier are met as far as they can be checked, the dispute rate apart. -/
def MeetsRest (T : SellerTier) : Prop :=
  ∀ row ∈ checkCriteria T m (trustScore log1p m cfg) cfg false, row.key ≠ .maxDisputePct → row.met ≠ some false

/-- A tier with a ceiling opens where the rate as it is rounded and the other criteria let it. -/
theorem eligible_of_rounded {t T : SellerTier} {limit : ℚ} (hnext : nextTier t = some T) (hprom : T ∈ promotable)
    (hrest : MeetsRest log1p m cfg T) (hlimit : (cfg.criteria T).bind TierCriteria.maxDisputePct = some limit)
    (hround : roundCents m.disputePct ≤ limit) : (trustFigures log1p m cfg).eligible t = some T := by
  obtain ⟨criteria, hcriteria, hget⟩ := Option.bind_eq_some_iff.mp hlimit
  have hrow : (_ : CriterionRow) ∈ checkCriteria T m (trustScore log1p m cfg) cfg false := (mem_checkCriteria m cfg).mpr
    ⟨criteria, hcriteria, .maxDisputePct, limit, hget, by simp, rfl⟩
  have hall : ∀ row ∈ checkCriteria T m (trustScore log1p m cfg) cfg false, row.met ≠ some false := by
    intro row hmem
    by_cases hkey : row.key = .maxDisputePct
    · obtain ⟨criteria', hcriteria', c, target, hget', -, rfl⟩ := (mem_checkCriteria m cfg).mp hmem
      obtain rfl : c = .maxDisputePct := hkey
      obtain rfl : criteria' = criteria := Option.some.inj (hcriteria'.symm.trans hcriteria)
      obtain rfl : target = limit := Option.some.inj (hget'.symm.trans hget)
      simp only [criterionMet, criterionValue, Criterion.isCeiling, true_and, if_true, hround, decide_true]
      split_ifs <;> simp
    · exact hrest row hmem hkey
  have hne : checkCriteria T m (trustScore log1p m cfg) cfg false ≠ [] := List.ne_nil_of_mem hrow
  simp only [trustFigures]
  rw [if_pos, hnext]
  simp only [evaluate, hnext, Option.map_some, Option.getD_some, Option.mem_def, Option.some.injEq, exists_eq_left',
    hprom, decide_true, Bool.true_and, Bool.and_eq_true, Bool.not_eq_true', List.isEmpty_eq_false_iff, List.all_eq_true,
    decide_eq_true_eq]
  exact ⟨hne, hall⟩

/-- Rounding does not bring the dispute rate under the ceiling of a tier, where a seller keeps the tier below and
meets the other criteria. -/
def RoundsAlike : Prop :=
  ∀ t T limit, nextTier t = some T → T ∈ promotable → KeepsTier (trustFigures log1p m cfg) t → MeetsRest log1p m cfg T →
    disputeRateCounts m cfg = true → (cfg.criteria T).bind TierCriteria.maxDisputePct = some limit →
      roundCents m.disputePct ≤ limit → m.disputePct ≤ limit

theorem lasting_iff_roundsAlike : Lasting (trustFigures log1p m cfg) ↔ RoundsAlike log1p m cfg := by
  constructor
  · intro h t T limit hnext hprom hk hrest hcounts hlimit hround
    by_contra hlt
    have hn : T ≠ .new := by
      rintro rfl
      simp [promotable] at hprom
    have hT := eligible_of_rounded log1p m cfg hnext hprom hrest hlimit hround
    exact (h t T hk hT).1 ⟨hn, hcounts, limit, hlimit, not_le.mp hlt⟩
  · intro h t T hk hT
    refine ⟨?_, (trustFigures_sound log1p m cfg).eligible_met t T hT⟩
    rintro ⟨-, hcounts, limit, hlimit, hlt⟩
    obtain ⟨hnext, hprom, hmet⟩ := eligible_eq_some log1p m cfg hT
    have hle := h t T limit hnext hprom hk (fun row hrow _ => hmet row hrow) hcounts hlimit
      (roundCents_le_of_eligible log1p m cfg hT hcounts hlimit)
    exact absurd hle (not_le.mpr hlt)

/-- The tiers the job promotes into are not failed the next time. -/
def PromotedKeep : Prop :=
  ∀ t since now T, (decideSeller t (trustFigures log1p m cfg) false since now).action = .promote →
    (decideSeller t (trustFigures log1p m cfg) false since now).target = some T →
      KeepsTier (trustFigures log1p m cfg) T

/-- **The tier job converges** for a seller whose figures stay the same, from every tier and warning, and brings nobody
back to a tier they were demoted from, exactly where rounding does not open a tier whose ceiling the rate is above. -/
theorem settles_iff :
    ((∀ locked start s, Settles (trustFigures log1p m cfg) locked start s ∧
        NeverBack (trustFigures log1p m cfg) locked start s) ∧ PromotedKeep log1p m cfg) ↔ RoundsAlike log1p m cfg := by
  rw [settles_iff_lasting (trustFigures_sound log1p m cfg), ← lasting_iff_roundsAlike]
  constructor
  · exact fun h => h.1
  · intro h
    refine ⟨h, fun t since now T hup htarget => ?_⟩
    obtain ⟨-, hk, hT⟩ := of_promote hup htarget
    exact h t T hk hT

end Criteria

/-! ### A seller between two roundings -/

/-- `DEFAULT_CONFIG`, as it is saved. -/
def defaultSettings : List (String × Python.Json) :=
  [("window_days", .int 90), ("min_orders_for_score", .int 10),
    ("score", .obj
      [("dispute", .obj [("points", .int 40), ("zero_at_pct", .int 10)]),
        ("one_star", .obj [("points", .int 30), ("zero_at_pct", .int 20)]),
        ("gmv", .obj [("points", .int 30), ("full_at", .int 100000000)])]),
    ("criteria", .obj
      [("verified", .obj [("min_gmv", .int 125000000), ("min_orders", .int 20), ("min_days", .int 14),
          ("max_dispute_pct", .int 8), ("max_one_star_pct", .int 10), ("min_score", .int 60)]),
        ("trusted", .obj [("min_gmv", .int 500000000), ("min_orders", .int 200), ("min_days", .int 60),
          ("max_dispute_pct", .int 3), ("max_one_star_pct", .int 5), ("min_score", .int 75)]),
        ("enterprise", .obj [("max_dispute_pct", .int 2), ("max_one_star_pct", .int 3), ("min_score", .int 85)])])]

/-- The settings made of it. -/
def defaultConfig : TrustConfig where
  windowDays := 90
  minOrdersForScore := 10
  dispute := ⟨40, 10⟩
  oneStar := ⟨30, 20⟩
  gmv := ⟨30, 100000000⟩
  verified := ⟨some 125000000, some 20, some 14, some 8, some 10, some 60⟩
  trusted := ⟨some 500000000, some 200, some 60, some 3, some 5, some 75⟩
  enterprise := ⟨none, none, none, some 2, some 3, some 85⟩
  auto := ⟨true, 14, 20⟩

/-- 2001 disputes in 25000 orders, which is 8.004 percent. -/
def swingingSeller : Metrics := ⟨200000000, 25000, 100, 25000, 2001, 0, 0, 100000000, 25000⟩

/-- The default settings give a score. -/
theorem trustScore_bounds_swinging : ∃ n, trustScore id swingingSeller defaultConfig = some n ∧ 0 ≤ n ∧ n ≤ 100 := by
  have hscore : trustScore id swingingSeller defaultConfig = some 68 := by decide +kernel
  have hvalid : validateConfig defaultSettings = .ok defaultConfig := by decide +kernel
  refine ⟨68, hscore, trustScore_bounds id hvalid (fun _ h => h) ?_ ?_ hscore⟩ <;> decide +kernel

/-- The default settings ask for at most 8 percent of a verified seller: rounded, the rate is 8 percent and the tier
opens; as it is, it is above, and the seller is demoted the day after. The share of the GMV is full here, whatever the
logarithm. -/
theorem swings : validateConfig defaultSettings = .ok defaultConfig ∧
    ¬Settles (trustFigures id swingingSeller defaultConfig) false 0 ⟨.verified, none⟩ ∧
      ¬NeverBack (trustFigures id swingingSeller defaultConfig) false 0 ⟨.verified, none⟩ := by
  have hsound := trustFigures_sound id swingingSeller defaultConfig
  have hk : KeepsTier (trustFigures id swingingSeller defaultConfig) .new := ⟨fun h => h.1 rfl, rfl⟩
  have hT : (trustFigures id swingingSeller defaultConfig).eligible .new = some .verified := by decide +kernel
  have hlost : ¬KeepsTier (trustFigures id swingingSeller defaultConfig) .verified := fun h =>
    h.1 ⟨by decide, by decide +kernel, 8, rfl, by decide +kernel⟩
  exact ⟨by decide +kernel, not_settles hsound hk hT hlost, not_neverBack hsound hk hT hlost⟩

end Marketplace
