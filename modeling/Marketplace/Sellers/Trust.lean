import Marketplace.Arith.Rounding
import Marketplace.Python.Json
import Marketplace.Sellers.TierAuto

/-!
# The trust criteria

`sellers/trust.py`: the settings an admin may save, the score of a seller, and the criteria of the tiers.
Percentages are exact here, and rounded where the code rounds them: the criteria of a tier compare the
dispute rate rounded to two decimals, the daily job compares it as it is. `trustFigures` is what
the job's decision is made of.

The logarithm of the score is left open.
-/

namespace Marketplace

open Python

/-! ### Settings -/

/-- `CRITERIA`. -/
inductive Criterion
  | minGmv | minOrders | minDays | maxDisputePct | maxOneStarPct | minScore
  deriving DecidableEq, Repr

namespace Criterion

/-- The criteria in the order of `CRITERIA`. -/
def all : List Criterion := [.minGmv, .minOrders, .minDays, .maxDisputePct, .maxOneStarPct, .minScore]

/-- The key of the settings. -/
def key : Criterion → String
  | .minGmv => "min_gmv"
  | .minOrders => "min_orders"
  | .minDays => "min_days"
  | .maxDisputePct => "max_dispute_pct"
  | .maxOneStarPct => "max_one_star_pct"
  | .minScore => "min_score"

/-- `KEEP_CRITERIA`. -/
def isKeep : Criterion → Bool
  | .maxDisputePct | .maxOneStarPct | .minScore => true
  | _ => false

/-- `key.startswith("max_")` -/
def isCeiling : Criterion → Bool
  | .maxDisputePct | .maxOneStarPct => true
  | _ => false

/-- `_BOUNDS`; the lower bounds are zero. -/
def bound : Criterion → ℚ
  | .minGmv => 100000000000
  | .minOrders => 10000000
  | .minDays => 3650
  | .maxDisputePct | .maxOneStarPct | .minScore => 100

end Criterion

/-- The criteria of a tier; what is not set is not checked. -/
structure TierCriteria where
  minGmv : Option ℚ
  minOrders : Option ℚ
  minDays : Option ℚ
  maxDisputePct : Option ℚ
  maxOneStarPct : Option ℚ
  minScore : Option ℚ
  deriving DecidableEq, Repr

/-- One criterion of a tier. -/
def TierCriteria.get (c : TierCriteria) : Criterion → Option ℚ
  | .minGmv => c.minGmv
  | .minOrders => c.minOrders
  | .minDays => c.minDays
  | .maxDisputePct => c.maxDisputePct
  | .maxOneStarPct => c.maxOneStarPct
  | .minScore => c.minScore

/-- The points of a part of the score, and where it is empty (`zero_at_pct`) or full (`full_at`). -/
structure ScorePart where
  points : ℤ
  limit : ℚ
  deriving DecidableEq, Repr

/-- `auto`. -/
structure AutoSettings where
  enabled : Bool
  graceDays : ℕ
  disputeMinOrders : ℕ
  deriving DecidableEq, Repr

/-- The settings. -/
structure TrustConfig where
  windowDays : ℤ
  minOrdersForScore : ℤ
  dispute : ScorePart
  oneStar : ScorePart
  gmv : ScorePart
  verified : TierCriteria
  trusted : TierCriteria
  enterprise : TierCriteria
  auto : AutoSettings
  deriving DecidableEq, Repr

/-- `cfg["criteria"].get(tier)` -/
def TrustConfig.criteria (cfg : TrustConfig) : SellerTier → Option TierCriteria
  | .new => none
  | .verified => some cfg.verified
  | .trusted => some cfg.trusted
  | .enterprise => some cfg.enterprise

/-- Why settings are refused. -/
inductive SettingsError
  | required (name : String)
  | notNumber (name : String)
  | outOfBounds (name : String) (low high : ℚ)
  | total (points : ℤ)
  | enabled
  /-- What should be a dict is something else. -/
  | crash
  deriving DecidableEq, Repr

/-- `_number`, of a value that is there. -/
def boundedNumber (name : String) (low high : ℚ) : Json → Except SettingsError ℚ
  | .int n => if low ≤ n ∧ n ≤ high then .ok n else .error (.outOfBounds name low high)
  | .float (.finite q) => if low ≤ q ∧ q ≤ high then .ok q else .error (.outOfBounds name low high)
  | .float _ => .error (.outOfBounds name low high)
  | _ => .error (.notNumber name)

/-- `_number`. -/
def requiredNumber (name : String) (low high : ℚ) (value : Json) : Except SettingsError ℚ :=
  if value.isNull then .error (.required name) else boundedNumber name low high value

/-- `_number(…, nullable=True)`. -/
def nullableNumber (name : String) (low high : ℚ) (value : Json) : Except SettingsError (Option ℚ) :=
  if value.isNull then .ok none else (boundedNumber name low high value).map some

/-- `raw.get(key) or {}`. -/
def section? (raw : List (String × Json)) (key : String) : Except SettingsError (List (String × Json)) :=
  if (Json.get raw key).truthy then
    match Json.get raw key with
    | .obj fields => .ok fields
    | _ => .error .crash
  else .ok []

/-- A part of the score. -/
def validateScorePart (score : List (String × Json)) (part limitKey : String) (low high : ℚ) :
    Except SettingsError ScorePart := do
  let item ← section? score part
  let points ← requiredNumber ("score." ++ part ++ ".points") 0 100 (Json.get item "points")
  let limit ← requiredNumber ("score." ++ part ++ "." ++ limitKey) low high (Json.get item limitKey)
  pure ⟨⌊points⌋, limit⟩

/-- The criteria of a tier. -/
def validateCriteria (criteria : List (String × Json)) (tier : String) : Except SettingsError TierCriteria := do
  let item ← section? criteria tier
  let number (c : Criterion) : Except SettingsError (Option ℚ) :=
    nullableNumber ("criteria." ++ tier ++ "." ++ c.key) 0 c.bound (Json.get item c.key)
  pure ⟨← number .minGmv, ← number .minOrders, ← number .minDays, ← number .maxDisputePct,
    ← number .maxOneStarPct, ← number .minScore⟩

/-- A key of `{**DEFAULT_AUTO, **auto}`. -/
def autoValue (auto : List (String × Json)) (key : String) (default : Json) : Json :=
  (auto.lookup key).getD default

/-- `auto.enabled` -/
def autoEnabled : Json → Except SettingsError Bool
  | .bool b => .ok b
  | _ => .error .enabled

/-- The settings of the job; those saved before it existed have none. -/
def validateAuto (auto : List (String × Json)) : Except SettingsError AutoSettings := do
  let enabled ← autoEnabled (autoValue auto "enabled" (.bool true))
  let graceDays ← requiredNumber "auto.grace_days" 0 365 (autoValue auto "grace_days" (.int 14))
  let disputeMinOrders ←
    requiredNumber "auto.dispute_min_orders" 1 10000 (autoValue auto "dispute_min_orders" (.int 20))
  pure ⟨enabled, ⌊graceDays⌋₊, ⌊disputeMinOrders⌋₊⟩

/-- The points add up to 100. -/
def checkTotal (total : ℤ) : Except SettingsError Unit :=
  if total = 100 then .ok () else .error (.total total)

/-- `validate_config`. -/
def validateConfig (raw : List (String × Json)) : Except SettingsError TrustConfig := do
  let windowDays ← requiredNumber "window_days" 7 365 (Json.get raw "window_days")
  let minOrders ← requiredNumber "min_orders_for_score" 0 10000 (Json.get raw "min_orders_for_score")
  let score ← section? raw "score"
  let dispute ← validateScorePart score "dispute" "zero_at_pct" (1 / 10) 100
  let oneStar ← validateScorePart score "one_star" "zero_at_pct" (1 / 10) 100
  let gmv ← validateScorePart score "gmv" "full_at" 1 100000000000
  checkTotal (dispute.points + oneStar.points + gmv.points)
  let criteria ← section? raw "criteria"
  let verified ← validateCriteria criteria "verified"
  let trusted ← validateCriteria criteria "trusted"
  let enterprise ← validateCriteria criteria "enterprise"
  let auto ← section? raw "auto"
  let auto ← validateAuto auto
  pure ⟨⌊windowDays⌋, ⌊minOrders⌋, dispute, oneStar, gmv, verified, trusted, enterprise, auto⟩

/-! ### What is saved -/

/-- What holds of settings that were accepted. -/
structure TrustConfig.Valid (cfg : TrustConfig) : Prop where
  total : cfg.dispute.points + cfg.oneStar.points + cfg.gmv.points = 100
  criteria : ∀ tier criteria c target, cfg.criteria tier = some criteria → criteria.get c = some target →
    0 ≤ target ∧ target ≤ c.bound
  disputeMinOrders : 1 ≤ cfg.auto.disputeMinOrders

theorem boundedNumber_bounds {name : String} {low high q : ℚ} {value : Json}
    (h : boundedNumber name low high value = .ok q) : low ≤ q ∧ q ≤ high := by
  cases value with
  | int n =>
    simp only [boundedNumber] at h
    split_ifs at h with hb
    exact Except.ok.inj h ▸ hb
  | float x =>
    cases x with
    | finite r =>
      simp only [boundedNumber] at h
      split_ifs at h with hb
      exact Except.ok.inj h ▸ hb
    | inf s => simp [boundedNumber] at h
    | nan => simp [boundedNumber] at h
  | _ => simp [boundedNumber] at h

theorem requiredNumber_bounds {name : String} {low high q : ℚ} {value : Json}
    (h : requiredNumber name low high value = .ok q) : low ≤ q ∧ q ≤ high := by
  rw [requiredNumber] at h
  split_ifs at h
  exact boundedNumber_bounds h

theorem nullableNumber_bounds {name : String} {low high q : ℚ} {value : Json}
    (h : nullableNumber name low high value = .ok (some q)) : low ≤ q ∧ q ≤ high := by
  rw [nullableNumber] at h
  split_ifs at h
  · simp at h
  · cases hb : boundedNumber name low high value with
    | error e => simp [hb, Except.map] at h
    | ok r =>
      simp only [hb, Except.map, Except.ok.injEq, Option.some.injEq] at h
      exact h ▸ boundedNumber_bounds hb

theorem validateCriteria_bounds {raw : List (String × Json)} {tier : String} {criteria : TierCriteria}
    (h : validateCriteria raw tier = .ok criteria) {c : Criterion} {target : ℚ} (hc : criteria.get c = some target) :
    0 ≤ target ∧ target ≤ c.bound := by
  simp only [validateCriteria, bind_eq_ok, pure, Except.pure, Except.ok.injEq] at h
  obtain ⟨item, -, a, ha, b, hb, d, hd, e, he, f, hf, g, hg, rfl⟩ := h
  cases c with
  | minGmv => exact nullableNumber_bounds (ha.trans (congrArg _ hc))
  | minOrders => exact nullableNumber_bounds (hb.trans (congrArg _ hc))
  | minDays => exact nullableNumber_bounds (hd.trans (congrArg _ hc))
  | maxDisputePct => exact nullableNumber_bounds (he.trans (congrArg _ hc))
  | maxOneStarPct => exact nullableNumber_bounds (hf.trans (congrArg _ hc))
  | minScore => exact nullableNumber_bounds (hg.trans (congrArg _ hc))

/-- **What is accepted is valid.** -/
theorem validateConfig_valid {raw : List (String × Json)} {cfg : TrustConfig} (h : validateConfig raw = .ok cfg) :
    cfg.Valid := by
  simp only [validateConfig, bind_eq_ok, pure, Except.pure, Except.ok.injEq] at h
  obtain ⟨w, -, o, -, score, -, dispute, -, oneStar, -, gmv, -, _, htotal, criteria, -, verified, hv, trusted, ht,
    enterprise, he, raw, -, auto, hauto, rfl⟩ := h
  refine ⟨?_, ?_, ?_⟩
  · rw [checkTotal] at htotal
    split_ifs at htotal with hsum
    exact hsum
  · intro tier criteria' c target hcriteria hc
    cases tier with
    | new => simp [TrustConfig.criteria] at hcriteria
    | verified => exact validateCriteria_bounds (hv.trans (congrArg _ (Option.some.inj hcriteria))) hc
    | trusted => exact validateCriteria_bounds (ht.trans (congrArg _ (Option.some.inj hcriteria))) hc
    | enterprise => exact validateCriteria_bounds (he.trans (congrArg _ (Option.some.inj hcriteria))) hc
  · simp only [validateAuto, bind_eq_ok, pure, Except.pure, Except.ok.injEq] at hauto
    obtain ⟨enabled, -, grace, -, least, hleast, rfl⟩ := hauto
    exact Nat.le_floor (by exact_mod_cast (requiredNumber_bounds hleast).1)

/-! ### Figures -/

/-- `Metrics`. -/
structure Metrics where
  gmvLifetime : ℤ
  ordersLifetime : ℤ
  daysSelling : ℤ
  ordersWindow : ℤ
  disputesWindow : ℤ
  reviewsWindow : ℤ
  oneStarWindow : ℤ
  gmvWindow : ℤ
  completedWindow : ℤ
  deriving DecidableEq, Repr

/-- `dispute_pct` -/
def Metrics.disputePct (m : Metrics) : ℚ :=
  if m.ordersWindow = 0 then 0 else 100 * m.disputesWindow / m.ordersWindow

/-- `one_star_pct` -/
def Metrics.oneStarPct (m : Metrics) : ℚ :=
  if m.reviewsWindow = 0 then 0 else 100 * m.oneStarWindow / m.reviewsWindow

/-- `round(q)` -/
def roundWhole (q : ℚ) : ℤ := Arith.roundDiv q.num q.den

/-- `round(q, 2)` -/
def roundCents (q : ℚ) : ℚ := roundWhole (q * 100) / 100

section Score

variable (log1p : ℚ → ℚ)

/-- `score_parts`: dispute, one star, GMV. -/
def scoreParts (m : Metrics) (cfg : TrustConfig) : List ℚ :=
  [cfg.dispute.points * max 0 (1 - m.disputePct / cfg.dispute.limit),
    cfg.oneStar.points * max 0 (1 - m.oneStarPct / cfg.oneStar.limit),
    cfg.gmv.points * min 1 (log1p (max 0 m.gmvWindow / 1000000) / log1p (cfg.gmv.limit / 1000000))]

/-- `trust_score`. -/
def trustScore (m : Metrics) (cfg : TrustConfig) : Option ℤ :=
  if m.completedWindow < cfg.minOrdersForScore then none
  else some ((scoreParts log1p m cfg).map roundWhole).sum

theorem validateScorePart_bounds {score : List (String × Json)} {part limitKey : String} {low high : ℚ} {p : ScorePart}
    (h : validateScorePart score part limitKey low high = .ok p) : 0 ≤ p.points ∧ low ≤ p.limit := by
  simp only [validateScorePart, bind_eq_ok, pure, Except.pure, Except.ok.injEq] at h
  obtain ⟨_, -, points, hpoints, limit, hlimit, rfl⟩ := h
  exact ⟨Int.floor_nonneg.mpr (requiredNumber_bounds hpoints).1, (requiredNumber_bounds hlimit).1⟩

/-- A share of the points is rounded to none below zero and none above the points. -/
theorem roundWhole_bounds {points : ℤ} {share : ℚ} (hp : 0 ≤ points) (h0 : 0 ≤ share) (h1 : share ≤ 1) :
    0 ≤ roundWhole (points * share) ∧ roundWhole (points * share) ≤ points := by
  have hp' : (0 : ℚ) ≤ points := Int.cast_nonneg hp
  have hnum := Rat.num_nonneg.mpr (mul_nonneg hp' h0)
  have hle := (Rat.le_iff _ _).mp (mul_le_of_le_one_right hp' h1)
  have hden : (0 : ℤ) < ((points : ℚ) * share).den := by exact_mod_cast Rat.den_pos _
  have hnear := abs_le.mp (Arith.abs_roundDiv_sub_le (a := ((points : ℚ) * share).num) hden)
  simp only [Rat.den_intCast, Rat.num_intCast, Nat.cast_one, mul_one] at hle
  rw [roundWhole]
  constructor <;> by_contra hlt <;> nlinarith

/-- **A score is between 0 and 100**, whatever settings have been accepted. -/
theorem trustScore_bounds {raw : List (String × Json)} {cfg : TrustConfig} (h : validateConfig raw = .ok cfg)
    (hlog : ∀ x, 0 ≤ x → 0 ≤ log1p x) {m : Metrics} (hdispute : 0 ≤ m.disputePct) (honeStar : 0 ≤ m.oneStarPct)
    {n : ℤ} (hn : trustScore log1p m cfg = some n) : 0 ≤ n ∧ n ≤ 100 := by
  have htotal := (validateConfig_valid h).total
  simp only [validateConfig, bind_eq_ok] at h
  obtain ⟨_, -, _, -, score, -, dispute, hd, oneStar, ho, gmv, hg, _, -, _, -, _, -, _, -, _, -, _, -, _, -, hcfg⟩ := h
  cases hcfg
  obtain ⟨hd0, hdlimit⟩ := validateScorePart_bounds hd
  obtain ⟨ho0, holimit⟩ := validateScorePart_bounds ho
  obtain ⟨hg0, hglimit⟩ := validateScorePart_bounds hg
  have hpct : ∀ {pct limit : ℚ}, 0 ≤ pct → 1 / 10 ≤ limit → max 0 (1 - pct / limit) ≤ 1 := by
    intro pct limit hpct hlimit
    have := div_nonneg hpct (by linarith : 0 ≤ limit)
    exact max_le zero_le_one (by linarith)
  have hshare : 0 ≤ log1p (max 0 (m.gmvWindow : ℚ) / 1000000) / log1p (gmv.limit / 1000000) :=
    div_nonneg (hlog _ (by positivity)) (hlog _ (by linarith))
  have hdpoints := roundWhole_bounds hd0 (le_max_left 0 _) (hpct hdispute hdlimit)
  have hopoints := roundWhole_bounds ho0 (le_max_left 0 _) (hpct honeStar holimit)
  have hgpoints := roundWhole_bounds hg0 (le_min zero_le_one hshare) (min_le_left 1 _)
  rw [trustScore] at hn
  split_ifs at hn
  obtain rfl := Option.some.inj hn
  simp only [scoreParts, List.map_cons, List.map_nil, List.sum_cons, List.sum_nil]
  push_cast at hgpoints ⊢
  dsimp only at htotal
  omega

/-- `_value`. -/
def criterionValue (m : Metrics) (score : Option ℤ) : Criterion → Option ℚ
  | .minGmv => some m.gmvLifetime
  | .minOrders => some m.ordersLifetime
  | .minDays => some m.daysSelling
  | .maxDisputePct => some (roundCents m.disputePct)
  | .maxOneStarPct => some (roundCents m.oneStarPct)
  | .minScore => score.map fun n => (n : ℚ)

/-- `dispute_rate_counts`. -/
def disputeRateCounts (m : Metrics) (cfg : TrustConfig) : Bool :=
  (cfg.auto.disputeMinOrders : ℤ) ≤ m.ordersWindow

/-- A row of `check_criteria`. -/
structure CriterionRow where
  key : Criterion
  value : Option ℚ
  target : ℚ
  met : Option Bool
  keep : Bool
  deriving DecidableEq, Repr

/-- Whether a criterion is met; `none` where there are not enough data. -/
def criterionMet (m : Metrics) (cfg : TrustConfig) (score : Option ℤ) (c : Criterion) (target : ℚ) : Option Bool :=
  match criterionValue m score c with
  | none => none
  | some value =>
    if c = .maxDisputePct ∧ disputeRateCounts m cfg = false then none
    else if c.isCeiling then some (value ≤ target)
    else some (target ≤ value)

/-- The row of a criterion, where there is one. -/
def criterionRow (m : Metrics) (cfg : TrustConfig) (score : Option ℤ) (keepOnly : Bool) (criteria : TierCriteria)
    (c : Criterion) : Option CriterionRow :=
  (criteria.get c).bind fun target =>
    if keepOnly = true ∧ c.isKeep = false then none
    else some ⟨c, criterionValue m score c, target, criterionMet m cfg score c target, c.isKeep⟩

/-- `check_criteria`. -/
def checkCriteria (tier : SellerTier) (m : Metrics) (score : Option ℤ) (cfg : TrustConfig) (keepOnly : Bool) :
    List CriterionRow :=
  match cfg.criteria tier with
  | none => []
  | some criteria => Criterion.all.filterMap (criterionRow m cfg score keepOnly criteria)

/-- `next_tier`. -/
def nextTier : SellerTier → Option SellerTier
  | .new => some .verified
  | .verified => some .trusted
  | .trusted => some .enterprise
  | .enterprise => none

/-- `PROMOTABLE`. -/
def promotable : List SellerTier := [.verified, .trusted]

/-- What `evaluate` answers. -/
structure Evaluation where
  tier : SellerTier
  score : Option ℤ
  scoreParts : Option (List ℤ)
  nextTier : Option SellerTier
  nextTierPromotable : Bool
  criteria : List CriterionRow
  met : ℕ
  eligible : Bool
  atRisk : List CriterionRow
  deriving DecidableEq, Repr

/-- `evaluate`. -/
def evaluate (tier : SellerTier) (m : Metrics) (cfg : TrustConfig) : Evaluation :=
  let score := trustScore log1p m cfg
  let criteria := ((nextTier tier).map fun target => checkCriteria target m score cfg false).getD []
  let isPromotable := decide (∃ target ∈ nextTier tier, target ∈ promotable)
  { tier := tier
    score := score
    scoreParts := score.map fun _ => (scoreParts log1p m cfg).map roundWhole
    nextTier := nextTier tier
    nextTierPromotable := isPromotable
    criteria := criteria
    met := criteria.countP fun row => row.met ≠ some false
    eligible := isPromotable && !criteria.isEmpty && criteria.all fun row => row.met ≠ some false
    atRisk := (checkCriteria tier m score cfg true).filter fun row => row.met = some false }

/-- What the job's decision is made of. -/
def trustFigures (m : Metrics) (cfg : TrustConfig) : TrustFigures where
  disputeRateCounts := disputeRateCounts m cfg
  disputePct := m.disputePct
  maxDisputePct tier := (cfg.criteria tier).bind TierCriteria.maxDisputePct
  failing tier := ((checkCriteria tier m (trustScore log1p m cfg) cfg true).filter fun row =>
    row.met = some false ∧ row.key ≠ .maxDisputePct).map fun row => row.key.key
  eligible tier := if (evaluate log1p tier m cfg).eligible then nextTier tier else none
  graceDays := cfg.auto.graceDays

end Score

end Marketplace
