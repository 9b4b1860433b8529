import Mathlib.Data.Int.Notation
import Mathlib.Data.List.Infix
import Marketplace.Js.Map
import Marketplace.Protocol.Events

/-!
# Sharing the rotation of a refresh token

When an access token has expired, all calls of a page ask for the same rotation, and a second use of a
rotated refresh token ends the session. `createRefreshCoalescer` keeps two maps around `rotate()`: the
rotations in flight, and for `graceMs` the outcomes of those that succeeded.

A call is one step, from the clock it reads to what it returns or starts: nothing comes between, as there is no
`await` in it. `rotate()` can throw in this step. When the promise it gave is settled, the
rest of the rotation is one more step. The machine keeps all rotations there have been, with how many
others have succeeded since each was started; the code has the maps only.
-/

namespace Marketplace.Bff

open Protocol

/-- `RefreshCoalescerOptions`. -/
structure CoalescerOptions where
  graceMs : ℤ
  maxEntries : ℕ

/-- An outcome that is replayed, and until when. -/
structure Remembered (T : Type) where
  value : T
  expiresAt : ℤ

/-- What the closure keeps; a promise is told by the number of its rotation. -/
structure Coalescer (κ T : Type) where
  inFlight : Js.Map κ ℕ
  remembered : Js.Map κ (Remembered T)

/-- What a call returns: the promise of a rotation, or an outcome. -/
inductive Answer (T : Type)
  | shares (rotation : ℕ)
  | replays (value : T)

/-- Whether `rotate()` gives a promise or throws at once. -/
inductive Launch
  | pending
  | throws

/-- How the promise of `rotate()` is settled. -/
inductive Ending (T : Type)
  | resolved (outcome : T)
  | rejected

/-- Where a rotation stands. -/
inductive RotationStatus (T : Type)
  | running
  | succeeded (outcome : T) (completedAt : ℤ)
  | failed

/-- A rotation there has been. -/
structure Rotation (κ T : Type) where
  key : κ
  succeeded : T → Bool
  status : RotationStatus T
  /-- How many other rotations have succeeded since this one was started. -/
  others : ℕ

/-- The coalescer, the last reading of the clock, and what there has been. -/
structure CoalescerRun (κ T : Type) extends Coalescer κ T where
  clock : ℤ
  rotations : List (Rotation κ T)
  answers : List (Answer T)

/-- What comes in. -/
inductive CoalescerEvent (τ T : Type)
  | call (time : ℤ) (refreshToken : τ) (launch : Launch) (succeeded : T → Bool)
  | settle (time : ℤ) (rotation : ℕ) (ending : Ending T)

variable {τ κ T : Type} [DecidableEq κ]

/-- The test at which the loop of `forgetExpired` breaks. -/
def staysRemembered (options : CoalescerOptions) (time : ℤ) (e : κ × Remembered T) (size : ℕ) : Bool :=
  time < e.2.expiresAt ∧ size < options.maxEntries

/-- `forgetExpired`. -/
def forgetExpired (options : CoalescerOptions) (time : ℤ) (remembered : Js.Map κ (Remembered T)) :
    Js.Map κ (Remembered T) :=
  remembered.forget (staysRemembered options time)

/-- Where a rotation stands after the call that started it. -/
def Launch.status : Launch → RotationStatus T
  | .pending => .running
  | .throws => .failed

/-- The entries of `inFlight` after `rotation` is made: the `finally` of a rotation that throws at once is over
by then, and deletes nothing. -/
def Launch.enter (launch : Launch) (key : κ) (n : ℕ) (inFlight : Js.Map κ ℕ) : Js.Map κ ℕ :=
  match launch with
  | .pending => inFlight.set key n
  | .throws => (inFlight.delete key).set key n

/-- A call with the key of its token. -/
def CoalescerRun.called (options : CoalescerOptions) (time : ℤ) (key : κ) (launch : Launch)
    (succeeded : T → Bool) (s : CoalescerRun κ T) : CoalescerRun κ T :=
  let remembered := forgetExpired options time s.remembered
  match (remembered.get? key).filter fun recent => time < recent.expiresAt with
  | some recent =>
    { s with remembered := remembered, clock := time, answers := s.answers ++ [.replays recent.value] }
  | none =>
    match s.inFlight.get? key with
    | some n => { s with remembered := remembered, clock := time, answers := s.answers ++ [.shares n] }
    | none =>
      { remembered := remembered
        inFlight := launch.enter key s.rotations.length s.inFlight
        clock := time
        rotations := s.rotations ++ [⟨key, succeeded, launch.status, 0⟩]
        answers := s.answers ++ [.shares s.rotations.length] }

/-- What has been, once the rotation has succeeded. -/
def withSuccess (n : ℕ) (outcome : T) (time : ℤ) (rotations : List (Rotation κ T)) : List (Rotation κ T) :=
  rotations.mapIdx fun i r =>
    if i = n then { r with status := .succeeded outcome time } else { r with others := r.others + 1 }

/-- What has been, once the rotation has failed. -/
def withFailure (n : ℕ) (rotations : List (Rotation κ T)) : List (Rotation κ T) :=
  rotations.mapIdx fun i r => if i = n then { r with status := .failed } else r

/-- The outcome is remembered if it is one. -/
def Ending.success? (ending : Ending T) (succeeded : T → Bool) : Option T :=
  match ending with
  | .resolved outcome => if succeeded outcome then some outcome else none
  | .rejected => none

/-- The promise of `rotate()` is settled. -/
def CoalescerRun.settled (options : CoalescerOptions) (time : ℤ) (n : ℕ) (r : Rotation κ T) (ending : Ending T)
    (s : CoalescerRun κ T) : CoalescerRun κ T :=
  match ending.success? r.succeeded with
  | some outcome =>
    { s with
      remembered := s.remembered.set r.key ⟨outcome, time + options.graceMs⟩
      inFlight := s.inFlight.delete r.key
      clock := time
      rotations := withSuccess n outcome time s.rotations }
  | none =>
    { s with
      inFlight := s.inFlight.delete r.key
      clock := time
      rotations := withFailure n s.rotations }

/-- The runs of a coalescer: the clock does not go back, and only a rotation that runs is settled. -/
def coalescerMachine (options : CoalescerOptions) (tokenKey : τ → κ) :
    EventMachine (CoalescerRun κ T) (CoalescerEvent τ T) where
  step s
    | .call time refreshToken launch succeeded =>
      if s.clock ≤ time then some (s.called options time (tokenKey refreshToken) launch succeeded) else none
    | .settle time n ending =>
      if s.clock ≤ time then
        match s.rotations[n]? with
        | some ⟨key, succeeded, .running, others⟩ =>
          some (s.settled options time n ⟨key, succeeded, .running, others⟩ ending)
        | _ => none
      else none

/-- A coalescer that has just been made. -/
def CoalescerRun.fresh (clock : ℤ) : CoalescerRun κ T := ⟨⟨.empty, .empty⟩, clock, [], []⟩

/-! ### What a coalescer is for -/

variable (options : CoalescerOptions) {s s' : CoalescerRun κ T} {time : ℤ} {key : κ}

/-- The rotation runs. -/
def CoalescerRun.Runs (s : CoalescerRun κ T) (n : ℕ) (key : κ) : Prop :=
  ∃ r, s.rotations[n]? = some r ∧ r.key = key ∧ r.status = .running

/-- The outcome of the rotation is to be replayed at this time: it succeeded, less than `graceMs` ago, and fewer
than `maxEntries` others succeeded since it was started. -/
def Rotation.Replayable (r : Rotation κ T) (time : ℤ) (outcome : T) : Prop :=
  ∃ completedAt, r.status = .succeeded outcome completedAt ∧ time < completedAt + options.graceMs ∧
    r.others < options.maxEntries

/-- At most one rotation of a token runs at a time, and `maxEntries` bounds what is remembered. -/
structure CoalescerRun.Safe (s : CoalescerRun κ T) : Prop where
  once : ∀ m n key, s.Runs m key → s.Runs n key → m = n
  bounded : s.remembered.size ≤ options.maxEntries

/-- A call is answered with the outcome of the rotation that runs or is to be replayed, without a second one; it is
given a rotation that runs or that it starts itself, or the outcome of one that succeeded less than
`graceMs` ago. -/
structure AnsweredWell (time : ℤ) (key : κ) (s s' : CoalescerRun κ T) : Prop where
  shared : ∀ n, s.Runs n key → s'.rotations = s.rotations ∧ s'.answers = s.answers ++ [.shares n]
  replayed : ∀ r ∈ s.rotations, ∀ outcome, r.key = key → r.Replayable options time outcome →
    s'.rotations = s.rotations ∧ s'.answers = s.answers ++ [.replays outcome]
  notFailed : (∃ n, s'.answers = s.answers ++ [.shares n] ∧ (s.Runs n key ∨ n = s.rotations.length)) ∨
    ∃ outcome, s'.answers = s.answers ++ [.replays outcome] ∧ ∃ r ∈ s.rotations, r.key = key ∧
      ∃ completedAt, r.status = .succeeded outcome completedAt ∧ time < completedAt + options.graceMs

/-- `maxEntries` outcomes are remembered, and the oldest of them is still to be replayed. -/
def CoalescerRun.Crowded (s : CoalescerRun κ T) (time : ℤ) : Prop :=
  options.maxEntries ≤ s.remembered.size ∧ ∃ e ∈ s.remembered.entries.head?, ∃ r ∈ s.rotations, ∃ outcome,
    r.key = e.1 ∧ r.Replayable options time outcome

/-- A call under this key calls its `rotate()`: nothing is remembered or in flight under it. -/
def CoalescerRun.Starts (s : CoalescerRun κ T) (time : ℤ) (key : κ) : Prop :=
  ((forgetExpired options time s.remembered).get? key).filter (fun recent => time < recent.expiresAt) = none ∧
    s.inFlight.get? key = none

/-- No `rotate()` throws at once, no call comes while the oldest of `maxEntries` remembered outcomes is still to be
replayed, and no rotation succeeds while `maxEntries` outcomes are remembered. -/
def Unhurried (tokenKey : τ → κ) (s : CoalescerRun κ T) : CoalescerEvent τ T → Prop
  | .call time refreshToken launch _ =>
    (s.Starts options time (tokenKey refreshToken) → launch = .pending) ∧ ¬ s.Crowded options time
  | .settle _ n ending => ∀ r outcome, s.rotations[n]? = some r → ending.success? r.succeeded = some outcome →
    s.remembered.size < options.maxEntries

/-! ### The invariant -/

/-- What holds as long as nothing is hurried. -/
structure CoalescerRun.Inv (s : CoalescerRun κ T) : Prop where
  inFlight : ∀ key n, (key, n) ∈ s.inFlight.entries ↔ s.Runs n key
  /-- A token whose rotation runs has no outcome that is remembered. -/
  apart : ∀ key n e, (key, n) ∈ s.inFlight.entries → (key, e) ∉ s.remembered.entries
  sorted : s.remembered.entries.Pairwise fun e e' => e.2.expiresAt ≤ e'.2.expiresAt
  recent : ∀ e ∈ s.remembered.entries, e.2.expiresAt ≤ s.clock + options.graceMs
  source : ∀ e ∈ s.remembered.entries, ∃ r ∈ s.rotations, r.key = e.1 ∧
    ∃ completedAt, r.status = .succeeded e.2.value completedAt ∧ e.2.expiresAt = completedAt + options.graceMs
  kept : ∀ r ∈ s.rotations, ∀ outcome completedAt, r.status = .succeeded outcome completedAt →
    s.clock < completedAt + options.graceMs → r.others < options.maxEntries →
    (r.key, ⟨outcome, completedAt + options.graceMs⟩) ∈ s.remembered.entries
  bounded : s.remembered.size ≤ options.maxEntries

variable {options}

omit [DecidableEq κ] in
theorem inv_fresh (clock : ℤ) : (CoalescerRun.fresh clock : CoalescerRun κ T).Inv options where
  inFlight key n := by simp [CoalescerRun.fresh, CoalescerRun.Runs]
  apart key n e h := by simp [CoalescerRun.fresh] at h
  sorted := List.Pairwise.nil
  recent e h := by simp [CoalescerRun.fresh] at h
  source e h := by simp [CoalescerRun.fresh] at h
  kept r h := by simp [CoalescerRun.fresh] at h
  bounded := Nat.zero_le _

/-- Two entries of a map under one key are one. -/
theorem CoalescerRun.Inv.safe (hinv : s.Inv options) : s.Safe options where
  once m n key hm hn := by
    have hm := Js.Map.get?_eq_some_iff.mpr ((hinv.inFlight key m).mpr hm)
    have hn := Js.Map.get?_eq_some_iff.mpr ((hinv.inFlight key n).mpr hn)
    exact Option.some.inj (hm.symm.trans hn)
  bounded := hinv.bounded

/-! ### A call -/

omit [DecidableEq κ] in
/-- What is left has not expired. -/
theorem lt_of_mem_forgetExpired (hinv : s.Inv options) {e : κ × Remembered T}
    (he : e ∈ (forgetExpired options time s.remembered).entries) : time < e.2.expiresAt := by
  have hsuffix : (forgetExpired options time s.remembered).entries <:+ s.remembered.entries :=
    Js.Map.keepFrom_suffix _ _
  rcases hentries : (forgetExpired options time s.remembered).entries with _ | ⟨first, rest⟩
  · rw [hentries] at he
    cases he
  have hfirst : time < first.2.expiresAt := by
    have hstays := Js.Map.stays_of_keepFrom_eq_cons hentries
    simp only [staysRemembered, decide_eq_true_eq] at hstays
    exact hstays.1
  -- the entries are in the order in which they expire
  have hsorted := hinv.sorted.sublist hsuffix.sublist
  rw [hentries] at he hsorted
  rcases List.mem_cons.mp he with rfl | he
  · exact hfirst
  · exact Int.lt_of_lt_of_le hfirst ((List.pairwise_cons.mp hsorted).1 e he)

omit [DecidableEq κ] in
/-- **A call forgets nothing that is to be replayed**, unless it finds the map crowded. -/
theorem mem_forgetExpired (hinv : s.Inv options) (hclock : s.clock ≤ time) (hroom : ¬ s.Crowded options time)
    {r : Rotation κ T} {outcome : T} {completedAt : ℤ} (hr : r ∈ s.rotations)
    (hstatus : r.status = .succeeded outcome completedAt) (htime : time < completedAt + options.graceMs)
    (hothers : r.others < options.maxEntries) :
    (r.key, ⟨outcome, completedAt + options.graceMs⟩) ∈
      (forgetExpired options time s.remembered).entries := by
  have hmem := hinv.kept r hr outcome completedAt hstatus (by omega) hothers
  obtain ⟨older, newer, hentries⟩ := List.append_of_mem hmem
  have hsuffix : (r.key, ⟨outcome, completedAt + options.graceMs⟩) :: newer <:+ s.remembered.entries :=
    ⟨older, hentries.symm⟩
  refine Js.Map.mem_keepFrom hsuffix ?_
  simp only [staysRemembered, decide_eq_true_eq]
  refine ⟨htime, ?_⟩
  by_contra hfull
  have hsize : s.remembered.size = older.length + (newer.length + 1) := by
    rw [Js.Map.size, hentries]
    simp
  have hbound := hinv.bounded
  -- only the oldest entry of a full map is behind as many as that
  obtain rfl : older = [] := List.eq_nil_of_length_eq_zero (by omega)
  refine hroom ⟨by omega, (r.key, ⟨outcome, completedAt + options.graceMs⟩), ?_, r, hr, outcome, rfl, completedAt, hstatus, htime, hothers⟩
  rw [hentries]
  rfl

/-- What a call does. -/
theorem called_cases (hinv : s.Inv options) (launch : Launch) (succeeded : T → Bool) :
    (∃ recent, (key, recent) ∈ (forgetExpired options time s.remembered).entries ∧
      s.called options time key launch succeeded =
        { s with
          remembered := forgetExpired options time s.remembered
          clock := time
          answers := s.answers ++ [.replays recent.value] }) ∨
    (∀ recent, (key, recent) ∉ (forgetExpired options time s.remembered).entries) ∧
      ((∃ n, s.Runs n key ∧ s.called options time key launch succeeded =
        { s with
          remembered := forgetExpired options time s.remembered
          clock := time
          answers := s.answers ++ [.shares n] }) ∨
      (∀ n, ¬ s.Runs n key) ∧ s.Starts options time key ∧ s.called options time key launch succeeded =
        { remembered := forgetExpired options time s.remembered
          inFlight := launch.enter key s.rotations.length s.inFlight
          clock := time
          rotations := s.rotations ++ [⟨key, succeeded, launch.status, 0⟩]
          answers := s.answers ++ [.shares s.rotations.length] }) := by
  rcases hget : (forgetExpired options time s.remembered).get? key with _ | recent
  · refine .inr ⟨fun recent hmem => ?_, ?_⟩
    · rw [Js.Map.get?_eq_some_iff.mpr hmem] at hget
      cases hget
    rcases hflight : s.inFlight.get? key with _ | n
    · refine .inr ⟨fun n hn => ?_, ⟨by simp [hget], hflight⟩, by simp [CoalescerRun.called, hget, hflight]⟩
      rw [Js.Map.get?_eq_some_iff.mpr ((hinv.inFlight key n).mpr hn)] at hflight
      cases hflight
    · exact .inl ⟨n, (hinv.inFlight key n).mp (Js.Map.get?_eq_some_iff.mp hflight),
        by simp [CoalescerRun.called, hget, hflight]⟩
  · have hmem := Js.Map.get?_eq_some_iff.mp hget
    have htime : time < recent.expiresAt := lt_of_mem_forgetExpired hinv hmem
    exact .inl ⟨recent, hmem, by simp [CoalescerRun.called, hget, Option.filter, htime]⟩

omit [DecidableEq κ] in
/-- To forget what has expired keeps the invariant. -/
theorem CoalescerRun.Inv.forgotten (hinv : s.Inv options) (hclock : s.clock ≤ time)
    (hroom : ¬ s.Crowded options time) (answers : List (Answer T)) :
    ({ s with
      remembered := forgetExpired options time s.remembered
      clock := time
      answers := answers } : CoalescerRun κ T).Inv options := by
  have hsuffix : (forgetExpired options time s.remembered).entries <:+ s.remembered.entries :=
    Js.Map.keepFrom_suffix _ _
  refine ⟨hinv.inFlight, ?_, hinv.sorted.sublist hsuffix.sublist, ?_, ?_, ?_, ?_⟩
  · exact fun key n e h he => hinv.apart key n e h (hsuffix.subset he)
  · intro e he
    have hrecent := hinv.recent e (hsuffix.subset he)
    show e.2.expiresAt ≤ time + options.graceMs
    omega
  · exact fun e he => hinv.source e (hsuffix.subset he)
  · exact fun r hr outcome completedAt hstatus htime hothers =>
      mem_forgetExpired hinv hclock hroom hr hstatus htime hothers
  · exact hsuffix.length_le.trans hinv.bounded

omit [DecidableEq κ] in
/-- A rotation that is started runs beside those that run. -/
theorem runs_append {r : Rotation κ T} {rotations : List (Rotation κ T)} (hrotations : s'.rotations = rotations ++ [r])
    (hr : r.status = .running) {n : ℕ} {key : κ} :
    s'.Runs n key ↔ (∃ r, rotations[n]? = some r ∧ r.key = key ∧ r.status = .running) ∨
      n = rotations.length ∧ r.key = key := by
  rw [CoalescerRun.Runs, hrotations]
  rcases Nat.lt_trichotomy n rotations.length with hn | rfl | hn
  · rw [List.getElem?_append_left hn]
    simp [hn.ne]
  · simp [hr]
  · rw [List.getElem?_eq_none (by simp; omega), List.getElem?_eq_none (by omega)]
    simp [hn.ne']

/-- **A call keeps the invariant**, if its `rotate()` does not throw at once and the map is not crowded. -/
theorem CoalescerRun.Inv.called (hinv : s.Inv options) (hclock : s.clock ≤ time) (hroom : ¬ s.Crowded options time)
    {key : κ} {launch : Launch} (hlaunch : s.Starts options time key → launch = .pending) (succeeded : T → Bool) :
    (s.called options time key launch succeeded).Inv options := by
  obtain ⟨recent, -, heq⟩ | ⟨hnone, ⟨n, -, heq⟩ | ⟨-, hstarts, heq⟩⟩ := called_cases hinv launch succeeded
  · rw [heq]
    exact hinv.forgotten hclock hroom _
  · rw [heq]
    exact hinv.forgotten hclock hroom _
  · obtain rfl := hlaunch hstarts
    rw [heq]
    have hkept := hinv.forgotten hclock hroom s.answers
    have hentries : (Launch.pending.enter key s.rotations.length s.inFlight).entries =
        s.inFlight.entries ++ [(key, s.rotations.length)] := Js.Map.entries_set hstarts.2
    refine ⟨fun key' n => ?_, fun key' n e h => ?_, hkept.sorted, hkept.recent, ?_, ?_, hkept.bounded⟩
    · rw [runs_append rfl rfl]
      simp only [hentries, List.mem_append, List.mem_singleton, Prod.mk.injEq, hinv.inFlight key' n,
        CoalescerRun.Runs]
      refine or_congr_right ⟨?_, ?_⟩
      · rintro ⟨rfl, rfl⟩
        exact ⟨rfl, rfl⟩
      · rintro ⟨rfl, rfl⟩
        exact ⟨rfl, rfl⟩
    · simp only [hentries, List.mem_append, List.mem_singleton, Prod.mk.injEq] at h
      rcases h with h | ⟨rfl, -⟩
      · exact hkept.apart key' n e h
      · exact hnone e
    · intro e he
      obtain ⟨r, hr, hsource⟩ := hkept.source e he
      exact ⟨r, List.mem_append_left _ hr, hsource⟩
    · intro r hr outcome completedAt hstatus
      rcases List.mem_append.mp hr with hr | hr
      · exact hkept.kept r hr outcome completedAt hstatus
      · obtain rfl := List.mem_singleton.mp hr
        cases hstatus

/-- **A call is answered well** in a state with the invariant. -/
theorem answeredWell_called (hinv : s.Inv options) (hclock : s.clock ≤ time) (hroom : ¬ s.Crowded options time)
    (key : κ) (launch : Launch) (succeeded : T → Bool) :
    AnsweredWell options time key s (s.called options time key launch succeeded) := by
  have hreplay : ∀ r ∈ s.rotations, ∀ outcome, r.key = key → r.Replayable options time outcome →
      ∃ expiresAt, (key, ⟨outcome, expiresAt⟩) ∈ (forgetExpired options time s.remembered).entries := by
    rintro r hr outcome rfl ⟨completedAt, hstatus, htime, hothers⟩
    exact ⟨_, mem_forgetExpired hinv hclock hroom hr hstatus htime hothers⟩
  have hsuffix : (forgetExpired options time s.remembered).entries <:+ s.remembered.entries :=
    Js.Map.keepFrom_suffix _ _
  obtain ⟨recent, hmem, heq⟩ | ⟨hnone, ⟨n, hn, heq⟩ | ⟨hnot, -, heq⟩⟩ := called_cases hinv launch succeeded
  · rw [heq]
    refine ⟨fun n hn => ?_, fun r hr outcome hkey hr' => ?_, .inr ⟨recent.value, rfl, ?_⟩⟩
    · exact absurd (hsuffix.subset hmem) (hinv.apart key n recent ((hinv.inFlight key n).mpr hn))
    · -- there is one entry under the key
      obtain ⟨expiresAt, hmem'⟩ := hreplay r hr outcome hkey hr'
      have hone := Js.Map.get?_eq_some_iff.mpr hmem
      rw [Js.Map.get?_eq_some_iff.mpr hmem'] at hone
      obtain rfl := Option.some.inj hone
      exact ⟨rfl, rfl⟩
    · obtain ⟨r, hr, hkey, completedAt, hstatus, hexpires⟩ := hinv.source _ (hsuffix.subset hmem)
      have htime : time < recent.expiresAt := lt_of_mem_forgetExpired hinv hmem
      have hexpires : recent.expiresAt = completedAt + options.graceMs := hexpires
      exact ⟨r, hr, hkey, completedAt, hstatus, by omega⟩
  · rw [heq]
    refine ⟨fun m hm => ⟨rfl, ?_⟩, fun r hr outcome hkey hr' => ?_, .inl ⟨n, rfl, .inl hn⟩⟩
    · rw [hinv.safe.once m n key hm hn]
    · obtain ⟨expiresAt, hmem⟩ := hreplay r hr outcome hkey hr'
      exact absurd hmem (hnone _)
  · rw [heq]
    refine ⟨fun n hn => absurd hn (hnot n), fun r hr outcome hkey hr' => ?_, .inl ⟨_, rfl, .inr rfl⟩⟩
    obtain ⟨expiresAt, hmem⟩ := hreplay r hr outcome hkey hr'
    exact absurd hmem (hnone _)

/-! ### The end of a rotation -/

/-- The rotation that is settled runs no longer, the others go on. -/
theorem runs_settled {n : ℕ} {r : Rotation κ T} (hr : s.rotations[n]? = some r) (ending : Ending T) {m : ℕ} :
    (s.settled options time n r ending).Runs m key ↔ m ≠ n ∧ s.Runs m key := by
  have hrotations : (∃ outcome, (s.settled options time n r ending).rotations =
        withSuccess n outcome time s.rotations) ∨
      (s.settled options time n r ending).rotations = withFailure n s.rotations := by
    rw [CoalescerRun.settled]
    split
    next outcome _ => exact .inl ⟨outcome, rfl⟩
    next => exact .inr rfl
  simp only [CoalescerRun.Runs]
  rcases eq_or_ne m n with rfl | hne
  · rcases hrotations with ⟨outcome, heq⟩ | heq
    · simp [heq, withSuccess, hr]
    · simp [heq, withFailure, hr]
  · rcases hrotations with ⟨outcome, heq⟩ | heq
    · simp [heq, withSuccess, hne]
    · simp [heq, withFailure, hne]

/-- The maps and the rotations that run, after a rotation is settled. -/
theorem CoalescerRun.Inv.inFlight_settled (hinv : s.Inv options) {n : ℕ} {r : Rotation κ T}
    (hr : s.rotations[n]? = some r) (hrunning : r.status = .running) (ending : Ending T) (key : κ) (m : ℕ) :
    (key, m) ∈ (s.inFlight.delete r.key).entries ↔ (s.settled options time n r ending).Runs m key := by
  have hn : s.Runs n r.key := ⟨r, hr, rfl, hrunning⟩
  rw [Js.Map.mem_entries_delete, runs_settled hr, hinv.inFlight key m]
  constructor
  · rintro ⟨hm, hkey⟩
    refine ⟨?_, hm⟩
    rintro rfl
    obtain ⟨r', hr', rfl, -⟩ := hm
    obtain rfl := Option.some.inj (hr.symm.trans hr')
    exact hkey rfl
  · rintro ⟨hne, hm⟩
    refine ⟨hm, ?_⟩
    rintro rfl
    exact hne (hinv.safe.once m n r.key hm hn)

omit [DecidableEq κ] in
theorem of_mem_withFailure {n : ℕ} {rotations : List (Rotation κ T)} {r : Rotation κ T}
    (hr : r ∈ withFailure n rotations) : r.status = .failed ∨ r ∈ rotations := by
  obtain ⟨i, hi, rfl⟩ := List.mem_mapIdx.mp hr
  split
  next => exact .inl rfl
  next => exact .inr (List.getElem_mem hi)

omit [DecidableEq κ] in
theorem of_mem_withSuccess {n : ℕ} {outcome : T} {rotations : List (Rotation κ T)} {r : Rotation κ T}
    (hr : r ∈ withSuccess n outcome time rotations) :
    (∃ r', rotations[n]? = some r' ∧ r = { r' with status := .succeeded outcome time }) ∨
      ∃ r' ∈ rotations, r = { r' with others := r'.others + 1 } := by
  obtain ⟨i, hi, rfl⟩ := List.mem_mapIdx.mp hr
  split
  next h =>
    subst h
    exact .inl ⟨_, List.getElem?_eq_getElem hi, rfl⟩
  next => exact .inr ⟨_, List.getElem_mem hi, rfl⟩

omit [DecidableEq κ] in
/-- A rotation with an outcome is not the one that is being settled. -/
theorem exists_getElem_ne {n : ℕ} {value : T} {completedAt : ℤ} {rotations : List (Rotation κ T)}
    {r r' : Rotation κ T} (hn : rotations[n]? = some r') (hrunning : r'.status = .running)
    (hr : r ∈ rotations) (hstatus : r.status = .succeeded value completedAt) :
    ∃ i, ∃ hi : i < rotations.length, i ≠ n ∧ rotations[i] = r := by
  obtain ⟨i, hi, rfl⟩ := List.mem_iff_getElem.mp hr
  refine ⟨i, hi, ?_, rfl⟩
  rintro rfl
  rw [List.getElem?_eq_getElem hi] at hn
  obtain rfl := Option.some.inj hn
  rw [hrunning] at hstatus
  cases hstatus

/-- **The end of a rotation keeps the invariant**, if there is room for an outcome. -/
theorem CoalescerRun.Inv.settled (hinv : s.Inv options) (hclock : s.clock ≤ time) {n : ℕ} {r : Rotation κ T}
    (hr : s.rotations[n]? = some r) (hrunning : r.status = .running) (ending : Ending T)
    (hroom : ∀ outcome, ending.success? r.succeeded = some outcome → s.remembered.size < options.maxEntries) :
    (s.settled options time n r ending).Inv options := by
  have hflight : ∀ key m, (key, m) ∈ (s.inFlight.delete r.key).entries ↔
      (s.settled options time n r ending).Runs m key := hinv.inFlight_settled hr hrunning ending
  have hmem : (r.key, n) ∈ s.inFlight.entries := (hinv.inFlight r.key n).mpr ⟨r, hr, rfl, hrunning⟩
  rw [CoalescerRun.settled] at hflight ⊢
  rcases hending : ending.success? r.succeeded with _ | outcome
  · -- nothing is remembered of it
    rw [hending] at hflight
    refine ⟨hflight, fun key m e h => ?_, hinv.sorted, fun e he => ?_, fun e he => ?_, ?_, hinv.bounded⟩
    · exact hinv.apart key m e (Js.Map.mem_entries_delete.mp h).1
    · have hrecent := hinv.recent e he
      show e.2.expiresAt ≤ time + options.graceMs
      omega
    · obtain ⟨r', hr', hkey, completedAt, hstatus, hexpires⟩ := hinv.source e he
      obtain ⟨i, hi, hne, rfl⟩ := exists_getElem_ne hr hrunning hr' hstatus
      exact ⟨_, List.mem_mapIdx.mpr ⟨i, hi, if_neg hne⟩, hkey, completedAt, hstatus, hexpires⟩
    · intro r' hr' value completedAt hstatus htime hothers
      rcases of_mem_withFailure hr' with hfailed | hr'
      · rw [hfailed] at hstatus
        cases hstatus
      · exact hinv.kept r' hr' value completedAt hstatus (Int.lt_of_le_of_lt hclock htime) hothers
  · -- the outcome comes last, and the others are one success older
    rw [hending] at hflight
    have hentries : (s.remembered.set r.key ⟨outcome, time + options.graceMs⟩).entries =
        s.remembered.entries ++ [(r.key, ⟨outcome, time + options.graceMs⟩)] := by
      refine Js.Map.entries_set (Js.Map.get?_eq_none_iff.mpr fun hkey => ?_)
      obtain ⟨⟨_, e⟩, he, rfl⟩ := List.mem_map.mp hkey
      exact hinv.apart _ n e hmem he
    have hrecent : ∀ e ∈ s.remembered.entries, e.2.expiresAt ≤ time + options.graceMs := by
      intro e he
      have hle := hinv.recent e he
      omega
    refine ⟨hflight, ?_, ?_, ?_, ?_, ?_, ?_⟩
    · intro key m e h he
      obtain ⟨hm, hne⟩ := Js.Map.mem_entries_delete.mp h
      simp only [hentries, List.mem_append, List.mem_singleton, Prod.mk.injEq] at he
      rcases he with he | ⟨hkey, -⟩
      · exact hinv.apart key m e hm he
      · exact hne hkey
    · simp only [hentries, List.pairwise_append, List.mem_singleton]
      refine ⟨hinv.sorted, List.pairwise_singleton _ _, ?_⟩
      rintro e he _ rfl
      exact hrecent e he
    · intro e he
      simp only [hentries, List.mem_append, List.mem_singleton] at he
      rcases he with he | rfl
      · exact hrecent e he
      · exact Int.le_refl _
    · intro e he
      simp only [hentries, List.mem_append, List.mem_singleton] at he
      rcases he with he | rfl
      · obtain ⟨r', hr', hkey, completedAt, hstatus, hexpires⟩ := hinv.source e he
        obtain ⟨i, hi, hne, rfl⟩ := exists_getElem_ne hr hrunning hr' hstatus
        exact ⟨_, List.mem_mapIdx.mpr ⟨i, hi, if_neg hne⟩, hkey, completedAt, hstatus, hexpires⟩
      · obtain ⟨hi, rfl⟩ := List.getElem?_eq_some_iff.mp hr
        exact ⟨_, List.mem_mapIdx.mpr ⟨n, hi, if_pos rfl⟩, rfl, time, rfl, rfl⟩
    · intro r' hr' value completedAt hstatus htime hothers
      simp only [hentries, List.mem_append, List.mem_singleton]
      rcases of_mem_withSuccess hr' with ⟨r'', hr'', rfl⟩ | ⟨r'', hr'', rfl⟩
      · obtain rfl := Option.some.inj (hr.symm.trans hr'')
        obtain ⟨rfl, rfl⟩ := RotationStatus.succeeded.inj hstatus
        exact .inr rfl
      · have hothers : r''.others + 1 < options.maxEntries := hothers
        exact .inl (hinv.kept r'' hr'' value completedAt hstatus (Int.lt_of_le_of_lt hclock htime) (by omega))
    · show (s.remembered.set r.key ⟨outcome, time + options.graceMs⟩).entries.length ≤ options.maxEntries
      have hlt : s.remembered.entries.length < options.maxEntries := hroom outcome hending
      rw [hentries, List.length_append, List.length_singleton]
      omega

/-! ### Runs -/

variable {tokenKey : τ → κ} {e : CoalescerEvent τ T}

theorem inv_step (hinv : s.Inv options) (he : Unhurried options tokenKey s e)
    (hstep : (coalescerMachine options tokenKey).step s e = some s') : s'.Inv options := by
  cases e with
  | call time refreshToken launch succeeded =>
    obtain ⟨hclock, hs'⟩ := Option.ite_none_right_eq_some.mp hstep
    obtain rfl := Option.some.inj hs'
    exact hinv.called hclock he.2 he.1 succeeded
  | settle time n ending =>
    obtain ⟨hclock, hs'⟩ := Option.ite_none_right_eq_some.mp hstep
    split at hs'
    next key succeeded others hr =>
      obtain rfl := Option.some.inj hs'
      exact hinv.settled hclock hr rfl ending fun outcome => he _ outcome hr
    next => cases hs'

/-- **One rotation for all calls of a page**: in every run in which no `rotate()` throws at once, no call finds the
map crowded and no rotation succeeds with the map full, at most one rotation of a token runs at a time, the map is
bounded, and every call is answered with the outcome that runs or is to be replayed, and never
with a failure that came before it. -/
theorem rotates_once {clock : ℤ}
    (hrun : (coalescerMachine options tokenKey).Runs (Unhurried options tokenKey) (.fresh clock) s) :
    s.Safe options ∧ ∀ time refreshToken launch succeeded,
      Unhurried options tokenKey s (.call time refreshToken launch succeeded) →
      (coalescerMachine options tokenKey).step s (.call time refreshToken launch succeeded) = some s' →
        AnsweredWell options time (tokenKey refreshToken) s s' := by
  have hinv : s.Inv options := hrun.invariant (fun _ _ _ => inv_step) (inv_fresh clock)
  refine ⟨hinv.safe, fun time refreshToken launch succeeded he hstep => ?_⟩
  obtain ⟨hclock, hs'⟩ := Option.ite_none_right_eq_some.mp hstep
  obtain rfl := Option.some.inj hs'
  exact answeredWell_called hinv hclock he.2 (tokenKey refreshToken) launch succeeded

/-- An outcome that is not zero is a success. -/
def isPositive (outcome : ℕ) : Bool := 0 < outcome

/-- The runs of a coalescer that remembers `maxEntries` outcomes for ten seconds. -/
def tenSeconds (maxEntries : ℕ) : EventMachine (CoalescerRun ℕ ℕ) (CoalescerEvent ℕ ℕ) :=
  coalescerMachine ⟨10000, maxEntries⟩ id

/-- A page that asks twice while the rotation runs and once after it. -/
theorem rotates_once_page :
    ∃ s, (tenSeconds 2).Runs (Unhurried ⟨10000, 2⟩ id) (.fresh 0) s ∧
      ∃ s', (tenSeconds 2).step s (.call 2 7 .pending isPositive) = some s' ∧
        AnsweredWell ⟨10000, 2⟩ 2 7 s s' := by
  let s₁ : CoalescerRun ℕ ℕ := (CoalescerRun.fresh 0).called ⟨10000, 2⟩ 0 7 .pending isPositive
  let s₂ := s₁.called ⟨10000, 2⟩ 1 7 .pending isPositive
  let s₃ := s₂.settled ⟨10000, 2⟩ 2 0 ⟨7, isPositive, .running, 0⟩ (.resolved 1)
  have hempty : ∀ s : CoalescerRun ℕ ℕ, ∀ time, s.remembered.size < 2 → ¬ s.Crowded ⟨10000, 2⟩ time :=
    fun s time hsize h => absurd h.1 (Nat.not_le.mpr hsize)
  have hrun : (tenSeconds 2).Runs (Unhurried ⟨10000, 2⟩ id) (.fresh 0) s₃ := by
    refine .tail (.tail (.tail (.refl) ⟨.call 0 7 .pending isPositive, ?_, rfl⟩)
      ⟨.call 1 7 .pending isPositive, ?_, rfl⟩) ⟨.settle 2 0 (.resolved 1), ?_, rfl⟩
    · exact ⟨fun _ => rfl, hempty _ _ (by decide)⟩
    · exact ⟨fun _ => rfl, hempty _ _ (by decide)⟩
    · exact fun _ _ _ _ => by decide
  refine ⟨s₃, hrun, _, rfl, (rotates_once hrun).2 2 7 .pending isPositive ?_ rfl⟩
  exact ⟨fun _ => rfl, hempty _ _ (by decide)⟩

/-- A `rotate()` that throws at once is replayed to the next call; with room for one outcome, a call forgets the
one it asks for, and two rotations that run at a time are both remembered. -/
theorem throw_sticks_and_outcome_lost :
    (∃ s s', (tenSeconds 1).Runs (fun _ _ => True) (.fresh 0) s ∧
      (tenSeconds 1).step s (.call 0 7 .pending isPositive) = some s' ∧
      s.rotations.map Rotation.status = [.failed] ∧ ¬ AnsweredWell ⟨10000, 1⟩ 0 7 s s') ∧
    (∃ s s', (tenSeconds 1).Runs (fun _ _ => True) (.fresh 0) s ∧
      (tenSeconds 1).step s (.call 1 7 .pending isPositive) = some s' ∧
      s.rotations.map Rotation.status = [.succeeded 1 0] ∧ ¬ AnsweredWell ⟨10000, 1⟩ 1 7 s s') ∧
    ∃ s, (tenSeconds 1).Runs (fun _ _ => True) (.fresh 0) s ∧ s.remembered.size = 2 := by
  let s₀ : CoalescerRun ℕ ℕ := .fresh 0
  let s₁ := s₀.called ⟨10000, 1⟩ 0 7 .throws isPositive
  let s₂ := s₀.called ⟨10000, 1⟩ 0 7 .pending isPositive
  let s₃ := s₂.settled ⟨10000, 1⟩ 0 0 ⟨7, isPositive, .running, 0⟩ (.resolved 1)
  refine ⟨⟨s₁, _, ?_, rfl, rfl, fun h => ?_⟩, ⟨s₃, _, ?_, rfl, rfl, fun h => ?_⟩, ?_⟩
  · exact .single ⟨.call 0 7 .throws isPositive, trivial, rfl⟩
  · rcases h.notFailed with ⟨n, hanswers, hn⟩ | ⟨outcome, hanswers, -⟩
    · obtain rfl : n = 0 := by
        have hlast := congrArg List.getLast? hanswers
        exact (Answer.shares.inj (Option.some.inj hlast)).symm
      rcases hn with ⟨r, hr, -, hrunning⟩ | hn
      · obtain rfl := Option.some.inj hr
        cases hrunning
      · cases hn
    · have hlast := Option.some.inj (congrArg List.getLast? hanswers)
      cases hlast
  · exact .tail (.single ⟨.call 0 7 .pending isPositive, trivial, rfl⟩)
      ⟨.settle 0 0 (.resolved 1), trivial, rfl⟩
  · have hone := (h.replayed _ List.mem_cons_self 1 rfl ⟨0, rfl, by decide, by decide⟩).1
    exact absurd (congrArg List.length hone) (by decide)
  · refine EventMachine.exists_of_play (M := tenSeconds 1) (fun _ _ => true) (fun _ _ _ => trivial)
      [.call 0 7 .pending isPositive, .call 0 8 .pending isPositive, .settle 0 0 (.resolved 1),
        .settle 0 1 (.resolved 1)] ?_
    decide

end Marketplace.Bff
