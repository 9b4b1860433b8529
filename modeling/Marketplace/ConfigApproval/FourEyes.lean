import Marketplace.ConfigApproval.Service
import Marketplace.Sql.Serial

/-!
# Four eyes

`submitChange`, `approve`, `reject`, `cancel` and `expireDue` in any number of sessions. What a commit
may do to the queue is a `QueueStep`: requests are born pending, and a request that is not
pending any more stays as it is. What it may do to a setting that needs approval is
`Approved`: nothing, unless it is the approval of a pending request by another admin.

The one commit that may do more is a save that found nothing to change and applies its whole payload
all the same: when it does, an approval may have come in between. `Undisturbed` is the
condition that none has.
-/

namespace Marketplace

open Sql

variable {K F A V W : Type}

/-! ### The sessions -/

/-- The calls of the service. A save is labelled with how it ends, which it does not know in advance; one
that ends differently goes away. -/
inductive ConfigClient (K F A : Type)
  | submit (key : K) (actorId : ℕ) (payload : Payload F A) (reason : String) (now : ℕ)
      (skipped : List ℕ) (i : ℕ) (ends : ConfigReply)
  /-- The rest of a save whose immediate fields have been applied. -/
  | queue (key : K) (actorId : ℕ) (payload : Payload F A) (reason : String) (now i : ℕ)
  | approve (i adminId : ℕ) (note : Option String) (now : ℕ)
  | reject (i adminId : ℕ) (note : Option String) (now : ℕ)
  | cancel (i adminId : ℕ) (note : Option String) (now : ℕ)
  /-- A read of the queue, which expires what has lapsed. -/
  | expire (now : ℕ) (skipped : List ℕ)

section Machine

variable [DecidableEq K] [Fintype F] [DecidableEq V] [DecidableEq W] (env : ConfigEnv K F A V W)

/-- What a session runs. -/
def configCode : ConfigClient K F A → ConfigTx K F A V W ConfigReply
  | .submit key actorId payload reason now skipped i ends => do
    let reply ← submitChange env key actorId payload reason now skipped i
    Tx.require (reply = ends) .notCommitted
    pure reply
  | .queue key actorId payload reason now i =>
    queueChange env key actorId ((env.sections key).gated payload) reason now i
  | .approve i adminId note now => approve env i adminId note now
  | .reject i adminId note now => reject i adminId note now
  | .cancel i adminId note now => cancel i adminId note now
  | .expire now skipped => do
    expireDue now skipped
    pure .swept

/-- A save that found nothing to change reads its section once more, to apply its payload: the fields that
need approval are then still what the save read first. -/
def Undisturbed : ConfigClient K F A → List (ConfigDb K F A V W) → ConfigDb K F A V W → Prop
  | .submit key _ payload _ _ _ _ .unchanged, seen, _ =>
      ∀ s ∈ seen.head?, ∀ s' ∈ seen.getLast?, ∀ f, (env.sections key).isImmediate f = false →
        payload f ≠ none → s.rows key f = s'.rows key f
  | _, _, _ => True

/-- The service, in the runs in which no save is overtaken. -/
def configMachine : Machine (ConfigDb K F A V W) (ConfigKey K) Abort ConfigReply
    (ConfigClient K F A) :=
  ⟨configCode env, Undisturbed env⟩

end Machine

/-! ### What holds of the queue -/

section Queue

variable [DecidableEq V] (env : ConfigEnv K F A V W)

/-- Fields that are in the snapshot of the section. -/
def ConfigEnv.Gated (key : K) (f : F) : Prop := (env.sections key).isImmediate f = false

/-- What a request says about itself: it was made on some row of its section, names only fields that
need approval, and its diff is what its payload did there. -/
def ConfigChangeRequest.WellFormed (req : ConfigChangeRequest K F A V W) : Prop :=
  (∀ f, ¬env.Gated req.key f → req.payload f = none) ∧
    req.baseVersion = env.versionOf req.baseSnapshot ∧
    ∃ row, req.baseSnapshot = (env.sections req.key).snapshot row ∧
      req.diff = flatDiff req.baseSnapshot ((env.sections req.key).snapshot
        (overlay ((env.sections req.key).changes req.payload row) row))

/-- The two requests ask for the same. -/
structure ConfigChangeRequest.SameTerms (req req' : ConfigChangeRequest K F A V W) : Prop where
  key : req'.key = req.key
  payload : req'.payload = req.payload
  diff : req'.diff = req.diff
  baseSnapshot : req'.baseSnapshot = req.baseSnapshot
  baseVersion : req'.baseVersion = req.baseVersion

theorem ConfigChangeRequest.SameTerms.wellFormed {req req' : ConfigChangeRequest K F A V W}
    (h : req.SameTerms req') (hreq : req.WellFormed env) : req'.WellFormed env := by
  unfold WellFormed at hreq ⊢
  rwa [h.key, h.payload, h.diff, h.baseSnapshot, h.baseVersion]

/-- **The invariant.** -/
structure ConfigInv (d : ConfigDb K F A V W) : Prop where
  /-- One request is pending per section at most. -/
  unique : ∀ key i j r u, d.requests.get? i = some r → d.requests.get? j = some u →
    r.PendingFor key → u.PendingFor key → i = j
  wellFormed : ∀ i r, d.requests.get? i = some r → r.WellFormed env

/-- What the other sessions leave alone. -/
def configRely : Rely (ConfigDb K F A V W) (ConfigKey K) where
  rel L d d' :=
    (∀ key, .section_ key ∈ L → ∀ f, env.Gated key f → d'.rows key f = d.rows key f) ∧
    (∀ i, .request i ∈ L → d'.requests.get? i = d.requests.get? i) ∧
    ∀ key, .pending key ∈ L → ∀ i r', d'.requests.get? i = some r' → r'.PendingFor key →
      ∃ r, d.requests.get? i = some r ∧ r.PendingFor key
  refl _ _ := ⟨fun _ _ _ _ => rfl, fun _ _ => rfl, fun _ _ _ r' h hp => ⟨r', h, hp⟩⟩
  trans h h' := by
    refine ⟨fun key hk f hf => (h'.1 key hk f hf).trans (h.1 key hk f hf),
      fun i hi => (h'.2.1 i hi).trans (h.2.1 i hi), fun key hk i r' hr hp => ?_⟩
    obtain ⟨r, hr, hp⟩ := h'.2.2 key hk i r' hr hp
    exact h.2.2 key hk i r hr hp
  anti hL h := ⟨fun key hk => h.1 key (hL hk), fun i hi => h.2.1 i (hL hi),
    fun key hk => h.2.2 key (hL hk)⟩

/-- What a commit of a session with the locks `L` does to the queue. -/
structure QueueStep (L : List (ConfigKey K)) (d e : ConfigDb K F A V W) : Prop where
  /-- Requests that are not locked stay as they are. -/
  kept : ∀ i, .request i ∉ L → e.requests.get? i = d.requests.get? i
  /-- Requests that are decided stay as they are. -/
  closed : ∀ i r, d.requests.get? i = some r → r.status ≠ .pending → e.requests.get? i = some r
  /-- Where a request comes from: it was there before, or it is the one pending request of its
  section. -/
  origin : ∀ i r, e.requests.get? i = some r →
    (∃ r₀, d.requests.get? i = some r₀ ∧ r₀.SameTerms r ∧
      (r.status = .pending → r₀.status = .pending)) ∨
    (d.requests.get? i = none ∧ r.status = .pending ∧ r.WellFormed env ∧ .pending r.key ∈ L ∧
      ∀ j u, e.requests.get? j = some u → u.PendingFor r.key → j = i)

namespace QueueStep

variable {env} {L : List (ConfigKey K)} {d e : ConfigDb K F A V W}

/-- **A step of the queue keeps the invariant.** -/
theorem inv (h : QueueStep env L d e) (hI : ConfigInv env d) : ConfigInv env e := by
  refine ⟨fun key i j r u hr hu hpr hpu => ?_, fun i r hr => ?_⟩
  · rcases h.origin i r hr with ⟨r₀, hr₀, hsame, hp⟩ | ⟨-, -, -, -, hone⟩
    · rcases h.origin j u hu with ⟨u₀, hu₀, hsame', hp'⟩ | ⟨-, -, -, -, hone⟩
      · exact hI.unique key i j r₀ u₀ hr₀ hu₀ ⟨hsame.key.symm.trans hpr.1, hp hpr.2⟩
          ⟨hsame'.key.symm.trans hpu.1, hp' hpu.2⟩
      · exact hone i r hr ⟨hpr.1.trans hpu.1.symm, hpr.2⟩
    · exact (hone j u hu ⟨hpu.1.trans hpr.1.symm, hpu.2⟩).symm
  · rcases h.origin i r hr with ⟨r₀, hr₀, hsame, -⟩ | ⟨-, -, hwf, -, -⟩
    · exact hsame.wellFormed env (hI.wellFormed i r₀ hr₀)
    · exact hwf

theorem born (h : QueueStep env L d e) {i : ℕ} {r : ConfigChangeRequest K F A V W}
    (hd : d.requests.get? i = none) (hr : e.requests.get? i = some r) : r.status = .pending := by
  rcases h.origin i r hr with ⟨r₀, hr₀, -⟩ | ⟨-, hp, -⟩
  · rw [hd] at hr₀
    exact absurd hr₀ (by simp)
  · exact hp

/-- What is pending was pending before, unless the index entry of its section is locked. -/
theorem pending_back (h : QueueStep env L d e) {key : K} (hk : .pending key ∉ L) {i : ℕ}
    {r : ConfigChangeRequest K F A V W} (hr : e.requests.get? i = some r) (hp : r.PendingFor key) :
    ∃ r₀, d.requests.get? i = some r₀ ∧ r₀.PendingFor key := by
  rcases h.origin i r hr with ⟨r₀, hr₀, hsame, hpend⟩ | ⟨-, -, -, hlock, -⟩
  · exact ⟨r₀, hr₀, hsame.key.symm.trans hp.1, hpend hp.2⟩
  · exact absurd (hp.1 ▸ hlock) hk

/-- Closing some pending requests that are locked. -/
theorem of_close (h : ∀ i, e.requests.get? i = d.requests.get? i ∨ .request i ∈ L ∧
    ∃ r r', d.requests.get? i = some r ∧ r.status = .pending ∧ e.requests.get? i = some r' ∧
      r.SameTerms r' ∧ r'.status ≠ .pending) : QueueStep env L d e := by
  refine ⟨fun i hi => (h i).resolve_right fun hc => hi hc.1, fun i r hr hs => ?_, fun i r hr => ?_⟩
  · rcases h i with heq | ⟨-, u, -, hu, hpend, -⟩
    · rwa [heq]
    · rw [hr] at hu
      obtain rfl := Option.some.inj hu
      exact absurd hpend hs
  · rcases h i with heq | ⟨-, u, u', hu, -, hu', hsame, hs⟩
    · rw [heq] at hr
      exact Or.inl ⟨r, hr, ⟨rfl, rfl, rfl, rfl, rfl⟩, id⟩
    · rw [hr] at hu'
      obtain rfl := Option.some.inj hu'
      exact Or.inl ⟨u, hu, hsame, fun hp => absurd hp hs⟩

end QueueStep

end Queue

/-! ### Closing requests -/

section Sweep

/-- Expire requests. -/
def sweep (due : List ℕ) (now : ℕ) (d : ConfigDb K F A V W) : ConfigDb K F A V W :=
  due.foldl (fun d i => d.decideRequest i .expired none now none) d

variable {due : List ℕ} {now : ℕ}

/-- The request closed by the clock. -/
def ConfigChangeRequest.lapse (now : ℕ) (req : ConfigChangeRequest K F A V W) :
    ConfigChangeRequest K F A V W :=
  { req with status := .expired, decidedById := none, decidedAt := some now, decisionNote := none }

@[simp] theorem sweep_rows (d : ConfigDb K F A V W) : (sweep due now d).rows = d.rows := by
  induction due generalizing d with
  | nil => rfl
  | cons i due ih => exact ih (d.decideRequest i .expired none now none)

theorem sweep_get? (d : ConfigDb K F A V W) (i : ℕ) : (sweep due now d).requests.get? i =
    if i ∈ due then (d.requests.get? i).map (ConfigChangeRequest.lapse now)
    else d.requests.get? i := by
  induction due generalizing d with
  | nil => rfl
  | cons j due ih =>
    refine (ih (d.decideRequest j .expired none now none)).trans ?_
    rw [ConfigDb.decideRequest_requests, Table.get?_modify]
    by_cases hj : i = j
    · -- Expiring a request twice is expiring it once.
      subst hj
      rcases hd : d.requests.get? i with _ | r
      · simp
      · by_cases hi : i ∈ due <;> simp [hi, ConfigChangeRequest.lapse]
    · rw [if_neg hj]
      by_cases hi : i ∈ due <;> simp [hi, hj]

theorem sweep_eq_none (d : ConfigDb K F A V W) (i : ℕ) :
    (sweep due now d).requests.get? i = none ↔ d.requests.get? i = none := by
  rw [sweep_get?]
  split_ifs <;> simp

theorem ConfigDb.free_iff {d : ConfigDb K F A V W} {key : K} :
    d.Free key ↔ ∀ i r, d.requests.get? i = some r → ¬r.PendingFor key :=
  ⟨fun h _ _ hr => h _ (Table.get?_eq_some_iff.mp hr),
    fun h r hr => h r.1 r.2 (Table.get?_eq_some_iff.mpr hr)⟩

/-- The pending change of a session that has expired the requests `due` and holds their rows. -/
structure Swept (due : List ℕ) (now : ℕ) (w : ConfigDb K F A V W → ConfigDb K F A V W)
    (L : List (ConfigKey K)) (d : ConfigDb K F A V W) : Prop where
  change : w = sweep due now
  held : ∀ i ∈ due, .request i ∈ L
  pending : ∀ i ∈ due, ∃ r, d.requests.get? i = some r ∧ r.status = .pending

namespace Swept

variable {env : ConfigEnv K F A V W} {L L' : List (ConfigKey K)}
  {w : ConfigDb K F A V W → ConfigDb K F A V W} {d d' : ConfigDb K F A V W}

theorem nil (now : ℕ) : Swept [] now id L d :=
  ⟨rfl, fun _ h => absurd h List.not_mem_nil, fun _ h => absurd h List.not_mem_nil⟩

theorem mono (h : Swept due now w L d) (hL : L ⊆ L') : Swept due now w L' d :=
  ⟨h.change, fun i hi => hL (h.held i hi), h.pending⟩

theorem stable (h : Swept due now w L d) (hR : (configRely env).rel L d d') :
    Swept due now w L d' := by
  refine ⟨h.change, h.held, fun i hi => ?_⟩
  rw [hR.2.1 i (h.held i hi)]
  exact h.pending i hi

theorem rows (h : Swept due now w L d) (x : ConfigDb K F A V W) : (w x).rows = x.rows := by
  rw [h.change, sweep_rows]

theorem queueStep [DecidableEq V] (h : Swept due now w L d) : QueueStep env L d (w d) := by
  refine .of_close fun i => ?_
  rw [h.change, sweep_get?]
  split_ifs with hi
  · obtain ⟨r, hr, hp⟩ := h.pending i hi
    refine Or.inr ⟨h.held i hi, r, r.lapse now, hr, hp, by rw [hr]; rfl, ⟨rfl, rfl, rfl, rfl, rfl⟩, ?_⟩
    simp [ConfigChangeRequest.lapse]
  · exact Or.inl rfl

theorem get?_eq_none_stable (h : Swept due now w L d) {i : ℕ} (hi : .request i ∈ L)
    (hR : (configRely env).rel L d d') (hnone : (w d).requests.get? i = none) :
    (w d').requests.get? i = none := by
  rw [h.change, sweep_eq_none] at hnone ⊢
  rw [hR.2.1 i hi, hnone]

theorem free_stable (h : Swept due now w L d) {key : K} (hk : .pending key ∈ L)
    (hR : (configRely env).rel L d d') (hfree : (w d).Free key) : (w d').Free key := by
  rw [ConfigDb.free_iff] at hfree ⊢
  intro i r hr hp
  rw [h.change, sweep_get?] at hr
  split_ifs at hr with hi
  · obtain ⟨u, -, rfl⟩ := Option.map_eq_some_iff.mp hr
    exact absurd hp.2 (by simp [ConfigChangeRequest.lapse])
  · -- A pending request that is not expired here was there when nothing was pending.
    obtain ⟨u, hu, hup⟩ := hR.2.2 key hk i r hr hp
    refine hfree i u ?_ hup
    rw [h.change, sweep_get?, if_neg hi]
    exact hu

/-- Expiring and then adding a request to a section without one. -/
theorem queueStep_add [DecidableEq V] (h : Swept due now w L d) {i : ℕ}
    {req : ConfigChangeRequest K F A V W} (hk : .pending req.key ∈ L) (hi : .request i ∈ L)
    (hnone : (w d).requests.get? i = none) (hfree : (w d).Free req.key)
    (hp : req.status = .pending) (hwf : req.WellFormed env) {e : ConfigDb K F A V W}
    (he : e.requests = (w d).requests.insert i req) : QueueStep env L d e := by
  have hget : ∀ j, e.requests.get? j = if j = i then some req else (w d).requests.get? j :=
    fun j => by rw [he, Table.get?_insert hnone]
  have hq : QueueStep env L d (w d) := h.queueStep
  have hnone' : d.requests.get? i = none := by rwa [h.change, sweep_eq_none] at hnone
  refine ⟨fun j hj => ?_, fun j r hr hs => ?_, fun j r hr => ?_⟩
  · rw [hget, if_neg (by rintro rfl; exact hj hi)]
    exact hq.kept j hj
  · rw [hget, if_neg (by rintro rfl; rw [hnone'] at hr; exact absurd hr (by simp))]
    exact hq.closed j r hr hs
  · rw [hget] at hr
    split_ifs at hr with hj
    · subst hj
      obtain rfl := Option.some.inj hr
      refine Or.inr ⟨hnone', hp, hwf, hk, fun k u hu hup => ?_⟩
      by_contra hne
      rw [hget, if_neg hne] at hu
      exact ConfigDb.free_iff.mp hfree k u hu hup
    · refine (hq.origin j r hr).imp_right ?_
      rintro ⟨hd, hr', hwf', hk', hone⟩
      rw [h.change, (sweep_eq_none d j).mpr hd] at hr
      exact absurd hr (by simp)

end Swept

end Sweep

/-! ### What a session owes -/

section Owes

variable [DecidableEq K] [Fintype F] [DecidableEq V] [DecidableEq W] {env : ConfigEnv K F A V W}

/-- The commit is the approval of a pending request about the section by an admin who did not make it,
and the section becomes what the request says. -/
def Approved (env : ConfigEnv K F A V W) (client : ConfigClient K F A) (key : K)
    (d e : ConfigDb K F A V W) : Prop :=
  ∃ i adminId note now r, client = .approve i adminId note now ∧ d.requests.get? i = some r ∧
    r.PendingFor key ∧ now < r.expiresAt ∧ r.requestedById ≠ adminId ∧
    (env.sections key).snapshot (e.rows key) = r.diff.applyTo r.baseSnapshot

/-- What a commit does. -/
structure ConfigCommit (env : ConfigEnv K F A V W) (client : ConfigClient K F A)
    (d e : ConfigDb K F A V W) : Prop where
  approved : ∀ key f, env.Gated key f → e.rows key f ≠ d.rows key f → Approved env client key d e
  closed : ∀ i r, d.requests.get? i = some r → r.status ≠ .pending → e.requests.get? i = some r
  born : ∀ i r, d.requests.get? i = none → e.requests.get? i = some r → r.status = .pending

/-- What is owed at a commit. -/
abbrev ConfigOwes (env : ConfigEnv K F A V W) (client : ConfigClient K F A) :
    ConfigReply → (ConfigDb K F A V W → ConfigDb K F A V W) → List (ConfigKey K) →
      List (ConfigDb K F A V W) → ConfigDb K F A V W → Prop :=
  Commits (configRely env) (ConfigInv env) (configMachine env) (fun client _ => ConfigCommit env client)
    client

variable {client : ConfigClient K F A} {reply : ConfigReply} {L : List (ConfigKey K)}
  {w : ConfigDb K F A V W → ConfigDb K F A V W} {s : List (ConfigDb K F A V W)}
  {d : ConfigDb K F A V W}

/-- A commit that steps the queue and changes settings only as an approval, with the section
locked. -/
theorem configOwes_intro (h : ∀ d', (configRely env).rel L d d' → ConfigInv env d' →
      Undisturbed env client s d' → QueueStep env L d' (w d') ∧
        ∀ key f, env.Gated key f → (w d').rows key f ≠ d'.rows key f →
          .section_ key ∈ L ∧ Approved env client key d' (w d')) :
    ConfigOwes env client reply w L s d := by
  intro d' hd hI hallow
  obtain ⟨hq, hrows⟩ := h d' hd hI hallow
  refine ⟨hq.inv hI, ⟨fun key f hf hne => (hrows key f hf hne).2, hq.closed, fun i r => hq.born⟩,
    fun L' hL => ⟨fun key hk f hf => ?_, fun i hi => hq.kept i fun hmem => hL _ hmem hi,
      fun key hk i r' hr hp => hq.pending_back (fun hmem => hL _ hmem hk) hr hp⟩⟩
  by_contra hne
  exact hL _ (hrows key f hf hne).1 hk

/-- A commit that steps the queue and changes no setting that needs approval. -/
theorem configOwes_of_kept (h : ∀ d', (configRely env).rel L d d' → ConfigInv env d' →
      Undisturbed env client s d' → QueueStep env L d' (w d') ∧
        ∀ key f, env.Gated key f → (w d').rows key f = d'.rows key f) :
    ConfigOwes env client reply w L s d :=
  configOwes_intro fun d' hd hI hallow => ⟨(h d' hd hI hallow).1,
    fun key f hf hne => absurd ((h d' hd hI hallow).2 key f hf) hne⟩

theorem Swept.owes {due : List ℕ} {now : ℕ} (h : Swept due now w L d) (reply : ConfigReply) :
    ConfigOwes env client reply w L s d :=
  configOwes_of_kept fun _ hd _ _ =>
    ⟨(h.stable hd).queueStep, fun key f _ => by rw [h.rows]⟩

/-! ### The statements of the service -/

omit [Fintype F] [DecidableEq W] in
/-- The update function raises, or writes what it changed on its copy of the row. -/
theorem wp_applyChanges {key : K} {payload : Payload F A} {row : F → V}
    {Q : Unit → (ConfigDb K F A V W → ConfigDb K F A V W) → List (ConfigKey K) →
      List (ConfigDb K F A V W) → ConfigDb K F A V W → Prop}
    (h : Q () (fun d => (w d).setFields key ((env.sections key).changes payload row)) L s d) :
    (applyChanges env key payload row).wp (configRely env) (ConfigInv env) Q w L s d := by
  rw [applyChanges]
  rcases (env.sections key).validate payload row with e | u
  · exact trivial
  · exact h

omit [Fintype F] [DecidableEq W] [DecidableEq K] in
/-- A dry run compares two reads of the section, with nothing changed by the session in between. -/
theorem wp_dryRun {key : K} {part : Payload F A} {shown : (F → V) → Snapshot F V}
    {Q : Snapshot F V × Snapshot F V → (ConfigDb K F A V W → ConfigDb K F A V W) →
      List (ConfigKey K) → List (ConfigDb K F A V W) → ConfigDb K F A V W → Prop}
    (h : ∀ d₁ d₂, (configRely env).rel L d d₁ → (configRely env).rel L d₁ d₂ →
      Q (shown ((w d₁).rows key), shown (overlay ((env.sections key).changes part ((w d₁).rows key))
        ((w d₂).rows key))) w L (w d₂ :: w d₁ :: s) d₂) :
    (dryRun env key part shown).wp (configRely env) (ConfigInv env) Q w L s d := by
  rw [dryRun, Tx.wp_bind, Tx.wp_read]
  intro d₁ hd₁ _
  generalize (env.sections key).validate part ((w d₁).rows key) = r
  rcases r with e | u
  · exact trivial
  · intro d₂ hd₂ _
    exact h d₁ d₂ hd₁ hd₂

/-! ### The decisions -/

omit [DecidableEq K] [Fintype F] [DecidableEq W] in
/-- Closing a request that is locked and pending. -/
theorem queueStep_decide {i : ℕ} {status : ChangeStatus} {by_ : Option ℕ} {now : ℕ}
    {note : Option String} {req : ConfigChangeRequest K F A V W} {d' : ConfigDb K F A V W}
    (hlock : .request i ∈ L) (hreq : d.requests.get? i = some req) (hp : req.status = .pending)
    (hs : status ≠ .pending)
    (he : d'.requests = (d.decideRequest i status by_ now note).requests) :
    QueueStep env L d d' := by
  refine .of_close fun j => ?_
  rw [he, ConfigDb.decideRequest_requests, Table.get?_modify]
  split_ifs with hj
  · subst hj
    rw [hreq]
    exact Or.inr ⟨hlock, req, _, rfl, hp, Option.map_some _ _, ⟨rfl, rfl, rfl, rfl, rfl⟩, hs⟩
  · exact Or.inl rfl

/-- The same, as a commit that closes the request and does nothing else. -/
theorem owes_decide (reply : ConfigReply) {i : ℕ} {status : ChangeStatus} {by_ : Option ℕ} {now : ℕ}
    {note : Option String} {req : ConfigChangeRequest K F A V W} (hlock : .request i ∈ L)
    (hreq : d.requests.get? i = some req) (hp : req.status = .pending) (hs : status ≠ .pending) :
    ConfigOwes env client reply (ConfigDb.decideRequest i status by_ now note) L s d := by
  refine configOwes_of_kept fun d' hd _ _ => ⟨?_, fun _ _ _ => rfl⟩
  exact queueStep_decide hlock ((hd.2.1 i hlock).trans hreq) hp hs rfl

/-- **A decision**: what is left to show is what the function does with a pending request. -/
theorem wp_withRequest {i now : ℕ}
    {next : ConfigChangeRequest K F A V W → ConfigTx K F A V W ConfigReply}
    (h : ∀ req d' s, d'.requests.get? i = some req → req.status = .pending → now < req.expiresAt →
      (next req).wp (configRely env) (ConfigInv env) (ConfigOwes env client) id [.request i] s d') :
    (withRequest i now next).wp (configRely env) (ConfigInv env) (ConfigOwes env client) id [] [] d := by
  rw [withRequest, Tx.wp_bind, Tx.wp_lock]
  intro d₁ _ _
  rw [Tx.wp_bind, Tx.wp_getOrElse]
  intro req hreq
  rw [Tx.wp_ite]
  refine ⟨fun hlapsed => ?_, fun hlapsed => ?_⟩
  · exact owes_decide (.raised (.api 409 "CONFIG_CHANGE_NOT_PENDING")) (by simp) hreq hlapsed.1
      (by simp)
  · rw [Tx.wp_ite]
    refine ⟨fun hp => h req d₁ _ hreq hp ?_, fun _ => trivial⟩
    by_contra hle
    exact hlapsed ⟨hp, not_lt.mp hle⟩

theorem reject_owes (i adminId : ℕ) (note : Option String) (now : ℕ) :
    (reject i adminId note now : ConfigTx K F A V W ConfigReply).wp (configRely env) (ConfigInv env)
      (ConfigOwes env client) id [] [] d := by
  refine wp_withRequest fun req d' s hreq hp _ => ?_
  rw [Tx.wp_bind, Tx.wp_require]
  intro _
  rw [Tx.wp_bind, Tx.wp_require]
  intro _
  exact owes_decide .decided (by simp) hreq hp (by simp)

theorem cancel_owes (i adminId : ℕ) (note : Option String) (now : ℕ) :
    (cancel i adminId note now : ConfigTx K F A V W ConfigReply).wp (configRely env) (ConfigInv env)
      (ConfigOwes env client) id [] [] d := by
  refine wp_withRequest fun req d' s hreq hp _ => ?_
  rw [Tx.wp_bind, Tx.wp_require]
  intro _
  exact owes_decide .decided (by simp) hreq hp (by simp)

omit [DecidableEq K] [Fintype F] [DecidableEq W] in
/-- What a payload that names only fields that need approval makes of a section: the diff of its
request, if the row it was made on had the same snapshot. -/
theorem snapshot_overlay {key : K} {req : ConfigChangeRequest K F A V W} (hreq : req.WellFormed env)
    (hkey : req.key = key) {row row' : F → V}
    (hrow : (env.sections key).snapshot row = req.baseSnapshot)
    (hrow' : ∀ f, env.Gated key f → row' f = row f) :
    (env.sections key).snapshot (overlay ((env.sections key).changes req.payload row) row') =
      req.diff.applyTo req.baseSnapshot := by
  subst hkey
  obtain ⟨-, -, row₀, hbase, hdiff⟩ := hreq
  funext f
  rw [ConfigDiff.applyTo, hdiff, flatDiff]
  by_cases hf : env.Gated req.key f
  · -- A field of the snapshot has the value it had when the request was made.
    have hf' : ¬(env.sections req.key).isImmediate f = true := by simpa [ConfigEnv.Gated] using hf
    have hsame : row f = row₀ f := by
      have hf0 := congrFun (hrow.trans hbase) f
      simpa [ConfigSection.snapshot, hf'] using hf0
    have hnew : (env.sections req.key).snapshot
        (overlay ((env.sections req.key).changes req.payload row) row') f =
        (env.sections req.key).snapshot
          (overlay ((env.sections req.key).changes req.payload row₀) row₀) f := by
      simp only [ConfigSection.snapshot, if_neg hf', overlay, ConfigSection.changes, hrow' f hf, hsame]
    rw [hnew]
    split_ifs with heq
    · exact heq.symm
    · rfl
  · have hf' : (env.sections req.key).isImmediate f = true := by simpa [ConfigEnv.Gated] using hf
    have hnone : ∀ x, (env.sections req.key).snapshot x f = none := fun x => by
      rw [ConfigSection.snapshot, if_pos hf']
    rw [hbase, hnone, hnone]
    rw [hnone]
    rfl

theorem approve_owes (hversion : Function.Injective env.versionOf) (i adminId : ℕ)
    (note : Option String) (now : ℕ) :
    (approve env i adminId note now).wp (configRely env) (ConfigInv env)
      (ConfigOwes env (.approve i adminId note now)) id [] [] d := by
  refine wp_withRequest fun req d₁ s hreq hp hexp => ?_
  rw [Tx.wp_bind, Tx.wp_require]
  intro hother
  rw [Tx.wp_bind, Tx.wp_lock]
  intro d₂ hd₂ hI₂
  rw [Tx.wp_bind, Tx.wp_read]
  intro d₃ hd₃ hI₃
  have hreq₂ : d₂.requests.get? i = some req := (hd₂.2.1 i (by simp)).trans hreq
  have hreq₃ : d₃.requests.get? i = some req := (hd₃.2.1 i (by simp)).trans hreq₂
  rw [Tx.wp_ite]
  refine ⟨fun hv => ?_, fun _ => owes_decide
    (.raised (.api 409 "CONFIG_CHANGE_STALE")) (by simp) hreq₃ hp (by simp)⟩
  rw [Tx.wp_bind, Tx.wp_modify, Tx.wp_bind]
  refine wp_applyChanges ?_
  change ConfigOwes env _ .decided _ _ _ _
  refine configOwes_intro fun d' hd hI' _ => ⟨?_, fun key f hf hne => ?_⟩
  · have hreq' := (hd.2.1 i (by simp)).trans hreq₃
    exact queueStep_decide (by simp) hreq' hp (by simp) rfl
  · have hreq' := (hd.2.1 i (by simp)).trans hreq₃
    have hwf := hI'.wellFormed i req hreq'
    -- Nothing but the section of the request is written.
    have hkey : key = req.key := by
      by_contra hk
      refine hne ?_
      change Function.update d'.rows req.key _ key f = d'.rows key f
      rw [Function.update_of_ne hk]
    subst hkey
    refine ⟨by simp, i, adminId, note, now, req, rfl, hreq', ⟨rfl, hp⟩, hexp, hother, ?_⟩
    have hbase : (env.sections req.key).snapshot (d₃.rows req.key) = req.baseSnapshot :=
      hversion (hv.trans hwf.2.1)
    have hrows : ∀ f, env.Gated req.key f → d'.rows req.key f = d₃.rows req.key f :=
      hd.1 req.key (by simp)
    change (env.sections req.key).snapshot (Function.update d'.rows req.key _ req.key) = _
    rw [Function.update_self]
    exact snapshot_overlay hwf rfl hbase hrows

/-! ### Saving -/

omit [DecidableEq K] [Fintype F] [DecidableEq V] [DecidableEq W] in
theorem snapshot_overlay_congr {key : K} {row row' : F → V} (c : F → Option V)
    (h : ∀ f, env.Gated key f → row f = row' f) :
    (env.sections key).snapshot (overlay c row) = (env.sections key).snapshot (overlay c row') := by
  funext f
  rw [ConfigSection.snapshot, ConfigSection.snapshot]
  split_ifs with hf
  · rfl
  · rw [overlay, overlay, h f (by simpa [ConfigEnv.Gated] using hf)]

omit [DecidableEq K] [Fintype F] [DecidableEq V] [DecidableEq W] in
theorem gated_eq_none (key : K) (payload : Payload F A) (f : F) (hf : ¬env.Gated key f) :
    (env.sections key).gated payload f = none := by
  have hf' : (env.sections key).isImmediate f = true := by simpa [ConfigEnv.Gated] using hf
  rw [ConfigSection.gated, if_pos hf']

/-- **Making a request**, after the lapsed ones have been expired. -/
theorem queueChange_owes {due : List ℕ} {now₀ : ℕ} (h : Swept due now₀ w L d) (key : K) (actorId : ℕ)
    {payload : Payload F A} (hpayload : ∀ f, ¬env.Gated key f → payload f = none) (reason : String)
    (now i : ℕ) :
    (queueChange env key actorId payload reason now i).wp (configRely env) (ConfigInv env)
      (ConfigOwes env client) w L s d := by
  rw [queueChange, Tx.wp_bind, Tx.wp_lock]
  intro d₁ hd₁ _
  rw [Tx.wp_bind]
  refine wp_dryRun fun d₂ d₃ hd₂ hd₃ => ?_
  rw [Tx.wp_bind, Tx.wp_require]
  intro _
  -- The section is locked: both reads see the same values, where they are shown.
  have hsame : ∀ f, env.Gated key f → d₃.rows key f = d₂.rows key f := hd₃.1 key (by simp)
  rw [createRequest, Tx.wp_bind]
  intro d₄ hd₄ _
  change (Tx.require _ _ >>= fun _ => _ : ConfigTx K F A V W ConfigReply).wp _ _ _ _ _ _ _
  rw [Tx.wp_bind, Tx.wp_require]
  intro hfree
  rw [decide_eq_true_eq] at hfree
  rw [Tx.wp_bind, Tx.wp_modify]
  change ConfigOwes env client .queued _ _ _ _
  have hswept : Swept due now₀ w ([.pending key, .request i] ++ .section_ key :: L) d₄ :=
    ((((h.stable hd₁).mono (List.subset_cons_self _ _)).stable hd₂).stable hd₃).stable hd₄ |>.mono
      (List.subset_append_right _ _)
  refine configOwes_of_kept fun d' hd _ _ => ⟨?_, fun key' f _ => ?_⟩
  · refine (hswept.stable hd).queueStep_add (by simp) (by simp)
      (hswept.get?_eq_none_stable (by simp) hd hfree.2) (hswept.free_stable (by simp) hd hfree.1) rfl
      ⟨hpayload, rfl, _, rfl, ?_⟩ rfl
    have hrows : ∀ f, env.Gated key f → (w d₃).rows key f = (w d₂).rows key f := by
      rw [h.rows, h.rows]
      exact hsame
    exact congrArg (flatDiff _) (snapshot_overlay_congr _ hrows)
  · change (w d').rows key' f = d'.rows key' f
    rw [h.rows]

/-- Writing fields of which none needs approval. -/
theorem Swept.owes_apply {due : List ℕ} {now : ℕ} (h : Swept due now w L d) (reply : ConfigReply) {key : K}
    {payload : Payload F A} {row : F → V}
    (hnone : ∀ d', Undisturbed env client s d' →
      ∀ f, env.Gated key f → (env.sections key).changes payload row f = none) :
    ConfigOwes env client reply
      (fun d => (w d).setFields key ((env.sections key).changes payload row)) L s d := by
  refine configOwes_of_kept fun d' hd _ hallow => ⟨?_, fun key' f hf => ?_⟩
  · have hq : QueueStep env L d' (w d') := (h.stable hd).queueStep
    exact ⟨hq.kept, hq.closed, hq.origin⟩
  · change Function.update (w d').rows key _ key' f = d'.rows key' f
    rw [h.rows]
    by_cases hk : key' = key
    · subst hk
      rw [Function.update_self, overlay, hnone d' hallow f hf]
      rfl
    · rw [Function.update_of_ne hk]

omit [DecidableEq K] [Fintype F] [DecidableEq W] in
/-- `expireDue`. -/
theorem wp_expireDue {now : ℕ} {skipped : List ℕ}
    {Q : Unit → (ConfigDb K F A V W → ConfigDb K F A V W) → List (ConfigKey K) →
      List (ConfigDb K F A V W) → ConfigDb K F A V W → Prop}
    (h : ∀ due w' L' s' d', Swept due now w' L' d' → Q () w' L' s' d') :
    (expireDue now skipped).wp (configRely env) (ConfigInv env) Q id L s d := by
  rw [expireDue, Tx.wp_bind]
  intro d₁ _ _
  change (Tx.forEach (d₁.lapsed now skipped) fun i => Tx.modify
    (ConfigDb.decideRequest i .expired none now none)).wp _ _ _ _ _ _ _
  rw [Tx.wp_forEach_modify]
  refine h (d₁.lapsed now skipped) _ _ _ _ ⟨rfl, fun i hi => ?_, fun i hi => ?_⟩
  · exact List.mem_append_left _ (List.mem_map_of_mem hi)
  · obtain ⟨r, hr, rfl⟩ := List.mem_map.mp hi
    obtain ⟨hrow, hlapsed⟩ := List.mem_filter.mp hr
    rw [decide_eq_true_eq] at hlapsed
    exact ⟨r.2, Table.get?_eq_some_iff.mpr hrow, hlapsed.1⟩

omit [DecidableEq K] [DecidableEq W] in
/-- What a save keeps of a part of its payload: all of it, or nothing if it would change nothing. -/
theorem wp_keepChanging {key : K} {part : Payload F A} {shown : (F → V) → Snapshot F V}
    {Q : Payload F A → (ConfigDb K F A V W → ConfigDb K F A V W) → List (ConfigKey K) →
      List (ConfigDb K F A V W) → ConfigDb K F A V W → Prop}
    (hkeep : ∀ s' d', s <:+ s' → Q part w L s' d')
    (hdrop : ∀ d₁ d₂, shown ((w d₁).rows key) = shown (overlay ((env.sections key).changes part
        ((w d₁).rows key)) ((w d₂).rows key)) → Q (fun _ => none) w L (w d₂ :: w d₁ :: s) d₂) :
    (keepChanging env key part shown).wp (configRely env) (ConfigInv env) Q w L s d := by
  rw [keepChanging, Tx.wp_ite]
  refine ⟨fun _ => hkeep s d (List.suffix_refl s), fun _ => ?_⟩
  rw [Tx.wp_bind]
  refine wp_dryRun fun d₁ d₂ _ _ => ?_
  change Q (if _ then _ else _) w L _ d₂
  split_ifs with heq
  · exact hdrop d₁ d₂ heq
  · exact hkeep _ d₂ ((List.suffix_cons _ _).trans (List.suffix_cons _ _))

omit [DecidableEq K] [Fintype F] [DecidableEq W] in
/-- A field the payload leaves out is not changed. -/
theorem changes_eq_none {key : K} {payload : Payload F A} {row : F → V} {f : F}
    (h : payload f = none) : (env.sections key).changes payload row f = none := by
  rw [ConfigSection.changes, h, Option.bind_none]

omit [DecidableEq K] [Fintype F] [DecidableEq W] in
/-- A dry run found nothing to change, and the field is still what it read: nothing is changed. -/
theorem changes_of_dry {key : K} {payload : Payload F A} {row row' now_ : F → V} {f : F}
    (hf : env.Gated key f)
    (hdry : (env.sections key).snapshot row = (env.sections key).snapshot
      (overlay ((env.sections key).changes ((env.sections key).gated payload) row) row'))
    (hnow : payload f ≠ none → now_ f = row f) :
    (env.sections key).changes payload now_ f = none := by
  have hf' : ¬(env.sections key).isImmediate f = true := by simpa [ConfigEnv.Gated] using hf
  rcases hp : payload f with _ | a
  · exact changes_eq_none hp
  have hsame : now_ f = row f := hnow (by simp [hp])
  have hdry' := congrFun hdry f
  simp only [ConfigSection.snapshot, if_neg hf', overlay, ConfigSection.changes,
    ConfigSection.gated, hp, Option.bind_some, Option.some.injEq] at hdry'
  rw [ConfigSection.changes, hp, Option.bind_some, hsame]
  split_ifs at hdry' with hstore
  · rw [if_pos hstore]
  · exact absurd (by simpa using hdry'.symm) hstore

omit [DecidableEq K] [Fintype F] [DecidableEq V] [DecidableEq W] in
/-- An immediate part names no field that needs approval. -/
theorem immediate_eq_none {key : K} (payload : Payload F A) (f : F) (hf : env.Gated key f) :
    (env.sections key).immediate payload f = none := by
  have hf' : ¬(env.sections key).isImmediate f = true := by simpa [ConfigEnv.Gated] using hf
  rw [ConfigSection.immediate, if_neg hf']

/-- What a save knows of the part `part` it kept of the fields that need approval: it is all of
them, or the first thing it saw was a section in which they change nothing. -/
def KeptPart (env : ConfigEnv K F A V W) (key : K) (payload part : Payload F A)
    (s : List (ConfigDb K F A V W)) : Prop :=
  part = (env.sections key).gated payload ∨ (part = fun _ => none) ∧
    ∃ d₁ row', s.getLast? = some d₁ ∧ (env.sections key).snapshot (d₁.rows key) =
      (env.sections key).snapshot (overlay ((env.sections key).changes
        ((env.sections key).gated payload) (d₁.rows key)) row')

omit [DecidableEq K] [Fintype F] [DecidableEq W] in
theorem KeptPart.mono {key : K} {payload part : Payload F A} {s s' : List (ConfigDb K F A V W)}
    (h : KeptPart env key payload part s) (hs : s <:+ s') : KeptPart env key payload part s' := by
  refine h.imp_right fun ⟨hpart, d₁, row', hlast, hdry⟩ => ⟨hpart, d₁, row', ?_, hdry⟩
  obtain ⟨t, rfl⟩ := hs
  rw [List.getLast?_append, hlast]
  rfl

omit [DecidableEq K] [Fintype F] [DecidableEq W] in
/-- The kept part names only fields that need approval. -/
theorem KeptPart.eq_none {key : K} {payload part : Payload F A} {s : List (ConfigDb K F A V W)}
    (h : KeptPart env key payload part s) (f : F) (hf : ¬env.Gated key f) : part f = none := by
  rcases h with rfl | ⟨rfl, -⟩
  · exact gated_eq_none key payload f hf
  · rfl

omit [DecidableEq K] [DecidableEq W] in
/-- A save that keeps nothing writes no field that needs approval, if no such field has changed
since it looked. -/
theorem KeptPart.undisturbed {key : K} {actorId : ℕ} {payload part : Payload F A} {reason : String}
    {now i : ℕ} {skipped : List ℕ} {s : List (ConfigDb K F A V W)} {d₂ d' : ConfigDb K F A V W}
    (h : KeptPart env key payload part s) (hempty : part.isEmpty = true)
    (hallow : Undisturbed env (.submit key actorId payload reason now skipped i .unchanged) (d₂ :: s) d')
    (f : F) (hf : env.Gated key f) :
    (env.sections key).changes payload (d₂.rows key) f = none := by
  have hf' : ¬(env.sections key).isImmediate f = true := by simpa [ConfigEnv.Gated] using hf
  rcases h with rfl | ⟨rfl, d₁, row', hlast, hdry⟩
  · -- The payload names no field that needs approval at all.
    have hall : ∀ f, ((env.sections key).gated payload f).isNone = true := by
      simpa [Payload.isEmpty] using hempty
    have hnone := hall f
    rw [ConfigSection.gated, if_neg hf', Option.isNone_iff_eq_none] at hnone
    exact changes_eq_none hnone
  · refine changes_of_dry hf hdry fun hp => ?_
    have hne : s ≠ [] := by
      rintro rfl
      simp at hlast
    have hlast' : (d₂ :: s).getLast? = some d₁ := by rw [List.getLast?_cons_of_ne_nil hne, hlast]
    exact hallow d₂ rfl d₁ hlast' f hf hp

/-- What a save does with the parts it kept. -/
theorem saveParts_owes {key : K} {actorId : ℕ} {payload immediate gated : Payload F A}
    {reason : String} {now : ℕ} {skipped : List ℕ} {i : ℕ} {ends : ConfigReply}
    (hkept : KeptPart env key payload gated s) (himm : ∀ f, env.Gated key f → immediate f = none) :
    (saveParts env key actorId payload immediate gated reason now skipped i).wp (configRely env)
      (ConfigInv env) (fun reply w L s d => reply = ends → ConfigOwes env
        (.submit key actorId payload reason now skipped i ends) reply w L s d) id L s d := by
  rw [saveParts, Tx.wp_ite]
  refine ⟨fun hempty => ?_, fun _ => ?_⟩
  · -- Nothing to change: the whole payload is applied.
    rw [Tx.wp_bind, applySection, Tx.wp_bind, Tx.wp_read]
    intro d₂ _ _
    refine wp_applyChanges ?_
    rintro rfl
    exact (Swept.nil now).owes_apply .unchanged fun d' hallow => hkept.undisturbed hempty.2 hallow
  · rw [Tx.wp_bind]
    have hrest : ∀ due w L s d, Swept due now w L d →
        (if immediate.isEmpty = false then do
            applySection env key immediate
            pure .immediate
          else queueChange env key actorId gated reason now i).wp (configRely env) (ConfigInv env)
          (fun reply w L s d => reply = ends → ConfigOwes env
            (.submit key actorId payload reason now skipped i ends) reply w L s d) w L s d := by
      intro due w L s d hswept
      rw [Tx.wp_ite]
      refine ⟨fun _ => ?_, fun _ => ?_⟩
      · rw [Tx.wp_bind, applySection, Tx.wp_bind, Tx.wp_read]
        intro d₂ hd₂ _
        refine wp_applyChanges fun _ => ?_
        exact (hswept.stable hd₂).owes_apply .immediate fun _ _ f hf =>
          changes_eq_none (himm f hf)
      · exact Tx.wp_mono (queueChange_owes hswept key actorId hkept.eq_none reason now i)
          fun _ _ _ _ _ h _ => h
    rw [Tx.wp_when]
    refine ⟨fun _ => ?_, fun _ => hrest [] _ _ _ _ (Swept.nil now)⟩
    rw [Tx.wp_bind, Tx.wp_require]
    intro _
    rw [Tx.wp_bind]
    refine wp_expireDue fun due w' L' s' d' hswept => ?_
    rw [Tx.wp_bind, Tx.wp_read]
    intro d₁ hd₁ _
    rw [Tx.wp_require]
    exact fun _ => hrest due _ _ _ _ (hswept.stable hd₁)

/-- **A save.** -/
theorem submitChange_owes (happroval : env.approvalRequired = true) {key : K} {actorId : ℕ}
    {payload : Payload F A} {reason : String} {now : ℕ} {skipped : List ℕ} {i : ℕ}
    (ends : ConfigReply) :
    (submitChange env key actorId payload reason now skipped i).wp (configRely env) (ConfigInv env)
      (fun reply w L s d => reply = ends → ConfigOwes env
        (.submit key actorId payload reason now skipped i ends) reply w L s d) id [] [] d := by
  rw [submitChange, if_neg (by simp [happroval]), Tx.wp_bind]
  have himmediate : ∀ part s d, KeptPart env key payload part s →
      (keepChanging env key ((env.sections key).immediate payload)
        (env.sections key).immediateSnapshot >>= fun immediate =>
          saveParts env key actorId payload immediate part reason now skipped i).wp (configRely env)
        (ConfigInv env) (fun reply w L s d => reply = ends → ConfigOwes env
          (.submit key actorId payload reason now skipped i ends) reply w L s d) id [] s d := by
    intro part s d hkept
    rw [Tx.wp_bind]
    refine wp_keepChanging (fun s' d' hs => saveParts_owes (hkept.mono hs) (immediate_eq_none payload))
      fun d₁ d₂ _ => saveParts_owes (hkept.mono ?_) fun _ _ => rfl
    exact (List.suffix_cons _ _).trans (List.suffix_cons _ _)
  exact wp_keepChanging (fun s' d' _ => himmediate _ s' d' (Or.inl rfl)) fun d₁ d₂ hdry =>
    himmediate _ _ d₂ (Or.inr ⟨rfl, d₁, _, rfl, hdry⟩)

/-- **The service does what it owes**, in the runs in which no save is overtaken. -/
theorem configMachine_correct (happroval : env.approvalRequired = true)
    (hversion : Function.Injective env.versionOf) :
    (configMachine env).Correct (configRely env) (ConfigInv env)
      fun client (_ : ConfigReply) => ConfigCommit env client := by
  intro client d _
  cases client with
  | submit key actorId payload reason now skipped i ends =>
    refine Tx.wp_bind.mpr (Tx.wp_mono (submitChange_owes happroval ends)
      fun reply w L s d h => ?_)
    rw [Tx.wp_bind, Tx.wp_require]
    exact h
  | queue key actorId payload reason now i =>
    exact queueChange_owes (Swept.nil now) key actorId (gated_eq_none key payload) reason now i
  | approve i adminId note now => exact approve_owes hversion i adminId note now
  | reject i adminId note now => exact reject_owes i adminId note now
  | cancel i adminId note now => exact cancel_owes i adminId note now
  | expire now skipped =>
    refine Tx.wp_bind.mpr (wp_expireDue fun due w' L' s' d' hswept => ?_)
    exact hswept.owes .swept

end Owes

/-! ### Every interleaving -/

/-- **Four eyes on every gated setting.** While no save is overtaken: one request is pending per section
at most; whatever changes a setting that needs approval is the approval of a pending, unexpired request by
an admin who did not make it, and leaves the section as the request's diff says; and a request is
born pending and, once decided, stays as it is. -/
theorem gated_settings_four_eyes [DecidableEq K] [Fintype F] [DecidableEq V] [DecidableEq W] {ι : Type}
    [DecidableEq ι] {env : ConfigEnv K F A V W} (happroval : env.approvalRequired = true)
    (hversion : Function.Injective env.versionOf) {d₀ : ConfigDb K F A V W}
    (h₀ : d₀.requests = .empty)
    {C : Config (ConfigDb K F A V W) (ConfigKey K) Abort ConfigReply (ConfigClient K F A) ι}
    (h : Reachable (configMachine env) d₀ C) :
    (∀ key i j r u, C.db.requests.get? i = some r → C.db.requests.get? j = some u →
      r.PendingFor key → u.PendingFor key → i = j) ∧
    ∀ l C', Step (configMachine env) C l C' →
      (∀ key f, env.Gated key f → C'.db.rows key f ≠ C.db.rows key f →
        ∃ client reply, l = some (client, reply) ∧ Approved env client key C.db C'.db) ∧
      (∀ i r, C.db.requests.get? i = some r → r.status ≠ .pending →
        C'.db.requests.get? i = some r) ∧
      (∀ i r, C.db.requests.get? i = none → C'.db.requests.get? i = some r → r.status = .pending) := by
  have hI : ConfigInv env d₀ := by
    constructor
    · intro key i j r u hr
      rw [h₀, Table.get?_empty] at hr
      exact absurd hr (by simp)
    · intro i r hr
      rw [h₀, Table.get?_empty] at hr
      exact absurd hr (by simp)
  have hcorrect := configMachine_correct happroval hversion
  refine ⟨(hcorrect.reachable hI h).inv.unique, fun l C' hstep => ?_⟩
  rcases l with _ | ⟨client, reply⟩
  · -- Nothing but a commit changes anything.
    rw [hstep.db_eq]
    refine ⟨fun key f _ hne => absurd rfl hne, fun _ _ hr _ => hr, fun i r hr hr' => ?_⟩
    rw [hr] at hr'
    exact absurd hr' (by simp)
  · have hcommit := hcorrect.commit hI h hstep
    exact ⟨fun key f hf hne => ⟨client, reply, rfl, hcommit.approved key f hf hne⟩, hcommit.closed,
      hcommit.born⟩

/-! ### Two sample runs -/

section Sample

/-- One section with one setting, which needs approval. -/
def sampleConfig : ConfigEnv Unit Unit ℕ ℕ (Snapshot Unit ℕ) where
  sections _ := ⟨fun _ => false, fun _ => true, fun _ _ => .ok (), fun _ a _ => a⟩
  versionOf := id
  approvalRequired := true
  expiry := 7

/-- The setting is 0 and nothing is pending. -/
def sampleSettings : ConfigDb Unit Unit ℕ ℕ (Snapshot Unit ℕ) := ⟨fun _ _ => 0, .empty⟩

/-- Admin 1 wants 5. -/
def sampleMaker : ConfigClient Unit Unit ℕ :=
  .submit () 1 (fun _ => some 5) "raise" 100 [] 1 .queued

/-- Admin 2 approves. -/
def sampleChecker : ConfigClient Unit Unit ℕ := .approve 1 2 none 101

/-- Admin 3 saves the form with the 0 it was loaded with. -/
def sampleSaver : ConfigClient Unit Unit ℕ :=
  .submit () 3 (fun _ => some 0) "" 101 [] 2 .unchanged

/-- What the request leaves, and what its approval leaves. -/
def sampleQueued : ConfigDb Unit Unit ℕ ℕ (Snapshot Unit ℕ) :=
  (configCode sampleConfig sampleMaker).exec sampleSettings

/-- What its approval leaves. -/
def sampleApproved : ConfigDb Unit Unit ℕ ℕ (Snapshot Unit ℕ) :=
  (configCode sampleConfig sampleChecker).exec sampleQueued

theorem gated_settings_four_eyes_sample :
    sampleApproved.rows () () = 5 ∧ ∀ i r, sampleApproved.requests.get? i = some r →
      r.status ≠ .pending → ∀ l C', Step (configMachine sampleConfig)
        (Config.idle sampleApproved : Config _ _ _ _ _ ℕ) l C' → C'.db.requests.get? i = some r := by
  have hqueued : Reachable (configMachine sampleConfig) sampleSettings
      (Config.idle sampleQueued : Config _ _ _ _ _ ℕ) :=
    reaches_of_code 0 (c := sampleMaker) (a := .queued) (fun _ => trivial) rfl
  have happroved : Relation.ReflTransGen (Steps (configMachine sampleConfig))
      (Config.idle sampleQueued : Config _ _ _ _ _ ℕ) (Config.idle sampleApproved) :=
    reaches_of_code 0 (c := sampleChecker) (a := .decided) (fun _ => trivial) rfl
  have hreach := hqueued.trans happroved
  refine ⟨rfl, fun i r hr hs l C' hstep => ?_⟩
  exact ((gated_settings_four_eyes rfl Function.injective_id rfl hreach).2 l C' hstep).2.1 i r hr hs

/-- The saver looks while the request is pending; then the request is approved; then the saver, who saw
nothing to change, applies its payload. -/
theorem save_overturns_approval :
    ∃ C C' : Config (ConfigDb Unit Unit ℕ ℕ (Snapshot Unit ℕ)) (ConfigKey Unit) Abort ConfigReply
        (ConfigClient Unit Unit ℕ) ℕ,
      Reachable (Machine.ofCode (configCode sampleConfig)) sampleSettings C ∧
      Step (Machine.ofCode (configCode sampleConfig)) C (some (sampleSaver, .unchanged)) C' ∧
      sampleConfig.Gated () () ∧ C'.db.rows () () ≠ C.db.rows () () ∧
      ¬Approved sampleConfig sampleSaver () C.db C'.db := by
  let M := Machine.ofCode (configCode sampleConfig)
  let C₁ : Config (ConfigDb Unit Unit ℕ ℕ (Snapshot Unit ℕ)) (ConfigKey Unit) Abort ConfigReply
    (ConfigClient Unit Unit ℕ) ℕ := Config.idle sampleQueued
  have hqueued : Relation.ReflTransGen (Steps M) (Config.idle sampleSettings) C₁ :=
    reaches_of_code 0 (c := sampleMaker) (a := .queued) (fun _ => trivial) rfl
  -- The saver opens a session and makes the two reads of its dry run.
  let d₃ := sampleApproved.setFields () ((sampleConfig.sections ()).changes (fun _ => some 0)
    (sampleApproved.rows ()))
  obtain ⟨t, hrun, hreads⟩ : ∃ t, t.run sampleApproved = .ok (.unchanged, d₃) ∧ Relation.ReflTransGen (Steps M) C₁
        (C₁.put 0 (some ⟨sampleSaver, t, id, [], [sampleQueued, sampleQueued]⟩)) := by
    refine ⟨_, ?_, .head ⟨none, Step.begin (i := 0) sampleSaver rfl⟩
      ((reaches_read rfl rfl).trans (reaches_read rfl rfl))⟩
    rfl
  -- The approval comes in between.
  let C₂ := C₁.put 0 (some ⟨sampleSaver, t, id, [], [sampleQueued, sampleQueued]⟩)
  have hfree : ∀ k, C₂.Free 1 k := fun k j u _ hu => by
    rw [Config.put_session] at hu
    by_cases hj : j = 0
    · obtain rfl := Option.some.inj ((if_pos hj).symm.trans hu)
      exact List.not_mem_nil
    · exact absurd ((if_neg hj).symm.trans hu) (by simp [C₁, Config.idle])
  have hnone : C₂.session 1 = none := by
    rw [Config.put_session, if_neg (by decide)]
    rfl
  have hbetween : Relation.ReflTransGen (Steps M) C₂ { C₂ with db := sampleApproved } :=
    reaches_between 1 (c := sampleChecker) (a := .decided) hnone hfree (fun _ => trivial) rfl
  -- The saver goes on.
  have hidle : ∀ k, (Config.idle sampleApproved : Config (ConfigDb Unit Unit ℕ ℕ (Snapshot Unit ℕ))
      (ConfigKey Unit) Abort ConfigReply (ConfigClient Unit Unit ℕ) ℕ).Free 0 k :=
    fun k j u _ hu => absurd hu (by simp [Config.idle])
  obtain ⟨w, L, s, hw, hrest⟩ := reaches_commit (M := M) (c := sampleSaver) (w := id) (L := [])
    (s := [sampleQueued, sampleQueued]) hidle hrun
  refine ⟨_, _, ((hqueued.trans hreads).trans hbetween).trans hrest,
    Step.commit (put_session_self _ _ _) rfl trivial, rfl, ?_, ?_⟩
  · change (w sampleApproved).rows () () ≠ sampleApproved.rows () ()
    rw [show w sampleApproved = d₃ from hw]
    decide
  · rintro ⟨i, adminId, note, now, r, hclient, -⟩
    exact absurd hclient (by simp [sampleSaver])

end Sample

end Marketplace
