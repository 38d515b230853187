import LcpRelay.Relay.Spec

/-!
# What one call of `UpdateEKIfNeeded` guarantees

Every exit of a step, returning or failing, satisfies `Exit`: a key the prover holds afterwards was
held before or was freshly selected, attested and registered in the step, and an unfinalized
record is written only for such a fresh key.  Memory is never ahead of disk (`MemoryOnDisk`) at
every exit, and a call that returns nil leaves a key that passed `checkEKIUpdateNeeded` during the
call (`Settled`).  The properties of runs are derived from `updateEKIfNeeded_spec`.
-/

namespace LcpRelay

namespace Prover

variable (cfg : ProverConfig) (ias : IAS) (env : Env)

/-- Memory is never ahead of disk: a pending key is the unfinalized record, and a key held
without a pending registration is the finalized record. -/
def MemoryOnDisk (pr : Prover) : Prop :=
  (∀ m, pr.unfinalizedMsgID = some m →
    ∃ k, pr.activeEnclaveKey = some k ∧ pr.store.unfinalized = some (k, m)) ∧
  (∀ k, pr.unfinalizedMsgID = none → pr.activeEnclaveKey = some k → pr.store.finalized = some k)

/-- A key the prover holds, in memory or on disk. -/
def Holds (pr : Prover) (k : EnclaveKeyInfo) : Prop :=
  pr.activeEnclaveKey = some k ∨ pr.store.finalized = some k ∨
    ∃ m, pr.store.unfinalized = some (k, m)

/-- `k` was selected, is attested, and was submitted for registration between `pr` and `pr'`. -/
def Fresh (pr pr' : Prover) (k : EnclaveKeyInfo) : Prop :=
  NewEvent pr pr' (.selected k) ∧ Attested cfg ias k ∧ ∃ m, Submitted cfg ias env pr pr' k m

/-- What every exit of a step guarantees. -/
structure Exit (pr pr' : Prover) : Prop where
  grows : pr.Grows pr'
  holds : ∀ k, Holds pr' k → Holds pr k ∨ Fresh cfg ias env pr pr' k
  saves : ∀ k m, NewEvent pr pr' (.saveUnfinalized k m) → Fresh cfg ias env pr pr' k

/-- The destination chain reported message `m` executed and not yet finalized. -/
def Reported (m : MsgID) : Prop :=
  ∃ i j h res, (env.chain i).latestFinalizedHeight = .ok h ∧
    (env.chain j).msgResult m = .ok res ∧ res.status = true ∧ res.blockHeight.lte h = false

/-- After a step that keeps its key: the key passed `checkEKIUpdateNeeded` on a clock reading and
an `EnclaveKey` answer of the step, and a pending registration was reported successful and not
finalized. -/
structure Settled (pr pr' : Prover) : Prop where
  active : ∃ k, pr'.activeEnclaveKey = some k ∧
    (∃ i, During pr pr' i ∧ (env.clock i).after (updateTime cfg k) = false) ∧
    (∃ j, During pr pr' j ∧ (env.lcp j).enclaveKey k.enclaveKeyAddress = true)
  pending : ∀ m, pr'.unfinalizedMsgID = some m → Reported env m

variable {cfg ias env}

theorem memoryOnDisk_of_view {pr pr' : Prover} (hv : pr'.view = pr.view) (h : MemoryOnDisk pr) :
    MemoryOnDisk pr' := by
  simp only [view, Prod.mk.injEq] at hv
  unfold MemoryOnDisk; rw [hv.1, hv.2.1, hv.2.2]; exact h

theorem memoryOnDisk_of_cleared {pr : Prover} (ha : pr.activeEnclaveKey = none)
    (hu : pr.unfinalizedMsgID = none) : MemoryOnDisk pr :=
  ⟨fun _ h => (by rw [hu] at h; cases h), fun _ _ h => (by rw [ha] at h; cases h)⟩

theorem holds_of_view {pr pr' : Prover} {k : EnclaveKeyInfo} (hv : pr'.view = pr.view)
    (h : Holds pr' k) : Holds pr k := by
  simp only [view, Prod.mk.injEq] at hv
  unfold Holds at *; rwa [hv.1, hv.2.2] at h

theorem NewEvent.not_of_log_eq {pr pr' : Prover} {e : Event} (h : pr'.log = pr.log) :
    ¬ NewEvent pr pr' e := fun ⟨l, hl, hm⟩ => by
  rw [h, List.self_eq_append_left] at hl; subst hl; exact List.not_mem_nil _ hm

theorem Fresh.of_grows_left {a b c : Prover} {k : EnclaveKeyInfo} (hg : a.Grows b)
    (h : Fresh cfg ias env b c k) : Fresh cfg ias env a c k :=
  ⟨h.1.of_grows_left hg, h.2.1, h.2.2.imp fun _ h => h.of_grows_left hg⟩

theorem Fresh.of_grows_right {a b c : Prover} {k : EnclaveKeyInfo} (h : Fresh cfg ias env a b k)
    (hg : b.Grows c) : Fresh cfg ias env a c k :=
  ⟨h.1.of_grows_right hg, h.2.1, h.2.2.imp fun _ h => h.of_grows_right hg⟩

theorem Exit.trans {a b c : Prover} (h : Exit cfg ias env a b) (h' : Exit cfg ias env b c) :
    Exit cfg ias env a c := by
  refine ⟨h.grows.trans h'.grows, fun k hk => ?_, fun k m he => ?_⟩
  · rcases h'.holds k hk with hb | hf
    · exact (h.holds k hb).imp_right (·.of_grows_right h'.grows)
    · exact .inr (hf.of_grows_left h.grows)
  · rcases he.split h.grows h'.grows with he | he
    · exact (h.saves k m he).of_grows_right h'.grows
    · exact (h'.saves k m he).of_grows_left h.grows

theorem Exit.of_quiet {a b : Prover} (h : a.Quiet b) : Exit cfg ias env a b :=
  ⟨h.grows, fun _ hk => .inl (holds_of_view h.view_eq hk),
    fun _ _ he => absurd (h.noWrites _ he) (by simp [Event.writesStore])⟩

/-- A step that wrote nothing and logged nothing, whose key in memory was held before. -/
theorem Exit.of_load {pr pr' : Prover} (hs : pr'.store = pr.store) (hl : pr'.log = pr.log)
    (ht : pr.tick ≤ pr'.tick) (ha : ∀ k, pr'.activeEnclaveKey = some k → Holds pr k) :
    Exit cfg ias env pr pr' := by
  refine ⟨⟨ht, hl ▸ List.suffix_refl _⟩, fun k hk => .inl ?_,
    fun _ _ he => absurd he (NewEvent.not_of_log_eq hl)⟩
  rcases hk with hk | hk
  · exact ha k hk
  · rw [hs] at hk; exact .inr hk

/-- A step whose new events `l` write no unfinalized record, and whose held keys were held before. -/
theorem Exit.of_events {pr pr' : Prover} (l : List Event) (hl : pr'.log = l ++ pr.log)
    (ht : pr.tick ≤ pr'.tick) (hh : ∀ k, Holds pr' k → Holds pr k)
    (hs : ∀ k m, .saveUnfinalized k m ∉ l) : Exit cfg ias env pr pr' := by
  refine ⟨⟨ht, hl ▸ List.suffix_append _ _⟩, fun k hk => .inl (hh k hk), fun k m he => ?_⟩
  obtain ⟨l', hl', hm⟩ := he
  rw [List.append_cancel_right (hl'.symm.trans hl)] at hm
  exact absurd hm (hs k m)

/-- A step from `pr₁` whose only new key is the fresh key `eki`. -/
theorem Exit.of_fresh {pr pr₁ pr' : Prover} {eki : EnclaveKeyInfo} (hx : Exit cfg ias env pr pr₁)
    (hf : Fresh cfg ias env pr pr₁ eki) (l : List Event) (hl : pr'.log = l ++ pr₁.log)
    (ht : pr₁.tick ≤ pr'.tick) (hh : ∀ k, Holds pr' k → Holds pr₁ k ∨ k = eki)
    (hs : ∀ k m, .saveUnfinalized k m ∈ l → k = eki) : Exit cfg ias env pr pr' := by
  have hg : pr₁.Grows pr' := ⟨ht, hl ▸ List.suffix_append _ _⟩
  refine ⟨hx.grows.trans hg, fun k hk => ?_, fun k m he => ?_⟩
  · rcases hh k hk with h | rfl
    · exact (hx.holds k h).imp_right (·.of_grows_right hg)
    · exact .inr (hf.of_grows_right hg)
  · rcases he.split hx.grows hg with he | ⟨l', hl', hm⟩
    · exact (hx.saves k m he).of_grows_right hg
    · rw [List.append_cancel_right (hl'.symm.trans hl)] at hm
      exact hs k m hm ▸ hf.of_grows_right hg

theorem Settled.of_grows_left {a b c : Prover} (hg : a.Grows b) (h : Settled cfg env b c) :
    Settled cfg env a c := by
  obtain ⟨⟨k, hk, ⟨i, hi, hdue⟩, ⟨j, hj, havail⟩⟩, hpending⟩ := h
  exact ⟨⟨k, hk, ⟨i, hi.of_grows_left hg, hdue⟩, ⟨j, hj.of_grows_left hg, havail⟩⟩, hpending⟩

/-- A selected key set in memory is settled. -/
theorem Selected.settled {pr pr₁ pr' : Prover} {eki : EnclaveKeyInfo}
    (hs : Selected cfg ias env pr pr₁ eki) (hg : pr₁.Grows pr')
    (ha : pr'.activeEnclaveKey = some eki)
    (hp : ∀ m, pr'.unfinalizedMsgID = some m → Reported env m) : Settled cfg env pr pr' :=
  ⟨⟨eki, ha, (hs.of_grows_right hg).notDue, (hs.of_grows_right hg).available⟩, hp⟩

/-! ### `loadEKIAndCheckUpdateNeeded` -/

/-- Case A loads memory from disk: afterwards memory agrees with disk whenever a key was found. -/
theorem loadEnclaveKeyIntoMemory_spec (pr : Prover) :
    wp (loadEnclaveKeyIntoMemory env)
      (fun b pr' => Exit cfg ias env pr pr' ∧ (b = true → MemoryOnDisk pr')) (fun _ => pr.Quiet) pr := by
  simp only [loadEnclaveKeyIntoMemory, wp_bind, wp_loadLastUnfinalizedEnclaveKey]
  rcases env.disk pr.tick with e | ⟨⟩
  · exact .ticks pr (Nat.le_succ _)
  dsimp only
  rcases hu : pr.store.unfinalized with _ | ⟨k, m⟩
  · simp only [wp_bind, wp_loadLastFinalizedEnclaveKey]
    rcases env.disk (pr.tick + 1) with e | ⟨⟩
    · exact .ticks pr (by omega)
    dsimp only
    rcases hf : pr.store.finalized with _ | k
    · exact ⟨.of_load rfl rfl (by dsimp only; omega) fun _ => .inl, by simp⟩
    refine ⟨.of_load rfl rfl (by dsimp only; omega) fun k' hk' => ?_, fun _ => ?_⟩
    · cases hk'; exact .inr (.inl hf)
    · exact ⟨by simp, fun _ _ hk => by cases hk; exact hf⟩
  refine ⟨.of_load rfl rfl (by dsimp only; omega) fun k' hk' => ?_, fun _ => ?_⟩
  · cases hk'; exact .inr (.inr ⟨m, hu⟩)
  · exact ⟨fun _ hm => by cases hm; exact ⟨k, rfl, hu⟩, by simp⟩

/-- Promoting the pending key `k` once its registration is final. -/
theorem promoteFinalized_spec {pr₀ pr : Prover} {i : Nat} {k : EnclaveKeyInfo} {m : MsgID}
    (hi : During pr₀ pr i) (hg : pr₀.Grows pr) (hk : pr.activeEnclaveKey = some k)
    (hm : pr.unfinalizedMsgID = some m) :
    wp (promoteFinalized cfg env (env.clock i) k)
      (fun b pr' => Exit cfg ias env pr pr' ∧
        (b = false → MemoryOnDisk pr' ∧ Settled cfg env pr₀ pr'))
      (fun _ pr' => Exit cfg ias env pr pr' ∧ (MemoryOnDisk pr → MemoryOnDisk pr')) pr := by
  simp only [promoteFinalized, wp_bind, wp_checkEKIUpdateNeeded]
  cases hdue : (env.clock i).after (updateTime cfg k)
  case true => exact ⟨.of_quiet (.refl pr), by simp⟩
  cases havail : (env.lcp pr.tick).enclaveKey k.enclaveKeyAddress
  case false => exact ⟨.of_quiet (.ticks pr (Nat.le_succ _)), by simp⟩
  simp only [Bool.false_eq_true, if_false, if_true, wp_bind, wp_saveFinalizedEnclaveKeyInfo]
  rcases env.disk (pr.tick + 1) with e | ⟨⟩
  · refine ⟨.of_events [_] rfl (by dsimp only; omega) (fun _ => id) (by simp), ?_⟩
    exact memoryOnDisk_of_view rfl
  dsimp only
  simp only [wp_removeUnfinalizedEnclaveKeyInfo]
  rcases env.disk (pr.tick + 1 + 1) with e | ⟨⟩
  · refine ⟨.of_events [_, _] rfl (by dsimp only; omega) ?_ (by simp), fun hd => ?_⟩
    · rintro k' (h | h | ⟨m', h⟩)
      · exact .inl h
      · cases h; exact .inl hk
      · exact .inr (.inr ⟨m', h⟩)
    · obtain ⟨k'', hk'', hu⟩ := hd.1 m hm
      rw [hk] at hk''; cases hk''
      exact ⟨fun m' hm' => ⟨k, hk, by rw [hm] at hm'; cases hm'; exact hu⟩, by simp [hm]⟩
  refine ⟨.of_events [_, _] rfl (by dsimp only; omega) ?_ (by simp), fun _ => ⟨?_, ?_⟩⟩
  · rintro k' (h | h | ⟨m', h⟩)
    · exact .inl h
    · cases h; exact .inl hk
    · cases h
  · exact ⟨by simp, fun k' _ h => by rw [hk] at h; cases h; rfl⟩
  · refine ⟨⟨k, hk, ⟨i, hi.of_grows_right ⟨by dsimp only; omega, [_, _], rfl⟩, hdue⟩,
      ⟨pr.tick, ⟨hg.tick_le, by dsimp only; omega⟩, havail⟩⟩, by simp⟩

/-- `checkEKIUpdateNeeded` on the key `k` in memory, after a quiet stretch from `pr`. -/
theorem checkEKIUpdateNeeded_exit {pr₀ pr pr₁ : Prover} {i : Nat} {k : EnclaveKeyInfo}
    {R : Error → Prover → Prop} (hi : During pr₀ pr₁ i) (hg : pr₀.Grows pr₁) (hq : pr.Quiet pr₁)
    (hk : pr₁.activeEnclaveKey = some k)
    (hp : ∀ m, pr₁.unfinalizedMsgID = some m → Reported env m) :
    wp (checkEKIUpdateNeeded cfg env (env.clock i) k)
      (fun b pr' => Exit cfg ias env pr pr' ∧
        (b = false → (MemoryOnDisk pr → MemoryOnDisk pr') ∧ Settled cfg env pr₀ pr')) R pr₁ := by
  rw [wp_checkEKIUpdateNeeded]
  cases hdue : (env.clock i).after (updateTime cfg k)
  case true => exact ⟨.of_quiet hq, by simp⟩
  cases havail : (env.lcp pr₁.tick).enclaveKey k.enclaveKeyAddress
  case false => exact ⟨.of_quiet (hq.trans (.ticks pr₁ (Nat.le_succ _))), by simp⟩
  have hq' := hq.trans (.ticks pr₁ (Nat.le_succ _))
  refine ⟨.of_quiet hq', fun _ => ⟨memoryOnDisk_of_view hq'.view_eq, ?_, hp⟩⟩
  exact ⟨k, hk, ⟨i, hi.of_grows_right (Quiet.ticks pr₁ (Nat.le_succ _)).grows, hdue⟩,
    ⟨pr₁.tick, ⟨hg.tick_le, Nat.lt_succ_self _⟩, havail⟩⟩

/-- Removing the unfinalized record, after a quiet stretch from `pr`. -/
theorem removeUnfinalized_exit {pr pr₁ : Prover} (hq : pr.Quiet pr₁) :
    wp (removeUnfinalizedEnclaveKeyInfo env) (fun _ pr' => Exit cfg ias env pr pr')
      (fun _ pr' => Exit cfg ias env pr pr' ∧ (MemoryOnDisk pr → MemoryOnDisk pr')) pr₁ := by
  have hx : Exit cfg ias env pr pr₁ := .of_quiet hq
  rw [wp_removeUnfinalizedEnclaveKeyInfo]
  rcases env.disk pr₁.tick with e | ⟨⟩
  · exact ⟨hx.trans (.of_events [_] rfl (by dsimp only; omega) (fun _ => holds_of_view rfl)
      (by simp)), fun hd => memoryOnDisk_of_view rfl (memoryOnDisk_of_view hq.view_eq hd)⟩
  refine hx.trans (.of_events [_] rfl (by dsimp only; omega) ?_ (by simp))
  rintro k' (h | h | ⟨m', h⟩)
  · exact .inl h
  · exact .inr (.inl h)
  · cases h

/-- With a key in memory, the key is kept, or the step reports that it must be replaced. -/
theorem checkActiveEnclaveKey_spec {pr₀ pr : Prover} {i : Nat} (hi : During pr₀ pr i)
    (hg : pr₀.Grows pr) :
    wp (checkActiveEnclaveKey cfg env (env.clock i))
      (fun b pr' => Exit cfg ias env pr pr' ∧
        (b = false → (MemoryOnDisk pr → MemoryOnDisk pr') ∧ Settled cfg env pr₀ pr'))
      (fun _ pr' => Exit cfg ias env pr pr' ∧ (MemoryOnDisk pr → MemoryOnDisk pr')) pr := by
  simp only [checkActiveEnclaveKey, wp_bind, wp_get]
  rcases hm : pr.unfinalizedMsgID with _ | m
  case none =>
    simp only [wp_bind, wp_activeKey]
    rcases hk : pr.activeEnclaveKey with _ | k
    · exact ⟨.of_quiet (.refl pr), id⟩
    exact checkEKIUpdateNeeded_exit hi hg (.refl pr) hk (by simp [hm])
  simp only [wp_bind, wp_request]
  rcases (env.chain pr.tick).msgResult m with e | res₀
  case error =>
    simp only [wp_bind]
    exact (removeUnfinalized_exit (.ticks pr (Nat.le_succ _))).mono
      (fun _ _ h => ⟨h, by simp⟩) (fun _ _ h => h)
  simp only [wp_bind, wp_checkMsgStatus]
  rcases hlf : (env.chain (pr.tick + 1)).latestFinalizedHeight with e | h
  · exact ⟨.of_quiet (.ticks pr (by omega)), memoryOnDisk_of_view rfl⟩
  dsimp only
  rcases hr : (env.chain (pr.tick + 1 + 1)).msgResult m with e | res
  · exact ⟨.of_quiet (.ticks pr (by omega)), memoryOnDisk_of_view rfl⟩
  dsimp only
  generalize hp₁ : ({ pr with tick := pr.tick + 1 + 2 } : Prover) = pr₁
  have hq : pr.Quiet pr₁ := hp₁ ▸ .ticks pr (by omega)
  have hm₁ : pr₁.unfinalizedMsgID = some m := hp₁ ▸ hm
  cases hs : res.status
  case false =>
    simp only [Bool.false_eq_true, if_false, Bool.not_false, if_true, wp_bind]
    exact (removeUnfinalized_exit hq).mono (fun _ _ h => ⟨h, by simp⟩) (fun _ _ h => h)
  simp only [if_true, Bool.not_true, Bool.false_eq_true, if_false, wp_ite, wp_bind, wp_activeKey]
  rcases hk : pr₁.activeEnclaveKey with _ | k
  · simp only [ite_self]
    exact ⟨.of_quiet hq, memoryOnDisk_of_view hq.view_eq⟩
  dsimp only
  cases hf : res.blockHeight.lte h
  case false =>
    simp only [Bool.false_eq_true, if_false]
    refine checkEKIUpdateNeeded_exit (hi.of_grows_right hq.grows) (hg.trans hq.grows) hq hk
      fun m' hm' => ?_
    rw [hm₁] at hm'; cases hm'
    exact ⟨_, _, h, res, hlf, hr, hs, hf⟩
  simp only [if_true]
  refine (promoteFinalized_spec (hi.of_grows_right hq.grows) (hg.trans hq.grows) hk hm₁).mono
    (fun _ _ h => ⟨(Exit.of_quiet hq).trans h.1, fun hb => ⟨fun _ => (h.2 hb).1, (h.2 hb).2⟩⟩)
    (fun _ _ h => ⟨(Exit.of_quiet hq).trans h.1,
      fun hd => h.2 (memoryOnDisk_of_view hq.view_eq hd)⟩)

/-- `loadEKIAndCheckUpdateNeeded`. -/
theorem loadEKIAndCheckUpdateNeeded_spec (pr : Prover) :
    wp (loadEKIAndCheckUpdateNeeded cfg env)
      (fun b pr' => Exit cfg ias env pr pr' ∧
        (b = false → (MemoryOnDisk pr → MemoryOnDisk pr') ∧ Settled cfg env pr pr'))
      (fun _ pr' => Exit cfg ias env pr pr' ∧ (MemoryOnDisk pr → MemoryOnDisk pr')) pr := by
  simp only [loadEKIAndCheckUpdateNeeded, wp_bind, wp_request, wp_get]
  generalize hp₁ : ({ pr with tick := pr.tick + 1 } : Prover) = pr₁
  have hq : pr.Quiet pr₁ := hp₁ ▸ .ticks pr (Nat.le_succ _)
  have hi : During pr pr₁ pr.tick := hp₁ ▸ ⟨Nat.le_refl _, Nat.lt_succ_self _⟩
  rcases pr.activeEnclaveKey with _ | k
  case some =>
    exact (checkActiveEnclaveKey_spec hi hq.grows).mono
      (fun _ _ h => ⟨(Exit.of_quiet hq).trans h.1,
        fun hb => ⟨fun hd => (h.2 hb).1 (memoryOnDisk_of_view hq.view_eq hd), (h.2 hb).2⟩⟩)
      (fun _ _ h => ⟨(Exit.of_quiet hq).trans h.1,
        fun hd => h.2 (memoryOnDisk_of_view hq.view_eq hd)⟩)
  simp only [wp_bind]
  refine (@loadEnclaveKeyIntoMemory_spec cfg ias env pr₁).mono (fun b pr₂ h₂ => ?_)
    (fun _ _ h => ⟨.of_quiet (hq.trans h), memoryOnDisk_of_view (hq.trans h).view_eq⟩)
  have hx₂ := (Exit.of_quiet hq).trans h₂.1
  cases b
  case false => exact ⟨hx₂, by simp⟩
  exact (checkActiveEnclaveKey_spec (hi.of_grows_right h₂.1.grows) (hq.grows.trans h₂.1.grows)).mono
    (fun _ _ h => ⟨hx₂.trans h.1, fun hb => ⟨fun _ => (h.2 hb).1 (h₂.2 rfl), (h.2 hb).2⟩⟩)
    (fun _ _ h => ⟨hx₂.trans h.1, fun _ => h.2 (h₂.2 rfl)⟩)

/-! ### The rotation -/

/-- Persisting the fresh key `eki`, registered by `msgID`, with memory cleared. -/
theorem persistNewKey_spec {pr pr₁ : Prover} {eki : EnclaveKeyInfo} {msgID : MsgID}
    (hx : Exit cfg ias env pr pr₁) (hf : Fresh cfg ias env pr pr₁ eki)
    (hsel : Selected cfg ias env pr pr₁ eki) (ha : pr₁.activeEnclaveKey = none)
    (hu : pr₁.unfinalizedMsgID = none) :
    wp (persistNewKey env eki msgID)
      (fun _ pr' => Exit cfg ias env pr pr' ∧ MemoryOnDisk pr' ∧ Settled cfg env pr pr')
      (fun _ pr' => Exit cfg ias env pr pr' ∧ MemoryOnDisk pr') pr₁ := by
  simp only [persistNewKey, wp_bind, wp_wrapErr, wp_checkMsgStatus]
  rcases hlf : (env.chain pr₁.tick).latestFinalizedHeight with e | h
  · exact ⟨hx.trans (.of_quiet (.ticks pr₁ (Nat.le_succ _))), memoryOnDisk_of_cleared ha hu⟩
  dsimp only
  rcases hr : (env.chain (pr₁.tick + 1)).msgResult msgID with e | res
  · exact ⟨hx.trans (.of_quiet (.ticks pr₁ (by omega))), memoryOnDisk_of_cleared ha hu⟩
  dsimp only
  generalize hp₂ : ({ pr₁ with tick := pr₁.tick + 2 } : Prover) = pr₂
  have hq : pr₁.Quiet pr₂ := hp₂ ▸ .ticks pr₁ (by omega)
  have hx₂ := hx.trans (.of_quiet hq)
  have hf₂ := hf.of_grows_right hq.grows
  have ha₂ := hq.activeEnclaveKey_eq.trans ha
  have hu₂ := hq.unfinalizedMsgID_eq.trans hu
  cases hs : res.status
  case false => exact ⟨hx₂, memoryOnDisk_of_cleared ha₂ hu₂⟩
  simp only [if_true, Bool.not_true, Bool.false_eq_true, if_false, wp_ite]
  cases hfin : res.blockHeight.lte h
  case true =>
    simp only [if_true, wp_bind, wp_pure, wp_saveFinalizedEnclaveKeyInfo]
    rcases env.disk pr₂.tick with e | ⟨⟩
    · exact ⟨hx₂.trans (.of_events [_] rfl (Nat.le_succ _) (fun _ => holds_of_view rfl) (by simp)),
        memoryOnDisk_of_cleared ha₂ hu₂⟩
    refine ⟨hx₂.of_fresh hf₂ [_] rfl (Nat.le_succ _) ?_ (by simp), ⟨by simp [hu₂], by simp⟩,
      hsel.settled (hq.grows.trans ⟨Nat.le_succ _, List.suffix_cons _ _⟩) rfl (by simp [hu₂])⟩
    rintro k (h | h | ⟨m, h⟩)
    · cases h; exact .inr rfl
    · cases h; exact .inr rfl
    · exact .inl (.inr (.inr ⟨m, h⟩))
  simp only [Bool.false_eq_true, if_false, wp_bind, wp_pure, wp_saveUnfinalizedEnclaveKeyInfo]
  rcases env.disk pr₂.tick with e | ⟨⟩
  · exact ⟨hx₂.of_fresh hf₂ [_] rfl (Nat.le_succ _) (fun _ h => .inl (holds_of_view rfl h))
      (by simp), memoryOnDisk_of_cleared ha₂ hu₂⟩
  refine ⟨hx₂.of_fresh hf₂ [_] rfl (Nat.le_succ _) ?_ (by simp), ⟨by simp, by simp⟩,
    hsel.settled (hq.grows.trans ⟨Nat.le_succ _, List.suffix_cons _ _⟩) rfl fun m hm => ?_⟩
  · rintro k (h | h | ⟨m, h⟩)
    · cases h; exact .inr rfl
    · exact .inl (.inr (.inl h))
    · cases h; exact .inr rfl
  · cases hm
    exact ⟨_, _, h, res, hlf, hr, hs, hfin⟩

/-- A rotation leaves memory on disk at every exit. -/
theorem rotate_spec (pr : Prover) :
    wp (rotate cfg ias env)
      (fun _ pr' => Exit cfg ias env pr pr' ∧ MemoryOnDisk pr' ∧ Settled cfg env pr pr')
      (fun _ pr' => Exit cfg ias env pr pr' ∧ MemoryOnDisk pr') pr := by
  simp only [rotate, wp_bind, wp_modify, wp_wrapErr]
  generalize hp₁ : ({ pr with activeEnclaveKey := none, unfinalizedMsgID := none } : Prover) = pr₁
  have hx₁ : Exit cfg ias env pr pr₁ := hp₁ ▸ .of_load rfl rfl (Nat.le_refl _) (by simp)
  have hd₁ : MemoryOnDisk pr₁ := hp₁ ▸ memoryOnDisk_of_cleared rfl rfl
  refine (selectNewEnclaveKey_spec pr₁).mono (fun eki pr₂ h₂ => ?_)
    (fun _ _ h => ⟨hx₁.trans (.of_quiet h), memoryOnDisk_of_view h.view_eq hd₁⟩)
  simp only [wp_bind, wp_wrapErr]
  refine (registerEnclaveKey_spec eki pr₂).mono (fun msgID pr₃ h₃ => ?_)
    (fun _ _ h => ⟨hx₁.trans (.of_quiet (h₂.1.trans h)),
      memoryOnDisk_of_view (h₂.1.trans h).view_eq hd₁⟩)
  have hq := h₂.1.trans h₃.1
  have hf : Fresh cfg ias env pr pr₃ eki := Fresh.of_grows_left hx₁.grows
    ⟨h₂.2.2.of_grows_right h₃.1.grows, h₂.2.1.attested, msgID, h₃.2.of_grows_left h₂.1.grows⟩
  exact persistNewKey_spec (hx₁.trans (.of_quiet hq)) hf
    ((h₂.2.1.of_grows_right h₃.1.grows).of_grows_left hx₁.grows)
    (hq.activeEnclaveKey_eq.trans (hp₁ ▸ rfl)) (hq.unfinalizedMsgID_eq.trans (hp₁ ▸ rfl))

/-! ### `UpdateEKIfNeeded` -/

/-- One call of `UpdateEKIfNeeded`: every exit satisfies `Exit` and keeps memory on disk, and a call
that returns nil leaves a settled key. -/
theorem updateEKIfNeeded_spec (pr : Prover) :
    wp (updateEKIfNeeded cfg ias env)
      (fun _ pr' => Exit cfg ias env pr pr' ∧ (MemoryOnDisk pr → MemoryOnDisk pr') ∧
        Settled cfg env pr pr')
      (fun _ pr' => Exit cfg ias env pr pr' ∧ (MemoryOnDisk pr → MemoryOnDisk pr')) pr := by
  simp only [updateEKIfNeeded, wp_bind, wp_wrapErr]
  refine (loadEKIAndCheckUpdateNeeded_spec pr).mono (fun b pr₁ h₁ => ?_) (fun _ _ h => h)
  cases b
  case false => exact ⟨h₁.1, (h₁.2 rfl).1, (h₁.2 rfl).2⟩
  exact (rotate_spec pr₁).mono
    (fun _ _ h => ⟨h₁.1.trans h.1, fun _ => h.2.1, h.2.2.of_grows_left h₁.1.grows⟩)
    (fun _ _ h => ⟨h₁.1.trans h.1, fun _ => h.2⟩)

end Prover

end LcpRelay