import LcpRelay.Relay.Run

/-!
# Keys are saved as finalized only behind a final registration

A key goes to the finalized slot only when `checkMsgStatus` reports its registration a success at
a finalized height.  From a store with no unfinalized record, every pending pair is a key with the
message ID of an earlier registration of it, and a call that finalizes a key saw that registration
final during the call.
-/

namespace LcpRelay

namespace Prover

variable (cfg : ProverConfig) (ias : IAS) (env : Env)

/-- `m` registered `k` on a request answered before the `n`-th. -/
def RegisteredBefore (n : Nat) (k : EnclaveKeyInfo) (m : MsgID) : Prop :=
  ∃ l < n, Registration cfg env k m l

/-- Every pending pair the prover keeps, in memory or in the unfinalized slot, is a key with the
message ID of an earlier registration of it. -/
def PendingRegistered (pr : Prover) : Prop :=
  (∀ k m, pr.activeEnclaveKey = some k → pr.unfinalizedMsgID = some m →
    RegisteredBefore cfg env pr.tick k m) ∧
  ∀ k m, pr.store.unfinalized = some (k, m) → RegisteredBefore cfg env pr.tick k m

/-- Between `pr` and `pr'`, after the request that registered `k` by message `m`, the destination
chain answered two consecutive requests of `checkMsgStatus` with a latest finalized height and a
successful result of `m` at a height not above it. -/
def FinalizedRegistration (pr pr' : Prover) (k : EnclaveKeyInfo) : Prop :=
  ∃ m l i h res, Registration cfg env k m l ∧ l < i ∧ During pr pr' i ∧ During pr pr' (i + 1) ∧
    (env.chain i).latestFinalizedHeight = .ok h ∧ (env.chain (i + 1)).msgResult m = .ok res ∧
    res.status = true ∧ res.blockHeight.lte h = true

/-- What every exit of a step guarantees of registrations: the pending pairs are registered, every
key saved as finalized since `pr` had its registration reported final since `pr`, and the finalized
slot holds the key it held at `pr` or such a key. -/
structure FinalExit (pr pr' : Prover) : Prop where
  grows : pr.Grows pr'
  pending : PendingRegistered cfg env pr'
  finalizes : ∀ k, NewEvent pr pr' (.saveFinalized k) → FinalizedRegistration cfg env pr pr' k
  finalized : ∀ k, pr'.store.finalized = some k →
    pr.store.finalized = some k ∨ FinalizedRegistration cfg env pr pr' k

variable {cfg ias env}

theorem RegisteredBefore.mono {n n' : Nat} {k : EnclaveKeyInfo} {m : MsgID}
    (h : RegisteredBefore cfg env n k m) (hn : n ≤ n') : RegisteredBefore cfg env n' k m :=
  let ⟨l, hl, hr⟩ := h; ⟨l, Nat.lt_of_lt_of_le hl hn, hr⟩

/-- The pending pairs stay registered while memory and the unfinalized slot stay as they were. -/
theorem PendingRegistered.of_eq {pr pr' : Prover} (h : PendingRegistered cfg env pr)
    (ha : pr'.activeEnclaveKey = pr.activeEnclaveKey)
    (hu : pr'.unfinalizedMsgID = pr.unfinalizedMsgID)
    (hs : pr'.store.unfinalized = pr.store.unfinalized) (ht : pr.tick ≤ pr'.tick) :
    PendingRegistered cfg env pr' :=
  ⟨fun k m hk hm => (h.1 k m (ha ▸ hk) (hu ▸ hm)).mono ht,
    fun k m hk => (h.2 k m (hs ▸ hk)).mono ht⟩

theorem PendingRegistered.of_view {pr pr' : Prover} (h : PendingRegistered cfg env pr)
    (hv : pr'.view = pr.view) (ht : pr.tick ≤ pr'.tick) : PendingRegistered cfg env pr' := by
  simp only [view, Prod.mk.injEq] at hv
  exact h.of_eq hv.1 hv.2.1 (congrArg KeyStore.unfinalized hv.2.2) ht

theorem FinalizedRegistration.of_grows_left {a b c : Prover} {k : EnclaveKeyInfo} (hg : a.Grows b)
    (h : FinalizedRegistration cfg env b c k) : FinalizedRegistration cfg env a c k :=
  let ⟨m, l, i, h, res, hr, hl, hi, hi', hrest⟩ := h
  ⟨m, l, i, h, res, hr, hl, hi.of_grows_left hg, hi'.of_grows_left hg, hrest⟩

theorem FinalizedRegistration.of_grows_right {a b c : Prover} {k : EnclaveKeyInfo}
    (h : FinalizedRegistration cfg env a b k) (hg : b.Grows c) :
    FinalizedRegistration cfg env a c k :=
  let ⟨m, l, i, h, res, hr, hl, hi, hi', hrest⟩ := h
  ⟨m, l, i, h, res, hr, hl, hi.of_grows_right hg, hi'.of_grows_right hg, hrest⟩

theorem FinalExit.refl {pr : Prover} (h : PendingRegistered cfg env pr) : FinalExit cfg env pr pr :=
  ⟨.refl pr, h, fun _ he => absurd he (NewEvent.not_of_log_eq rfl), fun _ => .inl⟩

/-- Two stretches in a row make one: a key saved as finalized in either had its registration
reported final within the whole. -/
theorem FinalExit.trans {a b c : Prover} (h : FinalExit cfg env a b) (h' : FinalExit cfg env b c) :
    FinalExit cfg env a c := by
  refine ⟨h.grows.trans h'.grows, h'.pending, fun k he => ?_, fun k hk => ?_⟩
  · rcases he.split h.grows h'.grows with he | he
    · exact (h.finalizes k he).of_grows_right h'.grows
    · exact (h'.finalizes k he).of_grows_left h.grows
  · rcases h'.finalized k hk with hb | hr
    · exact (h.finalized k hb).imp_right (·.of_grows_right h'.grows)
    · exact .inr (hr.of_grows_left h.grows)

/-- A stretch from `pr₀` to `pr`, extended by a step that logs `l`, saves as finalized only keys
whose registration was reported final in the stretch, and writes to the finalized slot only a key
it logs as saved. -/
theorem FinalExit.extend {pr₀ pr pr' : Prover} (hx : FinalExit cfg env pr₀ pr) (l : List Event)
    (hl : pr'.log = l ++ pr.log) (ht : pr.tick ≤ pr'.tick) (hp : PendingRegistered cfg env pr')
    (hs : ∀ k, .saveFinalized k ∈ l → FinalizedRegistration cfg env pr₀ pr k)
    (hf : ∀ k, pr'.store.finalized = some k → pr.store.finalized = some k ∨ .saveFinalized k ∈ l) :
    FinalExit cfg env pr₀ pr' := by
  have hg : pr.Grows pr' := ⟨ht, hl ▸ List.suffix_append _ _⟩
  refine ⟨hx.grows.trans hg, hp, fun k he => ?_, fun k hk => ?_⟩
  · rcases he.split hx.grows hg with he | ⟨l', hl', hm⟩
    · exact (hx.finalizes k he).of_grows_right hg
    · rw [List.append_cancel_right (hl'.symm.trans hl)] at hm
      exact (hs k hm).of_grows_right hg
  · rcases hf k hk with h | h
    · exact (hx.finalized k h).imp_right (·.of_grows_right hg)
    · exact .inr ((hs k h).of_grows_right hg)

/-- A quiet step extends every stretch. -/
theorem FinalExit.quiet {pr₀ pr pr' : Prover} (hx : FinalExit cfg env pr₀ pr) (hq : pr.Quiet pr') :
    FinalExit cfg env pr₀ pr' := by
  refine ⟨hx.grows.trans hq.grows, hx.pending.of_view hq.view_eq hq.grows.tick_le, fun k he => ?_,
    fun k hk => (hx.finalized k (hq.store_eq ▸ hk)).imp_right (·.of_grows_right hq.grows)⟩
  rcases he.split hx.grows hq.grows with he | he
  · exact (hx.finalizes k he).of_grows_right hq.grows
  · exact absurd (hq.noWrites _ he) (by simp [Event.writesStore])

theorem finalExit_of_framed {x : RelayM α} (h : Framed x) {pr₀ pr : Prover}
    (hx : FinalExit cfg env pr₀ pr) :
    wp x (fun _ => FinalExit cfg env pr₀) (fun _ => FinalExit cfg env pr₀) pr :=
  h.wp (fun _ _ hq => hx.quiet hq) (fun _ _ hq => hx.quiet hq)

/-! ### `loadEKIAndCheckUpdateNeeded` -/

/-- Loading memory from the store copies a registered pair, or a finalized key with no message. -/
theorem loadEnclaveKeyIntoMemory_final {pr₀ pr : Prover} (hx : FinalExit cfg env pr₀ pr) :
    wp (loadEnclaveKeyIntoMemory env) (fun _ => FinalExit cfg env pr₀)
      (fun _ => FinalExit cfg env pr₀) pr := by
  simp only [loadEnclaveKeyIntoMemory, wp_bind, wp_loadLastUnfinalizedEnclaveKey]
  rcases env.disk pr.tick with e | ⟨⟩
  · exact hx.quiet (.ticks pr (Nat.le_succ _))
  dsimp only
  rcases hu : pr.store.unfinalized with _ | ⟨k, m⟩
  · simp only [wp_bind, wp_loadLastFinalizedEnclaveKey]
    rcases env.disk (pr.tick + 1) with e | ⟨⟩
    · exact hx.quiet (.ticks pr (by omega))
    dsimp only
    rcases pr.store.finalized with _ | k
    · exact hx.quiet (.ticks pr (by omega))
    refine hx.extend [] rfl (by dsimp only; omega)
      ⟨(fun _ _ _ h => nomatch h), fun k m h => ?_⟩ nofun
      (fun _ => .inl)
    exact (hx.pending.2 k m h).mono (by dsimp only; omega)
  have hr : RegisteredBefore cfg env (pr.tick + 1) k m := (hx.pending.2 k m hu).mono (by omega)
  refine hx.extend [] rfl (by dsimp only; omega) ⟨fun k' m' hk hm => ?_, fun k' m' h => ?_⟩ nofun
    (fun _ => .inl)
  · cases hk; cases hm; exact hr
  · exact (hx.pending.2 k' m' h).mono (by dsimp only; omega)

/-- Removing the unfinalized record saves nothing and leaves no pair unregistered. -/
theorem removeUnfinalized_final {pr₀ pr : Prover} (hx : FinalExit cfg env pr₀ pr) :
    wp (removeUnfinalizedEnclaveKeyInfo env) (fun _ => FinalExit cfg env pr₀)
      (fun _ => FinalExit cfg env pr₀) pr := by
  rw [wp_removeUnfinalizedEnclaveKeyInfo]
  have hm : ∀ k m, pr.activeEnclaveKey = some k → pr.unfinalizedMsgID = some m →
      RegisteredBefore cfg env (pr.tick + 1) k m :=
    fun k m hk hm => (hx.pending.1 k m hk hm).mono (Nat.le_succ _)
  rcases env.disk pr.tick with e | ⟨⟩
  · exact hx.extend [_] rfl (Nat.le_succ _)
      ⟨hm, fun k m h => (hx.pending.2 k m h).mono (Nat.le_succ _)⟩ (by simp) (fun _ => .inl)
  · exact hx.extend [_] rfl (Nat.le_succ _) ⟨hm, fun _ _ h => nomatch h⟩ (by simp) (fun _ => .inl)

/-- Promoting `k`, whose registration was reported final in the stretch. -/
theorem promoteFinalized_final {pr₀ pr : Prover} {now : GoTime} {k : EnclaveKeyInfo}
    (hx : FinalExit cfg env pr₀ pr) (hk : FinalizedRegistration cfg env pr₀ pr k) :
    wp (promoteFinalized cfg env now k) (fun _ => FinalExit cfg env pr₀)
      (fun _ => FinalExit cfg env pr₀) pr := by
  rw [promoteFinalized, wp_bind]
  refine ((checkEKIUpdateNeeded_reads now k).framed).wp (fun b pr₁ hq => ?_) (fun _ _ hq => hx.quiet hq)
  have hx₁ := hx.quiet hq
  have hk₁ := hk.of_grows_right hq.grows
  cases b
  case true => exact hx₁
  simp only [Bool.false_eq_true, if_false, wp_bind, wp_saveFinalizedEnclaveKeyInfo]
  have hs : ∀ k', Event.saveFinalized k' ∈ [Event.saveFinalized k] →
      FinalizedRegistration cfg env pr₀ pr₁ k' := by simpa using hk₁
  rcases env.disk pr₁.tick with e | ⟨⟩ <;> dsimp only
  · exact hx₁.extend [_] rfl (Nat.le_succ _) (hx₁.pending.of_eq rfl rfl rfl (Nat.le_succ _)) hs
      (fun _ => .inl)
  refine (removeUnfinalized_final ?_).mono (fun _ pr₂ h => ?_) (fun _ _ h => h)
  · exact hx₁.extend [_] rfl (Nat.le_succ _) (hx₁.pending.of_eq rfl rfl rfl (Nat.le_succ _)) hs
      (fun _ h => .inr (by cases h; exact List.mem_singleton_self _))
  exact h.extend [] rfl (Nat.le_refl _) ⟨(fun _ _ _ h => nomatch h), h.pending.2⟩ nofun
    (fun _ => .inl)

/-- With a key in memory, a pending registration is promoted only when
`checkMsgStatus` finds it final, and then it is the key's own registration. -/
theorem checkActiveEnclaveKey_final {pr₀ pr : Prover} {now : GoTime}
    (hx : FinalExit cfg env pr₀ pr) :
    wp (checkActiveEnclaveKey cfg env now) (fun _ => FinalExit cfg env pr₀)
      (fun _ => FinalExit cfg env pr₀) pr := by
  simp only [checkActiveEnclaveKey, wp_bind, wp_get]
  rcases hm : pr.unfinalizedMsgID with _ | m
  case none =>
    simp only [wp_bind, wp_activeKey]
    rcases pr.activeEnclaveKey with _ | k
    · exact hx
    exact finalExit_of_framed ((checkEKIUpdateNeeded_reads now k).framed) hx
  simp only [wp_bind, wp_request]
  have hx₁ := hx.quiet (.ticks pr (Nat.le_succ _))
  rcases (env.chain pr.tick).msgResult m with e | res₀
  · simp only [wp_bind]
    exact removeUnfinalized_final hx₁
  simp only [wp_bind, wp_checkMsgStatus]
  rcases hlf : (env.chain (pr.tick + 1)).latestFinalizedHeight with e | h
  · exact hx.quiet (.ticks pr (by omega))
  dsimp only
  rcases hr : (env.chain (pr.tick + 1 + 1)).msgResult m with e | res
  · exact hx.quiet (.ticks pr (by omega))
  dsimp only
  generalize hp₂ : ({ pr with tick := pr.tick + 1 + 2 } : Prover) = pr₂
  have hq : pr.Quiet pr₂ := hp₂ ▸ .ticks pr (by omega)
  have hx₂ := hx.quiet hq
  cases hs : res.status
  case false =>
    simp only [Bool.false_eq_true, if_false, Bool.not_false, if_true, wp_bind]
    exact removeUnfinalized_final hx₂
  simp only [if_true, Bool.not_true, Bool.false_eq_true, if_false, wp_ite, wp_bind, wp_activeKey]
  rcases hk : pr₂.activeEnclaveKey with _ | k
  · simp only [ite_self]
    exact hx₂
  dsimp only
  cases hf : res.blockHeight.lte h
  case false => exact finalExit_of_framed ((checkEKIUpdateNeeded_reads now k).framed) hx₂
  obtain ⟨l, hl, hreg⟩ := hx.pending.1 k m (hq.activeEnclaveKey_eq ▸ hk) hm
  have hd : ∀ n, pr.tick ≤ n → n < pr.tick + 3 → During pr pr₂ n :=
    fun n h₁ h₂ => ⟨h₁, hp₂ ▸ h₂⟩
  exact promoteFinalized_final hx₂ (FinalizedRegistration.of_grows_left hx.grows
    ⟨m, l, pr.tick + 1, h, res, hreg, by omega, hd _ (by omega) (by omega),
      hd _ (by omega) (by omega), hlf, hr, hs, hf⟩)

theorem loadEKIAndCheckUpdateNeeded_final {pr₀ pr : Prover} (hx : FinalExit cfg env pr₀ pr) :
    wp (loadEKIAndCheckUpdateNeeded cfg env) (fun _ => FinalExit cfg env pr₀)
      (fun _ => FinalExit cfg env pr₀) pr := by
  simp only [loadEKIAndCheckUpdateNeeded, wp_bind, wp_request, wp_get]
  generalize hp₁ : ({ pr with tick := pr.tick + 1 } : Prover) = pr₁
  have hx₁ : FinalExit cfg env pr₀ pr₁ := hp₁ ▸ hx.quiet (.ticks pr (Nat.le_succ _))
  rcases pr.activeEnclaveKey with _ | k
  case some => exact checkActiveEnclaveKey_final hx₁
  simp only [wp_bind]
  refine (loadEnclaveKeyIntoMemory_final hx₁).mono (fun b _ h => ?_) (fun _ _ h => h)
  cases b
  case false => exact h
  exact checkActiveEnclaveKey_final h

/-! ### The rotation -/

/-- Persisting `eki`, registered by `msgID`, with memory cleared. -/
theorem persistNewKey_final {pr₀ pr : Prover} {eki : EnclaveKeyInfo} {msgID : MsgID}
    (hx : FinalExit cfg env pr₀ pr) (hreg : RegisteredBefore cfg env pr.tick eki msgID)
    (hu : pr.unfinalizedMsgID = none) :
    wp (persistNewKey env eki msgID) (fun _ => FinalExit cfg env pr₀)
      (fun _ => FinalExit cfg env pr₀) pr := by
  simp only [persistNewKey, wp_bind, wp_wrapErr, wp_checkMsgStatus]
  rcases hlf : (env.chain pr.tick).latestFinalizedHeight with e | h
  · exact hx.quiet (.ticks pr (Nat.le_succ _))
  dsimp only
  rcases hr : (env.chain (pr.tick + 1)).msgResult msgID with e | res
  · exact hx.quiet (.ticks pr (by omega))
  dsimp only
  generalize hp₂ : ({ pr with tick := pr.tick + 2 } : Prover) = pr₂
  have ht₂ : pr₂.tick = pr.tick + 2 := hp₂ ▸ rfl
  have hq : pr.Quiet pr₂ := hp₂ ▸ .ticks pr (by omega)
  have hx₂ := hx.quiet hq
  have hu₂ := hq.unfinalizedMsgID_eq.trans hu
  have hs₂ : ∀ k m, pr₂.store.unfinalized = some (k, m) →
      RegisteredBefore cfg env (pr₂.tick + 1) k m :=
    fun k m h => (hx₂.pending.2 k m h).mono (Nat.le_succ _)
  cases hs : res.status
  case false => exact hx₂
  simp only [if_true, Bool.not_true, Bool.false_eq_true, if_false, wp_ite]
  have hreg₂ : RegisteredBefore cfg env (pr₂.tick + 1) eki msgID := hreg.mono (by omega)
  cases hfin : res.blockHeight.lte h
  case true =>
    obtain ⟨l, hl, hr'⟩ := hreg
    have hk : ∀ k, Event.saveFinalized k ∈ [Event.saveFinalized eki] →
        FinalizedRegistration cfg env pr₀ pr₂ k := by
      simp only [List.mem_singleton, Event.saveFinalized.injEq, forall_eq]
      exact FinalizedRegistration.of_grows_left hx.grows ⟨msgID, l, pr.tick, h, res, hr', hl,
        ⟨Nat.le_refl _, by omega⟩, ⟨by omega, by omega⟩, hlf, hr, hs, hfin⟩
    simp only [if_true, wp_bind, wp_pure, wp_saveFinalizedEnclaveKeyInfo]
    rcases env.disk pr₂.tick with e | ⟨⟩ <;> dsimp only
    · exact hx₂.extend [_] rfl (Nat.le_succ _) (hx₂.pending.of_view rfl (Nat.le_succ _)) hk
        (fun _ => .inl)
    · exact hx₂.extend [_] rfl (Nat.le_succ _) ⟨fun _ _ _ h => by simp [hu₂] at h, hs₂⟩ hk
        (fun _ h => .inr (by cases h; exact List.mem_singleton_self _))
  simp only [Bool.false_eq_true, if_false, wp_bind, wp_pure, wp_saveUnfinalizedEnclaveKeyInfo]
  rcases env.disk pr₂.tick with e | ⟨⟩ <;> dsimp only
  · exact hx₂.extend [_] rfl (Nat.le_succ _) (hx₂.pending.of_view rfl (Nat.le_succ _)) (by simp)
      (fun _ => .inl)
  refine hx₂.extend [_] rfl (Nat.le_succ _) ⟨fun k m hk hm => ?_, fun k m h => ?_⟩ (by simp)
    (fun _ => .inl)
  · cases hk; cases hm; exact hreg₂
  · cases h; exact hreg₂

/-- The rotation persists the key it selected under the message ID its own registration
returned. -/
theorem rotate_final {pr₀ pr : Prover} (hx : FinalExit cfg env pr₀ pr) :
    wp (rotate cfg ias env) (fun _ => FinalExit cfg env pr₀)
      (fun _ => FinalExit cfg env pr₀) pr := by
  simp only [rotate, wp_bind, wp_modify, wp_wrapErr]
  have hx₁ : FinalExit cfg env pr₀ { pr with activeEnclaveKey := none, unfinalizedMsgID := none } :=
    hx.extend [] rfl (Nat.le_refl _) ⟨(fun _ _ h => nomatch h), hx.pending.2⟩ nofun (fun _ => .inl)
  refine (selectNewEnclaveKey_spec _).mono (fun eki pr₂ h₂ => ?_) (fun _ _ h => hx₁.quiet h)
  simp only [wp_bind, wp_wrapErr]
  refine (registerEnclaveKey_spec eki pr₂).mono (fun msgID pr₃ h₃ => ?_)
    (fun _ _ h => (hx₁.quiet h₂.1).quiet h)
  obtain ⟨l, hl, hreg⟩ := h₃.2.2
  have hq := h₂.1.trans h₃.1
  exact persistNewKey_final (hx₁.quiet hq) ⟨l, hl.2, hreg⟩ hq.unfinalizedMsgID_eq

theorem updateEKIfNeeded_final {pr₀ pr : Prover} (hx : FinalExit cfg env pr₀ pr) :
    wp (updateEKIfNeeded cfg ias env) (fun _ => FinalExit cfg env pr₀)
      (fun _ => FinalExit cfg env pr₀) pr := by
  simp only [updateEKIfNeeded, wp_bind, wp_wrapErr]
  refine (loadEKIAndCheckUpdateNeeded_final hx).mono (fun b _ h => ?_) (fun _ _ h => h)
  cases b
  case false => exact h
  exact rotate_final h

/-! ### One call -/

theorem pendingRegistered_start {store : KeyStore} (h₀ : store.unfinalized = none) :
    PendingRegistered cfg env (start store) :=
  ⟨(fun _ _ h => nomatch h), fun _ _ h => nomatch h₀.symm.trans h⟩

theorem call_final {pr : Prover} (h : PendingRegistered cfg env pr) :
    FinalExit cfg env pr (call cfg ias env pr).2 := by
  have hw : wp (updateEKIfNeeded cfg ias env) (fun _ => FinalExit cfg env pr)
      (fun _ => FinalExit cfg env pr) pr := updateEKIfNeeded_final (.refl h)
  rcases call_of_wp hw with ⟨-, h⟩ | ⟨_, -, h⟩ <;> exact h

end Prover

end LcpRelay
