import LcpRelay.Client.Run

/-!
# The bootstrap branch of `verifyUpdateClient`

While the latest height is zero, `verifyUpdateClient` links an update to no stored consensus
state, and `updateClient` moves the height only by `Height.LT`.  Along every run from a client with
no height, the branch stays open exactly while every applied update had post height zero, and from
the first update to a non-zero height on, every accepted update names a stored consensus state.
-/

namespace LcpRelay

namespace Client

variable {ias : IAS} {ver : ELCVerifier}

/-- `m` is a registration, or an update whose ELC message has post height zero. -/
def PostHeightZero (ver : ELCVerifier) (m : Message) : Prop :=
  ∀ um emsg, m = .updateClient um → ver.getELCMessage um.elcMessage = .ok emsg →
    emsg.postHeight.isZero = true

/-- One step leaves the client at height zero exactly when it was at height zero and the step
applies no update to a non-zero height. -/
theorem step_latestHeight_isZero {t : GoTime} {m : Message} {s s' : ClientStore}
    (h : step ias ver t m s = .ok s') :
    s'.clientState.latestHeight.isZero = true ↔
      s.clientState.latestHeight.isZero = true ∧ PostHeightZero ver m := by
  simp only [step, except_bind_eq_ok] at h
  obtain ⟨_, -, hu⟩ := h
  cases m with
  | registerEnclaveKey r =>
    rw [registerEnclaveKey_clientState hu]
    exact ⟨fun hz => ⟨hz, nofun⟩, And.left⟩
  | updateClient um =>
    obtain ⟨emsg, he, hl⟩ := updateClient_latestHeight hu
    have hp : PostHeightZero ver (.updateClient um) ↔ emsg.postHeight.isZero = true :=
      ⟨fun hp => hp um emsg rfl he, fun hp _ _ hm he' => by
        cases hm; cases he.symm.trans he'; exact hp⟩
    rw [hp, hl, Height.isZero_raise, Bool.and_eq_true]

/-- Along a run, the client stays at height zero exactly when it starts there and the run applies
no update to a non-zero height. -/
theorem run_latestHeight_isZero {s s' : ClientStore} {txs : List (GoTime × Message)}
    (hr : Run ias ver s txs s') :
    s'.clientState.latestHeight.isZero = true ↔
      s.clientState.latestHeight.isZero = true ∧ ∀ tx ∈ txs, PostHeightZero ver tx.2 := by
  induction hr with
  | nil s => simp
  | cons hs _ ih => rw [ih, step_latestHeight_isZero hs, and_assoc, List.forall_mem_cons]

/-- From a client with no height, the bootstrap branch stays open exactly while every applied
update had post height zero.  Once the client has a height it keeps one, and every update
accepted from then on starts from a stored consensus state, named by its height and state ID. -/
theorem bootstrap_open_until_nonzero_height {s₀ s : ClientStore}
    {txs : List (GoTime × Message)} (h₀ : s₀.clientState.latestHeight.isZero = true)
    (hr : Run ias ver s₀ txs s) :
    (s.clientState.latestHeight.isZero = true ↔ ∀ tx ∈ txs, PostHeightZero ver tx.2) ∧
      ∀ txs' s', Run ias ver s txs' s' → s.clientState.latestHeight.isZero = false →
        s'.clientState.latestHeight.isZero = false ∧
        ∀ t um, verifyUpdateClient ver t s' um = .ok () →
          ∃ emsg prevHeight prev, ver.getELCMessage um.elcMessage = .ok emsg ∧
            emsg.prevHeight = some prevHeight ∧ emsg.prevStateID = some prev.stateId ∧
            s'.consensusStates prevHeight = some prev := by
  refine ⟨by rw [run_latestHeight_isZero hr]; exact and_iff_right h₀, fun txs' s' hr' hz => ?_⟩
  have hz' : s'.clientState.latestHeight.isZero = false :=
    Bool.eq_false_iff.mpr fun h => by simpa [hz] using ((run_latestHeight_isZero hr').mp h).1
  exact ⟨hz', fun _ _ => verifyUpdateClient_linked hz'⟩

theorem sampleRun_leaves_bootstrap :
    ∃ s, freshStore.clientState.latestHeight.isZero = true ∧
      Run halfSecondIAS sampleVerifier freshStore sampleTxs s ∧
      (s.clientState.latestHeight.isZero = true ↔
        ∀ tx ∈ sampleTxs, PostHeightZero sampleVerifier tx.2) ∧
      ∀ txs' s', Run halfSecondIAS sampleVerifier s txs' s' →
        s.clientState.latestHeight.isZero = false →
        s'.clientState.latestHeight.isZero = false ∧
        ∀ t um, verifyUpdateClient sampleVerifier t s' um = .ok () →
          ∃ emsg prevHeight prev, sampleVerifier.getELCMessage um.elcMessage = .ok emsg ∧
            emsg.prevHeight = some prevHeight ∧ emsg.prevStateID = some prev.stateId ∧
            s'.consensusStates prevHeight = some prev :=
  have h₀ : freshStore.clientState.latestHeight.isZero = true := rfl
  have hr : Run halfSecondIAS sampleVerifier freshStore sampleTxs _ :=
    .cons rfl (.cons rfl (.nil _))
  ⟨_, h₀, hr, bootstrap_open_until_nonzero_height h₀ hr⟩

/-- An ELC message that starts a client at height zero, with no previous state. -/
def zeroHeightMessage : ELCMessage := ⟨none, none, ⟨0, 0⟩, [], 0, [[]], fun _ => .ok ()⟩

/-- `sampleVerifier`, with every ELC message read as `zeroHeightMessage`. -/
def zeroHeightVerifier : ELCVerifier :=
  { sampleVerifier with getELCMessage := fun _ => .ok zeroHeightMessage }

/-- After a registration, the bootstrap branch accepts two updates in a row, the second without a
previous height: the first leaves the client at height zero. -/
theorem bootstrap_admits_second_update :
    let u : Message := .updateClient ⟨[], [], []⟩
    ∃ s₁ s₂ s₃,
      step halfSecondIAS zeroHeightVerifier (GoTime.unix 1700000100)
        (.registerEnclaveKey sampleRegistration) freshStore = .ok s₁ ∧
      step halfSecondIAS zeroHeightVerifier (GoTime.unix 1700000200) u s₁ = .ok s₂ ∧
      step halfSecondIAS zeroHeightVerifier (GoTime.unix 1700000300) u s₂ = .ok s₃ ∧
      s₁.clientState.latestHeight.isZero = true ∧ s₂.clientState.latestHeight.isZero = true ∧
      zeroHeightVerifier.getELCMessage [] = .ok zeroHeightMessage ∧
      zeroHeightMessage.prevHeight = none :=
  ⟨_, _, _, rfl, rfl, rfl, rfl, rfl, rfl, rfl⟩

end Client

end LcpRelay
