import LcpRelay.Client.Run

/-!
# Where the client's consensus states and its latest height come from

Along every run, the consensus state at a height is the one the run started with or the one the
last update to that height wrote, accepted on the store reached by then and signed by a key that
an earlier registration attests (`Recorded`).  The latest height is the greatest of the initial
height and the post heights applied, and the client holds a consensus state there.
-/

namespace LcpRelay

namespace Client

variable {ias : IAS} {ver : ELCVerifier}

/-- Applying `m` writes a consensus state at height `k`: `m` is an update whose ELC message has
post height `k`. -/
def WritesAt (ver : ELCVerifier) (k : Height) (m : Message) : Prop :=
  ∃ um emsg, m = .updateClient um ∧ ver.getELCMessage um.elcMessage = .ok emsg ∧
    emsg.postHeight = k

/-- What the client checked of the update `um`, accepted at block time `t` on the store `s`, that
wrote the consensus state `cs` at `k`. -/
structure SignedWrite (ver : ELCVerifier) (s : ClientStore) (t : GoTime) (um : UpdateClientMessage)
    (k : Height) (cs : ConsensusState) : Prop where
  /-- The ELC message decoded, with post height `k` and post state `cs`, and a context valid at
  `t`; once the client had a height, its previous state was a stored consensus state. -/
  message : ∃ emsg, ver.getELCMessage um.elcMessage = .ok emsg ∧ emsg.postHeight = k ∧
    cs = ⟨emsg.postStateID, emsg.timestamp⟩ ∧ emsg.validateContext t = .ok () ∧
    (s.clientState.latestHeight.isZero = false → ∃ prevHeight prev,
      emsg.prevHeight = some prevHeight ∧ emsg.prevStateID = some prev.stateId ∧
      s.consensusStates prevHeight = some prev)
  /-- The signature verified under the signer's address. -/
  signed : ver.verifySignature um.elcMessage um.signature (ver.bytesToAddress um.signer) = .ok ()
  /-- The signer had a record whose expiry was after `t`. -/
  active : ∃ v, s.enclaveKeys (ver.bytesToAddress um.signer) = some v ∧
    (GoTime.unix (wrap64 v.toNat)).after t = true

theorem Run.append_iff {s s'' : ClientStore} {pre post : List (GoTime × Message)} :
    Run ias ver s (pre ++ post) s'' ↔ ∃ s', Run ias ver s pre s' ∧ Run ias ver s' post s'' := by
  induction pre generalizing s with
  | nil => exact ⟨fun h => ⟨s, .nil s, h⟩, fun ⟨_, h, h'⟩ => by cases h; exact h'⟩
  | cons tx pre ih =>
    obtain ⟨t, m⟩ := tx
    constructor
    · intro h
      cases h with
      | cons hs hr => obtain ⟨s', h₁, h₂⟩ := ih.mp hr; exact ⟨s', .cons hs h₁, h₂⟩
    · rintro ⟨s', h₁, h₂⟩
      cases h₁ with
      | cons hs hr => exact .cons hs (ih.mpr ⟨s', hr, h₂⟩)

/-- An accepted update is a signed write of its post state. -/
theorem signedWrite_of_verify {t : GoTime} {s : ClientStore} {um : UpdateClientMessage}
    {emsg : ELCMessage} (hv : verifyUpdateClient ver t s um = .ok ())
    (he : ver.getELCMessage um.elcMessage = .ok emsg) :
    SignedWrite ver s t um emsg.postHeight ⟨emsg.postStateID, emsg.timestamp⟩ := by
  obtain ⟨emsg', he', -, -, hsig, hctx⟩ := verifyUpdateClient_eq_ok.mp hv
  cases he.symm.trans he'
  refine ⟨⟨emsg, he, rfl, rfl, hctx, fun hz => ?_⟩, hsig, verifyUpdateClient_signer hv⟩
  obtain ⟨emsg'', prevHeight, prev, he'', h⟩ := verifyUpdateClient_linked hz hv
  cases he.symm.trans he''
  exact ⟨prevHeight, prev, h⟩

/-! ### Consensus states -/

/-- One step changes the consensus state at `k` only by an update to `k`, which it accepted. -/
theorem step_consensusStates {t : GoTime} {m : Message} {s s' : ClientStore}
    (h : step ias ver t m s = .ok s') (k : Height) :
    (¬ WritesAt ver k m ∧ s'.consensusStates k = s.consensusStates k) ∨
      ∃ um emsg, m = .updateClient um ∧ ver.getELCMessage um.elcMessage = .ok emsg ∧
        emsg.postHeight = k ∧ verifyUpdateClient ver t s um = .ok () ∧
        s'.consensusStates k = some ⟨emsg.postStateID, emsg.timestamp⟩ := by
  obtain ⟨⟨⟩, hv, hu⟩ := except_bind_eq_ok.mp h
  cases m with
  | registerEnclaveKey r =>
    exact .inl ⟨(fun ⟨_, _, h, _⟩ => nomatch h), by rw [registerEnclaveKey_consensusStates hu]⟩
  | updateClient um =>
    obtain ⟨emsg, he, rfl⟩ := updateClient_eq_ok.mp hu
    by_cases hk : k = emsg.postHeight
    · exact .inr ⟨um, emsg, rfl, he, hk.symm, hv, if_pos hk⟩
    · refine .inl ⟨fun ⟨um', emsg', hm, he', hp⟩ => ?_, if_neg hk⟩
      cases hm
      cases he.symm.trans he'
      exact hk hp.symm

/-- Along a run, the consensus state at `k` is the one the run started with, if no update wrote
`k`, or else the one the last update to `k` wrote, accepted on the store the run had reached. -/
theorem run_consensusStates {s s'' : ClientStore} {txs : List (GoTime × Message)}
    (hr : Run ias ver s txs s'') (k : Height) :
    (∀ tx ∈ txs, ¬ WritesAt ver k tx.2) ∧ s''.consensusStates k = s.consensusStates k ∨
      ∃ pre t um post sₜ emsg, txs = pre ++ (t, .updateClient um) :: post ∧
        (∀ tx ∈ post, ¬ WritesAt ver k tx.2) ∧ Run ias ver s pre sₜ ∧
        verifyUpdateClient ver t sₜ um = .ok () ∧ ver.getELCMessage um.elcMessage = .ok emsg ∧
        emsg.postHeight = k ∧ s''.consensusStates k = some ⟨emsg.postStateID, emsg.timestamp⟩ := by
  induction hr with
  | nil s => exact .inl ⟨fun _ h => absurd h (List.not_mem_nil _), rfl⟩
  | @cons s s' s'' t m txs hs _ ih =>
    rcases ih with ⟨hno, heq⟩ | ⟨pre, t', um, post, sₜ, emsg, rfl, hpost, hpre, hv, he, hk, hc⟩
    · rcases step_consensusStates hs k with ⟨hw, hs'⟩ | ⟨um, emsg, rfl, he, hk, hv, hc⟩
      · exact .inl ⟨List.forall_mem_cons.mpr ⟨hw, hno⟩, heq.trans hs'⟩
      · exact .inr ⟨[], t, um, txs, s, emsg, rfl, hno, .nil s, hv, he, hk, heq.trans hc⟩
    · exact .inr ⟨(t, m) :: pre, t', um, post, sₜ, emsg, rfl, hpost, .cons hs hpre, hv, he, hk, hc⟩

/-- Every consensus state after a run from a store without enclave-key records is the initial one
at its height or the one the last update there wrote: a signed write, accepted on the store reached
by then, whose signer's record an earlier registration attests. -/
theorem consensusState_provenance {s₀ s : ClientStore} {txs : List (GoTime × Message)}
    {k : Height} {cs : ConsensusState} (h₀ : ∀ a, s₀.enclaveKeys a = none)
    (hr : Run ias ver s₀ txs s) (hk : s.consensusStates k = some cs) :
    (∀ tx ∈ txs, ¬ WritesAt ver k tx.2) ∧ s₀.consensusStates k = some cs ∨
      ∃ pre t um post sₜ, txs = pre ++ (t, .updateClient um) :: post ∧
        (∀ tx ∈ post, ¬ WritesAt ver k tx.2) ∧ Run ias ver s₀ pre sₜ ∧
        SignedWrite ver sₜ t um k cs ∧
        ∀ v, sₜ.enclaveKeys (ver.bytesToAddress um.signer) = some v →
          Recorded ias s₀.clientState pre (ver.bytesToAddress um.signer) v := by
  rcases run_consensusStates hr k with ⟨hno, heq⟩ | ⟨pre, t, um, post, sₜ, emsg, htx, hpost,
    hpre, hv, he, rfl, hc⟩
  · exact .inl ⟨hno, heq ▸ hk⟩
  obtain rfl := Option.some.inj (hc.symm.trans hk)
  exact .inr ⟨pre, t, um, post, sₜ, htx, hpost, hpre, signedWrite_of_verify hv he,
    fun v hv => (run_records hpre).2.2.1 _ v (h₀ _) hv⟩

theorem sampleRun_consensusState_provenance :
    ∃ s, (∀ a, freshStore.enclaveKeys a = none) ∧
      Run halfSecondIAS sampleVerifier freshStore sampleTxs s ∧
      s.consensusStates ⟨0, 1⟩ = some ⟨[], 0⟩ ∧
      ((∀ tx ∈ sampleTxs, ¬ WritesAt sampleVerifier ⟨0, 1⟩ tx.2) ∧
          freshStore.consensusStates ⟨0, 1⟩ = some ⟨[], 0⟩ ∨
        ∃ pre t um post sₜ, sampleTxs = pre ++ (t, .updateClient um) :: post ∧
          (∀ tx ∈ post, ¬ WritesAt sampleVerifier ⟨0, 1⟩ tx.2) ∧
          Run halfSecondIAS sampleVerifier freshStore pre sₜ ∧
          SignedWrite sampleVerifier sₜ t um ⟨0, 1⟩ ⟨[], 0⟩ ∧
          ∀ v, sₜ.enclaveKeys (sampleVerifier.bytesToAddress um.signer) = some v →
            Recorded halfSecondIAS freshStore.clientState pre
              (sampleVerifier.bytesToAddress um.signer) v) :=
  have hr : Run halfSecondIAS sampleVerifier freshStore sampleTxs _ :=
    .cons rfl (.cons rfl (.nil _))
  ⟨_, fun _ => rfl, hr, rfl, consensusState_provenance (fun _ => rfl) hr rfl⟩

/-! ### The latest height -/

/-- An update writes at exactly the post height of its ELC message. -/
theorem writesAt_update_iff {um : UpdateClientMessage} {emsg : ELCMessage}
    (he : ver.getELCMessage um.elcMessage = .ok emsg) (k : Height) :
    WritesAt ver k (.updateClient um) ↔ k = emsg.postHeight := by
  constructor
  · rintro ⟨_, emsg', ⟨⟩, he', rfl⟩
    cases he.symm.trans he'
    rfl
  · rintro rfl
    exact ⟨um, emsg, rfl, he, rfl⟩

/-- One step keeps or raises the latest height, to at least the post height it writes, and
leaves it at the old height or at that post height. -/
theorem step_latestHeight {t : GoTime} {m : Message} {s s' : ClientStore}
    (h : step ias ver t m s = .ok s') :
    s.clientState.latestHeight.lte s'.clientState.latestHeight = true ∧
      (∀ k, WritesAt ver k m → k.lte s'.clientState.latestHeight = true) ∧
      (s'.clientState.latestHeight = s.clientState.latestHeight ∨
        WritesAt ver s'.clientState.latestHeight m) := by
  obtain ⟨_, -, hu⟩ := except_bind_eq_ok.mp h
  cases m with
  | registerEnclaveKey r =>
    rw [registerEnclaveKey_clientState hu]
    exact ⟨Height.lte_refl _, (fun _ ⟨_, _, h, _⟩ => nomatch h), .inl rfl⟩
  | updateClient um =>
    obtain ⟨emsg, he, hl⟩ := updateClient_latestHeight hu
    rw [hl]
    refine ⟨(Height.lte_raise _ _).1,
      fun k hk => (writesAt_update_iff he k).mp hk ▸ (Height.lte_raise _ _).2, ?_⟩
    split
    · exact .inr ((writesAt_update_iff he _).mpr rfl)
    · exact .inl rfl

/-- Along a run, the latest height never decreases, ends at least at the post height of every
update the run applies, and ends at the initial height or at one of those post heights: it is the
greatest of them. -/
theorem run_latestHeight {s s' : ClientStore} {txs : List (GoTime × Message)}
    (hr : Run ias ver s txs s') :
    s.clientState.latestHeight.lte s'.clientState.latestHeight = true ∧
      (∀ tx ∈ txs, ∀ k, WritesAt ver k tx.2 → k.lte s'.clientState.latestHeight = true) ∧
      (s'.clientState.latestHeight = s.clientState.latestHeight ∨
        ∃ tx ∈ txs, WritesAt ver s'.clientState.latestHeight tx.2) := by
  induction hr with
  | nil s => exact ⟨Height.lte_refl _, fun _ h => absurd h (List.not_mem_nil _), .inl rfl⟩
  | cons hs _ ih =>
    obtain ⟨hle, hw, hlast⟩ := step_latestHeight hs
    obtain ⟨hle', hw', hlast'⟩ := ih
    refine ⟨Height.lte_trans hle hle', List.forall_mem_cons.mpr
      ⟨fun k hk => Height.lte_trans (hw k hk) hle', hw'⟩, ?_⟩
    rcases hlast' with heq | ⟨tx, htx, hk⟩
    · rw [heq]
      exact hlast.imp_right fun hk => ⟨_, .head _, hk⟩
    · exact .inr ⟨tx, .tail _ htx, hk⟩

theorem sampleRun_latestHeight :
    ∃ s, Run halfSecondIAS sampleVerifier freshStore sampleTxs s ∧
      freshStore.clientState.latestHeight.lte s.clientState.latestHeight = true ∧
      (∀ tx ∈ sampleTxs, ∀ k, WritesAt sampleVerifier k tx.2 →
        k.lte s.clientState.latestHeight = true) ∧
      (s.clientState.latestHeight = freshStore.clientState.latestHeight ∨
        ∃ tx ∈ sampleTxs, WritesAt sampleVerifier s.clientState.latestHeight tx.2) :=
  have hr : Run halfSecondIAS sampleVerifier freshStore sampleTxs _ :=
    .cons rfl (.cons rfl (.nil _))
  ⟨_, hr, run_latestHeight hr⟩

/-- The client holds a consensus state at its latest height, once that height is non-zero. -/
def LatestStored (s : ClientStore) : Prop :=
  s.clientState.latestHeight.isZero = false → s.consensusStates s.clientState.latestHeight ≠ none

theorem step_latestStored {t : GoTime} {m : Message} {s s' : ClientStore}
    (h : step ias ver t m s = .ok s') (hs : LatestStored s) : LatestStored s' := by
  obtain ⟨_, -, hu⟩ := except_bind_eq_ok.mp h
  cases m with
  | registerEnclaveKey r =>
    unfold LatestStored
    rw [registerEnclaveKey_clientState hu, registerEnclaveKey_consensusStates hu]
    exact hs
  | updateClient um =>
    obtain ⟨emsg, -, rfl⟩ := updateClient_eq_ok.mp hu
    intro hz
    by_cases hlt : s.clientState.latestHeight.lt emsg.postHeight
    · rw [if_pos hlt]
      simp
    · rw [if_neg hlt] at hz ⊢
      dsimp only
      split
      · exact Option.some_ne_none _
      · exact hs hz

/-- Along every run from a store that holds a consensus state at its latest height once it is
non-zero, a client at height zero among them, the client keeps holding one there. -/
theorem run_latestStored {s s' : ClientStore} {txs : List (GoTime × Message)}
    (hr : Run ias ver s txs s') (hs : LatestStored s) : LatestStored s' := by
  induction hr with
  | nil s => exact hs
  | cons h _ ih => exact ih (step_latestStored h hs)

theorem sampleRun_latestStored :
    ∃ s, Run halfSecondIAS sampleVerifier freshStore sampleTxs s ∧ LatestStored freshStore ∧
      LatestStored s :=
  have hr : Run halfSecondIAS sampleVerifier freshStore sampleTxs _ :=
    .cons rfl (.cons rfl (.nil _))
  have hs : LatestStored freshStore := fun h => absurd h (by decide)
  ⟨_, hr, hs, run_latestStored hr hs⟩

end Client

end LcpRelay
