import LcpRelay.Relay.Call

/-!
# Runs of `UpdateEKIfNeeded`

A run is a sequence of calls, each from the state the previous one left, and every property below
follows from `updateEKIfNeeded_spec` by induction over the run.  In the fixed deployment
`sampleEnv` a restart does not always recover memory, and a finalized key found due can be
selected again and saved as unfinalized.
-/

namespace LcpRelay

namespace Prover

variable (cfg : ProverConfig) (ias : IAS) (env : Env)

/-- One call of `UpdateEKIfNeeded` from `pr`: what it returns, and the state it leaves. -/
def call (pr : Prover) : Except Error Unit × Prover :=
  match updateEKIfNeeded cfg ias env pr with
  | .ok a pr' => (.ok a, pr')
  | .error e pr' => (.error e, pr')

/-- A prover that has just started: nothing in memory, and the key store as it finds it. -/
def start (store : KeyStore) : Prover := ⟨none, none, store, 0, []⟩

/-- The states a run of calls reaches from a start over `store`. -/
inductive Reachable (store : KeyStore) : Prover → Prop
  | start : Reachable store (start store)
  | step {pr : Prover} : Reachable store pr → Reachable store (call cfg ias env pr).2

/-- The clock never runs backwards. -/
def ClockMonotone : Prop := ∀ i j, i ≤ j → (env.clock i).toNanos ≤ (env.clock j).toNanos

variable {cfg ias env}

/-- A call ends as `wp` says the function does. -/
theorem call_of_wp {pr : Prover} {Q : Unit → Prover → Prop} {R : Error → Prover → Prop}
    (h : wp (updateEKIfNeeded cfg ias env) Q R pr) :
    ((call cfg ias env pr).1 = .ok () ∧ Q () (call cfg ias env pr).2) ∨
      ∃ e, (call cfg ias env pr).1 = .error e ∧ R e (call cfg ias env pr).2 := by
  unfold wp at h
  unfold call
  split at h <;> rename_i heq <;> rw [heq]
  · exact .inl ⟨rfl, h⟩
  · exact .inr ⟨_, rfl, h⟩

theorem call_spec (pr : Prover) :
    Exit cfg ias env pr (call cfg ias env pr).2 ∧
      (MemoryOnDisk pr → MemoryOnDisk (call cfg ias env pr).2) ∧
      ((call cfg ias env pr).1 = .ok () → Settled cfg env pr (call cfg ias env pr).2) := by
  rcases call_of_wp (updateEKIfNeeded_spec pr) with ⟨-, h⟩ | ⟨e, he, h⟩
  · exact ⟨h.1, h.2.1, fun _ => h.2.2⟩
  · exact ⟨h.1, h.2, fun h' => by rw [he] at h'; cases h'⟩

theorem start_grows (store : KeyStore) (pr : Prover) : (start store).Grows pr :=
  ⟨Nat.zero_le _, List.nil_suffix⟩

/-! ### A fixed deployment

One MRENCLAVE, an attestation library that accepts every report, keys attested at the Unix epoch
with a key expiration of 100 seconds, and a clock stopped at the epoch. -/

/-- The relayer's configuration in the fixed deployment. -/
def sampleConfig : ProverConfig := ⟨[1], 100, [], [], "elc-0", false, "lcp-0"⟩

/-- An attestation library that accepts every report. -/
def sampleIAS : IAS where
  verifyReport _ _ _ _ := .ok ()
  parseAndValidateAVR _ := .ok ⟨QuoteOK, [], GoTime.unix 0, .ok ⟨[1], []⟩⟩
  getEnclaveKeyAddress _ := .ok 0
  getEKAndOperator _ := .ok (0, 0)

/-- The key with address `a`, attested at the Unix epoch. -/
def sampleKey (a : Address) : EnclaveKeyInfo := ⟨a, 0, "report", [], []⟩

/-- The destination's `lcp` client state. -/
def sampleClientState : ClientState := ⟨⟨0, 1⟩, [1], 100, [], [], []⟩

/-- The fixed deployment's answers. -/
def sampleEnv (keys : Nat → List EnclaveKeyInfo) (known : Nat → Address → Bool)
    (finalizedHeight : Nat → Nat) : Env where
  clock _ := GoTime.unix 0
  lcp i :=
    { availableEnclaveKeys := fun _ => .ok (keys i)
      enclaveKey := known i
      createClient := fun _ _ _ => .error "unused"
      client := fun _ => .error "unused"
      updateClient := fun _ _ _ _ => .error "unused"
      verifyMembership := fun _ _ _ _ _ _ => .error "unused" }
  chain i :=
    { latestFinalizedHeight := .ok ⟨0, finalizedHeight i⟩
      msgResult := fun m => .ok ⟨true, "", ⟨0, m⟩⟩
      latestHeight := .ok ⟨0, 1⟩
      clientState := fun _ => .ok (.lcp sampleClientState)
      address := .ok 0
      sendMsgs := fun _ => .ok [1] }
  signer _ := ⟨.error "unused", fun _ => .error "unused"⟩
  origin _ :=
    { createInitialLightClientState := fun _ => .error "unused"
      latestFinalizedHeader := .error "unused"
      setupHeadersForUpdate := fun _ => .error "unused"
      proveState := fun _ _ => .ok ([], ⟨0, 1⟩) }
  disk _ := .ok ()

/-- Key 1 until request 15, key 2 from then on; registrations become final at request 15. -/
def rotationEnv : Env :=
  sampleEnv (fun i => if i < 15 then [sampleKey 1] else [sampleKey 2])
    (fun i a => if i < 15 then a == 1 else a == 2) (fun i => if i < 15 then 0 else 100)

/-! ### Memory and disk -/

/-- Memory is never ahead of disk, at every return of every call of a run from empty memory,
whatever the store held and whichever store operations failed. -/
theorem memoryOnDisk_of_reachable {store : KeyStore} {pr : Prover}
    (h : Reachable cfg ias env store pr) : MemoryOnDisk pr := by
  induction h with
  | start => exact memoryOnDisk_of_cleared rfl rfl
  | step _ ih => exact (call_spec _).2.1 ih

theorem rotationRun_memoryOnDisk :
    Reachable sampleConfig sampleIAS rotationEnv ⟨none, none⟩
        (call sampleConfig sampleIAS rotationEnv (start ⟨none, none⟩)).2 ∧
      MemoryOnDisk (call sampleConfig sampleIAS rotationEnv (start ⟨none, none⟩)).2 :=
  ⟨.step .start, memoryOnDisk_of_reachable (.step .start)⟩

/-- A restart need not recover memory: after a rotation from key 1 to key 2, the record of key 1 is
still in the unfinalized slot, and a restart loads it. -/
theorem restart_after_rotation_loads_stale_key :
    let pr₁ : Prover := (call sampleConfig sampleIAS rotationEnv (start ⟨none, none⟩)).2
    let r₂ := call sampleConfig sampleIAS rotationEnv pr₁
    r₂.1 = .ok () ∧ (r₂.2.activeEnclaveKey, r₂.2.unfinalizedMsgID) = (some (sampleKey 2), none) ∧
      ∃ pr₃, loadEnclaveKeyIntoMemory rotationEnv (start r₂.2.store) = .ok true pr₃ ∧
        (pr₃.activeEnclaveKey, pr₃.unfinalizedMsgID) = (some (sampleKey 1), some 1) :=
  ⟨rfl, rfl, _, rfl, rfl⟩

/-! ### Keys in memory -/

/-- In a run from an empty store, every key the prover holds was selected, attested and submitted
earlier in the run. -/
theorem fresh_of_holds {pr : Prover} (h : Reachable cfg ias env ⟨none, none⟩ pr)
    {k : EnclaveKeyInfo} (hk : Holds pr k) : Fresh cfg ias env (start ⟨none, none⟩) pr k := by
  induction h generalizing k with
  | start => rcases hk with h | h | ⟨_, h⟩ <;> cases h
  | step _ ih =>
    rcases (call_spec _).1.holds k hk with h | h
    · exact (ih h).of_grows_right (call_spec _).1.grows
    · exact h.of_grows_left (start_grows _ _)

/-- Every call of a run from an empty store that returns nil at `now` leaves a key that is not due
at `now`, that the LCP service reported during the call, and that was selected, attested and
submitted earlier in the run. -/
theorem activeKey_vetted (hc : ClockMonotone env) {pr : Prover}
    (hr : Reachable cfg ias env ⟨none, none⟩ pr) (hok : (call cfg ias env pr).1 = .ok ()) :
    ∃ k, (call cfg ias env pr).2.activeEnclaveKey = some k ∧
      (env.clock pr.tick).unixNanos ≤
        k.attestationTime.toNat * 1000000000 + cfg.keyExpiration.toNat * 500000000 ∧
      (∃ j, During pr (call cfg ias env pr).2 j ∧
        (env.lcp j).enclaveKey k.enclaveKeyAddress = true) ∧
      Fresh cfg ias env (start ⟨none, none⟩) (call cfg ias env pr).2 k := by
  obtain ⟨⟨k, hk, ⟨i, hi, hdue⟩, havail⟩, -⟩ := (call_spec pr).2.2 hok
  have hnow := hc _ _ hi.1
  have hle := unixNanos_le_of_not_after hdue
  rw [GoTime.unixNanos_eq] at hle ⊢
  exact ⟨k, hk, by omega, havail, fresh_of_holds hr.step (.inl hk)⟩

theorem rotationRun_activeKey_vetted :
    ClockMonotone rotationEnv ∧ Reachable sampleConfig sampleIAS rotationEnv ⟨none, none⟩
        (start ⟨none, none⟩) ∧
      (call sampleConfig sampleIAS rotationEnv (start ⟨none, none⟩)).1 = .ok () ∧
      ∃ k, (call sampleConfig sampleIAS rotationEnv (start ⟨none, none⟩)).2.activeEnclaveKey =
          some k ∧
        (rotationEnv.clock 0).unixNanos ≤
          k.attestationTime.toNat * 1000000000 + sampleConfig.keyExpiration.toNat * 500000000 ∧
        (∃ j, During (start ⟨none, none⟩)
            (call sampleConfig sampleIAS rotationEnv (start ⟨none, none⟩)).2 j ∧
          (rotationEnv.lcp j).enclaveKey k.enclaveKeyAddress = true) ∧
        Fresh sampleConfig sampleIAS rotationEnv (start ⟨none, none⟩)
          (call sampleConfig sampleIAS rotationEnv (start ⟨none, none⟩)).2 k :=
  ⟨fun _ _ _ => Int.le_refl _, .start, rfl, activeKey_vetted (fun _ _ _ => Int.le_refl _) .start rfl⟩

/-! ### A second call -/

/-- Key 1 throughout; registrations are final at once. -/
def steadyEnv : Env := sampleEnv (fun _ => [sampleKey 1]) (fun _ a => a == 1) (fun _ => 100)

section Due

variable (cfg env)

/-- Between `pr` and `pr'`, `checkEKIUpdateNeeded` found `k` due: past its update time at a clock
reading, or unknown to the LCP service at an `EnclaveKey` request. -/
def FoundDue (pr pr' : Prover) (k : EnclaveKeyInfo) : Prop :=
  (∃ i, During pr pr' i ∧ (env.clock i).after (updateTime cfg k) = true) ∨
    ∃ j, During pr pr' j ∧ (env.lcp j).enclaveKey k.enclaveKeyAddress = false

end Due

theorem FoundDue.of_grows_right {pr pr₁ pr' : Prover} {k : EnclaveKeyInfo}
    (h : FoundDue cfg env pr pr₁ k) (hg : pr₁.Grows pr') : FoundDue cfg env pr pr' k :=
  h.imp (.imp fun _ h => ⟨h.1.of_grows_right hg, h.2⟩) (.imp fun _ h => ⟨h.1.of_grows_right hg, h.2⟩)

end Prover

end LcpRelay
