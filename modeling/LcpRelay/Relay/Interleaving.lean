import LcpRelay.Relay.Operations
import LcpRelay.Relay.Finality

/-!
# Any interleaving of the prover's operations

Every operation writes memory and the key store only through its first call of `UpdateEKIfNeeded`,
so it ends in a quiet stretch from its start or from where that call ends (`run_quiet_or_call`).
A restart clears memory and keeps the key store.  The guarantees of a call therefore hold along
every run of operations, in any order and across failures and restarts.
-/

namespace LcpRelay

namespace Prover

variable (cfg : ProverConfig) (ias : IAS) (env : Env)

/-- `x` writes memory and the key store only through a first call of `UpdateEKIfNeeded`: it ends
in a quiet stretch from its start, or from where that call ends. -/
def UpdatesFirst (x : RelayM α) : Prop :=
  ∀ pr, wp x (fun _ pr' => pr.Quiet pr' ∨ (call cfg ias env pr).2.Quiet pr')
    (fun _ pr' => pr.Quiet pr' ∨ (call cfg ias env pr).2.Quiet pr') pr

variable {cfg ias env}

namespace UpdatesFirst

theorem of_framed {x : RelayM α} (h : Framed x) : UpdatesFirst cfg ias env x :=
  fun _ => h.wp (fun _ _ => .inl) (fun _ _ => .inl)

theorem of_updateEKIfNeeded : UpdatesFirst cfg ias env (updateEKIfNeeded cfg ias env) :=
    fun pr => by
  unfold call wp
  cases updateEKIfNeeded cfg ias env pr <;> exact .inr (.refl _)

theorem bind {x : RelayM β} {f : β → RelayM α} (hx : UpdatesFirst cfg ias env x)
    (hf : ∀ b, Framed (f b)) : UpdatesFirst cfg ias env (x >>= f) := fun pr => by
  rw [wp_bind]
  exact (hx pr).mono (fun b _ h => (hf b).wp (fun _ _ h' => h.imp (·.trans h') (·.trans h'))
    (fun _ _ h' => h.imp (·.trans h') (·.trans h'))) (fun _ _ h => h)

theorem of_readsAfterUpdate {x : RelayM α} (h : ReadsAfterUpdate cfg ias env x) :
    UpdatesFirst cfg ias env x := by
  obtain ⟨f, rfl, hf⟩ := h
  exact .bind .of_updateEKIfNeeded fun u => (hf u).framed

end UpdatesFirst

/-- A restart (`NewProver` and `Init` over the same home directory) clears memory and keeps the key
store; the ghost request count and log carry on. -/
def restart (pr : Prover) : Prover := { pr with activeEnclaveKey := none, unfinalizedMsgID := none }

/-- A restart holds no key the prover did not hold. -/
theorem restart_exit (pr : Prover) : Exit cfg ias env pr pr.restart :=
  .of_load rfl rfl (Nat.le_refl _) (fun _ h => nomatch h)

/-- A restart keeps every registered pending pair and the finalized slot. -/
theorem restart_final {pr : Prover} (hp : PendingRegistered cfg env pr) :
    FinalExit cfg env pr pr.restart :=
  (FinalExit.refl hp).extend [] rfl (Nat.le_refl _) ⟨(fun _ _ h => nomatch h), hp.2⟩
    (fun _ h => nomatch h) fun _ => .inl

end Prover

namespace Operation

open Prover

variable (cfg : ProverConfig) (ias : IAS) (codec : ELCCodec) (env : Env)

/-- The state one operation leaves, whether it returned or failed. -/
def after (op : Operation) (pr : Prover) : Prover :=
  match op.run cfg ias codec env pr with
  | .ok _ pr' => pr'
  | .error _ pr' => pr'

/-- The states a run of operations reaches from a start over `store`: each operation, any of the
six, starts from the state the previous one left, and the process may restart between two. -/
inductive Interleaved (store : KeyStore) : Prover → Prop
  | start : Interleaved store (start store)
  | step {pr : Prover} (op : Operation) : Interleaved store pr →
      Interleaved store (op.after cfg ias codec env pr)
  | restart {pr : Prover} : Interleaved store pr → Interleaved store pr.restart

variable {cfg ias codec env}

theorem after_of_wp {op : Operation} {pr : Prover} {P : Prover → Prop}
    (h : wp (op.run cfg ias codec env) (fun _ => P) (fun _ => P) pr) :
    P (op.after cfg ias codec env pr) := by
  unfold wp at h; unfold after
  split at h <;> rename_i heq <;> rw [heq] <;> exact h

/-- Only `UpdateEKIfNeeded` writes memory or the key store: every operation ends in a quiet stretch
from its start, or from where one call of `UpdateEKIfNeeded` from its start ends. -/
theorem run_quiet_or_call (op : Operation) (pr : Prover) :
    wp (op.run cfg ias codec env)
      (fun _ pr' => pr.Quiet pr' ∨ (call cfg ias env pr).2.Quiet pr')
      (fun _ pr' => pr.Quiet pr' ∨ (call cfg ias env pr).2.Quiet pr') pr := by
  revert pr
  show UpdatesFirst cfg ias env (op.run cfg ias codec env)
  cases op with
  | updateEKIfNeeded => exact .of_updateEKIfNeeded
  | createInitialLightClientState h =>
    exact .of_framed (Reads.bind (createInitialLightClientState_reads h) fun _ => .pure _).framed
  | proveState path value =>
    exact .of_framed (Reads.bind (proveState_reads path value) fun _ => .pure _).framed
  | setupHeadersForUpdate h =>
    exact .of_readsAfterUpdate ((setupHeadersForUpdate_readsAfterUpdate h).bind fun _ => .pure _)
  | doUpdateELC elcClientID =>
    exact .of_readsAfterUpdate ((doUpdateELC_readsAfterUpdate elcClientID).bind fun _ => .pure _)
  | activateClient clientId => exact .of_readsAfterUpdate (activateClient_readsAfterUpdate clientId)

/-- What one operation guarantees, from what one call guarantees. -/
theorem after_spec (op : Operation) (pr : Prover) :
    Exit cfg ias env pr (op.after cfg ias codec env pr) ∧
      (MemoryOnDisk pr → MemoryOnDisk (op.after cfg ias codec env pr)) ∧
      (PendingRegistered cfg env pr → FinalExit cfg env pr (op.after cfg ias codec env pr)) := by
  rcases after_of_wp (run_quiet_or_call op pr) with hq | hq
  · exact ⟨.of_quiet hq, memoryOnDisk_of_view hq.view_eq, fun hp => (FinalExit.refl hp).quiet hq⟩
  · have hc : Exit cfg ias env pr (call cfg ias env pr).2 ∧
        (MemoryOnDisk pr → MemoryOnDisk (call cfg ias env pr).2) ∧ _ := call_spec pr
    obtain ⟨hx, hd, -⟩ := hc
    exact ⟨hx.trans (.of_quiet hq), fun h => memoryOnDisk_of_view hq.view_eq (hd h),
      fun hp => (call_final hp).quiet hq⟩

/-! ### Runs of operations -/

theorem Interleaved.memoryOnDisk {store : KeyStore} {pr : Prover}
    (h : Interleaved cfg ias codec env store pr) : MemoryOnDisk pr := by
  induction h with
  | start => exact memoryOnDisk_of_cleared rfl rfl
  | step op _ ih => exact (after_spec op _).2.1 ih
  | restart _ _ => exact memoryOnDisk_of_cleared rfl rfl

/-- A run is one stretch from its start, whose new keys are fresh. -/
theorem Interleaved.exit {store : KeyStore} {pr : Prover}
    (h : Interleaved cfg ias codec env store pr) : Exit cfg ias env (Prover.start store) pr := by
  induction h with
  | start => exact .of_quiet (.refl _)
  | step op _ ih => exact ih.trans (after_spec op _).1
  | restart _ ih => exact ih.trans (restart_exit _)

/-- Along any run of operations across restarts, memory is never ahead of disk, and every key the
prover holds was in the initial store or was selected, attested and submitted earlier in the run. -/
theorem interleaved_memoryOnDisk_fresh {store : KeyStore} {pr : Prover}
    (h : Interleaved cfg ias codec env store pr) :
    MemoryOnDisk pr ∧ ∀ k, Holds pr k → Holds (start store) k ∨ Fresh cfg ias env (start store) pr k :=
  ⟨h.memoryOnDisk, h.exit.holds⟩

/-- From a start over an empty store, a `ProveState` that fails on the nil key, then a call of
`UpdateEKIfNeeded` that registers key 1 and keeps it pending. -/
def sampleInterleaving : Prover :=
  after sampleConfig sampleIAS sampleCodec rotationEnv .updateEKIfNeeded <|
    after sampleConfig sampleIAS sampleCodec rotationEnv (.proveState "path" []) <|
      start ⟨none, none⟩

theorem sampleInterleaving_interleaved :
    Interleaved sampleConfig sampleIAS sampleCodec rotationEnv ⟨none, none⟩ sampleInterleaving :=
  .step .updateEKIfNeeded (.step (.proveState "path" []) .start)

theorem sampleInterleaving_memoryOnDisk_fresh :
    Interleaved sampleConfig sampleIAS sampleCodec rotationEnv ⟨none, none⟩ sampleInterleaving ∧
      (sampleInterleaving.activeEnclaveKey, sampleInterleaving.unfinalizedMsgID) =
        (some (sampleKey 1), some 1) ∧
      MemoryOnDisk sampleInterleaving ∧ ∀ k, Holds sampleInterleaving k →
        Holds (start ⟨none, none⟩) k ∨
          Fresh sampleConfig sampleIAS rotationEnv (start ⟨none, none⟩) sampleInterleaving k :=
  ⟨sampleInterleaving_interleaved, rfl,
    interleaved_memoryOnDisk_fresh sampleInterleaving_interleaved⟩

/-- From a store with no unfinalized record, a run is one stretch from its start in which a key is
saved or kept as finalized only behind a registration reported final. -/
theorem Interleaved.finalExit {store : KeyStore} {pr : Prover}
    (h : Interleaved cfg ias codec env store pr) (h₀ : store.unfinalized = none) :
    FinalExit cfg env (Prover.start store) pr := by
  induction h with
  | start => exact .refl (pendingRegistered_start h₀)
  | step op _ ih => exact ih.trans ((after_spec op _).2.2 ih.pending)
  | restart _ ih => exact ih.trans (restart_final ih.pending)

theorem Interleaved.pendingRegistered {store : KeyStore} {pr : Prover}
    (h : Interleaved cfg ias codec env store pr) (h₀ : store.unfinalized = none) :
    PendingRegistered cfg env pr :=
  (h.finalExit h₀).pending

/-- Along any run of operations across restarts, from a store with no unfinalized record, every
pending pair is a key with the message ID of an earlier registration of it, and an operation that
finalizes a key had the chain report that registration final during the operation. -/
theorem finalized_only_after_final_registration {store : KeyStore} {pr : Prover}
    (h : Interleaved cfg ias codec env store pr) (h₀ : store.unfinalized = none) :
    PendingRegistered cfg env pr ∧ ∀ (op : Operation) k,
      NewEvent pr (op.after cfg ias codec env pr) (.saveFinalized k) →
        FinalizedRegistration cfg env pr (op.after cfg ias codec env pr) k :=
  have hp := h.pendingRegistered h₀
  ⟨hp, fun op => ((after_spec op pr).2.2 hp).finalizes⟩

/-- From a store with no unfinalized record, the finalized slot holds the key it started with, or
a key whose registration was reported final earlier in the run. -/
theorem Interleaved.finalized_backed {store : KeyStore} {pr : Prover}
    (h : Interleaved cfg ias codec env store pr) (h₀ : store.unfinalized = none) :
    ∀ k, pr.store.finalized = some k →
      store.finalized = some k ∨ FinalizedRegistration cfg env (Prover.start store) pr k :=
  (h.finalExit h₀).finalized

/-- From a store with no unfinalized record, every key the prover treats as final is the finalized
record it started with, or had its registration reported final earlier in the run. -/
theorem finalized_keys_reported_final {store : KeyStore} {pr : Prover}
    (h : Interleaved cfg ias codec env store pr) (h₀ : store.unfinalized = none)
    (k : EnclaveKeyInfo) (hk : pr.store.finalized = some k ∨ pr.unfinalizedMsgID = none ∧ pr.activeEnclaveKey = some k) :
    store.finalized = some k ∨ FinalizedRegistration cfg env (start store) pr k :=
  h.finalized_backed h₀ k (hk.elim id fun ⟨hu, ha⟩ => h.memoryOnDisk.2 k hu ha)

/-- Two calls from an empty store: the first keeps key 1 pending, the second finds it final but
unknown to the LCP service and saves key 2 as finalized at once. -/
def rotationInterleaving : Prover :=
  after sampleConfig sampleIAS sampleCodec rotationEnv .updateEKIfNeeded <|
    after sampleConfig sampleIAS sampleCodec rotationEnv .updateEKIfNeeded <| start ⟨none, none⟩

theorem rotationInterleaving_interleaved :
    Interleaved sampleConfig sampleIAS sampleCodec rotationEnv ⟨none, none⟩ rotationInterleaving :=
  .step .updateEKIfNeeded (.step .updateEKIfNeeded .start)

set_option maxRecDepth 2000 in
theorem rotationInterleaving_finalized_reported :
    Interleaved sampleConfig sampleIAS sampleCodec rotationEnv ⟨none, none⟩ rotationInterleaving ∧
      (⟨none, none⟩ : KeyStore).unfinalized = none ∧
      (rotationInterleaving.store.finalized = some (sampleKey 2) ∨
        rotationInterleaving.unfinalizedMsgID = none ∧
          rotationInterleaving.activeEnclaveKey = some (sampleKey 2)) ∧
      ((⟨none, none⟩ : KeyStore).finalized = some (sampleKey 2) ∨
        FinalizedRegistration sampleConfig rotationEnv (start ⟨none, none⟩) rotationInterleaving
          (sampleKey 2)) :=
  have hk : rotationInterleaving.store.finalized = some (sampleKey 2) := rfl
  ⟨rotationInterleaving_interleaved, rfl, .inl hk,
    finalized_keys_reported_final rotationInterleaving_interleaved rfl (sampleKey 2) (.inl hk)⟩

/-- From the sample run, `doUpdateELC` finds the registration of key 1 final but the key unknown
to the LCP service, rotates, and saves key 2 as finalized. -/
theorem sampleInterleaving_finalized_after_registration :
    Interleaved sampleConfig sampleIAS sampleCodec rotationEnv ⟨none, none⟩ sampleInterleaving ∧
      (⟨none, none⟩ : KeyStore).unfinalized = none ∧
      sampleInterleaving.store.unfinalized = some (sampleKey 1, 1) ∧
      NewEvent sampleInterleaving
        (after sampleConfig sampleIAS sampleCodec rotationEnv (.doUpdateELC "elc-0")
          sampleInterleaving) (.saveFinalized (sampleKey 2)) ∧
      PendingRegistered sampleConfig rotationEnv sampleInterleaving ∧ ∀ (op : Operation) k,
        NewEvent sampleInterleaving (after sampleConfig sampleIAS sampleCodec rotationEnv op
          sampleInterleaving) (.saveFinalized k) →
        FinalizedRegistration sampleConfig rotationEnv sampleInterleaving
          (after sampleConfig sampleIAS sampleCodec rotationEnv op sampleInterleaving) k :=
  ⟨sampleInterleaving_interleaved, rfl, rfl, ⟨[.saveFinalized (sampleKey 2),
    .selected (sampleKey 2)], rfl, .head _⟩,
    finalized_only_after_final_registration sampleInterleaving_interleaved rfl⟩

end Operation

end LcpRelay
