import LcpRelay.Relay.Interleaving
import LcpRelay.Client.Provenance

/-!
# The relayer, the destination chain and the `lcp` client together

`RunsClient` assumes the chain's answers come from the `lcp` client: a registration the chain
reports executed was accepted as the last transaction of a client run.  Under it, every key the
relayer treats as final is recorded in the client under the address its report's quote carries,
an address `GetEKAndOperator` reads and drops, while the relayer names `EnclaveKeyAddress` as
signer.
-/

namespace LcpRelay

namespace Client

variable {ias : IAS} {ver : ELCVerifier}

/-- After a run whose last transaction registers `r`, the client holds a record for the address
`r`'s report carries: the record the run started with, or one that the first registration of that
address in the run attests. -/
theorem run_registration_recorded {s₀ s : ClientStore} {txs : List (GoTime × Message)}
    {t : GoTime} {r : RegisterEnclaveKeyMessage}
    (h : Run ias ver s₀ (txs ++ [(t, .registerEnclaveKey r)]) s) :
    ∃ a v, registeredAddress ias r = some a ∧ s.enclaveKeys a = some v ∧
      (s₀.enclaveKeys a = some v ∨
        Recorded ias s₀.clientState (txs ++ [(t, .registerEnclaveKey r)]) a v) := by
  obtain ⟨s', -, hlast⟩ := Run.append_iff.mp h
  cases hlast with
  | cons hs hnil =>
    cases hnil
    obtain ⟨_, -, hu⟩ := except_bind_eq_ok.mp hs
    obtain ⟨_, _, a, hp, hq, ha, -⟩ := registerEnclaveKey_eq_ok.mp hu
    have hreg := registeredAddress_eq hp hq ha
    obtain ⟨v, hv⟩ := Option.ne_none_iff_exists'.mp ((step_records hs).2.2.2 r a rfl hreg)
    have hrun := run_records h
    refine ⟨a, v, hreg, hv, ?_⟩
    cases h₀ : s₀.enclaveKeys a with
    | none => exact .inr (hrun.2.2.1 a v h₀ hv)
    | some v₀ => exact .inl (by rw [← hv, hrun.2.1 a v₀ h₀])

end Client

namespace Operation

open Prover

variable {cfg : ProverConfig} {ias : IAS} {codec : ELCCodec} {env : Env}

/-- An assumption on the chain: a registration submitted alone that the chain later reports executed
successfully was accepted by the `lcp` client `clientId` as the last transaction of a run from
`s₀`. -/
def RunsClient (env : Env) (ias : IAS) (ver : Client.ELCVerifier) (clientId : String)
    (s₀ : Client.ClientStore) : Prop :=
  ∀ l i m msg signer res, l < i →
    (env.chain l).sendMsgs [⟨clientId, .registerEnclaveKey msg, signer⟩] = .ok [m] →
    (env.chain i).msgResult m = .ok res → res.status = true →
    ∃ txs t s, Client.Run ias ver s₀ (txs ++ [(t, .registerEnclaveKey msg)]) s

/-- Along any run of the prover's operations from a store with no unfinalized record, every key the
prover treats as final is the finalized record it started with, or is recorded by a run of the
client from `s₀` under the address its report carries. -/
theorem finalKeys_recorded_by_client {store : KeyStore} {pr : Prover} {ver : Client.ELCVerifier}
    {s₀ : Client.ClientStore} (h : Interleaved cfg ias codec env store pr)
    (h₀ : store.unfinalized = none) (hc : RunsClient env ias ver cfg.counterpartyClientId s₀)
    (k : EnclaveKeyInfo)
    (hk : pr.store.finalized = some k ∨ pr.unfinalizedMsgID = none ∧ pr.activeEnclaveKey = some k) :
    store.finalized = some k ∨ ∃ txs s a v, Client.Run ias ver s₀ txs s ∧
      Client.registeredAddress ias ⟨k.report, k.signature, k.signingCert, none⟩ = some a ∧
      s.enclaveKeys a = some v ∧
      (s₀.enclaveKeys a = some v ∨ Client.Recorded ias s₀.clientState txs a v) := by
  refine (h.finalized_backed h₀ k
    (hk.elim id fun ⟨hu, ha⟩ => h.memoryOnDisk.2 k hu ha)).imp_right ?_
  rintro ⟨m, l, i, -, res, ⟨sig, signer, hs⟩, hli, -, -, -, hr, hst, -⟩
  obtain ⟨txs, t, s, hrun⟩ := hc l (i + 1) m _ signer res (by omega) hs hr hst
  obtain ⟨a, v, ha, hv, hrec⟩ := Client.run_registration_recorded hrun
  exact ⟨_, s, a, v, hrun, ha, hv, hrec⟩

/-- The fixed deployment's chain runs a fresh client of MRENCLAVE 1: the attestation library
`sampleIAS` accepts every report, and gives every quote the address 0. -/
theorem rotationEnv_runsClient :
    RunsClient rotationEnv sampleIAS Client.sampleVerifier sampleConfig.counterpartyClientId
      Client.freshStore :=
  fun _ _ _ _ _ _ _ _ _ _ => ⟨[], GoTime.unix 0, _, .cons rfl (.nil _)⟩

set_option maxRecDepth 2000 in
/-- After the two calls of `UpdateEKIfNeeded` of the rotation, the relayer treats key 2 as final
and names address 2 as signer, while the registrations it submitted record address 0, the one
their report carries. -/
theorem rotationInterleaving_key_recorded :
    Interleaved sampleConfig sampleIAS sampleCodec rotationEnv ⟨none, none⟩ rotationInterleaving ∧
      (⟨none, none⟩ : KeyStore).unfinalized = none ∧
      RunsClient rotationEnv sampleIAS Client.sampleVerifier sampleConfig.counterpartyClientId
        Client.freshStore ∧
      rotationInterleaving.store.finalized = some (sampleKey 2) ∧
      (sampleKey 2).enclaveKeyAddress = 2 ∧
      Client.registeredAddress sampleIAS
        ⟨(sampleKey 2).report, (sampleKey 2).signature, (sampleKey 2).signingCert, none⟩ = some 0 ∧
      ((⟨none, none⟩ : KeyStore).finalized = some (sampleKey 2) ∨
        ∃ txs s a v, Client.Run sampleIAS Client.sampleVerifier Client.freshStore txs s ∧
          Client.registeredAddress sampleIAS
            ⟨(sampleKey 2).report, (sampleKey 2).signature, (sampleKey 2).signingCert, none⟩ =
            some a ∧
          s.enclaveKeys a = some v ∧
          (Client.freshStore.enclaveKeys a = some v ∨
            Client.Recorded sampleIAS Client.freshStore.clientState txs a v)) :=
  have hk : rotationInterleaving.store.finalized = some (sampleKey 2) := rfl
  ⟨rotationInterleaving_interleaved, rfl, rotationEnv_runsClient, hk, rfl, rfl,
    finalKeys_recorded_by_client rotationInterleaving_interleaved rfl rotationEnv_runsClient
      (sampleKey 2) (.inl hk)⟩

end Operation

end LcpRelay
