import LcpRelay.Relay.Operations
import LcpRelay.Client.Run

/-!
# The relayer's rules against the client's

The relayer selects and rotates enclave keys by its own copies of rules that the `lcp` client
enforces on chain.  Its candidate filter agrees with the quote checks of `verifyRegisterEnclaveKey`
except on a report with status `OK` and allowed advisory IDs, and a key that `checkEKIUpdateNeeded`
keeps stays active on chain for half the key expiration, unless the expiration's nanoseconds wrap.
-/

namespace LcpRelay

open Client

namespace Prover

variable {cfg : ProverConfig} {ias : IAS} {env : Env}

/-! ### The quote filter -/

theorem isAllowedStatus_eq {cs : ClientState}
    (h : cs.allowedQuoteStatuses = cfg.allowedQuoteStatuses) (s : String) : cs.isAllowedStatus s = validateISVEnclaveQuoteStatus cfg s := by
  simp only [ClientState.isAllowedStatus, validateISVEnclaveQuoteStatus, h]

/-- The relayer's set difference and the client's `Contains` test the same thing. -/
theorem isAllowedAdvisoryIDs_eq {cs : ClientState}
    (h : cs.allowedAdvisoryIds = cfg.allowedAdvisoryIds) (ids : List String) :
    cs.isAllowedAdvisoryIDs ids = validateAdvisoryIDs cfg ids := by
  simp only [ClientState.isAllowedAdvisoryIDs, validateAdvisoryIDs, h]
  congr 1
  rw [Bool.eq_iff_iff]
  simp [Finset.sdiff_eq_empty_iff_subset, Finset.subset_iff, List.all_eq_true]

/-- With the allow-lists of the config, as `CreateInitialLightClientState` gives them, the client
accepts a report's quote status and advisory IDs exactly when the relayer's filter does and, for
status `OK`, there are no advisory IDs. -/
theorem checkQuoteStatus_eq_ok_iff_filter {cs : ClientState}
    (hs : cs.allowedQuoteStatuses = cfg.allowedQuoteStatuses)
    (ha : cs.allowedAdvisoryIds = cfg.allowedAdvisoryIds) (avr : AVR) :
    cs.checkQuoteStatus avr = .ok () ↔
      (validateISVEnclaveQuoteStatus cfg avr.isvEnclaveQuoteStatus &&
        validateAdvisoryIDs cfg avr.advisoryIDs) = true ∧
      (avr.isvEnclaveQuoteStatus = QuoteOK → avr.advisoryIDs = []) := by
  rw [ClientState.checkQuoteStatus_eq_ok, ← isAllowedStatus_eq hs, ← isAllowedAdvisoryIDs_eq ha]
  by_cases h0 : avr.isvEnclaveQuoteStatus = QuoteOK
  · simp [h0, ClientState.isAllowedStatus, ClientState.isAllowedAdvisoryIDs, imp_or]
  · simp [h0]

/-- The sample config, allowing the advisory `INTEL-SA-00334`. -/
def advisoryConfig : ProverConfig := { sampleConfig with allowedAdvisoryIds := ["INTEL-SA-00334"] }

/-- A report with status `OK` and the advisory `INTEL-SA-00334`. -/
def advisoryAVR : AVR := ⟨QuoteOK, ["INTEL-SA-00334"], GoTime.unix 0, .ok ⟨[1], []⟩⟩

/-- The client state `CreateInitialLightClientState` builds from `advisoryConfig`. -/
def advisoryClientState : ClientState :=
  ⟨⟨0, 0⟩, advisoryConfig.mrenclave, advisoryConfig.keyExpiration,
    advisoryConfig.allowedQuoteStatuses, advisoryConfig.allowedAdvisoryIds, []⟩

theorem advisoryClientState_filter :
    advisoryClientState.allowedQuoteStatuses = advisoryConfig.allowedQuoteStatuses ∧
      advisoryClientState.allowedAdvisoryIds = advisoryConfig.allowedAdvisoryIds ∧
      (advisoryClientState.checkQuoteStatus advisoryAVR = .ok () ↔
        (validateISVEnclaveQuoteStatus advisoryConfig advisoryAVR.isvEnclaveQuoteStatus &&
          validateAdvisoryIDs advisoryConfig advisoryAVR.advisoryIDs) = true ∧
        (advisoryAVR.isvEnclaveQuoteStatus = QuoteOK → advisoryAVR.advisoryIDs = [])) :=
  ⟨rfl, rfl, checkQuoteStatus_eq_ok_iff_filter rfl rfl advisoryAVR⟩

/-- An attestation library that reads every report as `advisoryAVR`, with enclave key address 1. -/
def advisoryIAS : IAS where
  verifyReport _ _ _ _ := .ok ()
  parseAndValidateAVR _ := .ok advisoryAVR
  getEnclaveKeyAddress _ := .ok 1
  getEKAndOperator _ := .ok (1, 0)

/-- The relayer selects the key of a report with status `OK` and an advisory ID that the config
allows, and the client rejects the registration of that report whatever its state. -/
theorem allowed_advisory_key_rejected :
    (∃ pr', selectNewEnclaveKey advisoryConfig advisoryIAS steadyEnv (start ⟨none, none⟩) =
        .ok (sampleKey 1) pr') ∧
      ∀ t s m, verifyRegisterEnclaveKey advisoryIAS t s m =
        .error (.advisoryIDsNotEmpty ["INTEL-SA-00334"]) :=
  ⟨⟨_, rfl⟩, fun _ _ _ => rfl⟩

/-! ### The rotation margin -/

theorem not_after_of_checkEKIUpdateNeeded {now : GoTime} {eki : EnclaveKeyInfo} {pr pr' : Prover}
    (h : checkEKIUpdateNeeded cfg env now eki pr = .ok false pr') :
    now.after (updateTime cfg eki) = false := by
  unfold checkEKIUpdateNeeded at h
  cases ha : now.after (updateTime cfg eki)
  · rfl
  · rw [if_pos ha] at h; cases h

/-- A key that `checkEKIUpdateNeeded` keeps at `now`, registered from an AVR dated at its
attestation time, has a record active at every block time before `now` plus half the key
expiration, when nothing wraps and the AVR is not before the epoch. -/
theorem activeKey_margin {now b : GoTime} {eki : EnclaveKeyInfo} {pr pr' : Prover}
    {s s' : ClientStore} {m : RegisterEnclaveKeyMessage} {avr : AVR}
    (hcheck : checkEKIUpdateNeeded cfg env now eki pr = .ok false pr')
    (hreg : Client.registerEnclaveKey ias s m = .ok s')
    (hp : ias.parseAndValidateAVR m.report = .ok avr)
    (ha : registeredAddress ias m = some eki.enclaveKeyAddress)
    (hnew : s.enclaveKeys eki.enclaveKeyAddress = none)
    (hE : s.clientState.keyExpiration = cfg.keyExpiration)
    (hAT : (eki.attestationTime.toNat : Int) = avr.timestamp.unixSec)
    (hE63 : cfg.keyExpiration.toNat * 1000000000 < 2^63)
    (hts : unixToInternal ≤ avr.timestamp.sec)
    (hts' : avr.timestamp.sec + cfg.keyExpiration.toNat < 2^63)
    (hb : b.unixNanos < now.unixNanos + cfg.keyExpiration.toNat * 500000000) :
    s'.isActiveKey b eki.enclaveKeyAddress = true := by
  have hnow := unixNanos_le_of_not_after (not_after_of_checkEKIUpdateNeeded hcheck)
  obtain rfl := registerEnclaveKey_record hreg hp ha hnew
  have hd : s.clientState.getKeyExpiration = cfg.keyExpiration.toNat * 1000000000 := by
    rw [ClientState.getKeyExpiration, hE, secondsDuration_of_lt hE63]
  have hs := avr.timestamp.sec_range
  have hn := avr.timestamp.nsec_lt
  have hsec : (avr.timestamp.add (cfg.keyExpiration.toNat * 1000000000)).sec =
      avr.timestamp.sec + cfg.keyExpiration.toNat := by
    unfold Int64Range at hs
    simp only [GoTime.add_sec, addSec]
    split_ifs <;> omega
  have hAT' : (eki.attestationTime.toNat : Int) = avr.timestamp.sec - unixToInternal := by
    rw [hAT, GoTime.unixSec, wrap64_of_range]
    unfold Int64Range unixToInternal at *; omega
  rw [ClientStore.isActiveKey, ClientStore.addEnclaveKey_enclaveKeys, if_pos rfl]
  dsimp only
  rw [hd, GoTime.after_iff,
    GoTime.unix_recorded_toNanos (by rw [hsec]; unfold unixToInternal at *; omega), hsec]
  simp only [GoTime.unixNanos_eq] at hb hnow
  omega

/-- A report dated Unix time 1700000000 exactly, with status `OK` and MRENCLAVE 1. -/
def wholeSecondAVR : AVR := ⟨QuoteOK, [], GoTime.unix 1700000000, .ok ⟨[1], []⟩⟩

/-- An attestation library reading every report as `wholeSecondAVR`, with enclave key address 1. -/
def wholeSecondIAS : IAS where
  verifyReport _ _ _ _ := .ok ()
  parseAndValidateAVR _ := .ok wholeSecondAVR
  getEnclaveKeyAddress _ := .ok 1
  getEKAndOperator _ := .ok (1, 0)

/-- The key of `wholeSecondAVR`, attested at its Unix seconds. -/
def attestedKey : EnclaveKeyInfo := ⟨1, 1700000000, "report", [], []⟩

/-- The sample config with a key expiration of `E` seconds. -/
def expiryConfig (E : UInt64) : ProverConfig := { sampleConfig with keyExpiration := E }

/-- A client with MRENCLAVE 1, a key expiration of `E` seconds and no records. -/
def expiryStore (E : UInt64) : ClientStore :=
  ⟨⟨⟨0, 0⟩, [1], E, [], [], []⟩, fun _ => none, fun _ => none⟩

theorem attestedKey_margin :
    ∃ pr' s', checkEKIUpdateNeeded (expiryConfig 3600) steadyEnv (GoTime.unix 1700000000)
        attestedKey (start ⟨none, none⟩) = .ok false pr' ∧
      Client.registerEnclaveKey wholeSecondIAS (expiryStore 3600) sampleRegistration = .ok s' ∧
      wholeSecondIAS.parseAndValidateAVR sampleRegistration.report = .ok wholeSecondAVR ∧
      registeredAddress wholeSecondIAS sampleRegistration = some attestedKey.enclaveKeyAddress ∧
      (expiryStore 3600).enclaveKeys attestedKey.enclaveKeyAddress = none ∧
      (expiryStore 3600).clientState.keyExpiration = (expiryConfig 3600).keyExpiration ∧
      (attestedKey.attestationTime.toNat : Int) = wholeSecondAVR.timestamp.unixSec ∧
      (expiryConfig 3600).keyExpiration.toNat * 1000000000 < 2^63 ∧
      unixToInternal ≤ wholeSecondAVR.timestamp.sec ∧
      wholeSecondAVR.timestamp.sec + (expiryConfig 3600).keyExpiration.toNat < 2^63 ∧
      (GoTime.unix 1700001799).unixNanos <
        (GoTime.unix 1700000000).unixNanos + (expiryConfig 3600).keyExpiration.toNat * 500000000 ∧
      s'.isActiveKey (GoTime.unix 1700001799) attestedKey.enclaveKeyAddress = true :=
  have hcheck : checkEKIUpdateNeeded (expiryConfig 3600) steadyEnv (GoTime.unix 1700000000)
      attestedKey (start ⟨none, none⟩) = .ok false _ := rfl
  have hreg : Client.registerEnclaveKey wholeSecondIAS (expiryStore 3600) sampleRegistration =
      .ok _ := rfl
  have hE63 : (expiryConfig 3600).keyExpiration.toNat * 1000000000 < 2^63 := by decide
  have hts : unixToInternal ≤ wholeSecondAVR.timestamp.sec := by decide
  have hts' : wholeSecondAVR.timestamp.sec + (expiryConfig 3600).keyExpiration.toNat < 2^63 := by
    decide
  have hb : (GoTime.unix 1700001799).unixNanos <
      (GoTime.unix 1700000000).unixNanos + (expiryConfig 3600).keyExpiration.toNat * 500000000 := by
    decide
  ⟨_, _, hcheck, hreg, rfl, rfl, rfl, rfl, rfl, hE63, hts, hts', hb,
    activeKey_margin hcheck hreg rfl rfl rfl rfl rfl hE63 hts hts' hb⟩

/-- With a key expiration of 18446744074 seconds, whose nanoseconds wrap, the relayer keeps a key at
the instant of its attestation whose client record is already inactive then. -/
theorem wrapped_keyExpiration_inactive :
    let now : GoTime := GoTime.unix 1700000000
    (∃ pr', checkEKIUpdateNeeded (expiryConfig 18446744074) steadyEnv now attestedKey
        (start ⟨none, none⟩) = .ok false pr') ∧
      (attestedKey.attestationTime.toNat : Int) = wholeSecondAVR.timestamp.unixSec ∧
      now.unixNanos < now.unixNanos + (expiryConfig 18446744074).keyExpiration.toNat * 500000000 ∧
      ∃ s', Client.registerEnclaveKey wholeSecondIAS (expiryStore 18446744074)
          sampleRegistration = .ok s' ∧
        s'.isActiveKey now attestedKey.enclaveKeyAddress = false :=
  ⟨⟨_, rfl⟩, rfl, by decide, _, rfl, rfl⟩

end Prover

end LcpRelay
