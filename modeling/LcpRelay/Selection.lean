import LcpRelay.Agreement

/-!
# Which candidate `selectNewEnclaveKey` picks

Against a steady clock and LCP service, the loop of `selectNewEnclaveKey` computes `firstVetted`.
The spec's Policy Engine (`selectUsable`) asks more of a candidate and skips a report that does not
validate, where the loop stops; on candidates that meet its conditions the two pick the same key.
-/

namespace LcpRelay

namespace Prover

section Vet

variable (cfg : ProverConfig) (ias : IAS)

/-- One round of the loop of `selectNewEnclaveKey` against the clock reading `now` and the LCP
service's answers `lcp`: the error that stops the loop, or whether the loop returns `eki`. -/
def vet (now : GoTime) (lcp : LCPService) (eki : EnclaveKeyInfo) : Except String Bool := do
  ias.verifyReport eki.report eki.signature eki.signingCert now
  let avr ← ias.parseAndValidateAVR eki.report
  pure (!now.after (updateTime cfg eki) && lcp.enclaveKey eki.enclaveKeyAddress &&
    validateISVEnclaveQuoteStatus cfg avr.isvEnclaveQuoteStatus &&
    validateAdvisoryIDs cfg avr.advisoryIDs)

/-- The loop of `selectNewEnclaveKey` against fixed answers, as a function of the candidates. -/
def firstVetted (now : GoTime) (lcp : LCPService) :
    List EnclaveKeyInfo → Except Error EnclaveKeyInfo
  | [] => .error .allKeysNotAllowed
  | eki :: rest =>
    match vet cfg ias now lcp eki with
    | .error e => .error (.external e)
    | .ok true => .ok eki
    | .ok false => firstVetted now lcp rest

/-- `selectNewEnclaveKey` against fixed answers, as a function of them. -/
def selectVetted (now : GoTime) (lcp : LCPService) : Except Error EnclaveKeyInfo :=
  match lcp.availableEnclaveKeys cfg.mrenclave with
  | .error e => .error (.external e)
  | .ok keys =>
    if keys.isEmpty then .error .noAvailableEnclaveKeys else firstVetted cfg ias now lcp keys

end Vet

variable {cfg : ProverConfig} {ias : IAS} {env : Env} {now : GoTime} {lcp : LCPService}

theorem vet_of_report {eki : EnclaveKeyInfo} {avr : AVR}
    (hv : ias.verifyReport eki.report eki.signature eki.signingCert now = .ok ())
    (hp : ias.parseAndValidateAVR eki.report = .ok avr) :
    vet cfg ias now lcp eki = .ok (!now.after (updateTime cfg eki) &&
      lcp.enclaveKey eki.enclaveKeyAddress &&
      validateISVEnclaveQuoteStatus cfg avr.isvEnclaveQuoteStatus &&
      validateAdvisoryIDs cfg avr.advisoryIDs) := by
  simp only [vet, hv, hp]; rfl

theorem firstVetted_skip {eki : EnclaveKeyInfo} {rest : List EnclaveKeyInfo}
    (h : vet cfg ias now lcp eki = .ok false) :
    firstVetted cfg ias now lcp (eki :: rest) = firstVetted cfg ias now lcp rest := by
  simp only [firstVetted, h]

/-- Against a fixed clock reading and fixed LCP answers, the loop ends as `firstVetted` does. -/
theorem selectFrom_refines (hc : ∀ n, env.clock n = now) (hl : ∀ n, env.lcp n = lcp)
    (keys : List EnclaveKeyInfo) (pr : Prover) :
    wp (selectFrom cfg ias env keys)
      (fun eki _ => firstVetted cfg ias now lcp keys = .ok eki)
      (fun e _ => firstVetted cfg ias now lcp keys = .error e) pr := by
  induction keys generalizing pr with
  | nil => rfl
  | cons eki rest ih =>
    simp only [selectFrom, wp_bind, wp_request, wp_orThrow, hc]
    rcases hv : ias.verifyReport eki.report eki.signature eki.signingCert now with e | ⟨⟩
    · simp only [firstVetted, vet, hv]; rfl
    rcases hp : ias.parseAndValidateAVR eki.report with e | avr
    · simp only [firstVetted, vet, hv, hp]; rfl
    have hvet : vet cfg ias now lcp eki = _ := vet_of_report hv hp
    simp only [wp_checkEKIUpdateNeeded, hl]
    cases hdue : now.after (updateTime cfg eki)
    case true => rw [firstVetted_skip (by rw [hvet, hdue]; rfl)]; exact ih _
    cases havail : lcp.enclaveKey eki.enclaveKeyAddress
    case false => rw [firstVetted_skip (by rw [hvet, hdue, havail]; rfl)]; exact ih _
    simp only [Bool.false_eq_true, if_false, if_true]
    cases hq : validateISVEnclaveQuoteStatus cfg avr.isvEnclaveQuoteStatus
    case false => rw [firstVetted_skip (by rw [hvet, hdue, havail, hq]; rfl)]; exact ih _
    cases ha : validateAdvisoryIDs cfg avr.advisoryIDs
    case false => rw [firstVetted_skip (by rw [hvet, hdue, havail, hq, ha]; rfl)]; exact ih _
    show firstVetted cfg ias now lcp (eki :: rest) = .ok eki
    simp only [firstVetted, hvet, hdue, havail, hq, ha]; rfl

/-- Against a fixed clock reading and fixed LCP answers, the selection ends as `selectVetted`
does. -/
theorem selectNewEnclaveKey_refines (hc : ∀ n, env.clock n = now) (hl : ∀ n, env.lcp n = lcp)
    (pr : Prover) :
    wp (selectNewEnclaveKey cfg ias env)
      (fun eki _ => selectVetted cfg ias now lcp = .ok eki)
      (fun e _ => selectVetted cfg ias now lcp = .error e) pr := by
  simp only [selectNewEnclaveKey, wp_bind, wp_request, wp_orThrow, hl]
  unfold selectVetted
  rcases lcp.availableEnclaveKeys cfg.mrenclave with e | keys
  · rfl
  dsimp only
  rw [wp_ite]
  split
  · rfl
  simp only [wp_bind, wp_pure, wp_logEvent]
  exact (selectFrom_refines hc hl keys _).mono (fun _ _ h => h) (fun _ _ h => h)

/-! ### The spec's Policy Engine -/

section Policy

variable (cfg : ProverConfig) (ias : IAS)

/-- The spec's `IsUsable` (spec §4.2), kept to compare the code with: its five checks in their
order, with the expiry `attestation_time + key_expiration/2` in exact integer arithmetic. -/
def isUsable (avr : AVR) (quote : Quote) (eki : EnclaveKeyInfo) (now : GoTime) : Bool :=
  quote.mrenclave == cfg.mrenclave &&
    !(avr.isvEnclaveQuoteStatus == QuoteOK && !avr.advisoryIDs.isEmpty) &&
    (avr.isvEnclaveQuoteStatus == QuoteOK ||
      cfg.allowedQuoteStatuses.contains avr.isvEnclaveQuoteStatus) &&
    avr.advisoryIDs.all cfg.allowedAdvisoryIds.contains &&
    decide (now.unixNanos ≤
      eki.attestationTime.toNat * 1000000000 + cfg.keyExpiration.toNat * 500000000)

/-- The spec's selection (spec §5), kept to compare the code with: the AVR Validator (spec §4.1)
accepts the candidate's report at `now` and yields its quote, `IsUsable` accepts it, and the LCP
service still knows its key. -/
def passesSelection (now : GoTime) (known : Address → Bool) (eki : EnclaveKeyInfo) : Bool :=
  match ias.verifyReport eki.report eki.signature eki.signingCert now,
      ias.parseAndValidateAVR eki.report with
  | .ok (), .ok avr =>
    match avr.quote with
    | .ok quote => isUsable cfg avr quote eki now && known eki.enclaveKeyAddress
    | .error _ => false
  | _, _ => false

/-- The candidate the spec's selection picks, the first in the service's order that passes; `none`
is `NoUsableKey`. -/
def selectUsable (now : GoTime) (known : Address → Bool) (keys : List EnclaveKeyInfo) :
    Option EnclaveKeyInfo :=
  keys.find? (passesSelection cfg ias now known)

end Policy

theorem vet_eq_ok_true {eki : EnclaveKeyInfo} :
    vet cfg ias now lcp eki = .ok true ↔
      ias.verifyReport eki.report eki.signature eki.signingCert now = .ok () ∧
      ∃ avr, ias.parseAndValidateAVR eki.report = .ok avr ∧
        now.after (updateTime cfg eki) = false ∧ lcp.enclaveKey eki.enclaveKeyAddress = true ∧
        validateISVEnclaveQuoteStatus cfg avr.isvEnclaveQuoteStatus = true ∧
        validateAdvisoryIDs cfg avr.advisoryIDs = true := by
  simp only [vet, Client.except_bind_eq_ok, Client.except_pure_eq_ok, Unique.exists_iff,
    Bool.and_eq_true, Bool.not_eq_true', and_assoc]

theorem validateAdvisoryIDs_iff {ids : List String} :
    validateAdvisoryIDs cfg ids = true ↔ ∀ id ∈ ids, id ∈ cfg.allowedAdvisoryIds := by
  simp only [validateAdvisoryIDs, Bool.or_eq_true, beq_iff_eq, Finset.card_eq_zero,
    Finset.sdiff_eq_empty_iff_subset, Finset.subset_iff, List.mem_toFinset, List.isEmpty_iff]
  exact ⟨fun h => h.elim (fun h _ hm => absurd (h ▸ hm) (List.not_mem_nil _)) id, Or.inr⟩

/-- A candidate the loop accepts passes the spec's selection once the two checks the loop leaves
out hold: its MRENCLAVE is the config's, and a status `OK` comes without advisory IDs. -/
theorem passesSelection_of_vet {eki : EnclaveKeyInfo} {avr : AVR} {quote : Quote}
    (hv : vet cfg ias now lcp eki = .ok true) (hp : ias.parseAndValidateAVR eki.report = .ok avr)
    (hq : avr.quote = .ok quote) (hm : quote.mrenclave = cfg.mrenclave)
    (hok : avr.isvEnclaveQuoteStatus = QuoteOK → avr.advisoryIDs = []) :
    passesSelection cfg ias now lcp.enclaveKey eki = true := by
  obtain ⟨hr, avr', hp', hdue, hknown, hs, ha⟩ := vet_eq_ok_true.mp hv
  cases hp.symm.trans hp'
  have hall : avr.advisoryIDs.all cfg.allowedAdvisoryIds.contains = true := by
    simpa [List.all_eq_true] using validateAdvisoryIDs_iff.mp ha
  have htime := unixNanos_le_of_not_after hdue
  by_cases h0 : avr.isvEnclaveQuoteStatus = QuoteOK
  · simp [passesSelection, isUsable, hr, hp, hq, hm, hknown, htime, h0, hok h0]
  · have hs' : avr.isvEnclaveQuoteStatus ∈ cfg.allowedQuoteStatuses := by
      simpa [validateISVEnclaveQuoteStatus, h0] using hs
    simp [passesSelection, isUsable, hr, hp, hq, hm, hknown, htime, h0, hall, hs']

theorem sampleKey_passesSelection :
    vet sampleConfig sampleIAS (GoTime.unix 0) (steadyEnv.lcp 0) (sampleKey 1) = .ok true ∧
      sampleIAS.parseAndValidateAVR (sampleKey 1).report =
        .ok ⟨QuoteOK, [], GoTime.unix 0, .ok ⟨[1], []⟩⟩ ∧
      (⟨QuoteOK, [], GoTime.unix 0, .ok ⟨[1], []⟩⟩ : AVR).quote = .ok ⟨[1], []⟩ ∧
      (⟨[1], []⟩ : Quote).mrenclave = sampleConfig.mrenclave ∧
      (QuoteOK = QuoteOK → ([] : List String) = []) ∧
      passesSelection sampleConfig sampleIAS (GoTime.unix 0) (steadyEnv.lcp 0).enclaveKey
        (sampleKey 1) = true :=
  ⟨rfl, rfl, rfl, rfl, fun _ => rfl, passesSelection_of_vet rfl rfl rfl rfl (fun _ => rfl)⟩

/-! ### The loop against the spec's selection -/

section Conforming

variable (cfg ias)

/-- What spec §4.1 and §5 leave to the attestation library and the LCP service, for a candidate at
`now`: its report verifies and parses, its quote is of the config's MRENCLAVE, a status `OK` comes
without advisory IDs, and its update time does not overflow. -/
structure Conforms (now : GoTime) (eki : EnclaveKeyInfo) : Prop where
  verified : ias.verifyReport eki.report eki.signature eki.signingCert now = .ok ()
  parsed : ∃ avr quote, ias.parseAndValidateAVR eki.report = .ok avr ∧ avr.quote = .ok quote ∧
    quote.mrenclave = cfg.mrenclave ∧ (avr.isvEnclaveQuoteStatus = QuoteOK → avr.advisoryIDs = [])
  inRange : eki.attestationTime.toNat + unixToInternal + cfg.keyExpiration.toNat < 2^63

end Conforming

theorem validateISVEnclaveQuoteStatus_eq (s : String) :
    validateISVEnclaveQuoteStatus cfg s = (s == QuoteOK || cfg.allowedQuoteStatuses.contains s) := by
  rw [List.contains_eq_any_beq]; rfl

/-- On a conforming candidate, the loop's round and the spec's selection agree. -/
theorem vet_eq_passesSelection {eki : EnclaveKeyInfo}
    (hE : cfg.keyExpiration.toNat * 1000000000 < 2^63) (hc : Conforms cfg ias now eki) :
    vet cfg ias now lcp eki = .ok (passesSelection cfg ias now lcp.enclaveKey eki) := by
  obtain ⟨avr, quote, hp, hq, hm, hok⟩ := hc.parsed
  have hall : validateAdvisoryIDs cfg avr.advisoryIDs =
      avr.advisoryIDs.all cfg.allowedAdvisoryIds.contains := by
    rw [Bool.eq_iff_iff, validateAdvisoryIDs_iff]; simp [List.all_eq_true]
  have htime : (!now.after (updateTime cfg eki)) =
      decide (now.unixNanos ≤
        eki.attestationTime.toNat * 1000000000 + cfg.keyExpiration.toNat * 500000000) := by
    rw [Bool.eq_iff_iff, Bool.not_eq_true', decide_eq_true_iff]
    exact not_after_iff_unixNanos_le hE hc.inRange
  rw [vet_of_report hc.verified hp]
  simp only [passesSelection, isUsable, hc.verified, hp, hq, hm, beq_self_eq_true, Bool.true_and,
    ← validateISVEnclaveQuoteStatus_eq, ← hall, ← htime]
  have hadv : (!(avr.isvEnclaveQuoteStatus == QuoteOK && !avr.advisoryIDs.isEmpty)) = true := by
    by_cases h0 : avr.isvEnclaveQuoteStatus = QuoteOK
    · simp [hok h0]
    · simp [h0]
  rw [hadv, Bool.true_and]
  congr 1
  ac_rfl

/-- On candidates whose every round is the spec's check, the loop finds the spec's choice. -/
theorem firstVetted_eq_find {p : EnclaveKeyInfo → Bool} :
    ∀ {keys : List EnclaveKeyInfo}, (∀ eki ∈ keys, vet cfg ias now lcp eki = .ok (p eki)) →
      firstVetted cfg ias now lcp keys = match keys.find? p with
        | some eki => .ok eki
        | none => .error .allKeysNotAllowed
  | [], _ => rfl
  | eki :: rest, h => by
    rw [firstVetted, h eki (.head _), List.find?_cons]
    cases p eki
    · exact firstVetted_eq_find fun k hk => h k (.tail _ hk)
    · rfl

/-- Against a steady clock and LCP service, on candidates that conform and without a wrapping key
expiration, `selectNewEnclaveKey` returns the key the spec's selection picks, and fails exactly
when it picks none. -/
theorem selectNewEnclaveKey_eq_selectUsable (hc : ∀ n, env.clock n = now)
    (hl : ∀ n, env.lcp n = lcp) {keys : List EnclaveKeyInfo}
    (hk : lcp.availableEnclaveKeys cfg.mrenclave = .ok keys)
    (hE : cfg.keyExpiration.toNat * 1000000000 < 2^63)
    (hconf : ∀ eki ∈ keys, Conforms cfg ias now eki) (pr : Prover) :
    wp (selectNewEnclaveKey cfg ias env)
      (fun eki _ => selectUsable cfg ias now lcp.enclaveKey keys = some eki)
      (fun _ _ => selectUsable cfg ias now lcp.enclaveKey keys = none) pr := by
  have hfind := @firstVetted_eq_find cfg ias now lcp _ keys fun eki he =>
    vet_eq_passesSelection hE (hconf eki he)
  have hsel : selectVetted cfg ias now lcp =
      match selectUsable cfg ias now lcp.enclaveKey keys with
      | some eki => .ok eki
      | none => .error (if keys.isEmpty then .noAvailableEnclaveKeys else .allKeysNotAllowed) := by
    rw [selectVetted, hk]
    rcases keys with _ | ⟨k, keys⟩
    · rfl
    · simp only [selectUsable, List.isEmpty_cons, Bool.false_eq_true, if_false, hfind]
  refine (selectNewEnclaveKey_refines hc hl pr).mono (fun eki _ h => ?_) (fun _ _ h => ?_) <;>
    rw [hsel] at h <;> split at h <;> rename_i heq
  · cases h; exact heq
  · cases h
  · cases h
  · exact heq

theorem steadyEnv_selects_usable :
    (∀ n, steadyEnv.clock n = GoTime.unix 0) ∧ (∀ n, steadyEnv.lcp n = steadyEnv.lcp 0) ∧
      (steadyEnv.lcp 0).availableEnclaveKeys sampleConfig.mrenclave = .ok [sampleKey 1] ∧
      sampleConfig.keyExpiration.toNat * 1000000000 < 2^63 ∧
      (∀ eki ∈ [sampleKey 1], Conforms sampleConfig sampleIAS (GoTime.unix 0) eki) ∧
      wp (selectNewEnclaveKey sampleConfig sampleIAS steadyEnv)
        (fun eki _ => selectUsable sampleConfig sampleIAS (GoTime.unix 0)
          (steadyEnv.lcp 0).enclaveKey [sampleKey 1] = some eki)
        (fun _ _ => selectUsable sampleConfig sampleIAS (GoTime.unix 0)
          (steadyEnv.lcp 0).enclaveKey [sampleKey 1] = none) (start ⟨none, none⟩) :=
  have hc : ∀ n, steadyEnv.clock n = GoTime.unix 0 := fun _ => rfl
  have hl : ∀ n, steadyEnv.lcp n = steadyEnv.lcp 0 := fun _ => rfl
  have hE : sampleConfig.keyExpiration.toNat * 1000000000 < 2^63 := by decide
  have hconf : ∀ eki ∈ [sampleKey 1], Conforms sampleConfig sampleIAS (GoTime.unix 0) eki :=
    fun _ he => by
      cases List.mem_singleton.mp he
      exact ⟨rfl, ⟨_, _, rfl, rfl, rfl, fun _ => rfl⟩, by decide⟩
  ⟨hc, hl, rfl, hE, hconf, selectNewEnclaveKey_eq_selectUsable hc hl rfl hE hconf _⟩

/-! ### Three lists of candidates -/

/-- An attestation library that reads each report by its name: `invalid` fails its signature
check, `foreign` is issued to MRENCLAVE 2, `advisory` has status `OK` and the advisory
`INTEL-SA-00334`, and any other report is `OK` for MRENCLAVE 1. -/
def cascadeIAS : IAS where
  verifyReport r _ _ _ := if r = "invalid" then .error "invalid signature" else .ok ()
  parseAndValidateAVR r :=
    .ok ⟨QuoteOK, if r = "advisory" then ["INTEL-SA-00334"] else [], GoTime.unix 0,
      .ok ⟨if r = "foreign" then [2] else [1], []⟩⟩
  getEnclaveKeyAddress _ := .ok 0
  getEKAndOperator _ := .ok (0, 0)

/-- The key with address `a` and report `report`, attested at the Unix epoch. -/
def reportKey (a : Address) (report : String) : EnclaveKeyInfo := ⟨a, 0, report, [], []⟩

/-- Spec scenario 5: a key of another MRENCLAVE, a key with a disallowed advisory ID, and a key
that passes. -/
def cascadeKeys : List EnclaveKeyInfo :=
  [reportKey 1 "foreign", reportKey 2 "advisory", reportKey 3 "valid"]

/-- A key whose report is invalid, then a key that passes. -/
def invalidFirstKeys : List EnclaveKeyInfo := [reportKey 1 "invalid", reportKey 2 "valid"]

/-- The LCP service lists `keys` and knows every key. -/
def listingEnv (keys : List EnclaveKeyInfo) : Env :=
  sampleEnv (fun _ => keys) (fun _ _ => true) (fun _ => 100)

/-- The selection can return a candidate of a foreign MRENCLAVE ahead of a usable one, stop at an
invalid report the spec skips, and select a key with status `OK` and an allowed advisory ID. -/
theorem selectNewEnclaveKey_not_first_usable :
    (∃ pr, selectNewEnclaveKey sampleConfig cascadeIAS (listingEnv cascadeKeys)
        (start ⟨none, none⟩) = .ok (reportKey 1 "foreign") pr) ∧
      selectUsable sampleConfig cascadeIAS (GoTime.unix 0) (fun _ => true) cascadeKeys =
        some (reportKey 3 "valid") ∧
      (∃ pr, selectNewEnclaveKey sampleConfig cascadeIAS (listingEnv invalidFirstKeys)
        (start ⟨none, none⟩) = .error (.external "invalid signature") pr) ∧
      selectUsable sampleConfig cascadeIAS (GoTime.unix 0) (fun _ => true) invalidFirstKeys =
        some (reportKey 2 "valid") ∧
      (∃ pr, selectNewEnclaveKey advisoryConfig cascadeIAS (listingEnv [reportKey 1 "advisory"])
        (start ⟨none, none⟩) = .ok (reportKey 1 "advisory") pr) ∧
      selectUsable advisoryConfig cascadeIAS (GoTime.unix 0) (fun _ => true)
        [reportKey 1 "advisory"] = none :=
  ⟨⟨_, rfl⟩, rfl, ⟨_, rfl⟩, rfl, ⟨_, rfl⟩, rfl⟩

end Prover

end LcpRelay
