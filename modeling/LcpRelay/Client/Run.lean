import LcpRelay.Client.LightClient

/-!
# Runs of the `lcp` client

Along every run from a store without enclave-key records, each record was written for the first
registration of its address, holds that registration's expiry and never changes, so every
accepted update is signed by an attested key whose record has not expired.  A duplicate
registration is accepted again only when its expiry is a whole second, since the record keeps
whole seconds.
-/

namespace LcpRelay

namespace Client

variable (ias : IAS) (ver : ELCVerifier)

/-- One transaction: `m` verified at block time `t`, then applied. -/
def step (t : GoTime) (m : Message) (s : ClientStore) : Except ClientError ClientStore := do
  verifyClientMessage ias ver t s m
  updateState ias ver s m

/-- `s` turns into `s'` by the accepted transactions `txs`, in order. -/
inductive Run : ClientStore → List (GoTime × Message) → ClientStore → Prop
  | nil (s : ClientStore) : Run s [] s
  | cons {s s' s'' : ClientStore} {t : GoTime} {m : Message} {txs : List (GoTime × Message)} :
      step ias ver t m s = .ok s' → Run s' txs s'' → Run s ((t, m) :: txs) s''

/-- The address a registration message registers: the one its report's quote carries. -/
def registeredAddress (m : RegisterEnclaveKeyMessage) : Option Address :=
  match ias.parseAndValidateAVR m.report with
  | .ok avr => match avr.quote with
    | .ok quote => (ias.getEnclaveKeyAddress quote).toOption
    | .error _ => none
  | .error _ => none

/-- What an accepted registration at `t` against `cs` says of the record `v` of `a`: the report
passed `VerifyReport` and the client's quote checks, its quote carries `a`, and `v` is its expiry
in whole Unix seconds. -/
def Attests (cs : ClientState) (t : GoTime) (m : RegisterEnclaveKeyMessage) (a : Address)
    (v : UInt64) : Prop :=
  ias.verifyReport m.report m.signature m.signingCert t = .ok () ∧
    ∃ avr quote, ias.parseAndValidateAVR m.report = .ok avr ∧ cs.checkQuoteStatus avr = .ok () ∧
      avr.quote = .ok quote ∧ cs.mrenclave = quote.mrenclave ∧
      ias.getEnclaveKeyAddress quote = .ok a ∧
      v = toUInt64 (avr.timestamp.add cs.getKeyExpiration).unixSec

/-- The record `v` of `a` was written for the first registration of `a` among `txs`, which
attests it. -/
def Recorded (cs : ClientState) (txs : List (GoTime × Message)) (a : Address) (v : UInt64) :
    Prop :=
  ∃ pre t m post, txs = pre ++ (t, .registerEnclaveKey m) :: post ∧
    (∀ t' m', (t', .registerEnclaveKey m') ∈ pre → registeredAddress ias m' ≠ some a) ∧
    Attests ias cs t m a v

variable {ias ver}

theorem registeredAddress_eq {m : RegisterEnclaveKeyMessage} {avr : AVR} {quote : Quote}
    {a : Address} (hp : ias.parseAndValidateAVR m.report = .ok avr) (hq : avr.quote = .ok quote)
    (ha : ias.getEnclaveKeyAddress quote = .ok a) : registeredAddress ias m = some a := by
  simp only [registeredAddress, hp, hq, ha, Except.toOption]

/-- The first registration of an address records its expiry. -/
theorem registerEnclaveKey_record {s s' : ClientStore} {m : RegisterEnclaveKeyMessage} {avr : AVR}
    {a : Address} (hu : registerEnclaveKey ias s m = .ok s')
    (hp : ias.parseAndValidateAVR m.report = .ok avr) (ha : registeredAddress ias m = some a)
    (hnew : s.enclaveKeys a = none) :
    s' = s.addEnclaveKey a (avr.timestamp.add s.clientState.getKeyExpiration) := by
  obtain ⟨avr', quote, addr, hp', hq, ha', rfl⟩ := registerEnclaveKey_eq_ok.mp hu
  cases hp.symm.trans hp'
  cases ha.symm.trans (registeredAddress_eq hp hq ha')
  rw [if_neg (by simp [ClientStore.contains, hnew])]

/-- What one accepted transaction does to the records: it keeps the client's configuration and
every record, it adds a record only for the address of its registration, attested and with that
registration's expiry, and after a registration its address has a record. -/
theorem step_records {t : GoTime} {m : Message} {s s' : ClientStore}
    (h : step ias ver t m s = .ok s') :
    s.sameConfig s' ∧ (∀ a v, s.enclaveKeys a = some v → s'.enclaveKeys a = some v) ∧
      (∀ a v, s.enclaveKeys a = none → s'.enclaveKeys a = some v →
        ∃ r, m = .registerEnclaveKey r ∧ Attests ias s.clientState t r a v) ∧
      ∀ r a, m = .registerEnclaveKey r → registeredAddress ias r = some a →
        s'.enclaveKeys a ≠ none := by
  simp only [step, except_bind_eq_ok] at h
  obtain ⟨_, hv, hu⟩ := h
  cases m with
  | updateClient um =>
    obtain ⟨hk, hc⟩ := updateClient_frame hu
    refine ⟨hc, fun a v h => hk ▸ h, fun a v h h' => ?_, fun _ _ h => nomatch h⟩
    rw [hk, h] at h'; cases h'
  | registerEnclaveKey r =>
    obtain ⟨hrep, avr, quote, -, hp, hqs, hq, hmr, -⟩ := verifyRegisterEnclaveKey_eq_ok.mp hv
    obtain ⟨avr', quote', addr, hp', hq', ha, rfl⟩ := registerEnclaveKey_eq_ok.mp hu
    cases hp.symm.trans hp'
    cases hq.symm.trans hq'
    have hreg := registeredAddress_eq hp hq ha
    by_cases hc : s.contains addr
    · rw [if_pos hc]
      refine ⟨.refl s, fun _ _ h => h, fun a v h h' => (by rw [h] at h'; cases h'), ?_⟩
      rintro r' a ⟨⟩ ha'
      rw [hreg] at ha'; cases ha'
      exact Option.ne_none_iff_isSome.mpr hc
    · rw [if_neg hc]
      refine ⟨⟨_, rfl⟩, fun a v h => ?_, fun a v h h' => ?_, ?_⟩
      · rw [ClientStore.addEnclaveKey_enclaveKeys, if_neg]; exact h
        rintro rfl; simp [ClientStore.contains, h] at hc
      · rw [ClientStore.addEnclaveKey_enclaveKeys] at h'
        split at h'
        · subst_vars; cases h'
          exact ⟨r, rfl, hrep, avr, quote, hp, hqs, hq, hmr, ha, rfl⟩
        · rw [h] at h'; cases h'
      · rintro r' a ⟨⟩ ha'
        rw [hreg] at ha'; cases ha'
        simp [ClientStore.addEnclaveKey_enclaveKeys]

/-- Recording is blind to the client's latest height. -/
theorem Recorded.of_sameConfig {s s' : ClientStore} (hc : s.sameConfig s')
    {txs : List (GoTime × Message)} {a : Address} {v : UInt64}
    (h : Recorded ias s'.clientState txs a v) : Recorded ias s.clientState txs a v := by
  obtain ⟨_, he⟩ := hc; rw [he] at h; exact h

/-- Along a run from any store: the configuration and every record are kept, every new record
was written for the first registration of its address in the run, and no address registered in
the run is left without a record. -/
theorem run_records {s s'' : ClientStore} {txs : List (GoTime × Message)}
    (h : Run ias ver s txs s'') :
    s.sameConfig s'' ∧ (∀ a v, s.enclaveKeys a = some v → s''.enclaveKeys a = some v) ∧
      (∀ a v, s.enclaveKeys a = none → s''.enclaveKeys a = some v →
        Recorded ias s.clientState txs a v) ∧
      ∀ a, s''.enclaveKeys a = none →
        ∀ t r, (t, .registerEnclaveKey r) ∈ txs → registeredAddress ias r ≠ some a := by
  induction h with
  | nil s => exact ⟨.refl s, fun _ _ h => h, fun _ _ h h' => (by rw [h] at h'; cases h'), by simp⟩
  | @cons s s' s'' t m txs hs _ ih =>
    obtain ⟨hc, hkeep, hnew, hreg⟩ := step_records hs
    obtain ⟨hc', hkeep', hnew', hreg'⟩ := ih
    refine ⟨hc.trans hc', fun a v h => hkeep' a v (hkeep a v h), fun a v h h'' => ?_,
      fun a h'' t' r hm => ?_⟩
    · cases h' : s'.enclaveKeys a with
      | some v' =>
        obtain ⟨r, rfl, hatt⟩ := hnew a v' h h'
        rw [hkeep' a v' h'] at h''; cases h''
        exact ⟨[], t, r, txs, rfl, by simp, hatt⟩
      | none =>
        obtain ⟨pre, t', r, post, rfl, hfirst, hatt⟩ := hnew' a v h' h''
        refine Recorded.of_sameConfig hc ⟨(t, m) :: pre, t', r, post, rfl, ?_, hatt⟩
        rintro t'' r' (⟨⟩ | ⟨_, hm⟩)
        · exact fun ha => hreg r' a rfl ha h'
        · exact hfirst t'' r' hm
    · have h' : s'.enclaveKeys a = none := Option.eq_none_iff_forall_not_mem.mpr fun v hv => by
        rw [hkeep' a v hv] at h''; cases h''
      rcases List.mem_cons.mp hm with he | hm
      · cases he; exact fun ha => hreg r a rfl ha h'
      · exact hreg' a h'' t' r hm

/-- Along every run from a store without enclave-key records, every record is attested by the first
registration of its address and never changes, and every accepted update is signed by such a key,
with a verified signature and a recorded expiry after the block time. -/
theorem accepted_signers_attested {s₀ s : ClientStore} {txs : List (GoTime × Message)}
    (h₀ : ∀ a, s₀.enclaveKeys a = none) (hr : Run ias ver s₀ txs s) :
    (∀ a v, s.enclaveKeys a = some v → Recorded ias s₀.clientState txs a v) ∧
      (∀ txs' s', Run ias ver s txs' s' →
        ∀ a v, s.enclaveKeys a = some v → s'.enclaveKeys a = some v) ∧
      ∀ t um, verifyUpdateClient ver t s um = .ok () →
        ver.verifySignature um.elcMessage um.signature (ver.bytesToAddress um.signer) = .ok () ∧
        ∃ v, s.enclaveKeys (ver.bytesToAddress um.signer) = some v ∧
          (GoTime.unix (wrap64 v.toNat)).after t = true ∧
          Recorded ias s₀.clientState txs (ver.bytesToAddress um.signer) v := by
  have hrec := fun a v h => (run_records hr).2.2.1 a v (h₀ a) h
  refine ⟨hrec, fun _ _ hr' => (run_records hr').2.1, fun t um hu => ?_⟩
  obtain ⟨v, hv, hafter⟩ := verifyUpdateClient_signer hu
  obtain ⟨_, -, -, -, hsig, -⟩ := verifyUpdateClient_eq_ok.mp hu
  exact ⟨hsig, v, hv, hafter, hrec _ v hv⟩

/-- A report issued half a second after Unix time 1700000000, with status `OK` and MRENCLAVE 1. -/
def halfSecondAVR : AVR := ⟨QuoteOK, [], (GoTime.unix 1700000000).add 500000000, .ok ⟨[1], []⟩⟩

/-- An attestation library that accepts every report and reads it as `halfSecondAVR`, with enclave
key address 1. -/
def halfSecondIAS : IAS where
  verifyReport _ _ _ _ := .ok ()
  parseAndValidateAVR _ := .ok halfSecondAVR
  getEnclaveKeyAddress _ := .ok 1
  getEKAndOperator _ := .ok (1, 0)

/-- A client with MRENCLAVE 1, a key expiration of an hour, and no consensus state or record. -/
def freshStore : ClientStore := ⟨⟨⟨0, 0⟩, [1], 3600, [], [], []⟩, fun _ => none, fun _ => none⟩

/-- A registration of the report `halfSecondIAS` reads. -/
def sampleRegistration : RegisterEnclaveKeyMessage := ⟨"report", [], [], none⟩

/-- A verifier whose every ELC message is the first update of a new client, to height 1, and
whose every signature is by address 1. -/
def sampleVerifier : ELCVerifier where
  getELCMessage _ := .ok ⟨none, none, ⟨0, 1⟩, [], 0, [[]], fun _ => .ok ()⟩
  verifySignature _ _ _ := .ok ()
  bytesToAddress _ := 1

/-- A registration, then an update. -/
def sampleTxs : List (GoTime × Message) :=
  [(GoTime.unix 1700000100, .registerEnclaveKey sampleRegistration),
    (GoTime.unix 1700000200, .updateClient ⟨[], [], []⟩)]

/-- A run that registers a key, then applies an update signed by it. -/
theorem sampleRun_signers_attested :
    ∃ s, (∀ a, freshStore.enclaveKeys a = none) ∧
      Run halfSecondIAS sampleVerifier freshStore sampleTxs s ∧
      (∀ a v, s.enclaveKeys a = some v → Recorded halfSecondIAS freshStore.clientState sampleTxs a v) ∧
      (∀ txs' s', Run halfSecondIAS sampleVerifier s txs' s' →
        ∀ a v, s.enclaveKeys a = some v → s'.enclaveKeys a = some v) ∧
      ∀ t um, verifyUpdateClient sampleVerifier t s um = .ok () →
        sampleVerifier.verifySignature um.elcMessage um.signature
          (sampleVerifier.bytesToAddress um.signer) = .ok () ∧
        ∃ v, s.enclaveKeys (sampleVerifier.bytesToAddress um.signer) = some v ∧
          (GoTime.unix (wrap64 v.toNat)).after t = true ∧
          Recorded halfSecondIAS freshStore.clientState sampleTxs
            (sampleVerifier.bytesToAddress um.signer) v :=
  have hr : Run halfSecondIAS sampleVerifier freshStore sampleTxs _ := .cons rfl (.cons rfl (.nil _))
  ⟨_, fun _ => rfl, hr, accepted_signers_attested (fun _ => rfl) hr⟩

/-! ### Duplicate registrations -/

/-- A registration verified and applied on a store without a record of its key is verified again
on the result exactly when its expiry is a whole second, and applying it again changes nothing. -/
theorem reregistration_accepted_iff {t : GoTime} {s s' : ClientStore}
    {m : RegisterEnclaveKeyMessage} {avr : AVR} {addr : Address}
    (hv : verifyRegisterEnclaveKey ias t s m = .ok ()) (hu : registerEnclaveKey ias s m = .ok s')
    (hp : ias.parseAndValidateAVR m.report = .ok avr) (ha : registeredAddress ias m = some addr)
    (hnew : s.enclaveKeys addr = none)
    (hr : unixToInternal - 2^63 ≤ (avr.timestamp.add s.clientState.getKeyExpiration).sec) :
    (verifyRegisterEnclaveKey ias t s' m = .ok () ↔
      (avr.timestamp.add s.clientState.getKeyExpiration).nsec = 0) ∧
      registerEnclaveKey ias s' m = .ok s' := by
  refine ⟨?_, registerEnclaveKey_idem hu⟩
  obtain rfl := registerEnclaveKey_record hu hp ha hnew
  rw [verifyRegisterEnclaveKey_eq_ok] at hv
  obtain ⟨hrep, avr₁, quote, addr₁, hp₁, hs, hq, hm, ha₁, -⟩ := hv
  cases hp.symm.trans hp₁
  cases ha.symm.trans (registeredAddress_eq hp hq ha₁)
  rw [verifyRegisterEnclaveKey_eq_ok, ClientStore.addEnclaveKey_clientState]
  constructor
  · rintro ⟨-, avr₂, quote₂, addr₂, hp₂, -, hq₂, -, ha₂, h⟩
    cases hp.symm.trans hp₂
    cases hq.symm.trans hq₂
    cases ha₁.symm.trans ha₂
    exact (GoTime.unix_recorded_equal_iff hr).mp
      (h _ (ClientStore.getEnclaveKeyExpiredAt_addEnclaveKey ..))
  · intro hn
    refine ⟨hrep, avr, quote, addr, hp, hs, hq, hm, ha₁, fun e he => ?_⟩
    obtain rfl := Option.some.inj
      ((ClientStore.getEnclaveKeyExpiredAt_addEnclaveKey ..).symm.trans he)
    exact (GoTime.unix_recorded_equal_iff hr).mpr hn

theorem halfSecond_reregistration :
    let t : GoTime := GoTime.unix 1700000100
    let expiredAt : GoTime := halfSecondAVR.timestamp.add freshStore.clientState.getKeyExpiration
    ∃ s', verifyRegisterEnclaveKey halfSecondIAS t freshStore sampleRegistration = .ok () ∧
      registerEnclaveKey halfSecondIAS freshStore sampleRegistration = .ok s' ∧
      halfSecondIAS.parseAndValidateAVR sampleRegistration.report = .ok halfSecondAVR ∧
      registeredAddress halfSecondIAS sampleRegistration = some 1 ∧
      freshStore.enclaveKeys 1 = none ∧ unixToInternal - 2^63 ≤ expiredAt.sec ∧
      (verifyRegisterEnclaveKey halfSecondIAS t s' sampleRegistration = .ok () ↔
        expiredAt.nsec = 0) ∧
      registerEnclaveKey halfSecondIAS s' sampleRegistration = .ok s' :=
  have hv : verifyRegisterEnclaveKey halfSecondIAS (GoTime.unix 1700000100) freshStore
      sampleRegistration = .ok () := rfl
  have hu : registerEnclaveKey halfSecondIAS freshStore sampleRegistration = .ok _ := rfl
  have hr : unixToInternal - 2^63 ≤
      (halfSecondAVR.timestamp.add freshStore.clientState.getKeyExpiration).sec := by decide
  ⟨_, hv, hu, rfl, rfl, rfl, hr, reregistration_accepted_iff hv hu rfl rfl rfl hr⟩

/-- The second registration of a report issued half a second past a whole second is rejected:
the record holds the expiry in whole seconds, and the expiry the report gives is half a second
later.  A second `UpdateState` does change nothing. -/
theorem duplicate_registration_rejected (ver : ELCVerifier) :
    let t := GoTime.unix 1700000100
    let m := Message.registerEnclaveKey sampleRegistration
    ∃ s', step halfSecondIAS ver t m freshStore = .ok s' ∧
      verifyClientMessage halfSecondIAS ver t s' m =
        .error (.enclaveKeyExists 1 (GoTime.unix 1700003600)
          ((GoTime.unix 1700003600).add 500000000)) ∧
      updateState halfSecondIAS ver s' m = .ok s' :=
  ⟨_, rfl, rfl, rfl⟩

end Client

end LcpRelay
