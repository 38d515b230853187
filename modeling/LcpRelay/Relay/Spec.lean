import LcpRelay.Relay.Prover

/-!
# What each step of the key lifecycle does

One lemma per function of `Prover`: an exact `wp` equation for the key store's operations and the
checks, and a specification for selection and registration.  `Reads` is the class of computations
that only ask the collaborators, and every property of a computation that writes nothing is proved
once for the whole class.
-/

namespace LcpRelay

namespace Prover

variable {cfg : ProverConfig} {ias : IAS} {env : Env}
variable {R : Error → Prover → Prop} {pr : Prover}

/-! ### The key store -/

@[simp] theorem wp_saveFinalizedEnclaveKeyInfo (eki : EnclaveKeyInfo) (Q : Unit → Prover → Prop) :
    wp (saveFinalizedEnclaveKeyInfo env eki) Q R pr =
      match env.disk pr.tick with
      | .ok () => Q ()
          { pr with
            log := .saveFinalized eki :: pr.log
            tick := pr.tick + 1
            store := { pr.store with finalized := some eki } }
      | .error e => R (.external e)
          { pr with log := .saveFinalized eki :: pr.log, tick := pr.tick + 1 } := by
  simp only [saveFinalizedEnclaveKeyInfo, wp_bind, wp_logEvent, wp_request, wp_orThrow]
  cases env.disk pr.tick <;> rfl

@[simp] theorem wp_saveUnfinalizedEnclaveKeyInfo (eki : EnclaveKeyInfo) (msgID : MsgID)
    (Q : Unit → Prover → Prop) :
    wp (saveUnfinalizedEnclaveKeyInfo env eki msgID) Q R pr =
      match env.disk pr.tick with
      | .ok () => Q ()
          { pr with
            log := .saveUnfinalized eki msgID :: pr.log
            tick := pr.tick + 1
            store := { pr.store with unfinalized := some (eki, msgID) } }
      | .error e => R (.external e)
          { pr with log := .saveUnfinalized eki msgID :: pr.log, tick := pr.tick + 1 } := by
  simp only [saveUnfinalizedEnclaveKeyInfo, wp_bind, wp_logEvent, wp_request, wp_orThrow]
  cases env.disk pr.tick <;> rfl

@[simp] theorem wp_removeUnfinalizedEnclaveKeyInfo (Q : Unit → Prover → Prop) :
    wp (removeUnfinalizedEnclaveKeyInfo env) Q R pr =
      match env.disk pr.tick with
      | .ok () => Q ()
          { pr with
            log := .removeUnfinalized :: pr.log
            tick := pr.tick + 1
            store := { pr.store with unfinalized := none } }
      | .error e => R (.external e)
          { pr with log := .removeUnfinalized :: pr.log, tick := pr.tick + 1 } := by
  simp only [removeUnfinalizedEnclaveKeyInfo, wp_bind, wp_logEvent, wp_request, wp_orThrow]
  cases env.disk pr.tick <;> rfl

@[simp] theorem wp_loadLastUnfinalizedEnclaveKey
    (Q : Except Error (EnclaveKeyInfo × MsgID) → Prover → Prop) :
    wp (loadLastUnfinalizedEnclaveKey env) Q R pr =
      Q (match env.disk pr.tick with
        | .error e => .error (.external e)
        | .ok () => match pr.store.unfinalized with
          | some u => .ok u
          | none => .error .notFound) { pr with tick := pr.tick + 1 } := by
  simp only [loadLastUnfinalizedEnclaveKey, wp_bind, wp_request]
  cases env.disk pr.tick <;> rfl

@[simp] theorem wp_loadLastFinalizedEnclaveKey (Q : Except Error EnclaveKeyInfo → Prover → Prop) :
    wp (loadLastFinalizedEnclaveKey env) Q R pr =
      Q (match env.disk pr.tick with
        | .error e => .error (.external e)
        | .ok () => match pr.store.finalized with
          | some eki => .ok eki
          | none => .error .notFound) { pr with tick := pr.tick + 1 } := by
  simp only [loadLastFinalizedEnclaveKey, wp_bind, wp_request]
  cases env.disk pr.tick <;> rfl

/-! ### Checks -/

@[simp] theorem wp_checkEKIUpdateNeeded (t : GoTime) (eki : EnclaveKeyInfo)
    (Q : Bool → Prover → Prop) :
    wp (checkEKIUpdateNeeded cfg env t eki) Q R pr =
      if t.after (updateTime cfg eki) then Q true pr
      else if (env.lcp pr.tick).enclaveKey eki.enclaveKeyAddress then
        Q false { pr with tick := pr.tick + 1 }
      else Q true { pr with tick := pr.tick + 1 } := by
  unfold checkEKIUpdateNeeded
  split
  · rfl
  · simp only [wp_bind, wp_request]; split <;> rfl

@[simp] theorem wp_checkMsgStatus (msgID : MsgID) (Q : Bool × Bool → Prover → Prop) :
    wp (checkMsgStatus env msgID) Q R pr =
      match (env.chain pr.tick).latestFinalizedHeight with
      | .error e => R (.external e) { pr with tick := pr.tick + 1 }
      | .ok h => match (env.chain (pr.tick + 1)).msgResult msgID with
        | .error e => R (.external e) { pr with tick := pr.tick + 2 }
        | .ok res => Q (if res.status then (res.blockHeight.lte h, true) else (false, false))
            { pr with tick := pr.tick + 2 } := by
  simp only [checkMsgStatus, wp_bind, wp_request, wp_orThrow]
  cases (env.chain pr.tick).latestFinalizedHeight
  · rfl
  · cases (env.chain (pr.tick + 1)).msgResult msgID
    · rfl
    · simp only; split <;> rfl

@[simp] theorem wp_activeKey (Q : EnclaveKeyInfo → Prover → Prop) :
    wp activeKey Q R pr = match pr.activeEnclaveKey with
      | some eki => Q eki pr
      | none => R .nilDereference pr := by
  obtain ⟨_ | _, _⟩ := pr <;> rfl

theorem activeKey_framed : Framed activeKey := fun pr => by
  rw [wp_activeKey]; split <;> exact .refl pr

/-! ### Computations that only read -/

/-- Computations built from the collaborators' answers, errors other than a nil dereference and
events that write nothing to the store, and, when `readsKey`, reads of the active key. -/
inductive Reads (readsKey : Bool) : {α : Type} → RelayM α → Prop
  | pure {α : Type} (a : α) : Reads readsKey (Pure.pure a)
  | throw {α : Type} {e : Error} : e ≠ .nilDereference →
      Reads readsKey (MonadExcept.throw e : RelayM α)
  | request {α : Type} (f : Nat → α) : Reads readsKey (request f)
  | logEvent {e : Event} : e.writesStore = false → Reads readsKey (logEvent e)
  | activeKey : readsKey = true → Reads readsKey activeKey
  | bind {α β : Type} {x : RelayM β} {f : β → RelayM α} :
      Reads readsKey x → (∀ b, Reads readsKey (f b)) → Reads readsKey (x >>= f)

namespace Reads

variable {readsKey : Bool}

theorem orThrow : ∀ r : Except String α, Reads readsKey (LcpRelay.orThrow r)
  | .ok a => .pure a
  | .error _ => .throw nofun

theorem orThrowWrapped (context : String) :
    ∀ r : Except String α, Reads readsKey (LcpRelay.orThrowWrapped context r)
  | .ok a => .pure a
  | .error _ => .throw nofun

theorem ite (c : Prop) [Decidable c] {x y : RelayM α} (hx : Reads readsKey x)
    (hy : Reads readsKey y) : Reads readsKey (if c then x else y) := by
  split <;> assumption

/-- Go's `if c { return e }`, a guard followed by the rest `k` of the function. -/
theorem guard (c : Prop) [Decidable c] {e : Error} {k : PUnit → RelayM α}
    (hk : Reads readsKey (k ⟨⟩)) (he : e ≠ .nilDereference) :
    Reads readsKey (if c then MonadExcept.throw e >>= k else Pure.pure ⟨⟩ >>= k) :=
  .ite c (.bind (.throw he) fun _ => hk) (.bind (.pure _) fun _ => hk)

/-- Go's `if c { return a }`, an early return before the rest `k` of the function. -/
theorem exit (c : Prop) [Decidable c] (a : α) {k : PUnit → RelayM α}
    (hk : Reads readsKey (k ⟨⟩)) : Reads readsKey (if c then Pure.pure a else Pure.pure ⟨⟩ >>= k) :=
  .ite c (.pure a) (.bind (.pure _) fun _ => hk)

/-- What does not read the key may be used where reads are allowed. -/
theorem mono {x : RelayM α} (h : Reads false x) : Reads readsKey x := by
  induction h with
  | pure a => exact .pure a
  | throw he => exact .throw he
  | request f => exact .request f
  | logEvent hw => exact .logEvent hw
  | activeKey h => exact absurd h Bool.false_ne_true
  | bind _ _ hx hf => exact .bind hx hf

theorem framed {x : RelayM α} (h : Reads readsKey x) : Framed x := by
  induction h with
  | pure a => exact .pure a
  | throw _ => exact .throw _
  | request f => exact .request f
  | logEvent hw => exact .logEvent hw
  | activeKey _ => exact activeKey_framed
  | bind _ _ hx hf => exact .bind hx hf

end Reads

/-- A time not after a key's update time is at most `AttestationTime + KeyExpiration / 2` seconds
past the Unix epoch, in exact arithmetic: the wraps and the saturation on the way only move the
update time earlier. -/
theorem unixNanos_le_of_not_after {t : GoTime} {eki : EnclaveKeyInfo}
    (h : t.after (updateTime cfg eki) = false) :
    t.unixNanos ≤ eki.attestationTime.toNat * 1000000000 + cfg.keyExpiration.toNat * 500000000 := by
  have hle : ¬ (updateTime cfg eki).toNanos < t.toNanos := fun hlt => by
    rw [← GoTime.after_iff, h] at hlt; exact Bool.false_ne_true hlt
  have hsec : wrap64 (wrap64 eki.attestationTime.toNat + unixToInternal) ≤
      eki.attestationTime.toNat + unixToInternal := by
    have h₁ := wrap64_range (eki.attestationTime.toNat : Int)
    have h₂ : wrap64 (eki.attestationTime.toNat : Int) ≤ eki.attestationTime.toNat :=
      wrap64_le (by omega)
    have h₃ := @wrap64_le (wrap64 eki.attestationTime.toNat + unixToInternal)
      (by unfold Int64Range unixToInternal at *; omega)
    omega
  have hadd := GoTime.toNanos_add_le (GoTime.unix (wrap64 eki.attestationTime.toNat))
    ((secondsDuration cfg.keyExpiration.toNat).tdiv 2)
  have hd := secondsDuration_half_le cfg.keyExpiration.toNat
  rw [GoTime.unixNanos_eq]
  simp only [updateTime, GoTime.toNanos, GoTime.unix_sec, GoTime.unix_nsec] at hle hadd ⊢
  unfold unixToInternal at *
  omega

/-- Without overflow, the bound is exact: a time is not after a key's update time exactly when it
is at most `AttestationTime + KeyExpiration / 2` seconds past the Unix epoch. -/
theorem not_after_iff_unixNanos_le {t : GoTime} {eki : EnclaveKeyInfo}
    (hE : cfg.keyExpiration.toNat * 1000000000 < 2^63)
    (hk : eki.attestationTime.toNat + unixToInternal + cfg.keyExpiration.toNat < 2^63) :
    t.after (updateTime cfg eki) = false ↔
      t.unixNanos ≤ eki.attestationTime.toNat * 1000000000 + cfg.keyExpiration.toNat * 500000000 := by
  have hU : unixToInternal = 62135596800 := rfl
  have hat : wrap64 eki.attestationTime.toNat = eki.attestationTime.toNat :=
    wrap64_of_range ⟨by omega, by omega⟩
  have hsec : wrap64 (eki.attestationTime.toNat + unixToInternal) =
      eki.attestationTime.toNat + unixToInternal := wrap64_of_range ⟨by omega, by omega⟩
  have hhalf : (secondsDuration cfg.keyExpiration.toNat).tdiv 2 =
      cfg.keyExpiration.toNat * 500000000 := by
    rw [secondsDuration_of_lt hE, Int.tdiv_eq_ediv (by omega) (by decide)]; omega
  have hadd := @GoTime.toNanos_add (GoTime.unix eki.attestationTime.toNat)
    (cfg.keyExpiration.toNat * 500000000)
    (by simp only [GoTime.unix_sec, GoTime.unix_nsec, hsec]; unfold Int64Range; omega)
  rw [← Bool.not_eq_true, GoTime.after_iff, GoTime.unixNanos_eq, updateTime, hat, hhalf, hadd]
  simp only [GoTime.toNanos, GoTime.unix_sec, GoTime.unix_nsec, hsec]
  omega

theorem checkEKIUpdateNeeded_reads (t : GoTime) (eki : EnclaveKeyInfo) :
    Reads false (checkEKIUpdateNeeded cfg env t eki) :=
  .ite _ (.pure _) (.bind (.request _) fun _ => .ite _ (.pure _) (.pure _))

theorem checkMsgStatus_reads (msgID : MsgID) : Reads false (checkMsgStatus env msgID) :=
  .bind (.request _) fun r => .bind (.orThrow r) fun _ => .bind (.request _) fun r =>
    .bind (.orThrow r) fun _ => .ite _ (.pure _) (.pure _)

/-! ### Selection -/

section Vetting

variable (cfg ias env)

/-- `eki`'s report passed the selection's attestation and policy checks. -/
def Attested (eki : EnclaveKeyInfo) : Prop :=
  (∃ t, ias.verifyReport eki.report eki.signature eki.signingCert t = .ok ()) ∧
  ∃ avr, ias.parseAndValidateAVR eki.report = .ok avr ∧
    validateISVEnclaveQuoteStatus cfg avr.isvEnclaveQuoteStatus = true ∧
    validateAdvisoryIDs cfg avr.advisoryIDs = true

/-- What a key returned by the selection between `pr` and `pr'` passed: the attestation checks,
and `checkEKIUpdateNeeded` on a clock reading and an `EnclaveKey` answer of that stretch. -/
structure Selected (pr pr' : Prover) (eki : EnclaveKeyInfo) : Prop where
  attested : Attested cfg ias eki
  notDue : ∃ i, During pr pr' i ∧ (env.clock i).after (updateTime cfg eki) = false
  available : ∃ j, During pr pr' j ∧ (env.lcp j).enclaveKey eki.enclaveKeyAddress = true

end Vetting

theorem Selected.of_grows_left {a b c : Prover} {eki : EnclaveKeyInfo} (h : a.Grows b)
    (hs : Selected cfg ias env b c eki) : Selected cfg ias env a c eki :=
  ⟨hs.attested, hs.notDue.imp fun _ hi => ⟨hi.1.of_grows_left h, hi.2⟩,
    hs.available.imp fun _ hj => ⟨hj.1.of_grows_left h, hj.2⟩⟩

theorem Selected.of_grows_right {a b c : Prover} {eki : EnclaveKeyInfo}
    (hs : Selected cfg ias env a b eki) (h : b.Grows c) : Selected cfg ias env a c eki :=
  ⟨hs.attested, hs.notDue.imp fun _ hi => ⟨hi.1.of_grows_right h, hi.2⟩,
    hs.available.imp fun _ hj => ⟨hj.1.of_grows_right h, hj.2⟩⟩

theorem selectFrom_spec (keys : List EnclaveKeyInfo) (pr : Prover) :
    wp (selectFrom cfg ias env keys)
      (fun eki pr' => pr.Quiet pr' ∧ Selected cfg ias env pr pr' eki) (fun _ => pr.Quiet) pr := by
  induction keys generalizing pr with
  | nil => exact .refl pr
  | cons eki rest ih =>
    -- the loop continues from a later state with the same memory and disk
    have next : ∀ pr₁ : Prover, pr.Quiet pr₁ →
        wp (selectFrom cfg ias env rest)
          (fun eki pr' => pr.Quiet pr' ∧ Selected cfg ias env pr pr' eki) (fun _ => pr.Quiet)
          pr₁ := fun pr₁ hq =>
      (ih pr₁).mono (fun _ _ h => ⟨hq.trans h.1, h.2.of_grows_left hq.grows⟩)
        (fun _ _ h => hq.trans h)
    simp only [selectFrom, wp_bind, wp_request, wp_orThrow]
    rcases hv : ias.verifyReport eki.report eki.signature eki.signingCert (env.clock pr.tick)
      with e | ⟨⟩
    · exact .ticks pr (Nat.le_succ _)
    rcases hp : ias.parseAndValidateAVR eki.report with e | avr
    · exact .ticks pr (Nat.le_succ _)
    simp only [wp_checkEKIUpdateNeeded]
    cases hdue : (env.clock (pr.tick + 1)).after (updateTime cfg eki)
    case true => exact next _ (.ticks pr (by omega))
    cases havail : (env.lcp (pr.tick + 1 + 1)).enclaveKey eki.enclaveKeyAddress
    case false => exact next _ (.ticks pr (by omega))
    have hq : pr.Quiet { pr with tick := pr.tick + 1 + 1 + 1 } := .ticks pr (by omega)
    simp only [Bool.false_eq_true, if_false, if_true]
    cases hq' : validateISVEnclaveQuoteStatus cfg avr.isvEnclaveQuoteStatus
    case false => exact next _ hq
    cases ha : validateAdvisoryIDs cfg avr.advisoryIDs
    case false => exact next _ hq
    exact ⟨hq, ⟨⟨_, hv⟩, avr, hp, hq', ha⟩, ⟨pr.tick + 1, ⟨Nat.le_succ _, by dsimp only; omega⟩, hdue⟩,
      ⟨pr.tick + 1 + 1, ⟨by omega, by dsimp only; omega⟩, havail⟩⟩

theorem selectNewEnclaveKey_spec (pr : Prover) :
    wp (selectNewEnclaveKey cfg ias env)
      (fun eki pr' => pr.Quiet pr' ∧ Selected cfg ias env pr pr' eki ∧
        NewEvent pr pr' (.selected eki))
      (fun _ => pr.Quiet) pr := by
  have hq₁ := Quiet.ticks pr (Nat.le_succ pr.tick)
  simp only [selectNewEnclaveKey, wp_bind, wp_request, wp_orThrow]
  rcases (env.lcp pr.tick).availableEnclaveKeys cfg.mrenclave with e | keys
  · exact hq₁
  dsimp only
  rw [wp_ite]
  split
  · exact hq₁
  simp only [wp_bind, wp_pure, wp_logEvent]
  refine (selectFrom_spec keys _).mono (fun eki pr' h => ?_) (fun _ _ h => hq₁.trans h)
  have hs := @Quiet.event pr' _ (Nat.le_refl _) (.selected eki) rfl
  exact ⟨hq₁.trans (h.1.trans hs), (h.2.of_grows_left hq₁.grows).of_grows_right hs.grows,
    (NewEvent.head rfl).of_grows_left (hq₁.trans h.1).grows⟩

theorem selectFrom_reads : ∀ keys, Reads false (selectFrom cfg ias env keys)
  | [] => .throw nofun
  | _ :: rest =>
    .bind (.request _) fun _ => .bind (.orThrow _) fun _ => .bind (.orThrow _) fun _ =>
      .bind (.request _) fun _ => .bind (checkEKIUpdateNeeded_reads _ _) fun _ =>
        .ite _ (selectFrom_reads rest) (.ite _ (selectFrom_reads rest)
          (.ite _ (selectFrom_reads rest) (.pure _)))

theorem selectNewEnclaveKey_reads : Reads false (selectNewEnclaveKey cfg ias env) :=
  .bind (.request _) fun r => .bind (.orThrow r) fun _ => .guard _
    (.bind (selectFrom_reads _) fun _ => .bind (.logEvent rfl) fun _ => .pure _) nofun

/-! ### Registration -/

theorem queryClientState_reads : Reads false (queryClientState env) :=
  .bind (.request _) fun r => .bind (.orThrow r) fun _ => .bind (.request _) fun r =>
    .bind (.orThrow r) fun
      | .lcp _ => .pure _
      | .other _ => .throw nofun
      | .undecodable _ => .throw nofun

theorem operatorSignature_reads (cs : ClientState) (eki : EnclaveKeyInfo) (op : Address) :
    Reads false (operatorSignature cfg env cs eki op) :=
  .ite _ (.bind (.request _) fun r => .bind (.orThrow r) fun _ => .guard _
    (.guard _ (.bind (.request _) fun r => .bind (.orThrow r) fun _ => .pure _) nofun) nofun)
    (.pure _)

theorem registerEnclaveKey_reads (eki : EnclaveKeyInfo) :
    Reads false (registerEnclaveKey cfg ias env eki) :=
  .bind (.request _) fun _ => .bind (.orThrowWrapped _ _) fun _ =>
    .bind (.orThrowWrapped _ _) fun _ => .bind (.orThrowWrapped _ _) fun _ =>
      .bind (.orThrowWrapped _ _) fun _ => .bind queryClientState_reads fun _ =>
        .guard _ (.bind (operatorSignature_reads _ _ _) fun _ =>
          .bind (.request _) fun r => .bind (.orThrow r) fun _ => .bind (.request _) fun r =>
            .bind (.orThrow r) fun
              | [] => .throw nofun
              | [_] => .pure _
              | _ :: _ :: _ => .throw nofun) nofun

/-- The client state `queryClientState` returns is the destination chain's answer to a request of
the call. -/
theorem queryClientState_spec (pr : Prover) :
    wp (queryClientState env)
      (fun cs pr' => ∃ i h, During pr pr' i ∧ (env.chain i).clientState h = .ok (.lcp cs))
      (fun _ _ => True) pr := by
  simp only [queryClientState, wp_bind, wp_request, wp_orThrow]
  rcases (env.chain pr.tick).latestHeight with e | h
  · trivial
  dsimp only
  rcases hc : (env.chain (pr.tick + 1)).clientState h with e | (cs | _ | _)
  · trivial
  · exact ⟨pr.tick + 1, h, ⟨Nat.le_succ _, by dsimp only; omega⟩, hc⟩
  all_goals trivial

section Registration

variable (cfg ias env)

/-- The destination chain answered request `l`, the submission of the single message that registers
`k`'s report with the counterparty client, with the single message ID `m`. -/
def Registration (k : EnclaveKeyInfo) (m : MsgID) (l : Nat) : Prop :=
  ∃ sig signer, (env.chain l).sendMsgs
    [⟨cfg.counterpartyClientId, .registerEnclaveKey ⟨k.report, k.signature, k.signingCert, sig⟩,
      signer⟩] = .ok [m]

/-- `registerEnclaveKey` submitted `eki` between `pr` and `pr'`: the destination's `lcp` client state
it checked, an answer of the chain during the stretch, has the MRENCLAVE of `eki`'s quote, and the
chain answered the submission of `eki`'s registration with the message ID `m`. -/
def Submitted (pr pr' : Prover) (eki : EnclaveKeyInfo) (m : MsgID) : Prop :=
  (∃ i h cs avr quote, During pr pr' i ∧ (env.chain i).clientState h = .ok (.lcp cs) ∧
    ias.parseAndValidateAVR eki.report = .ok avr ∧ avr.quote = .ok quote ∧
    cs.mrenclave = quote.mrenclave) ∧
  ∃ l, During pr pr' l ∧ Registration cfg env eki m l

end Registration

theorem Submitted.of_grows_left {a b c : Prover} {k : EnclaveKeyInfo} {m : MsgID} (hg : a.Grows b)
    (h : Submitted cfg ias env b c k m) : Submitted cfg ias env a c k m :=
  ⟨h.1.imp fun _ ⟨h, cs, avr, q, hi, hrest⟩ => ⟨h, cs, avr, q, hi.of_grows_left hg, hrest⟩,
    h.2.imp fun _ ⟨hl, hr⟩ => ⟨hl.of_grows_left hg, hr⟩⟩

theorem Submitted.of_grows_right {a b c : Prover} {k : EnclaveKeyInfo} {m : MsgID}
    (h : Submitted cfg ias env a b k m) (hg : b.Grows c) : Submitted cfg ias env a c k m :=
  ⟨h.1.imp fun _ ⟨h, cs, avr, q, hi, hrest⟩ => ⟨h, cs, avr, q, hi.of_grows_right hg, hrest⟩,
    h.2.imp fun _ ⟨hl, hr⟩ => ⟨hl.of_grows_right hg, hr⟩⟩

theorem registerEnclaveKey_submitted (eki : EnclaveKeyInfo) (pr : Prover) :
    wp (registerEnclaveKey cfg ias env eki) (fun m pr' => Submitted cfg ias env pr pr' eki m)
      (fun _ _ => True) pr := by
  have hg₁ := (Quiet.ticks pr (Nat.le_succ pr.tick)).grows
  simp only [registerEnclaveKey, wp_bind, wp_request, wp_orThrowWrapped]
  rcases ias.verifyReport eki.report eki.signature eki.signingCert (env.clock pr.tick) with e | ⟨⟩
  · trivial
  dsimp only
  rcases hp : ias.parseAndValidateAVR eki.report with e | avr
  · trivial
  dsimp only
  rcases hq : avr.quote with e | quote
  · trivial
  dsimp only
  rcases ias.getEKAndOperator quote with e | ⟨_, op⟩
  · trivial
  dsimp only
  refine (wp.and (queryClientState_reads.framed _) (queryClientState_spec _)).mono
    (fun cs pr₁ ⟨h₁, i, h, hi, hcs⟩ => ?_) (fun _ _ _ => trivial)
  simp only [wp_ite, wp_bind, wp_throw, wp_pure]
  split
  · trivial
  rename_i hm
  refine ((operatorSignature_reads cs eki op).framed pr₁).mono (fun sig pr₂ h₂ => ?_)
    (fun _ _ _ => trivial)
  simp only [wp_request, wp_orThrow, wp_bind]
  rcases (env.chain pr₂.tick).address with e | signer
  · trivial
  dsimp only
  rcases hs : (env.chain (pr₂.tick + 1)).sendMsgs _ with e | ids
  · trivial
  have hg₂ : pr₂.Grows { pr₂ with tick := pr₂.tick + 1 + 1 } := (Quiet.ticks pr₂ (by omega)).grows
  have hg := hg₁.trans (h₁.grows.trans h₂.grows)
  dsimp only
  split
  · exact ⟨⟨i, h, cs, avr, quote, (hi.of_grows_left hg₁).of_grows_right (h₂.grows.trans hg₂), hcs, hp,
      hq, not_not.mp hm⟩, pr₂.tick + 1, ⟨Nat.le_trans hg.tick_le (Nat.le_succ _), Nat.lt_succ_self _⟩,
      _, signer, hs⟩
  · trivial

theorem registerEnclaveKey_spec (eki : EnclaveKeyInfo) (pr : Prover) :
    wp (registerEnclaveKey cfg ias env eki)
      (fun m pr' => pr.Quiet pr' ∧ Submitted cfg ias env pr pr' eki m) (fun _ => pr.Quiet) pr :=
  (wp.and ((registerEnclaveKey_reads eki).framed pr) (registerEnclaveKey_submitted eki pr)).mono
    (fun _ _ h => h) (fun _ _ h => h.1)

end Prover

end LcpRelay
