import LcpRelay.Relay.Run

/-!
# The prover's operations

`CreateInitialLightClientState`, `SetupHeadersForUpdate`, `ProveState`, `updateELC`, `doUpdateELC`
and `activateClient`.  Three of them call `UpdateEKIfNeeded` first and read the key only after it
returned nil; `ProveState` reads it without that call and on an empty memory dereferences nil.
-/

namespace LcpRelay

/-- The codecs of the ELC messages (`lcptypes` ABI and the relayer's proto codec) as the relayer
calls them. -/
structure ELCCodec where
  /-- `EthABIDecodeHeaderedMessage`, whose result `SetupHeadersForUpdate` only checks. -/
  decodeHeaderedMessage : Bytes → Except String Unit
  /-- `EthABIDecodeHeaderedMessage` and `GetVerifyMembershipMessage`: the proven height. -/
  verifyMembershipHeight : Bytes → Except String Height
  /-- `EthABIEncodeCommitmentProof` of a message, its signer and its signature. -/
  encodeCommitmentProof : Bytes → Bytes → Bytes → Except String Bytes
  /-- `EthABIDecodeHeaderedProxyMessage`. -/
  decodeHeaderedProxyMessage : Bytes → Except String Bytes
  /-- `GetUpdateStateProxyMessage` of a decoded proxy message. -/
  updateStateProxyMessage : Bytes → Except String Bytes
  /-- `UpdateClientMessage.ValidateBasic` of a proxy message and its signatures. -/
  validateBasic : Bytes → List Bytes → Except String Unit
  /-- `UnpackAny` of a packed client state, and its `GetLatestHeight`. -/
  unpackLatestHeight : Bytes → Except String Height

namespace Prover

variable (cfg : ProverConfig) (ias : IAS) (codec : ELCCodec) (env : Env)

/-- `CreateInitialLightClientState`: create the ELC client with a key the LCP service offers, and
return the destination's `lcp` client state (its consensus state is empty). -/
def createInitialLightClientState (height : Height) : RelayM ClientState := do
  let tmpEKI ← selectNewEnclaveKey cfg ias env
  let (originClientState, originConsensusState) ←
    orThrow (← request fun i => (env.origin i).createInitialLightClientState height)
  let clientId ← orThrow (← request fun i =>
    (env.lcp i).createClient originClientState originConsensusState tmpEKI.enclaveKeyAddress)
  if cfg.elcClientId ≠ clientId then throw (.elcClientIdMismatch clientId cfg.elcClientId)
  pure ⟨⟨0, 0⟩, cfg.mrenclave, cfg.keyExpiration, cfg.allowedQuoteStatuses,
    cfg.allowedAdvisoryIds, []⟩

/-- The loop over headers of `SetupHeadersForUpdate` and `updateELC`: one `UpdateClient` request
per header, signed by the active enclave key, with `check` applied to each response's message. -/
def updateClientEach (clientId : String) (includeState : Bool)
    (check : Bytes → Except String Unit) : List Bytes → RelayM (List UpdateClientResponse)
  | [] => pure []
  | header :: headers => do
    let signer := (← activeKey).enclaveKeyAddress
    let res ← orThrow (← request fun i =>
      (env.lcp i).updateClient clientId header includeState signer)
    orThrow (check res.message)
    let rest ← updateClientEach clientId includeState check headers
    pure (res :: rest)

/-- `SetupHeadersForUpdate`: the LCP service's signed updates for the headers the origin prover
sets up to reach `latestFinalizedHeader`. -/
def setupHeadersForUpdate (latestFinalizedHeader : Height) :
    RelayM (List UpdateClientResponse) := do
  updateEKIfNeeded cfg ias env
  let headers ← orThrow (← request fun i =>
    (env.origin i).setupHeadersForUpdate latestFinalizedHeader)
  if headers.isEmpty then return []
  updateClientEach env cfg.elcClientId false codec.decodeHeaderedMessage headers

/-- `ProveState`: the LCP service's signed commitment proof that `path` holds `value` on the
origin chain, and the height it is proven at. -/
def proveState (path : String) (value : Bytes) : RelayM (Bytes × Height) := do
  let (proof, proofHeight) ← orThrow (← request fun i => (env.origin i).proveState path value)
  let signer := (← activeKey).enclaveKeyAddress
  let res ← orThrow (← request fun i =>
    (env.lcp i).verifyMembership cfg.elcClientId path value proofHeight proof signer)
  let height ← orThrow (codec.verifyMembershipHeight res.message)
  let cp ← orThrow (codec.encodeCommitmentProof res.message res.signer res.signature)
  pure (cp, height)

/-- `updateELC`: bring the ELC client `elcClientID` up to the origin's latest finalized header. -/
def updateELC (elcClientID : String) (includeState : Bool) :
    RelayM (List UpdateClientResponse) := do
  let res ← orThrow (← request fun i => (env.lcp i).client elcClientID)
  let latestHeader ← orThrow (← request fun i => (env.origin i).latestFinalizedHeader)
  let latestHeight ← orThrow (codec.unpackLatestHeight res)
  if !latestHeight.lt latestHeader then return []
  let headers ← orThrow (← request fun i => (env.origin i).setupHeadersForUpdate latestHeader)
  if headers.isEmpty then return []
  updateClientEach env elcClientID includeState (fun _ => .ok ()) headers

/-- The loop of `doUpdateELC`: decode the state update of each response, naming its index on
error. -/
def decodeUpdates : Nat → List UpdateClientResponse → RelayM (List Bytes)
  | _, [] => pure []
  | i, u :: us => do
    let commitment ← orThrowWrapped ("failed EthABIDecodeHeaderedProxyMessage: index=" ++ toString i)
      (codec.decodeHeaderedProxyMessage u.message)
    let msg ← orThrowWrapped ("failed GetUpdateStateProxyMessage: index=" ++ toString i)
      (codec.updateStateProxyMessage commitment)
    let rest ← decodeUpdates (i + 1) us
    pure (msg :: rest)

/-- `doUpdateELC`: update the ELC client and return the state updates it made. -/
def doUpdateELC (elcClientID : String) : RelayM (List Bytes) := do
  updateEKIfNeeded cfg ias env
  let updates ← updateELC codec env elcClientID false
  if updates.isEmpty then return []
  decodeUpdates codec 0 updates

/-- The loop of `activateClient`: one `MsgUpdateClient` to the client `clientId` per update, each
checked by `ValidateBasic`. -/
def updateClientMsgs (clientId : String) (signer : Address) :
    List UpdateClientResponse → RelayM (List MsgUpdateClient)
  | [] => pure []
  | u :: us => do
    orThrow (codec.validateBasic u.message [u.signature])
    let rest ← updateClientMsgs clientId signer us
    pure (⟨clientId, .updateClient u.message [u.signature], signer⟩ :: rest)

/-- `activateClient`: bring the ELC client up to date, its state included, and submit the updates
to the destination's `lcp` client `clientId`. -/
def activateClient (clientId : String) : RelayM Unit := do
  updateEKIfNeeded cfg ias env
  let updates ← updateELC codec env cfg.elcClientId true
  let signer ← orThrow (← request fun i => (env.chain i).address)
  let msgs ← updateClientMsgs codec clientId signer updates
  let _ ← orThrow (← request fun i => (env.chain i).sendMsgs msgs)

end Prover

/-- The prover's operations, with their arguments. -/
inductive Operation where
  | createInitialLightClientState (height : Height)
  | setupHeadersForUpdate (latestFinalizedHeader : Height)
  | proveState (path : String) (value : Bytes)
  | updateEKIfNeeded
  | doUpdateELC (elcClientID : String)
  | activateClient (clientId : String)

namespace Operation

open Prover

variable (cfg : ProverConfig) (ias : IAS) (codec : ELCCodec) (env : Env)

/-- One call of an operation, its result dropped. -/
def run : Operation → RelayM Unit
  | .createInitialLightClientState h => do
    let _ ← Prover.createInitialLightClientState cfg ias env h
  | .setupHeadersForUpdate h => do
    let _ ← Prover.setupHeadersForUpdate cfg ias codec env h
  | .proveState path value => do
    let _ ← Prover.proveState cfg codec env path value
  | .updateEKIfNeeded => Prover.updateEKIfNeeded cfg ias env
  | .doUpdateELC elcClientID => do
    let _ ← Prover.doUpdateELC cfg ias codec env elcClientID
  | .activateClient clientId => Prover.activateClient cfg ias codec env clientId

end Operation

namespace Prover

variable {cfg : ProverConfig} {ias : IAS} {codec : ELCCodec} {env : Env}

/-! ### What the operations read -/

theorem createInitialLightClientState_reads (height : Height) :
    Reads false (createInitialLightClientState cfg ias env height) :=
  .bind selectNewEnclaveKey_reads fun _ => .bind (.request _) fun r => .bind (.orThrow r) fun _ =>
    .bind (.request _) fun r => .bind (.orThrow r) fun _ => .guard _ (.pure _) nofun

theorem updateClientEach_reads (clientId : String) (includeState : Bool)
    (check : Bytes → Except String Unit) :
    ∀ headers, Reads true (updateClientEach env clientId includeState check headers)
  | [] => .pure _
  | _ :: headers =>
    .bind (.activeKey rfl) fun _ => .bind (.request _) fun r => .bind (.orThrow r) fun _ =>
      .bind (.orThrow _) fun _ =>
        .bind (updateClientEach_reads clientId includeState check headers) fun _ => .pure _

theorem proveState_reads (path : String) (value : Bytes) :
    Reads true (proveState cfg codec env path value) :=
  .bind (.request _) fun r => .bind (.orThrow r) fun _ => .bind (.activeKey rfl) fun _ =>
    .bind (.request _) fun r => .bind (.orThrow r) fun _ => .bind (.orThrow _) fun _ =>
      .bind (.orThrow _) fun _ => .pure _

theorem updateELC_reads (elcClientID : String) (includeState : Bool) :
    Reads true (updateELC codec env elcClientID includeState) :=
  .bind (.request _) fun r => .bind (.orThrow r) fun _ => .bind (.request _) fun r =>
    .bind (.orThrow r) fun _ => .bind (.orThrow _) fun _ => .exit _ _ <|
      .bind (.request _) fun r => .bind (.orThrow r) fun _ =>
        .exit _ _ (updateClientEach_reads _ _ _ _)

theorem decodeUpdates_reads : ∀ i updates, Reads false (decodeUpdates codec i updates)
  | _, [] => .pure _
  | i, _ :: us =>
    .bind (.orThrowWrapped _ _) fun _ => .bind (.orThrowWrapped _ _) fun _ =>
      .bind (decodeUpdates_reads (i + 1) us) fun _ => .pure _

theorem updateClientMsgs_reads (clientId : String) (signer : Address) :
    ∀ updates, Reads false (updateClientMsgs codec clientId signer updates)
  | [] => .pure _
  | _ :: us =>
    .bind (.orThrow _) fun _ => .bind (updateClientMsgs_reads clientId signer us) fun _ => .pure _

section

variable (cfg ias env)

/-- `x` calls `UpdateEKIfNeeded` and, once that returned nil, only reads. -/
def ReadsAfterUpdate (x : RelayM α) : Prop :=
  ∃ f : PUnit → RelayM α, x = updateEKIfNeeded cfg ias env >>= f ∧ ∀ u, Reads true (f u)

end

theorem ReadsAfterUpdate.bind {x : RelayM β} {g : β → RelayM α}
    (h : ReadsAfterUpdate cfg ias env x) (hg : ∀ b, Reads true (g b)) :
    ReadsAfterUpdate cfg ias env (x >>= g) := by
  obtain ⟨f, rfl, hf⟩ := h
  exact ⟨_, bind_assoc _ _ _, fun u => .bind (hf u) hg⟩

theorem setupHeadersForUpdate_readsAfterUpdate (h : Height) :
    ReadsAfterUpdate cfg ias env (setupHeadersForUpdate cfg ias codec env h) :=
  ⟨_, rfl, fun _ => .bind (.request _) fun r => .bind (.orThrow r) fun _ =>
    .exit _ _ (updateClientEach_reads _ _ _ _)⟩

theorem doUpdateELC_readsAfterUpdate (elcClientID : String) :
    ReadsAfterUpdate cfg ias env (doUpdateELC cfg ias codec env elcClientID) :=
  ⟨_, rfl, fun _ => .bind (updateELC_reads _ _) fun _ => .exit _ _ (decodeUpdates_reads _ _).mono⟩

theorem activateClient_readsAfterUpdate (clientId : String) :
    ReadsAfterUpdate cfg ias env (activateClient cfg ias codec env clientId) :=
  ⟨_, rfl, fun _ => .bind (updateELC_reads _ _) fun _ => .bind (.request _) fun r =>
    .bind (.orThrow r) fun _ => .bind (updateClientMsgs_reads _ _ _).mono fun _ =>
      .bind (.request _) fun r => .bind (.orThrow r) fun _ => .pure _⟩

/-! ### Nil dereferences -/

/-- No error of `x` is a nil dereference. -/
def NilFree (x : RelayM α) : Prop :=
  ∀ pr, wp x (fun _ _ => True) (fun e _ => e ≠ .nilDereference) pr

/-- From any state holding the key `k`, `x` keeps it, and no error of `x` is a nil dereference. -/
def KeyKept (x : RelayM α) : Prop :=
  ∀ k pr, pr.activeEnclaveKey = some k →
    wp x (fun _ pr' => pr'.activeEnclaveKey = some k) (fun e _ => e ≠ .nilDereference) pr

namespace NilFree

theorem modify (f : Prover → Prover) : NilFree (modify f : RelayM Unit) := fun _ => trivial

theorem bind {x : RelayM β} {f : β → RelayM α} (hx : NilFree x) (hf : ∀ b, NilFree (f b)) :
    NilFree (x >>= f) := fun pr => by
  rw [wp_bind]; exact (hx pr).mono (fun b pr' _ => hf b pr') (fun _ _ h => h)

theorem ite (c : Prop) [Decidable c] {x y : RelayM α} (hx : NilFree x) (hy : NilFree y) :
    NilFree (if c then x else y) := by
  split <;> assumption

/-- Go's `if c { return e }` before the rest `k` of the function. -/
theorem guard (c : Prop) [Decidable c] {e : Error} {k : PUnit → RelayM α} (hk : NilFree (k ⟨⟩))
    (he : e ≠ .nilDereference) :
    NilFree (if c then MonadExcept.throw e >>= k else Pure.pure ⟨⟩ >>= k) :=
  .ite c (.bind (fun _ => he) fun _ => hk) (.bind (fun _ => trivial) fun _ => hk)

/-- The panic passes `fmt.Errorf` unchanged: a wrapped computation is nil-free when it is. -/
theorem wrapErr (context : String) {x : RelayM α} (h : NilFree x) :
    NilFree (LcpRelay.wrapErr context x) := fun pr => by
  rw [wp_wrapErr]; exact (h pr).mono (fun _ _ _ => trivial) (fun _ _ he => by simpa using he)

end NilFree

theorem Reads.nilFree {x : RelayM α} (h : Reads false x) : NilFree x := by
  induction h with
  | pure _ => exact fun _ => trivial
  | throw he => exact fun _ => he
  | request _ => exact fun _ => trivial
  | logEvent _ => exact fun _ => trivial
  | activeKey h => exact absurd h Bool.false_ne_true
  | bind _ _ hx hf => exact .bind hx hf

namespace KeyKept

theorem pure (a : α) : KeyKept (Pure.pure a : RelayM α) := fun _ _ hk => hk

theorem request (f : Nat → α) : KeyKept (LcpRelay.request f) := fun _ _ hk => hk

theorem get : KeyKept (get : RelayM Prover) := fun _ _ hk => hk

theorem modify {f : Prover → Prover} (hf : ∀ pr, (f pr).activeEnclaveKey = pr.activeEnclaveKey) :
    KeyKept (modify f : RelayM Unit) := fun _ pr hk => (hf pr).trans hk

theorem bind {x : RelayM β} {f : β → RelayM α} (hx : KeyKept x) (hf : ∀ b, KeyKept (f b)) :
    KeyKept (x >>= f) := fun k pr hk => by
  rw [wp_bind]; exact (hx k pr hk).mono (fun b pr' h => hf b k pr' h) (fun _ _ h => h)

theorem ite (c : Prop) [Decidable c] {x y : RelayM α} (hx : KeyKept x) (hy : KeyKept y) :
    KeyKept (if c then x else y) := by
  split <;> assumption

end KeyKept

theorem Reads.keyKept {readsKey : Bool} {x : RelayM α} (h : Reads readsKey x) : KeyKept x := by
  induction h with
  | pure a => exact .pure a
  | throw he => exact fun _ _ _ => he
  | request f => exact .request f
  | logEvent _ => exact fun _ _ hk => hk
  | activeKey _ => exact fun _ _ hk => by rw [wp_activeKey, hk]
  | bind _ _ hx hf => exact .bind hx hf

/-! ### `UpdateEKIfNeeded` never dereferences nil -/

theorem saveFinalizedEnclaveKeyInfo_keyKept (eki : EnclaveKeyInfo) :
    KeyKept (saveFinalizedEnclaveKeyInfo env eki) := fun _ pr hk => by
  rw [wp_saveFinalizedEnclaveKeyInfo]; cases env.disk pr.tick <;> simp [hk]

theorem removeUnfinalizedEnclaveKeyInfo_keyKept : KeyKept (removeUnfinalizedEnclaveKeyInfo env) :=
  fun _ pr hk => by rw [wp_removeUnfinalizedEnclaveKeyInfo]; cases env.disk pr.tick <;> simp [hk]

theorem promoteFinalized_keyKept (now : GoTime) (eki : EnclaveKeyInfo) :
    KeyKept (promoteFinalized cfg env now eki) :=
  .bind (checkEKIUpdateNeeded_reads _ _).keyKept fun _ => .ite _ (.pure _) <|
    .bind (saveFinalizedEnclaveKeyInfo_keyKept _) fun _ =>
      .bind removeUnfinalizedEnclaveKeyInfo_keyKept fun _ =>
        .bind (.modify fun _ => rfl) fun _ => .pure _

/-- With a key in memory, the check reads it only while it is there. -/
theorem checkActiveEnclaveKey_keyKept (now : GoTime) :
    KeyKept (checkActiveEnclaveKey cfg env now) :=
  .bind .get fun pr => match pr.unfinalizedMsgID with
    | none => (Reads.bind (.activeKey rfl) fun _ => (checkEKIUpdateNeeded_reads _ _).mono).keyKept
    | some _ => .bind (.request _) fun
      | .error _ => .bind removeUnfinalizedEnclaveKeyInfo_keyKept fun _ => .pure _
      | .ok _ => .bind (checkMsgStatus_reads _).keyKept fun (_, _) =>
        .ite _ (.bind removeUnfinalizedEnclaveKeyInfo_keyKept fun _ => .pure _) <|
          .ite _ (.bind (Reads.activeKey rfl).keyKept fun _ => promoteFinalized_keyKept _ _)
            (Reads.bind (.activeKey rfl) fun _ => (checkEKIUpdateNeeded_reads _ _).mono).keyKept

/-- Loading memory from the store, when it reports a key, leaves one in memory. -/
theorem loadEnclaveKeyIntoMemory_loads (pr : Prover) :
    wp (loadEnclaveKeyIntoMemory env) (fun b pr' => b = true → ∃ k, pr'.activeEnclaveKey = some k)
      (fun e _ => e ≠ .nilDereference) pr := by
  simp only [loadEnclaveKeyIntoMemory, wp_bind, wp_loadLastUnfinalizedEnclaveKey]
  rcases env.disk pr.tick with e | ⟨⟩
  · nofun
  rcases pr.store.unfinalized with _ | ⟨k, m⟩
  · simp only [wp_bind, wp_loadLastFinalizedEnclaveKey]
    rcases env.disk (pr.tick + 1) with e | ⟨⟩
    · nofun
    rcases pr.store.finalized with _ | k
    · nofun
    · exact fun _ => ⟨k, rfl⟩
  · exact fun _ => ⟨k, rfl⟩

theorem loadEKIAndCheckUpdateNeeded_nilFree : NilFree (loadEKIAndCheckUpdateNeeded cfg env) :=
    fun pr => by
  simp only [loadEKIAndCheckUpdateNeeded, wp_bind, wp_request, wp_get]
  rcases pr.activeEnclaveKey with _ | k <;> dsimp only
  · rw [wp_bind]
    refine (loadEnclaveKeyIntoMemory_loads _).mono (fun b pr₁ h => ?_) (fun _ _ h => h)
    cases b
    · trivial
    · obtain ⟨k, hk⟩ := h rfl
      exact (checkActiveEnclaveKey_keyKept _ k pr₁ hk).mono (fun _ _ _ => trivial) (fun _ _ h => h)
  · exact (checkActiveEnclaveKey_keyKept _ k _ rfl).mono (fun _ _ _ => trivial) (fun _ _ h => h)

theorem saveFinalizedEnclaveKeyInfo_nilFree (eki : EnclaveKeyInfo) :
    NilFree (saveFinalizedEnclaveKeyInfo env eki) := fun pr => by
  rw [wp_saveFinalizedEnclaveKeyInfo]; cases env.disk pr.tick <;> simp

theorem saveUnfinalizedEnclaveKeyInfo_nilFree (eki : EnclaveKeyInfo) (msgID : MsgID) :
    NilFree (saveUnfinalizedEnclaveKeyInfo env eki msgID) := fun pr => by
  rw [wp_saveUnfinalizedEnclaveKeyInfo]; cases env.disk pr.tick <;> simp

theorem persistNewKey_nilFree (eki : EnclaveKeyInfo) (msgID : MsgID) :
    NilFree (persistNewKey env eki msgID) :=
  .bind (.wrapErr _ (checkMsgStatus_reads _).nilFree) fun (_, _) => .guard _
    (.ite _ (.bind (saveFinalizedEnclaveKeyInfo_nilFree _) fun _ => .modify _)
      (.bind (saveUnfinalizedEnclaveKeyInfo_nilFree _ _) fun _ => .modify _)) nofun

theorem updateEKIfNeeded_nilFree : NilFree (updateEKIfNeeded cfg ias env) :=
  .bind (.wrapErr _ loadEKIAndCheckUpdateNeeded_nilFree) fun _ =>
    .ite _ (.bind (.modify _) fun _ => .bind (.wrapErr _ selectNewEnclaveKey_reads.nilFree) fun _ =>
      .bind (.wrapErr _ (registerEnclaveKey_reads _).nilFree) fun _ => persistNewKey_nilFree _ _)
      (Reads.pure _).nilFree

/-- After `UpdateEKIfNeeded` returned nil, a computation that reads the key finds it. -/
theorem NilFree.updateEKIfNeeded_bind {f : Unit → RelayM α} (hf : ∀ u, KeyKept (f u)) :
    NilFree (updateEKIfNeeded cfg ias env >>= f) := fun pr => by
  rw [wp_bind]
  refine (wp.and (@updateEKIfNeeded_spec cfg ias env pr) (updateEKIfNeeded_nilFree pr)).mono
    (fun u pr' h => ?_) (fun _ _ h => h.2)
  obtain ⟨k, hk, -⟩ := h.1.2.2.active
  exact (hf u k pr' hk).mono (fun _ _ _ => trivial) (fun _ _ h => h)

theorem ReadsAfterUpdate.nilFree {x : RelayM α} (h : ReadsAfterUpdate cfg ias env x) :
    NilFree x := by
  obtain ⟨f, rfl, hf⟩ := h
  exact NilFree.updateEKIfNeeded_bind fun u => (hf u).keyKept

end Prover

namespace Operation

open Prover

variable {cfg : ProverConfig} {ias : IAS} {codec : ELCCodec} {env : Env}

/-- Only `ProveState` can dereference a nil active key: from every state, no other operation fails
with the panic, `UpdateEKIfNeeded` included, and whatever it calls. -/
theorem nilDereference_only_proveState (op : Operation) (pr : Prover) :
    wp (op.run cfg ias codec env) (fun _ _ => True)
      (fun e _ => e = .nilDereference → ∃ path value, op = .proveState path value) pr := by
  have nilFree : NilFree (op.run cfg ias codec env) → wp (op.run cfg ias codec env) (fun _ _ => True)
      (fun e _ => e = .nilDereference → ∃ path value, op = .proveState path value) pr :=
    fun h => (h pr).mono (fun _ _ _ => trivial) (fun _ _ he h => absurd h he)
  cases op with
  | proveState path value =>
    exact wp.of_forall (fun _ _ => trivial) (fun _ _ _ => ⟨path, value, rfl⟩)
  | updateEKIfNeeded => exact nilFree updateEKIfNeeded_nilFree
  | createInitialLightClientState h =>
    exact nilFree (Reads.bind (createInitialLightClientState_reads h) fun _ => .pure _).nilFree
  | setupHeadersForUpdate h =>
    exact nilFree ((setupHeadersForUpdate_readsAfterUpdate h).bind fun _ => .pure _).nilFree
  | doUpdateELC elcClientID =>
    exact nilFree ((doUpdateELC_readsAfterUpdate elcClientID).bind fun _ => .pure _).nilFree
  | activateClient clientId => exact nilFree (activateClient_readsAfterUpdate clientId).nilFree

/-- A codec that decodes and encodes every message. -/
def sampleCodec : ELCCodec where
  decodeHeaderedMessage _ := .ok ()
  verifyMembershipHeight _ := .ok ⟨0, 1⟩
  encodeCommitmentProof m _ _ := .ok m
  decodeHeaderedProxyMessage m := .ok m
  updateStateProxyMessage m := .ok m
  validateBasic _ _ := .ok ()
  unpackLatestHeight _ := .ok ⟨0, 0⟩

/-- Key 1 before request 15 and no key from then on; registrations are final at once. -/
def lapseEnv : Env :=
  sampleEnv (fun i => if i < 15 then [sampleKey 1] else []) (fun i a => decide (i < 15) && a == 1)
    (fun _ => 100)

/-- `ProveState` dereferences a nil active key on a prover that has just started, and on one
whose rotation cleared memory and then failed: the first call of the run keeps key 1, the second
finds it unknown to the LCP service, clears memory, and finds no key to select. -/
theorem proveState_reads_nil_key :
    (∃ pr, run sampleConfig sampleIAS sampleCodec lapseEnv (.proveState "path" [])
        (start ⟨none, none⟩) = .error .nilDereference pr) ∧
      let pr₁ := (call sampleConfig sampleIAS lapseEnv (start ⟨none, none⟩)).2
      let r₂ := call sampleConfig sampleIAS lapseEnv pr₁
      pr₁.activeEnclaveKey = some (sampleKey 1) ∧
        r₂.1 = .error (.wrapped "failed to call selectNewEnclaveKey" .noAvailableEnclaveKeys) ∧
        ∃ pr, run sampleConfig sampleIAS sampleCodec lapseEnv (.proveState "path" []) r₂.2 =
          .error .nilDereference pr :=
  ⟨⟨_, rfl⟩, rfl, rfl, _, rfl⟩

end Operation

end LcpRelay
