import Mathlib.Data.Finset.Card
import LcpRelay.Relay.Monad

/-!
# The enclave-key lifecycle of the relayer's `Prover`

`UpdateEKIfNeeded` and the functions it calls, from `relay/lcp.go`.  The key store's functions are
not among the sources: they are modelled from spec §4.3 on the two slots of `KeyStore`, each taking
one disk request that may fail and leave the store as it was.
-/

namespace LcpRelay

/-- The part of the relayer's `ProverConfig` the key lifecycle reads.  `operatorEnabled` is what
`IsOperatorEnabled()` answers and `counterpartyClientId` is `counterparty.Path().ClientID`. -/
structure ProverConfig where
  mrenclave : Bytes
  keyExpiration : UInt64
  allowedQuoteStatuses : List String
  allowedAdvisoryIds : List String
  elcClientId : String
  operatorEnabled : Bool
  counterpartyClientId : String

/-- `containsOperator`. -/
def containsOperator (operators : List Address) (operator : Address) : Bool :=
  operators.any (· == operator)

namespace Prover

variable (cfg : ProverConfig) (ias : IAS) (env : Env)

/-! ### The key store -/

/-- Modelled from spec §4.3: `saveFinalizedEnclaveKeyInfo` overwrites the finalized slot. -/
def saveFinalizedEnclaveKeyInfo (eki : EnclaveKeyInfo) : RelayM Unit := do
  logEvent (.saveFinalized eki)
  orThrow (← request env.disk)
  modify fun pr => { pr with store := { pr.store with finalized := some eki } }

/-- Modelled from spec §4.3: `saveUnfinalizedEnclaveKeyInfo` overwrites the unfinalized slot (the
spec's failure on an existing record is not modelled). -/
def saveUnfinalizedEnclaveKeyInfo (eki : EnclaveKeyInfo) (msgID : MsgID) : RelayM Unit := do
  logEvent (.saveUnfinalized eki msgID)
  orThrow (← request env.disk)
  modify fun pr => { pr with store := { pr.store with unfinalized := some (eki, msgID) } }

/-- Modelled from spec §4.3: `removeUnfinalizedEnclaveKeyInfo` clears the unfinalized slot. -/
def removeUnfinalizedEnclaveKeyInfo : RelayM Unit := do
  logEvent .removeUnfinalized
  orThrow (← request env.disk)
  modify fun pr => { pr with store := { pr.store with unfinalized := none } }

/-- Modelled from spec §4.3: `loadLastUnfinalizedEnclaveKey`, the unfinalized slot. -/
def loadLastUnfinalizedEnclaveKey : RelayM (Except Error (EnclaveKeyInfo × MsgID)) := do
  match ← request env.disk with
  | .error e => pure (.error (.external e))
  | .ok () => return match (← get).store.unfinalized with
    | some u => .ok u
    | none => .error .notFound

/-- Modelled from spec §4.3: `loadLastFinalizedEnclaveKey`, the key last saved as finalized. -/
def loadLastFinalizedEnclaveKey : RelayM (Except Error EnclaveKeyInfo) := do
  match ← request env.disk with
  | .error e => pure (.error (.external e))
  | .ok () => return match (← get).store.finalized with
    | some eki => .ok eki
    | none => .error .notFound

/-! ### Expiry, availability and finality -/

/-- `updateTime` in `checkEKIUpdateNeeded`: the attestation time advanced by half the key
expiration, `time.Duration(KeyExpiration) * time.Second / 2`. -/
def updateTime (eki : EnclaveKeyInfo) : GoTime :=
  (GoTime.unix (wrap64 eki.attestationTime.toNat)).add
    ((secondsDuration cfg.keyExpiration.toNat).tdiv 2)

/-- `checkEKIUpdateNeeded`: the key is past its update time, or the LCP service no longer
answers `EnclaveKey` for it. -/
def checkEKIUpdateNeeded (timestamp : GoTime) (eki : EnclaveKeyInfo) : RelayM Bool :=
  if timestamp.after (updateTime cfg eki) then pure true
  else do
    if ← request fun i => (env.lcp i).enclaveKey eki.enclaveKeyAddress then pure false
    else pure true

/-- `checkMsgStatus`: `(finalized, success)` of a submitted message. -/
def checkMsgStatus (msgID : MsgID) : RelayM (Bool × Bool) := do
  let lfHeight ← orThrow (← request fun i => (env.chain i).latestFinalizedHeight)
  let msgRes ← orThrow (← request fun i => (env.chain i).msgResult msgID)
  if msgRes.status then pure (msgRes.blockHeight.lte lfHeight, true)
  else pure (false, false)

/-- `pr.activeEnclaveKey`, dereferenced. -/
def activeKey : RelayM EnclaveKeyInfo := do
  match (← get).activeEnclaveKey with
  | some eki => pure eki
  | none => throw .nilDereference

/-! ### `loadEKIAndCheckUpdateNeeded` -/

/-- The load of `loadEKIAndCheckUpdateNeeded` with no key in memory: the unfinalized key, else the
finalized one; `false` when the store holds neither. -/
def loadEnclaveKeyIntoMemory : RelayM Bool := do
  match ← loadLastUnfinalizedEnclaveKey env with
  | .ok (eki, msgID) =>
    modify fun pr => { pr with activeEnclaveKey := some eki, unfinalizedMsgID := some msgID }
    pure true
  | .error .notFound =>
    match ← loadLastFinalizedEnclaveKey env with
    | .ok eki =>
      modify fun pr => { pr with activeEnclaveKey := some eki, unfinalizedMsgID := none }
      pure true
    | .error .notFound => pure false
    | .error e => throw e
  | .error e => throw e

/-- The pending registration is final: promote the key unless it must be replaced. -/
def promoteFinalized (now : GoTime) (eki : EnclaveKeyInfo) : RelayM Bool := do
  if ← checkEKIUpdateNeeded cfg env now eki then pure true
  else
    saveFinalizedEnclaveKeyInfo env eki
    removeUnfinalizedEnclaveKeyInfo env
    modify fun pr => { pr with unfinalizedMsgID := none }
    pure false

/-- `loadEKIAndCheckUpdateNeeded` with a key in memory. -/
def checkActiveEnclaveKey (now : GoTime) : RelayM Bool := do
  match (← get).unfinalizedMsgID with
  | none => checkEKIUpdateNeeded cfg env now (← activeKey)
  | some msgID =>
    match ← request fun i => (env.chain i).msgResult msgID with
    | .error _ =>
      removeUnfinalizedEnclaveKeyInfo env
      pure true
    | .ok _ =>
      let (finalized, success) ← checkMsgStatus env msgID
      if !success then
        removeUnfinalizedEnclaveKeyInfo env
        pure true
      else if finalized then promoteFinalized cfg env now (← activeKey)
      else checkEKIUpdateNeeded cfg env now (← activeKey)

/-- `loadEKIAndCheckUpdateNeeded`: whether a new key must be selected and registered. -/
def loadEKIAndCheckUpdateNeeded : RelayM Bool := do
  let now ← request env.clock
  match (← get).activeEnclaveKey with
  | some _ => checkActiveEnclaveKey cfg env now
  | none =>
    if ← loadEnclaveKeyIntoMemory env then checkActiveEnclaveKey cfg env now
    else pure true

/-! ### Selection and registration of a new key -/

/-- `validateISVEnclaveQuoteStatus`: `OK`, or a status the config allows. -/
def validateISVEnclaveQuoteStatus (s : String) : Bool :=
  s == QuoteOK || cfg.allowedQuoteStatuses.any (s == ·)

/-- `validateAdvisoryIDs`: no advisory ID outside the allowed set, by the cardinality of the set
difference (the `mapset` sets as finite sets). -/
def validateAdvisoryIDs (ids : List String) : Bool :=
  ids.isEmpty || (ids.toFinset \ cfg.allowedAdvisoryIds.toFinset).card == 0

/-- The loop of `selectNewEnclaveKey` over the candidates. -/
def selectFrom : List EnclaveKeyInfo → RelayM EnclaveKeyInfo
  | [] => throw .allKeysNotAllowed
  | eki :: rest => do
    orThrow (ias.verifyReport eki.report eki.signature eki.signingCert (← request env.clock))
    let avr ← orThrow (ias.parseAndValidateAVR eki.report)
    if ← checkEKIUpdateNeeded cfg env (← request env.clock) eki then selectFrom rest
    else if !validateISVEnclaveQuoteStatus cfg avr.isvEnclaveQuoteStatus then selectFrom rest
    else if !validateAdvisoryIDs cfg avr.advisoryIDs then selectFrom rest
    else pure eki

/-- `selectNewEnclaveKey`: the first available key that is attested, not due for update and
allowed by the config. -/
def selectNewEnclaveKey : RelayM EnclaveKeyInfo := do
  let keys ← orThrow (← request fun i => (env.lcp i).availableEnclaveKeys cfg.mrenclave)
  if keys.isEmpty then throw .noAvailableEnclaveKeys
  let eki ← selectFrom cfg ias env keys
  logEvent (.selected eki)
  pure eki

/-- The destination's `lcp` client state, as `registerEnclaveKey` queries and casts it. -/
def queryClientState : RelayM ClientState := do
  let height ← orThrow (← request fun i => (env.chain i).latestHeight)
  match ← orThrow (← request fun i => (env.chain i).clientState height) with
  | .lcp cs => pure cs
  | .other typeName => throw (.castClientState typeName)
  | .undecodable e => throw (.wrapped "failed to unpack client state" (.external e))

/-- The operator's signature that `registerEnclaveKey` adds when operators are enabled. -/
def operatorSignature (cs : ClientState) (eki : EnclaveKeyInfo) (expectedOperator : Address) :
    RelayM (Option Bytes) :=
  if cfg.operatorEnabled then do
    let operator ← orThrow (← request fun i => (env.signer i).address)
    if !containsOperator cs.operators operator then
      throw (.operatorNotIncluded cs.operators operator)
    if expectedOperator ≠ 0 ∧ operator ≠ expectedOperator then
      throw (.operatorMismatch expectedOperator operator)
    let sig ← orThrow (← request fun i => (env.signer i).sign eki.report)
    pure (some sig)
  else pure none

/-- `registerEnclaveKey`: submit the key's report to the destination's `lcp` client. -/
def registerEnclaveKey (eki : EnclaveKeyInfo) : RelayM MsgID := do
  let t ← request env.clock
  orThrowWrapped "failed to verify AVR signature"
    (ias.verifyReport eki.report eki.signature eki.signingCert t)
  let avr ← orThrowWrapped "failed to parse and validate AVR" (ias.parseAndValidateAVR eki.report)
  let quote ← orThrowWrapped "failed to get quote from AVR" avr.quote
  let (_, expectedOperator) ←
    orThrowWrapped "failed to get EK and operator" (ias.getEKAndOperator quote)
  let cs ← queryClientState env
  if cs.mrenclave ≠ quote.mrenclave then throw (.mrenclaveMismatch cs.mrenclave quote.mrenclave)
  let sig ← operatorSignature cfg env cs eki expectedOperator
  let signer ← orThrow (← request fun i => (env.chain i).address)
  let msg : MsgUpdateClient :=
    ⟨cfg.counterpartyClientId, .registerEnclaveKey ⟨eki.report, eki.signature, eki.signingCert, sig⟩,
      signer⟩
  let ids ← orThrow (← request fun i => (env.chain i).sendMsgs [msg])
  match ids with
  | [msgID] => pure msgID
  | _ => throw (.unexpectedNumberOfMsgIDs ids)

/-! ### `UpdateEKIfNeeded` -/

/-- The end of `UpdateEKIfNeeded`: probe the registration, persist the key, set it in memory. -/
def persistNewKey (eki : EnclaveKeyInfo) (msgID : MsgID) : RelayM Unit := do
  let (finalized, success) ← wrapErr "failed to call checkMsgStatus" (checkMsgStatus env msgID)
  if !success then throw (.msgExecutionFailed msgID)
  if finalized then
    saveFinalizedEnclaveKeyInfo env eki
    modify fun pr => { pr with activeEnclaveKey := some eki }
  else
    saveUnfinalizedEnclaveKeyInfo env eki msgID
    modify fun pr => { pr with activeEnclaveKey := some eki, unfinalizedMsgID := some msgID }

/-- The rotation of `UpdateEKIfNeeded`: clear memory, select, register and persist a new key. -/
def rotate : RelayM Unit := do
  modify fun pr => { pr with activeEnclaveKey := none, unfinalizedMsgID := none }
  let eki ← wrapErr "failed to call selectNewEnclaveKey" (selectNewEnclaveKey cfg ias env)
  let msgID ← wrapErr "failed to call registerEnclaveKey" (registerEnclaveKey cfg ias env eki)
  persistNewKey env eki msgID

/-- `UpdateEKIfNeeded`. -/
def updateEKIfNeeded : RelayM Unit := do
  if ← wrapErr "failed to call loadEKIAndCheckUpdateNeeded" (loadEKIAndCheckUpdateNeeded cfg env)
  then rotate cfg ias env
  else pure ()

end Prover

end LcpRelay
