import LcpRelay.Types

/-!
# The `lcp` light client on the destination chain

`VerifyClientMessage` and `UpdateState` from `light-clients/lcp/types/update.go`, over a store of
the client state, the consensus states by height and the enclave-key records by address, each
record the `uint64` of its key's expiry in Unix seconds.  A `panic` in `UpdateState` is an error;
the ABI decoding of ELC messages and the signature check are parameters (`ELCVerifier`).
-/

namespace LcpRelay

namespace Client

/-- A consensus state of the `lcp` client. -/
structure ConsensusState where
  stateId : Bytes
  timestamp : UInt64

/-- The client's store: its client state, its consensus states by height, and its enclave-key
records by address. -/
structure ClientStore where
  clientState : ClientState
  consensusStates : Height → Option ConsensusState
  enclaveKeys : Address → Option UInt64

/-- What `GetELCMessage` decodes from an update's ELC message. -/
structure ELCMessage where
  prevHeight : Option Height
  prevStateID : Option Bytes
  postHeight : Height
  postStateID : Bytes
  timestamp : UInt64
  emittedStates : List Bytes
  /-- `Context.Validate` at a block time. -/
  validateContext : GoTime → Except String Unit

/-- The decoding and signature functions the client calls: `GetELCMessage`,
`VerifySignatureWithSignBytes` and `common.BytesToAddress`. -/
structure ELCVerifier where
  getELCMessage : Bytes → Except String ELCMessage
  verifySignature : Bytes → Bytes → Address → Except String Unit
  bytesToAddress : Bytes → Address

/-- The client message that applies a state update (`lcptypes.UpdateClientMessage`). -/
structure UpdateClientMessage where
  elcMessage : Bytes
  signer : Bytes
  signature : Bytes

/-- A client message of the `lcp` client. -/
inductive Message where
  | updateClient (m : UpdateClientMessage)
  | registerEnclaveKey (m : RegisterEnclaveKeyMessage)

/-- An error of `VerifyClientMessage` or a panic of `UpdateState`, one per place the code
raises it. -/
inductive ClientError where
  | decode (err : String)
  | newStateNil
  | prevNil
  | consensusStateNotFound (height : Height)
  | unexpectedStateID (expected actual : Bytes)
  | signerNotFound (signer : Address)
  | invalidSignature (err : String)
  | invalidContext (err : String)
  | invalidMessage (err : String)
  | invalidAVR (err : String)
  | advisoryIDsNotEmpty (ids : List String)
  | disallowedQuoteStatus (allowed : List String) (actual : String)
  | disallowedAdvisoryIDs (allowed actual : List String)
  | quote (err : String)
  | mrenclaveMismatch (expected actual : Bytes)
  | enclaveKeyAddress (err : String)
  | enclaveKeyExists (addr : Address) (expected actual : GoTime)
deriving DecidableEq

end Client

namespace ClientState

/-- `isAllowedStatus`: `OK`, or a status the client state allows. -/
def isAllowedStatus (cs : ClientState) (status : String) : Bool :=
  status == QuoteOK || cs.allowedQuoteStatuses.any (status == ·)

/-- `isAllowedAdvisoryIDs`: every advisory ID is allowed (`Set.Contains` of all of them). -/
def isAllowedAdvisoryIDs (cs : ClientState) (advIDs : List String) : Bool :=
  advIDs.isEmpty || advIDs.all (cs.allowedAdvisoryIds.contains ·)

/-- `getKeyExpiration`: `time.Duration(KeyExpiration) * time.Second`. -/
def getKeyExpiration (cs : ClientState) : Int := secondsDuration cs.keyExpiration.toNat

/-- The quote-status check of `verifyRegisterEnclaveKey`: an `OK` status must come without
advisory IDs; any other status and its advisory IDs must be allowed. -/
def checkQuoteStatus (cs : ClientState) (avr : AVR) : Except Client.ClientError Unit :=
  if avr.isvEnclaveQuoteStatus == QuoteOK then
    if avr.advisoryIDs.length ≠ 0 then throw (.advisoryIDsNotEmpty avr.advisoryIDs)
    else pure ()
  else if !cs.isAllowedStatus avr.isvEnclaveQuoteStatus then
    throw (.disallowedQuoteStatus cs.allowedQuoteStatuses avr.isvEnclaveQuoteStatus)
  else if !cs.isAllowedAdvisoryIDs avr.advisoryIDs then
    throw (.disallowedAdvisoryIDs cs.allowedAdvisoryIds avr.advisoryIDs)
  else pure ()

theorem checkQuoteStatus_eq_ok (cs : ClientState) (avr : AVR) :
    cs.checkQuoteStatus avr = .ok () ↔
      if avr.isvEnclaveQuoteStatus = QuoteOK then avr.advisoryIDs = []
      else cs.isAllowedStatus avr.isvEnclaveQuoteStatus = true ∧
        cs.isAllowedAdvisoryIDs avr.advisoryIDs = true := by
  unfold checkQuoteStatus
  by_cases hs : avr.isvEnclaveQuoteStatus = QuoteOK
  · simp only [hs, beq_self_eq_true, if_true, ne_eq, List.length_eq_zero]
    split <;> simp_all [throw, throwThe, MonadExceptOf.throw, pure, Except.pure]
  · simp only [beq_iff_eq, hs, if_false]
    split_ifs <;> simp_all [throw, throwThe, MonadExceptOf.throw, pure, Except.pure]

end ClientState

namespace Client

namespace ClientStore

/-- `Contains`: the store holds a record for `key`. -/
def contains (s : ClientStore) (key : Address) : Bool := (s.enclaveKeys key).isSome

/-- `GetEnclaveKeyExpiredAt`: the expiry of `key`'s record, as `time.Unix(int64(v), 0)`. -/
def getEnclaveKeyExpiredAt (s : ClientStore) (key : Address) : Option GoTime :=
  (s.enclaveKeys key).map fun v => GoTime.unix (wrap64 v.toNat)

/-- `IsActiveKey`: `key` has a record whose expiry is after `blockTime`. -/
def isActiveKey (s : ClientStore) (blockTime : GoTime) (key : Address) : Bool :=
  match s.enclaveKeys key with
  | none => false
  | some v => (GoTime.unix (wrap64 v.toNat)).after blockTime

/-- `AddEnclaveKey`: record `uint64(expiredAt.Unix())` for `key`. -/
def addEnclaveKey (s : ClientStore) (key : Address) (expiredAt : GoTime) : ClientStore :=
  { s with
    enclaveKeys := fun a => if a = key then some (toUInt64 expiredAt.unixSec) else s.enclaveKeys a }

@[simp] theorem addEnclaveKey_clientState (s : ClientStore) (key : Address) (t : GoTime) :
    (s.addEnclaveKey key t).clientState = s.clientState := rfl

theorem addEnclaveKey_enclaveKeys (s : ClientStore) (key a : Address) (t : GoTime) :
    (s.addEnclaveKey key t).enclaveKeys a =
      if a = key then some (toUInt64 t.unixSec) else s.enclaveKeys a := rfl

@[simp] theorem getEnclaveKeyExpiredAt_addEnclaveKey (s : ClientStore) (key : Address)
    (t : GoTime) : (s.addEnclaveKey key t).getEnclaveKeyExpiredAt key =
      some (GoTime.unix (wrap64 (toUInt64 t.unixSec).toNat)) := by
  simp [getEnclaveKeyExpiredAt, addEnclaveKey_enclaveKeys]

end ClientStore

section Functions

variable (ias : IAS) (ver : ELCVerifier)

/-- The previous-state check of `verifyUpdateClient`: the update starts from a stored consensus
state, unless the client has no height yet. -/
def checkPrevState (s : ClientStore) (emsg : ELCMessage) : Except ClientError Unit :=
  if s.clientState.latestHeight.isZero then
    if emsg.emittedStates.length = 0 then throw .newStateNil else pure ()
  else
    match emsg.prevHeight, emsg.prevStateID with
    | some prevHeight, some prevStateID =>
      match s.consensusStates prevHeight with
      | none => throw (.consensusStateNotFound prevHeight)
      | some prev =>
        if prev.stateId ≠ prevStateID then throw (.unexpectedStateID prev.stateId prevStateID)
        else pure ()
    | _, _ => throw .prevNil

/-- `verifyUpdateClient`: the update follows a stored consensus state, and an active enclave key
signed it. -/
def verifyUpdateClient (blockTime : GoTime) (s : ClientStore) (m : UpdateClientMessage) :
    Except ClientError Unit := do
  let emsg ← (ver.getELCMessage m.elcMessage).mapError .decode
  checkPrevState s emsg
  let signer := ver.bytesToAddress m.signer
  if !s.isActiveKey blockTime signer then throw (.signerNotFound signer)
  (ver.verifySignature m.elcMessage m.signature signer).mapError .invalidSignature
  (emsg.validateContext blockTime).mapError .invalidContext

/-- `verifyRegisterEnclaveKey`: the report is attested and allowed, its MRENCLAVE is the
client's, and a record of its key, if any, has the expiry this report gives. -/
def verifyRegisterEnclaveKey (blockTime : GoTime) (s : ClientStore)
    (m : RegisterEnclaveKeyMessage) : Except ClientError Unit := do
  let cs := s.clientState
  (ias.verifyReport m.report m.signature m.signingCert blockTime).mapError .invalidMessage
  let avr ← (ias.parseAndValidateAVR m.report).mapError .invalidAVR
  cs.checkQuoteStatus avr
  let quote ← avr.quote.mapError .quote
  (if cs.mrenclave ≠ quote.mrenclave then throw (.mrenclaveMismatch cs.mrenclave quote.mrenclave)
    else pure ())
  let addr ← (ias.getEnclaveKeyAddress quote).mapError .enclaveKeyAddress
  let expiredAt := avr.timestamp.add cs.getKeyExpiration
  match s.getEnclaveKeyExpiredAt addr with
  | some e => if !e.equal expiredAt then throw (.enclaveKeyExists addr e expiredAt)
  | none => pure ()

/-- `VerifyClientMessage`. -/
def verifyClientMessage (blockTime : GoTime) (s : ClientStore) : Message → Except ClientError Unit
  | .updateClient m => verifyUpdateClient ver blockTime s m
  | .registerEnclaveKey m => verifyRegisterEnclaveKey ias blockTime s m

/-- `updateClient`: store the new consensus state, and advance the latest height. -/
def updateClient (s : ClientStore) (m : UpdateClientMessage) : Except ClientError ClientStore := do
  let emsg ← (ver.getELCMessage m.elcMessage).mapError .decode
  let cs := if s.clientState.latestHeight.lt emsg.postHeight
    then { s.clientState with latestHeight := emsg.postHeight } else s.clientState
  pure { s with
    clientState := cs
    consensusStates := fun h =>
      if h = emsg.postHeight then some ⟨emsg.postStateID, emsg.timestamp⟩
      else s.consensusStates h }

/-- `registerEnclaveKey`: record the key of the report with its expiry, unless it has a record. -/
def registerEnclaveKey (s : ClientStore) (m : RegisterEnclaveKeyMessage) :
    Except ClientError ClientStore := do
  let avr ← (ias.parseAndValidateAVR m.report).mapError .invalidAVR
  let quote ← avr.quote.mapError .quote
  let addr ← (ias.getEnclaveKeyAddress quote).mapError .enclaveKeyAddress
  let expiredAt := avr.timestamp.add s.clientState.getKeyExpiration
  if s.contains addr then pure s else pure (s.addEnclaveKey addr expiredAt)

/-- `UpdateState`. -/
def updateState (s : ClientStore) : Message → Except ClientError ClientStore
  | .updateClient m => updateClient ver s m
  | .registerEnclaveKey m => registerEnclaveKey ias s m

end Functions

/-! ### What each function does -/

@[simp] theorem except_bind_eq_ok {x : Except ε α} {f : α → Except ε β} {b : β} :
    x >>= f = .ok b ↔ ∃ a, x = .ok a ∧ f a = .ok b := by
  cases x <;> simp [bind, Except.bind]

@[simp] theorem except_mapError_eq_ok {x : Except ε α} {f : ε → ε'} {a : α} :
    x.mapError f = .ok a ↔ x = .ok a := by
  cases x <;> simp [Except.mapError]

@[simp] theorem except_pure_eq_ok {a b : α} : (pure a : Except ε α) = .ok b ↔ a = b := by
  simp [pure, Except.pure]

@[simp] theorem except_check_eq_ok {c : Prop} [Decidable c] {e : ε} {u : Unit} :
    (if c then throw e else pure () : Except ε Unit) = .ok u ↔ ¬c := by
  split <;> simp_all [throw, throwThe, MonadExceptOf.throw, pure, Except.pure]

@[simp] theorem except_throw_ne_ok {e : ε} {b : α} : (throw e : Except ε α) ≠ .ok b := nofun

variable {ias : IAS} {ver : ELCVerifier}

/-- The client state changes only in its latest height. -/
def ClientStore.sameConfig (s s' : ClientStore) : Prop :=
  ∃ h, s'.clientState = { s.clientState with latestHeight := h }

theorem ClientStore.sameConfig.refl (s : ClientStore) : s.sameConfig s := ⟨_, rfl⟩

theorem ClientStore.sameConfig.trans {a b c : ClientStore} (h : a.sameConfig b)
    (h' : b.sameConfig c) : a.sameConfig c := by
  obtain ⟨h₁, e₁⟩ := h; obtain ⟨h₂, e₂⟩ := h'; exact ⟨h₂, by rw [e₂, e₁]⟩

/-- `registerEnclaveKey` records the key of the report with its expiry, unless it has a record
already. -/
theorem registerEnclaveKey_eq_ok {s s' : ClientStore} {m : RegisterEnclaveKeyMessage} :
    registerEnclaveKey ias s m = .ok s' ↔ ∃ avr quote addr,
      ias.parseAndValidateAVR m.report = .ok avr ∧ avr.quote = .ok quote ∧
      ias.getEnclaveKeyAddress quote = .ok addr ∧
      s' = if s.contains addr then s
        else s.addEnclaveKey addr (avr.timestamp.add s.clientState.getKeyExpiration) := by
  simp only [registerEnclaveKey, except_bind_eq_ok, except_mapError_eq_ok]
  constructor
  · rintro ⟨avr, hp, quote, hq, addr, ha, h⟩
    refine ⟨avr, quote, addr, hp, hq, ha, ?_⟩
    split at h <;> simp_all
  · rintro ⟨avr, quote, addr, hp, hq, ha, rfl⟩
    exact ⟨avr, hp, quote, hq, addr, ha, by split <;> rfl⟩

/-- A second `registerEnclaveKey` of the same message changes nothing. -/
theorem registerEnclaveKey_idem {s s' : ClientStore} {m : RegisterEnclaveKeyMessage}
    (h : registerEnclaveKey ias s m = .ok s') : registerEnclaveKey ias s' m = .ok s' := by
  obtain ⟨avr, quote, addr, hp, hq, ha, rfl⟩ := registerEnclaveKey_eq_ok.mp h
  refine registerEnclaveKey_eq_ok.mpr ⟨avr, quote, addr, hp, hq, ha, ?_⟩
  by_cases h₁ : s.contains addr
  · simp only [h₁, if_true]
  · have h₂ : (s.addEnclaveKey addr (avr.timestamp.add s.clientState.getKeyExpiration)).contains
        addr = true := by
      simp [ClientStore.contains, ClientStore.addEnclaveKey_enclaveKeys]
    simp only [h₁, h₂, if_true, Bool.false_eq_true, if_false]

/-- `updateClient` writes no enclave-key record and keeps the client's configuration. -/
theorem updateClient_frame {s s' : ClientStore} {m : UpdateClientMessage}
    (h : updateClient ver s m = .ok s') : s'.enclaveKeys = s.enclaveKeys ∧ s.sameConfig s' := by
  simp only [updateClient, except_bind_eq_ok, except_mapError_eq_ok, except_pure_eq_ok] at h
  obtain ⟨emsg, -, rfl⟩ := h
  refine ⟨rfl, ?_⟩
  split
  · exact ⟨_, rfl⟩
  · exact .refl s

/-- `registerEnclaveKey` leaves the client state as it is. -/
theorem registerEnclaveKey_clientState {s s' : ClientStore} {m : RegisterEnclaveKeyMessage}
    (h : registerEnclaveKey ias s m = .ok s') : s'.clientState = s.clientState := by
  obtain ⟨_, _, _, -, -, -, rfl⟩ := registerEnclaveKey_eq_ok.mp h
  split <;> rfl

/-- `updateClient` moves the latest height to the post height exactly when it is below it. -/
theorem updateClient_latestHeight {s s' : ClientStore} {m : UpdateClientMessage}
    (h : updateClient ver s m = .ok s') :
    ∃ emsg, ver.getELCMessage m.elcMessage = .ok emsg ∧
      s'.clientState.latestHeight = if s.clientState.latestHeight.lt emsg.postHeight
        then emsg.postHeight else s.clientState.latestHeight := by
  simp only [updateClient, except_bind_eq_ok, except_mapError_eq_ok, except_pure_eq_ok] at h
  obtain ⟨emsg, he, rfl⟩ := h
  exact ⟨emsg, he, by split <;> rfl⟩

/-- Once the client has a height, `checkPrevState` accepts only a message that starts from a
stored consensus state, named by its height and its state ID. -/
theorem checkPrevState_linked {s : ClientStore} {emsg : ELCMessage}
    (hz : s.clientState.latestHeight.isZero = false) (h : checkPrevState s emsg = .ok ()) :
    ∃ prevHeight prev, emsg.prevHeight = some prevHeight ∧
      emsg.prevStateID = some prev.stateId ∧ s.consensusStates prevHeight = some prev := by
  unfold checkPrevState at h
  rw [hz, if_neg Bool.false_ne_true] at h
  split at h
  · rename_i prevHeight prevStateID hh hi
    split at h
    · exact absurd h except_throw_ne_ok
    · rename_i prev hc
      exact ⟨prevHeight, prev, hh, by rw [hi, not_not.mp (except_check_eq_ok.mp h)], hc⟩
  · exact absurd h except_throw_ne_ok

/-- Once the client has a height, an accepted update starts from a stored consensus state. -/
theorem verifyUpdateClient_linked {t : GoTime} {s : ClientStore} {m : UpdateClientMessage}
    (hz : s.clientState.latestHeight.isZero = false) (h : verifyUpdateClient ver t s m = .ok ()) :
    ∃ emsg prevHeight prev, ver.getELCMessage m.elcMessage = .ok emsg ∧
      emsg.prevHeight = some prevHeight ∧ emsg.prevStateID = some prev.stateId ∧
      s.consensusStates prevHeight = some prev := by
  simp only [verifyUpdateClient, except_bind_eq_ok, except_mapError_eq_ok] at h
  obtain ⟨emsg, he, _, hc, -⟩ := h
  obtain ⟨prevHeight, prev, hh, hi, hs⟩ := checkPrevState_linked hz hc
  exact ⟨emsg, prevHeight, prev, he, hh, hi, hs⟩

/-- What `verifyUpdateClient` accepts: an ELC message that decodes and starts from a stored
consensus state (`checkPrevState`), signed by an active key whose signature verifies, with a
context valid at the block time. -/
theorem verifyUpdateClient_eq_ok {t : GoTime} {s : ClientStore} {m : UpdateClientMessage} :
    verifyUpdateClient ver t s m = .ok () ↔ ∃ emsg, ver.getELCMessage m.elcMessage = .ok emsg ∧
      checkPrevState s emsg = .ok () ∧ s.isActiveKey t (ver.bytesToAddress m.signer) = true ∧
      ver.verifySignature m.elcMessage m.signature (ver.bytesToAddress m.signer) = .ok () ∧
      emsg.validateContext t = .ok () := by
  simp only [verifyUpdateClient, except_bind_eq_ok, except_mapError_eq_ok, Unique.exists_iff]
  cases s.isActiveKey t (ver.bytesToAddress m.signer)
  · simp [throw, throwThe, MonadExceptOf.throw]
  · simp [pure, Except.pure, Unique.exists_iff]

/-- What `updateClient` does: store the post state at the post height, and move the latest
height to the post height when it is below it. -/
theorem updateClient_eq_ok {s s' : ClientStore} {m : UpdateClientMessage} :
    updateClient ver s m = .ok s' ↔ ∃ emsg, ver.getELCMessage m.elcMessage = .ok emsg ∧
      s' = { s with
        clientState := if s.clientState.latestHeight.lt emsg.postHeight
          then { s.clientState with latestHeight := emsg.postHeight } else s.clientState
        consensusStates := fun h =>
          if h = emsg.postHeight then some ⟨emsg.postStateID, emsg.timestamp⟩
          else s.consensusStates h } := by
  simp only [updateClient, except_bind_eq_ok, except_mapError_eq_ok, except_pure_eq_ok]
  exact exists_congr fun _ => and_congr_right fun _ => eq_comm

/-- `registerEnclaveKey` leaves the consensus states as they are. -/
theorem registerEnclaveKey_consensusStates {s s' : ClientStore} {m : RegisterEnclaveKeyMessage}
    (h : registerEnclaveKey ias s m = .ok s') : s'.consensusStates = s.consensusStates := by
  obtain ⟨_, _, _, -, -, -, rfl⟩ := registerEnclaveKey_eq_ok.mp h
  split <;> rfl

/-- An accepted update is signed by a key with a record whose expiry is after the block time. -/
theorem verifyUpdateClient_signer {t : GoTime} {s : ClientStore} {m : UpdateClientMessage}
    (h : verifyUpdateClient ver t s m = .ok ()) :
    ∃ v, s.enclaveKeys (ver.bytesToAddress m.signer) = some v ∧
      (GoTime.unix (wrap64 v.toNat)).after t = true := by
  simp only [verifyUpdateClient, except_bind_eq_ok] at h
  obtain ⟨emsg, -, _, -, h⟩ := h
  cases hk : s.enclaveKeys (ver.bytesToAddress m.signer) with
  | none => simp [ClientStore.isActiveKey, hk, throw, throwThe, MonadExceptOf.throw] at h
  | some v =>
    refine ⟨v, rfl, ?_⟩
    cases ha : (GoTime.unix (wrap64 v.toNat)).after t
    · simp [ClientStore.isActiveKey, hk, ha, throw, throwThe, MonadExceptOf.throw] at h
    · rfl

/-- What `verifyRegisterEnclaveKey` accepts: a report whose signature passes at the block time,
whose quote status and advisory IDs pass, whose MRENCLAVE is the client's, whose quote carries an
address, and whose expiry is the one recorded for that address, if any. -/
theorem verifyRegisterEnclaveKey_eq_ok {t : GoTime} {s : ClientStore}
    {m : RegisterEnclaveKeyMessage} :
    verifyRegisterEnclaveKey ias t s m = .ok () ↔
      ias.verifyReport m.report m.signature m.signingCert t = .ok () ∧
      ∃ avr quote addr, ias.parseAndValidateAVR m.report = .ok avr ∧
        s.clientState.checkQuoteStatus avr = .ok () ∧ avr.quote = .ok quote ∧
        s.clientState.mrenclave = quote.mrenclave ∧ ias.getEnclaveKeyAddress quote = .ok addr ∧
        ∀ e, s.getEnclaveKeyExpiredAt addr = some e →
          e.equal (avr.timestamp.add s.clientState.getKeyExpiration) = true := by
  simp only [verifyRegisterEnclaveKey, except_bind_eq_ok, except_mapError_eq_ok,
    except_check_eq_ok, not_not]
  constructor
  · rintro ⟨⟨⟩, hv, avr, hp, ⟨⟩, hs, quote, hq, ⟨⟩, hm, addr, ha, h⟩
    refine ⟨hv, avr, quote, addr, hp, hs, hq, hm, ha, fun e he => ?_⟩
    rw [he] at h
    simpa using h
  · rintro ⟨hv, avr, quote, addr, hp, hs, hq, hm, ha, h⟩
    refine ⟨(), hv, avr, hp, (), hs, quote, hq, (), hm, addr, ha, ?_⟩
    cases he : s.getEnclaveKeyExpiredAt addr with
    | none => rfl
    | some e => simp [h e he]

end Client

end LcpRelay
