import LcpRelay.Relay.Operations

/-!
# The ELC commands

`doCreateELC`, `createELC` and `doQueryELC`, from `relay/lcp.go`: the commands that create the ELC
client in the LCP service and query it, outside the relay path.  They ask the LCP service `Client`
and a `CreateClient` that names the client ID, answered by an `ELCService` indexed by the number of
requests made before, like an `Env`.
-/

namespace LcpRelay

/-- `Any` of `relay/lcp.go`: a packed value, as `doQueryELC` returns it raw. -/
structure Any where
  typeURL : String
  value : Bytes
deriving DecidableEq

/-- The LCP service's answer to `Client` (`elc.QueryClientResponse`). -/
structure QueryClientResponse where
  found : Bool
  clientState : Any
  consensusState : Any

/-- The LCP service's answers to `Client` and `CreateClient` (the response's `Message`). -/
structure ELCService where
  client : String → Except String QueryClientResponse
  createClient : String → Bytes → Bytes → Address → Except String Bytes

/-- `UnpackAny` into a client state and a consensus state, each modelled by its encoding. -/
structure AnyCodec where
  unpackClientState : Any → Except String Bytes
  unpackConsensusState : Any → Except String Bytes

/-- `CreateELCResult`. -/
structure CreateELCResult where
  created : Bool
  message : Option Bytes
deriving DecidableEq

/-- `QueryELCResult`: both states as the service returned them, and both unpacked. -/
structure QueryELCResult where
  found : Bool
  raw : Any × Any
  decoded : Option (Bytes × Bytes)
deriving DecidableEq

/-- An error of a relayer function, or "height %v is greater than the latest height %v". -/
inductive CommandError where
  | relay (err : Error)
  | heightGreaterThanLatest (height latest : Nat)
deriving DecidableEq

/-- The ELC commands' computations. -/
abbrev CommandM := EStateM CommandError Prover

/-- A computation of the relayer inside a command, whose errors the command returns as they are. -/
def liftRelay (x : RelayM α) : CommandM α := EStateM.adaptExcept CommandError.relay x

namespace Prover

variable (cfg : ProverConfig) (ias : IAS) (env : Env) (elc : Nat → ELCService) (codec : ELCCodec)
  (proto : AnyCodec)

/-- `createELC`: create the ELC client from the origin's initial states at `height`, signed by a key
from `selectNewEnclaveKey`; `none` (Go's nil) when the service already has it. -/
def createELC (elcClientID : String) (height : Height) : RelayM (Option Bytes) := do
  let res ← orThrow (← request fun i => (elc i).client elcClientID)
  if res.found then return none
  let tmpEKI ← selectNewEnclaveKey cfg ias env
  let (originClientState, originConsensusState) ←
    orThrow (← request fun i => (env.origin i).createInitialLightClientState height)
  let message ← orThrow (← request fun i =>
    (elc i).createClient elcClientID originClientState originConsensusState
      tmpEKI.enclaveKeyAddress)
  pure (some message)

/-- The creation in `doCreateELC`, with the state update of the response decoded. -/
def createAtHeight (elcClientID : String) (h : Height) : CommandM CreateELCResult := do
  match ← liftRelay (createELC cfg ias env elc elcClientID h) with
  | none => pure ⟨false, none⟩
  | some message => liftRelay do
    let msg ← orThrow (codec.decodeHeaderedProxyMessage message)
    let m ← orThrow (codec.updateStateProxyMessage msg)
    pure ⟨true, some m⟩

/-- The height check of `doCreateELC`; 0 means the latest finalized height. -/
def checkHeight (latestHeight : Height) (height : Nat) : CommandM Nat :=
  if height = 0 then pure latestHeight.revisionHeight
  else if height ≥ latestHeight.revisionHeight then
    throw (.heightGreaterThanLatest height latestHeight.revisionHeight)
  else pure height

/-- `doCreateELC`. -/
def doCreateELC (elcClientID : String) (height : Nat) : CommandM CreateELCResult := do
  let latestHeight ← liftRelay do
    orThrow (← request fun i => (env.origin i).latestFinalizedHeader)
  let height ← checkHeight latestHeight height
  createAtHeight cfg ias env elc codec elcClientID ⟨latestHeight.revisionNumber, height⟩

/-- `doQueryELC`: the client raw, and decoded when both of its states unpack. -/
def doQueryELC (elcClientID : String) : RelayM QueryELCResult := do
  let r ← orThrow (← request fun i => (elc i).client elcClientID)
  if !r.found then return ⟨false, (⟨"", []⟩, ⟨"", []⟩), none⟩
  let raw := (r.clientState, r.consensusState)
  match proto.unpackClientState r.clientState with
  | .error _ => pure ⟨true, raw, none⟩
  | .ok clientState =>
    match proto.unpackConsensusState r.consensusState with
    | .error _ => pure ⟨true, raw, none⟩
    | .ok consensusState => pure ⟨true, raw, some (clientState, consensusState)⟩

end Prover

end LcpRelay
