import LcpRelay.Types

/-!
# The relayer's state, its collaborators and a predicate transformer

A `Prover` holds the active enclave key in memory and a key store on disk; every answer of a
collaborator comes from an `Env`, indexed by the number of requests made before it, so a theorem
over all `Env`s covers every sequence of answers.  `RelayM` is `EStateM`: as in Go, a mutation made
before an error return is kept.  `wp x Q R` says that `x` ends in `Q` when it returns and in `R`
when it fails.
-/

namespace LcpRelay

/-- An error the relayer returns; `external` is an error a collaborator or the disk returned, and
`nilDereference` the panic of reading a nil active key. -/
inductive Error where
  | external (msg : String)
  | notFound
  | wrapped (context : String) (err : Error)
  | noAvailableEnclaveKeys
  | allKeysNotAllowed
  | msgExecutionFailed (msgID : MsgID)
  | castClientState (typeName : String)
  | mrenclaveMismatch (expected actual : Bytes)
  | operatorNotIncluded (operators : List Address) (operator : Address)
  | operatorMismatch (expected actual : Address)
  | unexpectedNumberOfMsgIDs (ids : List MsgID)
  | elcClientIdMismatch (expected actual : String)
  | nilDereference
deriving DecidableEq

/-- The client message of a `MsgUpdateClient` that the relayer sends. -/
inductive ClientMessage where
  | updateClient (proxyMessage : Bytes) (signatures : List Bytes)
  | registerEnclaveKey (m : RegisterEnclaveKeyMessage)
deriving DecidableEq

/-- `clienttypes.MsgUpdateClient`. -/
structure MsgUpdateClient where
  clientId : String
  clientMessage : ClientMessage
  signer : Address
deriving DecidableEq

/-- The destination chain's answer to `GetMsgResult`: `Status()` and `BlockHeight()`. -/
structure MsgResult where
  status : Bool
  failureReason : String
  blockHeight : Height
deriving DecidableEq

/-- What `registerEnclaveKey` obtains from `QueryClientState`, `UnpackAny` and the cast to an
`lcp` client state. -/
inductive QueriedClientState where
  | lcp (cs : ClientState)
  | other (typeName : String)
  | undecodable (err : String)

/-- A response of the LCP service's `UpdateClient`. -/
structure UpdateClientResponse where
  message : Bytes
  signer : Bytes
  signature : Bytes

/-- A response of the LCP service's `VerifyMembership`. -/
structure VerifyMembershipResponse where
  message : Bytes
  signer : Bytes
  signature : Bytes

/-- The answers of the LCP service to one request; `client` answers `Client` with the packed
`ClientState` of its response. -/
structure LCPService where
  availableEnclaveKeys : Bytes → Except String (List EnclaveKeyInfo)
  enclaveKey : Address → Bool
  createClient : Bytes → Bytes → Address → Except String String
  client : String → Except String Bytes
  updateClient : String → Bytes → Bool → Address → Except String UpdateClientResponse
  verifyMembership : String → String → Bytes → Height → Bytes → Address →
    Except String VerifyMembershipResponse

/-- The answers of the destination chain to one request. -/
structure Counterparty where
  latestFinalizedHeight : Except String Height
  msgResult : MsgID → Except String MsgResult
  latestHeight : Except String Height
  clientState : Height → Except String QueriedClientState
  address : Except String Address
  sendMsgs : List MsgUpdateClient → Except String (List MsgID)

/-- The answers of the operator's EIP-712 signer; `sign` signs the digest
`ComputeEIP712RegisterEnclaveKeyHash` gives for a report. -/
structure OperatorSigner where
  address : Except String Address
  sign : String → Except String Bytes

/-- The answers of the origin chain's prover to one request. -/
structure OriginProver where
  createInitialLightClientState : Height → Except String (Bytes × Bytes)
  latestFinalizedHeader : Except String Height
  setupHeadersForUpdate : Height → Except String (List Bytes)
  proveState : String → Bytes → Except String (Bytes × Height)

/-- The collaborators' answers, indexed by the number of requests made before. -/
structure Env where
  clock : Nat → GoTime
  lcp : Nat → LCPService
  chain : Nat → Counterparty
  signer : Nat → OperatorSigner
  origin : Nat → OriginProver
  disk : Nat → Except String Unit

/-- Ghost events a property of a run speaks about: a selection, and the writes to the key store. -/
inductive Event where
  | selected (eki : EnclaveKeyInfo)
  | saveFinalized (eki : EnclaveKeyInfo)
  | saveUnfinalized (eki : EnclaveKeyInfo) (msgID : MsgID)
  | removeUnfinalized
deriving DecidableEq

/-- The key store on disk (spec §4.3) as two slots, the finalized key and the unfinalized key with
its message ID.  A save overwrites its slot and a load returns the key last written to it. -/
structure KeyStore where
  finalized : Option EnclaveKeyInfo
  unfinalized : Option (EnclaveKeyInfo × MsgID)
deriving DecidableEq

/-- A `Prover`'s fields `activeEnclaveKey` and `unfinalizedMsgID`, the key store on disk, and
two ghost fields: the number of requests answered and the log of events, newest first. -/
structure Prover where
  activeEnclaveKey : Option EnclaveKeyInfo
  unfinalizedMsgID : Option MsgID
  store : KeyStore
  tick : Nat
  log : List Event
deriving DecidableEq

/-- The relayer's computations. -/
abbrev RelayM := EStateM Error Prover

namespace Prover

/-- What memory and disk hold. -/
def view (pr : Prover) : Option EnclaveKeyInfo × Option MsgID × KeyStore :=
  (pr.activeEnclaveKey, pr.unfinalizedMsgID, pr.store)

/-- `pr'` comes after `pr`: more requests answered, events only added in front. -/
structure Grows (pr pr' : Prover) : Prop where
  tick_le : pr.tick ≤ pr'.tick
  log_suffix : pr.log <:+ pr'.log

theorem Grows.refl (pr : Prover) : pr.Grows pr := ⟨Nat.le_refl _, List.suffix_refl _⟩

theorem Grows.trans {a b c : Prover} (h : a.Grows b) (h' : b.Grows c) : a.Grows c :=
  ⟨Nat.le_trans h.tick_le h'.tick_le, h.log_suffix.trans h'.log_suffix⟩

/-- Request `i` was answered after `pr` and before `pr'`. -/
def During (pr pr' : Prover) (i : Nat) : Prop := pr.tick ≤ i ∧ i < pr'.tick

theorem During.of_grows_left {a b c : Prover} {i : Nat} (h : a.Grows b) (hi : During b c i) :
    During a c i :=
  ⟨Nat.le_trans h.tick_le hi.1, hi.2⟩

theorem During.of_grows_right {a b c : Prover} {i : Nat} (hi : During a b i) (h : b.Grows c) :
    During a c i :=
  ⟨hi.1, Nat.lt_of_lt_of_le hi.2 h.tick_le⟩

/-- `e` was logged after `pr` and before `pr'`. -/
def NewEvent (pr pr' : Prover) (e : Event) : Prop := ∃ l, pr'.log = l ++ pr.log ∧ e ∈ l

theorem NewEvent.head {pr pr' : Prover} {e : Event} (h : pr'.log = e :: pr.log) :
    NewEvent pr pr' e :=
  ⟨[e], h, List.mem_singleton_self e⟩

theorem NewEvent.of_grows_left {a b c : Prover} {e : Event} (h : a.Grows b) (he : NewEvent b c e) :
    NewEvent a c e := by
  obtain ⟨l, hl, hm⟩ := he
  obtain ⟨l', hl'⟩ := h.log_suffix
  exact ⟨l ++ l', by rw [hl, ← hl', List.append_assoc], List.mem_append_left _ hm⟩

theorem NewEvent.of_grows_right {a b c : Prover} {e : Event} (he : NewEvent a b e)
    (h : b.Grows c) : NewEvent a c e := by
  obtain ⟨l, hl, hm⟩ := he
  obtain ⟨l', hl'⟩ := h.log_suffix
  exact ⟨l' ++ l, by rw [← hl', hl, List.append_assoc], List.mem_append_right _ hm⟩

end Prover

/-- The answer the environment gives to the next request. -/
def request (f : Nat → α) : RelayM α := fun pr => .ok (f pr.tick) { pr with tick := pr.tick + 1 }

/-- Go's `if err != nil { return err }` on a collaborator's answer. -/
def orThrow : Except String α → RelayM α
  | .ok a => pure a
  | .error e => throw (.external e)

/-- The error `fmt.Errorf("<context>: %w", err)` returns.  A nil dereference is a Go panic, not an
error value: it unwinds through every `return fmt.Errorf(...)` unchanged. -/
def Error.wrap (context : String) : Error → Error
  | .nilDereference => .nilDereference
  | e => .wrapped context e

@[simp] theorem Error.wrap_eq_nilDereference {context : String} {e : Error} :
    e.wrap context = .nilDereference ↔ e = .nilDereference := by
  cases e <;> simp [Error.wrap]

/-- `fmt.Errorf("<context>: %w", err)` on the errors of `x`. -/
def wrapErr (context : String) (x : RelayM α) : RelayM α :=
  EStateM.adaptExcept (Error.wrap context) x

/-- `fmt.Errorf("<context>: %w", err)` on a collaborator's error answer. -/
def orThrowWrapped (context : String) : Except String α → RelayM α
  | .ok a => pure a
  | .error e => throw (.wrapped context (.external e))

/-- Record an event. -/
def logEvent (e : Event) : RelayM Unit := modify fun pr => { pr with log := e :: pr.log }

/-- `x` ends in `Q` when it returns and in `R` when it fails. -/
def wp (x : RelayM α) (Q : α → Prover → Prop) (R : Error → Prover → Prop) (pr : Prover) :
    Prop :=
  match x pr with
  | .ok a pr' => Q a pr'
  | .error e pr' => R e pr'

section Rules

variable {R : Error → Prover → Prop} {pr : Prover}

@[simp] theorem wp_pure (a : α) (Q : α → Prover → Prop) : wp (pure a) Q R pr = Q a pr := rfl

@[simp] theorem wp_throw (e : Error) (Q : α → Prover → Prop) :
    wp (throw e : RelayM α) Q R pr = R e pr := rfl

theorem wp_bind (x : RelayM β) (f : β → RelayM α) (Q : α → Prover → Prop) :
    wp (x >>= f) Q R pr = wp x (fun b => wp (f b) Q R) R pr := by
  simp only [wp, bind, EStateM.bind]; cases x pr <;> rfl

@[simp] theorem wp_request (f : Nat → α) (Q : α → Prover → Prop) :
    wp (request f) Q R pr = Q (f pr.tick) { pr with tick := pr.tick + 1 } := rfl

@[simp] theorem wp_modify (f : Prover → Prover) (Q : Unit → Prover → Prop) :
    wp (modify f) Q R pr = Q () (f pr) := rfl

@[simp] theorem wp_get (Q : Prover → Prover → Prop) : wp get Q R pr = Q pr pr := rfl

@[simp] theorem wp_logEvent (e : Event) (Q : Unit → Prover → Prop) :
    wp (logEvent e) Q R pr = Q () { pr with log := e :: pr.log } := rfl

@[simp] theorem wp_orThrow (r : Except String α) (Q : α → Prover → Prop) :
    wp (orThrow r) Q R pr = match r with
      | .ok a => Q a pr
      | .error e => R (.external e) pr := by
  cases r <;> rfl

@[simp] theorem wp_orThrowWrapped (context : String) (r : Except String α)
    (Q : α → Prover → Prop) :
    wp (orThrowWrapped context r) Q R pr = match r with
      | .ok a => Q a pr
      | .error e => R (.wrapped context (.external e)) pr := by
  cases r <;> rfl

@[simp] theorem wp_wrapErr (context : String) (x : RelayM α) (Q : α → Prover → Prop) :
    wp (wrapErr context x) Q R pr = wp x Q (fun e => R (e.wrap context)) pr := by
  simp only [wp, wrapErr, EStateM.adaptExcept]; cases x pr <;> rfl

theorem wp_ite (c : Prop) [Decidable c] (x y : RelayM α) (Q : α → Prover → Prop) :
    wp (if c then x else y) Q R pr = if c then wp x Q R pr else wp y Q R pr := by
  split <;> rfl

theorem wp.mono {x : RelayM α} {Q Q' : α → Prover → Prop} {R' : Error → Prover → Prop}
    (h : wp x Q R pr) (hQ : ∀ a pr', Q a pr' → Q' a pr') (hR : ∀ e pr', R e pr' → R' e pr') :
    wp x Q' R' pr := by
  unfold wp at *; split at h <;> simp_all

/-- Postconditions that hold of every result hold of every computation. -/
theorem wp.of_forall {x : RelayM α} {Q : α → Prover → Prop} (hQ : ∀ a pr', Q a pr')
    (hR : ∀ e pr', R e pr') : wp x Q R pr := by
  unfold wp; split
  · exact hQ _ _
  · exact hR _ _

theorem wp.and {x : RelayM α} {Q Q' : α → Prover → Prop} {R' : Error → Prover → Prop}
    (h : wp x Q R pr) (h' : wp x Q' R' pr) :
    wp x (fun a pr' => Q a pr' ∧ Q' a pr') (fun e pr' => R e pr' ∧ R' e pr') pr := by
  unfold wp at *; split at h <;> rename_i heq <;> rw [heq] at h' <;> exact ⟨h, h'⟩

end Rules

/-- The event writes the key store. -/
def Event.writesStore : Event → Bool
  | .saveFinalized _ | .saveUnfinalized _ _ | .removeUnfinalized => true
  | _ => false

namespace Prover

theorem NewEvent.split {a b c : Prover} {e : Event} (hab : a.Grows b) (hbc : b.Grows c)
    (h : NewEvent a c e) : NewEvent a b e ∨ NewEvent b c e := by
  obtain ⟨l, hl, hm⟩ := h
  obtain ⟨l₁, hl₁⟩ := hab.log_suffix
  obtain ⟨l₂, hl₂⟩ := hbc.log_suffix
  rw [← hl₂, ← hl₁, ← List.append_assoc] at hl
  rw [← List.append_cancel_right hl, List.mem_append] at hm
  exact hm.elim (fun h => .inr ⟨l₂, hl₂.symm, h⟩) (fun h => .inl ⟨l₁, hl₁.symm, h⟩)

/-- `pr'` follows `pr` with memory and disk as they were, and no store write logged. -/
structure Quiet (pr pr' : Prover) : Prop where
  view_eq : pr'.view = pr.view
  grows : pr.Grows pr'
  noWrites : ∀ e, NewEvent pr pr' e → e.writesStore = false

/-- A later state with the same memory and disk whose new events `l` write nothing. -/
theorem Quiet.of_events {pr pr' : Prover} (l : List Event) (hv : pr'.view = pr.view)
    (ht : pr.tick ≤ pr'.tick) (hl : pr'.log = l ++ pr.log) (hw : ∀ e ∈ l, e.writesStore = false) :
    Quiet pr pr' := by
  refine ⟨hv, ⟨ht, hl ▸ List.suffix_append _ _⟩, fun e ⟨l', hl', hm⟩ => hw e ?_⟩
  rwa [List.append_cancel_right (hl'.symm.trans hl)] at hm

theorem Quiet.refl (pr : Prover) : Quiet pr pr := .of_events [] rfl (Nat.le_refl _) rfl (by simp)

theorem Quiet.ticks (pr : Prover) {t : Nat} (h : pr.tick ≤ t) : Quiet pr { pr with tick := t } :=
  .of_events [] rfl h rfl (by simp)

theorem Quiet.event (pr : Prover) {t : Nat} (h : pr.tick ≤ t) {e : Event}
    (hw : e.writesStore = false) : Quiet pr { pr with tick := t, log := e :: pr.log } :=
  .of_events [e] rfl h rfl (by simpa using hw)

theorem Quiet.activeEnclaveKey_eq {pr pr' : Prover} (h : Quiet pr pr') :
    pr'.activeEnclaveKey = pr.activeEnclaveKey := congrArg Prod.fst h.view_eq

theorem Quiet.unfinalizedMsgID_eq {pr pr' : Prover} (h : Quiet pr pr') :
    pr'.unfinalizedMsgID = pr.unfinalizedMsgID := congrArg (·.2.1) h.view_eq

theorem Quiet.store_eq {pr pr' : Prover} (h : Quiet pr pr') : pr'.store = pr.store :=
  congrArg (·.2.2) h.view_eq

theorem Quiet.trans {a b c : Prover} (h : Quiet a b) (h' : Quiet b c) : Quiet a c :=
  ⟨h'.view_eq.trans h.view_eq, h.grows.trans h'.grows, fun e he =>
    (he.split h.grows h'.grows).elim (h.noWrites e) (h'.noWrites e)⟩

end Prover

/-- `x` leaves memory and disk as they are and writes nothing to the store. -/
def Framed (x : RelayM α) : Prop :=
  ∀ pr, wp x (fun _ => pr.Quiet) (fun _ => pr.Quiet) pr

namespace Framed

theorem pure (a : α) : Framed (Pure.pure a : RelayM α) := fun pr => .refl pr

theorem throw (e : Error) : Framed (MonadExcept.throw e : RelayM α) := fun pr => .refl pr

theorem request (f : Nat → α) : Framed (LcpRelay.request f) :=
  fun _ => .of_events [] rfl (Nat.le_succ _) rfl (by simp)

theorem orThrow (r : Except String α) : Framed (LcpRelay.orThrow r) := by
  cases r <;> exact fun pr => .refl pr

theorem logEvent {e : Event} (h : e.writesStore = false) : Framed (LcpRelay.logEvent e) :=
  fun _ => .of_events [e] rfl (Nat.le_refl _) rfl (by simpa using h)

theorem bind {x : RelayM β} {f : β → RelayM α} (hx : Framed x) (hf : ∀ b, Framed (f b)) :
    Framed (x >>= f) := by
  intro pr
  rw [wp_bind]
  refine (hx pr).mono (fun b pr' h => ?_) (fun _ _ h => h)
  exact (hf b pr').mono (fun _ _ h' => h.trans h') (fun _ _ h' => h.trans h')

theorem orThrowWrapped (context : String) (r : Except String α) :
    Framed (LcpRelay.orThrowWrapped context r) := by
  cases r <;> exact fun pr => .refl pr

theorem wrapErr (context : String) {x : RelayM α} (h : Framed x) :
    Framed (LcpRelay.wrapErr context x) := fun pr => by
  simpa only [wp_wrapErr] using h pr

theorem ite (c : Prop) [Decidable c] {x y : RelayM α} (hx : Framed x) (hy : Framed y) :
    Framed (if c then x else y) := by
  split <;> assumption

/-- A framed computation keeps every property of memory and disk. -/
theorem wp {x : RelayM α} (h : Framed x) {Q : α → Prover → Prop} {R : Error → Prover → Prop}
    {pr : Prover} (hQ : ∀ a pr', pr.Quiet pr' → Q a pr') (hR : ∀ e pr', pr.Quiet pr' → R e pr') :
    LcpRelay.wp x Q R pr :=
  (h pr).mono hQ hR

end Framed

end LcpRelay
