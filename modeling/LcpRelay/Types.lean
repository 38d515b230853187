import LcpRelay.Time

/-!
# Data shared by the relayer and the on-chain client

Enclave key infos, the parts of an attestation verification report (AVR) the code reads, heights,
and the `lcp` client state and registration message.  The attestation library `sgx/ias` is not
among the sources, so `IAS` takes the functions the code calls as parameters, and a quote status
is its name (`OK` for `oias.QuoteOK`).
-/

namespace LcpRelay

/-- A byte string (`[]byte`). -/
abbrev Bytes := List UInt8

/-- An account address (`common.Address`), by its value. -/
abbrev Address := Nat

/-- The identifier the destination chain returns for a submitted message (`core.MsgID`). -/
abbrev MsgID := Nat

/-- An IBC height (`clienttypes.Height`). -/
structure Height where
  revisionNumber : Nat
  revisionHeight : Nat
deriving DecidableEq

namespace Height

/-- `h.LT(o)`: by revision number, then by height within the revision. -/
def lt (h o : Height) : Bool :=
  h.revisionNumber < o.revisionNumber ||
    (h.revisionNumber == o.revisionNumber && h.revisionHeight < o.revisionHeight)

/-- `h.LTE(o)`. -/
def lte (h o : Height) : Bool := h.lt o || h == o

/-- `h.IsZero()`. -/
def isZero (h : Height) : Bool := h.revisionNumber == 0 && h.revisionHeight == 0

theorem lt_iff (h o : Height) : h.lt o = true ↔ h.revisionNumber < o.revisionNumber ∨
    h.revisionNumber = o.revisionNumber ∧ h.revisionHeight < o.revisionHeight := by
  simp [lt]

theorem lte_iff (h o : Height) : h.lte o = true ↔ h.revisionNumber < o.revisionNumber ∨
    h.revisionNumber = o.revisionNumber ∧ h.revisionHeight ≤ o.revisionHeight := by
  obtain ⟨n, r⟩ := h; obtain ⟨n', r'⟩ := o
  simp only [lte, lt_iff, Bool.or_eq_true, beq_iff_eq, mk.injEq]
  omega

theorem lte_refl (h : Height) : h.lte h = true := by simp [lte]

theorem lte_trans {a b c : Height} (h : a.lte b = true) (h' : b.lte c = true) :
    a.lte c = true := by
  rw [lte_iff] at *; omega

/-- Raising `h` to `o` by `LT` gives a height at least `h` and at least `o`. -/
theorem lte_raise (h o : Height) :
    h.lte (if h.lt o then o else h) = true ∧ o.lte (if h.lt o then o else h) = true := by
  rw [lte_iff, lte_iff]
  have := lt_iff h o
  split <;> simp_all <;> omega

/-- Raising a height by `LT` leaves it at zero exactly when both heights are zero. -/
theorem isZero_raise (h o : Height) :
    (if h.lt o then o else h).isZero = (h.isZero && o.isZero) := by
  unfold lt isZero
  split <;> simp_all <;> omega

end Height

/-- Modelled from the spec: the constant `QuoteOK` of package `lcptypes`, the quote status `OK`
that spec §3 always allows. -/
def QuoteOK : String := "OK"

/-- The quote inside an AVR (`avr.Quote()`), as far as the code reads it. -/
structure Quote where
  mrenclave : Bytes
  reportData : Bytes
deriving DecidableEq

/-- An attestation verification report as `ias.ParseAndValidateAVR` returns it; `quote` is what
`avr.Quote()` returns. -/
structure AVR where
  isvEnclaveQuoteStatus : String
  advisoryIDs : List String
  timestamp : GoTime
  quote : Except String Quote

/-- The functions of the attestation library (package `sgx/ias`) that the code calls. -/
structure IAS where
  verifyReport : String → Bytes → Bytes → GoTime → Except String Unit
  parseAndValidateAVR : String → Except String AVR
  getEnclaveKeyAddress : Quote → Except String Address
  getEKAndOperator : Quote → Except String (Address × Address)

/-- An enclave key as the LCP service describes it (`enclave.EnclaveKeyInfo`). -/
structure EnclaveKeyInfo where
  enclaveKeyAddress : Address
  attestationTime : UInt64
  report : String
  signature : Bytes
  signingCert : Bytes
deriving DecidableEq

/-- The `lcp` light client's client state (`lcptypes.ClientState`). -/
structure ClientState where
  latestHeight : Height
  mrenclave : Bytes
  keyExpiration : UInt64
  allowedQuoteStatuses : List String
  allowedAdvisoryIds : List String
  operators : List Address
deriving DecidableEq

/-- The client message that registers an enclave key (`lcptypes.RegisterEnclaveKeyMessage`). -/
structure RegisterEnclaveKeyMessage where
  report : String
  signature : Bytes
  signingCert : Bytes
  operatorSignature : Option Bytes
deriving DecidableEq

end LcpRelay
