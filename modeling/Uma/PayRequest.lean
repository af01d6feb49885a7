import Uma.Lnurlp

/-!
# The second round trip: `PayRequest`

The sender asks for an invoice with a `PayRequest`. Its `amount` is in the smallest unit of
`SendingAmountCurrencyCode` when that is set, and in millisatoshis otherwise. A pay request is an
UMA request when its payer data carries both an identifier and a compliance block.

`PayerData` and `CounterPartyDataOptions` are defined outside this file. They are type parameters
here, and the two methods of `PayerData` that the file calls are the class `PayerDataMethods`.
-/

namespace Uma

open Go

/-- Modelled from the spec: `CompliancePayerData`, the compliance block of the payer data, which is
defined outside this file. Only the two fields that `signablePayload` reads are kept. -/
structure CompliancePayerData where
  signatureNonce : String
  signatureTimestamp : Int64
deriving DecidableEq

/-- The methods of `PayerData` that this file calls; `PayerData` is defined outside it. -/
class PayerDataMethods (PayerData : Type) where
  /-- `(*PayerData).Compliance()` -/
  compliance : PayerData → Except GoError (Option CompliancePayerData)
  /-- `(*PayerData).Identifier()` -/
  identifier : PayerData → Option String

/-- Modelled from the spec: a payer-data block with an optional identifier and an optional
compliance sub-block, a stand-in for `PayerData`, which is defined outside this file. -/
structure SpecPayerData where
  identifier : Option String
  compliance : Option CompliancePayerData
deriving DecidableEq

instance : PayerDataMethods SpecPayerData := ⟨fun d => .ok d.compliance, SpecPayerData.identifier⟩

/-- `PayRequest`. -/
structure PayRequest (PayerData CounterPartyDataOptions : Type) where
  sendingAmountCurrencyCode : Option String
  receivingCurrencyCode : Option String
  amount : Int64
  payerData : Option PayerData
  requestedPayeeData : Option CounterPartyDataOptions
  comment : Option String
deriving DecidableEq

namespace PayRequest

variable {PayerData CounterPartyDataOptions : Type} [PayerDataMethods PayerData]
  (p : PayRequest PayerData CounterPartyDataOptions)

open PayerDataMethods

/-- `(*PayRequest).IsUmaRequest`. -/
def isUmaRequest : Bool :=
  match p.payerData with
  | none => false
  | some payerData =>
    match compliance payerData with
    | .error _ => false
    | .ok compliance => compliance.isSome && (identifier payerData).isSome

/-- `(*PayRequest).signablePayload`: `identifier|SignatureNonce|SignatureTimestamp`, the last two
from the compliance block of the payer data. -/
def signablePayload : Except GoError String :=
  match p.payerData with
  | none => .error (.new "payer data is missing")
  | some payerData =>
    match identifier payerData with
    | none => .error (.new "payer data identifier is missing")
    | some senderAddress =>
      if senderAddress = "" then .error (.new "payer data identifier is missing") else
      match compliance payerData with
      | .error e => .error e
      | .ok none => .error (.new "compliance payer data is missing")
      | .ok (some complianceData) =>
        .ok (join [senderAddress, complianceData.signatureNonce,
          ⟨formatInt complianceData.signatureTimestamp.val⟩] '|')

theorem isUmaRequest_iff : p.isUmaRequest = true ↔
    ∃ payerData c senderAddress, p.payerData = some payerData ∧
      compliance payerData = .ok (some c) ∧ identifier payerData = some senderAddress := by
  unfold isUmaRequest
  rcases p with ⟨_, _, _, _ | payerData, _, _⟩
  · simp
  rcases hc : compliance payerData with e | _ | c <;> simp [hc, Option.isSome_iff_exists]

theorem signablePayload_eq_ok_iff (s : String) : p.signablePayload = .ok s ↔
    ∃ payerData c senderAddress, p.payerData = some payerData ∧
      compliance payerData = .ok (some c) ∧ identifier payerData = some senderAddress ∧
      senderAddress ≠ "" ∧
      s = join [senderAddress, c.signatureNonce, ⟨formatInt c.signatureTimestamp.val⟩] '|' := by
  unfold signablePayload
  rcases p with ⟨_, _, _, _ | payerData, _, _⟩
  · simp
  rcases hid : identifier payerData with _ | senderAddress
  · simp [hid]
  by_cases he : senderAddress = ""
  · simp [hid, he]
  rcases hc : compliance payerData with e | _ | c <;> simp [hid, he, hc, eq_comm]

end PayRequest

end Uma
