import Uma.PayRequest

/-!
# The invoice and the post-transaction callback

`PayReqResponse` carries the invoice. It is an UMA response when it has payment information and
payee data whose compliance block is present. The payee's compliance block is signed over
`payerIdentifier|payeeIdentifier|nonce|timestamp`, and the `PostTransactionCallback` over
`nonce|timestamp`.

`PayeeData` and the payment-information record are only passed along or tested for presence
here; `PayeeData`'s `Compliance` method is the class `PayeeDataMethods`.
-/

namespace Uma

open Go

/-- Modelled from the spec: `CompliancePayeeData`, the compliance block of the payee data, which is
defined outside this file. Only the two fields that `signablePayload` reads are kept. -/
structure CompliancePayeeData where
  signatureNonce : String
  signatureTimestamp : Int64
deriving DecidableEq

/-- The method of `PayeeData` that this file calls; `PayeeData` is defined outside it. -/
class PayeeDataMethods (PayeeData : Type) where
  /-- `(*PayeeData).Compliance()` -/
  compliance : PayeeData → Except GoError (Option CompliancePayeeData)

/-- `PayReqResponse`, with the two fields `IsUmaResponse` reads. `PaymentInfo` stands for
`PayReqResponsePaymentInfo`, which is only tested for presence. -/
structure PayReqResponse (PaymentInfo PayeeData : Type) where
  paymentInfo : Option PaymentInfo
  payeeData : Option PayeeData

/-- `(*PayReqResponse).IsUmaResponse`. -/
def PayReqResponse.isUmaResponse {PaymentInfo PayeeData : Type} [PayeeDataMethods PayeeData]
    (p : PayReqResponse PaymentInfo PayeeData) : Bool :=
  match p.paymentInfo, p.payeeData with
  | some _, some payeeData =>
    match PayeeDataMethods.compliance payeeData with
    | .error _ => false
    | .ok compliance => compliance.isSome
  | _, _ => false

/-- `(*CompliancePayeeData).signablePayload`, on a possibly nil receiver. -/
def CompliancePayeeData.signablePayload (c : Option CompliancePayeeData)
    (payerIdentifier payeeIdentifier : String) : Except GoError String :=
  match c with
  | none => .error (.new "compliance data is missing")
  | some c => .ok (join [payerIdentifier, payeeIdentifier, c.signatureNonce,
      ⟨formatInt c.signatureTimestamp.val⟩] '|')

/-- `PostTransactionCallback`, with the two fields `signablePayload` reads. -/
structure PostTransactionCallback where
  nonce : String
  timestamp : Int64
deriving DecidableEq

/-- `(*PostTransactionCallback).signablePayload`: `Nonce|Timestamp`. -/
def PostTransactionCallback.signablePayload (c : PostTransactionCallback) : String :=
  join [c.nonce, ⟨formatInt c.timestamp.val⟩] '|'

theorem PayReqResponse.isUmaResponse_iff {PaymentInfo PayeeData : Type}
    [PayeeDataMethods PayeeData] (p : PayReqResponse PaymentInfo PayeeData) :
    p.isUmaResponse = true ↔ p.paymentInfo.isSome ∧
      ∃ payeeData c, p.payeeData = some payeeData ∧
        PayeeDataMethods.compliance payeeData = .ok (some c) := by
  unfold isUmaResponse
  split
  · rename_i i payeeData hi hp
    simp only [hi, hp, Option.isSome_some, Option.some.injEq, exists_and_left, exists_eq_left',
      true_and]
    split <;> rename_i hc <;> simp [hc, Option.isSome_iff_exists]
  · rename_i h
    constructor
    · nofun
    · rintro ⟨hi, payeeData, c, hp, -⟩
      obtain ⟨i, hi⟩ := Option.isSome_iff_exists.mp hi
      exact absurd hp (h i payeeData hi)

end Uma
