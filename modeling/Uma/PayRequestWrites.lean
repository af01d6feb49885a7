import Uma.PayRequestRoundTrip

/-!
# What `UnmarshalJSON` does to its receiver

`UnmarshalJSON` sets the fields of its receiver one statement at a time, and every test it makes
is on the decoded document, never on the receiver. So what a call does is fixed by the document:
which fields it sets, to which values, and which error it returns.

**Writes** (`Writes`). The fields a call sets, each with the value it sets, and `none` for a
field it leaves as it is. `Writes.apply` puts them over a receiver, and `Writes.andThen` is one
set of writes after another. A method `WritesOnly` when there are writes and an error such that,
on every receiver, it makes those writes and returns that error: it reads none of the receiver's
fields, and it never sets a field back to nil.

**The parts.** Each part of `UnmarshalJSON` writes only (`writesOnly_unmarshalPayeeData`,
`writesOnly_unmarshalPayerData`, `writesOnly_unmarshalAmount`), and a part that writes only,
run after some writes, writes only (`WritesOnly.after`).

**Main results.** `unmarshalJSON_writesOnly`: for every document, `UnmarshalJSON` writes only.
`unmarshalJSON_unmarshalJSON`: a second call with the same document on the receiver the first call
left changes nothing and returns the same error, also when the first call failed part of the way.
`unmarshalJSON_encode_into`: the encoding of a request, decoded into any receiver, makes the
request's writes (`writes`): the fields the request leaves nil keep the receiver's values.
-/

namespace Uma

open Go

namespace PayRequest

variable {PayerData CounterPartyDataOptions : Type}

/-! ## Writes -/

/-- The fields of a `PayRequest` that a call sets, each with the value it sets; `none` for a field
the call leaves as it is. -/
structure Writes (PayerData CounterPartyDataOptions : Type) where
  sendingAmountCurrencyCode : Option String := none
  receivingCurrencyCode : Option String := none
  amount : Option Int64 := none
  payerData : Option PayerData := none
  requestedPayeeData : Option CounterPartyDataOptions := none
  comment : Option String := none

namespace Writes

/-- No field set. -/
def empty : Writes PayerData CounterPartyDataOptions := {}

/-- The receiver after the writes. -/
def apply (u : Writes PayerData CounterPartyDataOptions)
    (p : PayRequest PayerData CounterPartyDataOptions) :
    PayRequest PayerData CounterPartyDataOptions :=
  ⟨u.sendingAmountCurrencyCode.or p.sendingAmountCurrencyCode,
    u.receivingCurrencyCode.or p.receivingCurrencyCode, u.amount.getD p.amount,
    u.payerData.or p.payerData, u.requestedPayeeData.or p.requestedPayeeData,
    u.comment.or p.comment⟩

/-- The writes `u`, then the writes `v`: a field takes `v`'s value when `v` sets it. -/
def andThen (u v : Writes PayerData CounterPartyDataOptions) :
    Writes PayerData CounterPartyDataOptions :=
  ⟨v.sendingAmountCurrencyCode.or u.sendingAmountCurrencyCode,
    v.receivingCurrencyCode.or u.receivingCurrencyCode, v.amount.or u.amount,
    v.payerData.or u.payerData, v.requestedPayeeData.or u.requestedPayeeData,
    v.comment.or u.comment⟩

variable (u v : Writes PayerData CounterPartyDataOptions)
  (p : PayRequest PayerData CounterPartyDataOptions)

@[simp] theorem apply_empty : (empty : Writes PayerData CounterPartyDataOptions).apply p = p := rfl

theorem apply_andThen : (u.andThen v).apply p = v.apply (u.apply p) := by
  rcases v with ⟨_, _, _ | _, _, _, _⟩ <;> simp only [apply, andThen, Option.or_assoc] <;> rfl

theorem andThen_self : u.andThen u = u := by
  simp only [andThen, Option.or_self]

/-- Making the same writes twice is making them once. -/
theorem apply_apply : u.apply (u.apply p) = u.apply p := by
  rw [← apply_andThen, andThen_self]

end Writes

open Writes

/-- A call on a receiver that makes the same writes and returns the same error whatever the
receiver. -/
def WritesOnly (f : PayRequest PayerData CounterPartyDataOptions →
    PayRequest PayerData CounterPartyDataOptions × Except GoError Unit) : Prop :=
  ∃ (u : Writes PayerData CounterPartyDataOptions) (e : Except GoError Unit),
    ∀ p, f p = (u.apply p, e)

namespace WritesOnly

variable {f g : PayRequest PayerData CounterPartyDataOptions →
  PayRequest PayerData CounterPartyDataOptions × Except GoError Unit}

theorem congr (hf : WritesOnly f) (h : ∀ p, g p = f p) : WritesOnly g := by
  obtain ⟨u, e, hu⟩ := hf
  exact ⟨u, e, fun p => (h p).trans (hu p)⟩

/-- A call that writes only, made after some writes, writes only. -/
theorem after (hf : WritesOnly f) (u : Writes PayerData CounterPartyDataOptions) :
    WritesOnly fun p => f (u.apply p) := by
  obtain ⟨v, e, hv⟩ := hf
  exact ⟨u.andThen v, e, fun p => (hv _).trans (by rw [apply_andThen])⟩

/-- A call that writes only gives the same result when it is made again on the receiver it left. -/
theorem idem (hf : WritesOnly f) (p : PayRequest PayerData CounterPartyDataOptions) :
    f (f p).1 = f p := by
  obtain ⟨u, e, hu⟩ := hf
  rw [hu p, hu, apply_apply]

end WritesOnly

/-! ## The parts of `UnmarshalJSON` -/

/-- `rawReq[key].(string)`: the string a decoded member holds, `none` when the member is missing or
not a string. -/
def stringMember (rawReq : List (String × JsonValue)) (key : String) : Option String :=
  match mapGet rawReq key with
  | some (.string s) => some s
  | _ => none

theorem unmarshalConvert_eq_apply (rawReq : List (String × JsonValue))
    (p : PayRequest PayerData CounterPartyDataOptions) :
    unmarshalConvert rawReq p =
      ({ receivingCurrencyCode := stringMember rawReq "convert" } : Writes _ _).apply p := by
  unfold unmarshalConvert stringMember
  rcases mapGet rawReq "convert" with _ | (_ | _ | _ | _ | _ | _) <;> rfl

section Parts

variable (floatText : String → String) (rawReq : List (String × JsonValue))

theorem writesOnly_unmarshalPayeeData [JsonCodec CounterPartyDataOptions] :
    @WritesOnly PayerData CounterPartyDataOptions (unmarshalPayeeData floatText rawReq) := by
  rcases hd : decodeMember (α := CounterPartyDataOptions) floatText rawReq "payeeData" with
    _ | (err | d)
  · refine ⟨{ comment := stringMember rawReq "comment" }, .ok (), fun p => ?_⟩
    simp only [unmarshalPayeeData, hd, stringMember]
    rcases mapGet rawReq "comment" with _ | (_ | _ | _ | _ | _ | _) <;> rfl
  · exact ⟨empty, .error err, fun p => by simp only [unmarshalPayeeData, hd]; rfl⟩
  · refine ⟨{ requestedPayeeData := some d, comment := stringMember rawReq "comment" }, .ok (),
      fun p => ?_⟩
    simp only [unmarshalPayeeData, hd, stringMember]
    rcases mapGet rawReq "comment" with _ | (_ | _ | _ | _ | _ | _) <;> rfl

theorem writesOnly_unmarshalPayerData [JsonCodec PayerData] [JsonCodec CounterPartyDataOptions] :
    @WritesOnly PayerData CounterPartyDataOptions (unmarshalPayerData floatText rawReq) := by
  have hpayee : @WritesOnly PayerData CounterPartyDataOptions
      (unmarshalPayeeData floatText rawReq) := writesOnly_unmarshalPayeeData floatText rawReq
  rcases hd : decodeMember (α := PayerData) floatText rawReq "payerData" with _ | (err | d)
  · exact hpayee.congr fun p => by simp only [unmarshalPayerData, hd]
  · exact ⟨empty, .error err, fun p => by simp only [unmarshalPayerData, hd]; rfl⟩
  · exact (hpayee.after { payerData := some d }).congr fun p => by
      simp only [unmarshalPayerData, hd]; rfl

theorem unmarshalAmount_of_not_string [JsonCodec PayerData] [JsonCodec CounterPartyDataOptions]
    (h : ∀ amount, mapGet rawReq "amount" ≠ some (.string amount))
    (p : PayRequest PayerData CounterPartyDataOptions) :
    unmarshalAmount floatText rawReq p = (p, .error (.new "missing or invalid amount field")) := by
  unfold unmarshalAmount
  split
  · exact absurd ‹_› (h _)
  · rfl

theorem writesOnly_unmarshalAmount [JsonCodec PayerData] [JsonCodec CounterPartyDataOptions] :
    @WritesOnly PayerData CounterPartyDataOptions (unmarshalAmount floatText rawReq) := by
  by_cases hs : ∃ amount, mapGet rawReq "amount" = some (.string amount)
  swap
  · exact ⟨empty, _, unmarshalAmount_of_not_string floatText rawReq (not_exists.mp hs)⟩
  obtain ⟨amount, ha⟩ := hs
  by_cases hlen : 2 < (split amount '.').length
  · exact ⟨empty, .error (.new "invalid amount field"), fun p => by
      simp only [unmarshalAmount, ha, if_pos hlen]; rfl⟩
  cases hn : parseInt ((split amount '.').headD "").data with
  | error err =>
    exact ⟨{ amount := some (parseIntErrValue _ err) }, .error err, fun p => by
      simp only [unmarshalAmount, ha, if_neg hlen, hn]; rfl⟩
  | ok n =>
    have hpayer : @WritesOnly PayerData CounterPartyDataOptions
        (unmarshalPayerData floatText rawReq) := writesOnly_unmarshalPayerData floatText rawReq
    -- the sending currency code is set by a second part that is not empty
    by_cases hcode : ∃ a code, split amount '.' = [a, code] ∧ code ≠ ""
    · obtain ⟨a, code, hparts, hne⟩ := hcode
      rw [hparts] at hlen hn
      exact (hpayer.after { sendingAmountCurrencyCode := some code, amount := some n }).congr
        fun p => by simp only [unmarshalAmount, ha, hparts, if_neg hlen, hn, if_pos hne]; rfl
    · refine (hpayer.after { amount := some n }).congr fun p => ?_
      simp only [unmarshalAmount, ha, if_neg hlen, hn]
      split
      · rename_i a code hparts
        rw [if_neg fun hne => hcode ⟨a, code, hparts, hne⟩]
        rfl
      · rfl

/-- The statements of `UnmarshalJSON` after the decoding write only. -/
theorem writesOnly_decodedFields [JsonCodec PayerData] [JsonCodec CounterPartyDataOptions] :
    @WritesOnly PayerData CounterPartyDataOptions
      fun p => unmarshalAmount floatText rawReq (unmarshalConvert rawReq p) :=
  ((writesOnly_unmarshalAmount floatText rawReq).after
    { receivingCurrencyCode := stringMember rawReq "convert" }).congr fun p => by
    rw [unmarshalConvert_eq_apply]

end Parts

/-! ## `UnmarshalJSON` -/

section Codec

variable [JsonCodec PayerData] [JsonCodec CounterPartyDataOptions] (floatText : String → String)
  (data : List Char)

/-- **`UnmarshalJSON` does not read its receiver.** For every document there are writes and an
error such that `UnmarshalJSON`, on every receiver, makes those writes and returns that error. It
never sets a field back to nil. -/
theorem unmarshalJSON_writesOnly :
    @WritesOnly PayerData CounterPartyDataOptions (unmarshalJSON floatText data) := by
  cases hmap : unmarshalAnyMap data with
  | error err => exact ⟨empty, .error err, fun p => by simp only [unmarshalJSON, hmap]; rfl⟩
  | ok rawReq =>
    exact (writesOnly_decodedFields floatText rawReq).congr fun p => by
      simp only [unmarshalJSON, hmap]

/-- **A second call changes nothing.** `UnmarshalJSON` with the same document on the receiver the
first call left gives the same receiver and the same error, also after a failure. -/
theorem unmarshalJSON_unmarshalJSON (p : PayRequest PayerData CounterPartyDataOptions) :
    unmarshalJSON floatText data (unmarshalJSON floatText data p).1 =
      unmarshalJSON floatText data p := by
  cases hmap : unmarshalAnyMap data with
  | error err => simp only [unmarshalJSON, hmap]
  | ok rawReq =>
    simp only [unmarshalJSON, hmap]
    exact (writesOnly_decodedFields floatText rawReq).idem p

end Codec

/-! ## Decoding an encoding into a used receiver -/

/-- The writes of a request: every field it sets, and its amount. -/
def writes (p : PayRequest PayerData CounterPartyDataOptions) :
    Writes PayerData CounterPartyDataOptions :=
  { sendingAmountCurrencyCode := p.sendingAmountCurrencyCode,
    receivingCurrencyCode := p.receivingCurrencyCode, amount := some p.amount,
    payerData := p.payerData, requestedPayeeData := p.requestedPayeeData, comment := p.comment }

/-- On a zero receiver, a request's writes give the request. -/
theorem writes_apply_zero (p : PayRequest PayerData CounterPartyDataOptions) :
    p.writes.apply zero = p := by
  simp only [writes, Writes.apply, zero, Option.or_none, Option.getD_some]

/-- **Decoding into a used receiver.** For every request that comes back through `Encode` and
`UnmarshalJSON`, decoding its encoding into any receiver `q` makes the request's writes on `q`: the
amount and every field the request sets are written, and every other field keeps `q`'s value. A
field the request leaves nil is not cleared, so only a zero receiver is sure to give the request
back (`writes_apply_zero`). -/
theorem unmarshalJSON_encode_into [JsonCodec PayerData] [JsonCodec CounterPartyDataOptions]
    (floatText : String → String) {p : PayRequest PayerData CounterPartyDataOptions}
    (hs : p.SplicesSafe) (hcode : ∀ c ∈ p.sendingAmountCurrencyCode, '.' ∉ c.data ∧ c ≠ "")
    (h₁ : ∀ d ∈ p.payerData, RoundTrips floatText d)
    (h₂ : ∀ d ∈ p.requestedPayeeData, RoundTrips floatText d) :
    ∃ data, p.encode = .ok data ∧
      ∀ q, unmarshalJSON floatText data q = (p.writes.apply q, .ok ()) := by
  obtain ⟨payer, payer', hp⟩ := exists_members_of_roundTrips h₁
  obtain ⟨payee, payee', hq⟩ := exists_members_of_roundTrips h₂
  exact ⟨_, encode_eq hs (fun d hd => ⟨(hp d hd).1, (hp d hd).2.1⟩)
    (fun d hd => ⟨(hq d hd).1, (hq d hd).2.1⟩),
    unmarshalJSON_requestMembers_into floatText hcode (fun d hd => (hp d hd).2)
      fun d hd => (hq d hd).2⟩

/-- The request of `unmarshalJSON_encode_usd`, decoded into any receiver, overwrites all of it. -/
theorem unmarshalJSON_encode_into_usd :
    let p : PayRequest Unit Unit :=
      ⟨some "USD", some "EUR", 1000, some (), some (), some "for <lunch> & more"⟩
    ∃ data, p.encode = .ok data ∧ ∀ q, unmarshalJSON id data q = (p.writes.apply q, .ok ()) :=
  unmarshalJSON_encode_into id (by decide) (by decide) (fun _ _ => roundTrips_unit id)
    fun _ _ => roundTrips_unit id

end PayRequest

end Uma
