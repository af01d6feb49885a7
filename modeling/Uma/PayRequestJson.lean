import Uma.PayRequest
import Uma.Go.JsonDecode

/-!
# `PayRequest` on the wire

`MarshalJSON` builds the JSON document of a pay request by hand: each string field is put between
quotes as it is, without escaping. The amount goes in as a string, the decimal amount followed by
`.` and the sending currency code when one is set. `Encode` is `json.Marshal` on the request,
which calls `MarshalJSON` and then checks and compacts its output.

`UnmarshalJSON` decodes the document into a `map[string]interface{}` first, so a key that occurs
twice is read from its last occurrence, and then sets the fields of the receiver one by one. A call
that fails part of the way leaves the fields set before the failure set: the model passes the
receiver through and returns it with the error. The payee data and the comment come last, so a
failed call never sets them (`unmarshalJSON_error_keeps`), but the fields before them can be left
set (`unmarshalJSON_convert_without_amount`).

**The amount.** The amount text reads back into the amount and the code when the code is absent,
or non-empty without a dot (`unmarshalJSON_amountText`). A code `""` comes back absent, and a code
with a dot is rejected (`encode_unmarshalJSON_emptyCode_dottedCode`). A text without a code
leaves the receiver's code as it was, so the unit of a decoded amount depends on the receiver
(`unmarshalJSON_amount_keeps_code`).

`EncodeAsUrlParams` reads the encoded document back into a map and writes one parameter for each
member: strings as they are, other values as JSON text (`paramValue`). The decoded map holds each
key once (`sortedKeys_of_unmarshalAnyMap`), so no key gets two values.

`PayerData` and `CounterPartyDataOptions` are defined outside the modelled files; their own JSON
encoding and decoding are the class `JsonCodec`.

**Main results.** `encode_unmarshalJSON_injectedComment`: a comment can close its string and add a
second `amount` member. `Encode` accepts the document, and `UnmarshalJSON` reads the amount from
the comment. `unmarshalJSON_error_keeps`: a failed call keeps the payee data and the comment, and
`unmarshalJSON_convert_without_amount` shows that a field written before the failure is not kept.
-/

namespace Uma

open Go

namespace PayRequest

variable {PayerData CounterPartyDataOptions : Type}

/-- The zero `PayRequest`. -/
def zero : PayRequest PayerData CounterPartyDataOptions :=
  ⟨none, none, 0, none, none, none⟩

/-- The `amount` field as `MarshalJSON` writes it. -/
def amountText (p : PayRequest PayerData CounterPartyDataOptions) : List Char :=
  match p.sendingAmountCurrencyCode with
  | some code => formatInt p.amount.val ++ '.' :: code.data
  | none => formatInt p.amount.val

/-- One member as the format strings of `MarshalJSON` write it: a newline, two tabs, the quoted
key, a colon, a space, and the text of the value. -/
def memberText (key : String) (value : List Char) : List Char :=
  "\n\t\t\"".data ++ key.data ++ "\": ".data ++ value

/-- A string put between quotes by the format `"%s"`: as it is, unescaped. -/
def quoteRaw (s : List Char) : List Char := '"' :: s ++ ['"']

/-! ## The amount text -/

theorem amountText_eq_join (p : PayRequest PayerData CounterPartyDataOptions) :
    (⟨p.amountText⟩ : String) =
      join (⟨formatInt p.amount.val⟩ :: p.sendingAmountCurrencyCode.toList) '.' := by
  unfold amountText
  cases p.sendingAmountCurrencyCode with
  | none => simp [join, List.intercalate]
  | some c => exact String.ext (join_two _ _ _).symm

/-- The amount text splits at its dot back into the amount and the currency code, when the code
has no dot of its own. -/
theorem split_amountText (p : PayRequest PayerData CounterPartyDataOptions)
    (hcode : ∀ c ∈ p.sendingAmountCurrencyCode, '.' ∉ c.data) :
    split ⟨p.amountText⟩ '.' = ⟨formatInt p.amount.val⟩ :: p.sendingAmountCurrencyCode.toList := by
  have hint : '.' ∉ formatInt p.amount.val := fun h => by
    rcases mem_formatInt h with h | h <;> revert h <;> decide
  rw [amountText_eq_join, split_join _ (List.cons_ne_nil _ _)]
  intro e he
  rcases List.mem_cons.mp he with rfl | he
  · exact hint
  · exact hcode e (by simpa using he)

/-! ## Encoding and decoding -/

section Codec

variable [JsonCodec PayerData] [JsonCodec CounterPartyDataOptions]

/-- `(*PayRequest).MarshalJSON`. -/
def marshalJSON (p : PayRequest PayerData CounterPartyDataOptions) : Except GoError (List Char) := do
  let payerDataJson ← match p.payerData with
    | some d => JsonCodec.marshal d
    | none => pure []
  let reqStr := '{' :: memberText "amount" (quoteRaw p.amountText)
  let reqStr := match p.receivingCurrencyCode with
    | some c => reqStr ++ ',' :: memberText "convert" (quoteRaw c.data)
    | none => reqStr
  let reqStr := if p.payerData.isSome then reqStr ++ ',' :: memberText "payerData" payerDataJson
    else reqStr
  let reqStr ← match p.requestedPayeeData with
    | some d => do
      let payeeDataJson ← JsonCodec.marshal d
      pure (reqStr ++ ',' :: memberText "payeeData" payeeDataJson)
    | none => pure reqStr
  let reqStr := match p.comment with
    | some c => reqStr ++ ',' :: memberText "comment" (quoteRaw c.data)
    | none => reqStr
  pure (reqStr ++ ['}'])

/-- `(*PayRequest).Encode`: `json.Marshal(p)`, through `MarshalJSON`. -/
def encode (p : PayRequest PayerData CounterPartyDataOptions) : Except GoError (List Char) :=
  marshalMarshaler p.marshalJSON

/-- A member that `UnmarshalJSON` hands to the decoder of its own type: when it is an object, it is
written back out with `json.Marshal` and decoded; `none` when it is not an object. `floatText` is
the text `json.Marshal` writes for a decoded `float64`. -/
def decodeMember {α : Type} [JsonCodec α] (floatText : String → String)
    (rawReq : List (String × JsonValue)) (key : String) : Option (Except GoError α) :=
  match mapGet rawReq key with
  | some (.object m) => some (JsonCodec.unmarshal (marshalAny floatText (.object m)))
  | _ => none

/-- The last statements of `UnmarshalJSON`: the payee data and the comment. -/
def unmarshalPayeeData (floatText : String → String) (rawReq : List (String × JsonValue))
    (p : PayRequest PayerData CounterPartyDataOptions) :
    PayRequest PayerData CounterPartyDataOptions × Except GoError Unit :=
  let setComment (p : PayRequest PayerData CounterPartyDataOptions) :=
    match mapGet rawReq "comment" with
    | some (.string comment) => ({ p with comment := some comment }, .ok ())
    | _ => (p, .ok ())
  match decodeMember floatText rawReq "payeeData" with
  | some (.error err) => (p, .error err)
  | some (.ok payeeData) => setComment { p with requestedPayeeData := some payeeData }
  | none => setComment p

/-- The statements of `UnmarshalJSON` from the payer data on. -/
def unmarshalPayerData (floatText : String → String) (rawReq : List (String × JsonValue))
    (p : PayRequest PayerData CounterPartyDataOptions) :
    PayRequest PayerData CounterPartyDataOptions × Except GoError Unit :=
  match decodeMember floatText rawReq "payerData" with
  | some (.error err) => (p, .error err)
  | some (.ok payerData) => unmarshalPayeeData floatText rawReq { p with payerData := some payerData }
  | none => unmarshalPayeeData floatText rawReq p

/-- The statements of `UnmarshalJSON` from the amount on. -/
def unmarshalAmount (floatText : String → String) (rawReq : List (String × JsonValue))
    (p : PayRequest PayerData CounterPartyDataOptions) :
    PayRequest PayerData CounterPartyDataOptions × Except GoError Unit :=
  match mapGet rawReq "amount" with
  | some (.string amount) =>
    let amountParts := split amount '.'
    if 2 < amountParts.length then (p, .error (.new "invalid amount field"))
    else
      let amountPart := (amountParts.headD "").data
      match parseInt amountPart with
      | .error err => ({ p with amount := parseIntErrValue amountPart err }, .error err)
      | .ok n =>
        let p := { p with amount := n }
        let p := match amountParts with
          | [_, code] => if code ≠ "" then { p with sendingAmountCurrencyCode := some code } else p
          | _ => p
        unmarshalPayerData floatText rawReq p
  | _ => (p, .error (.new "missing or invalid amount field"))

/-- The first statement of `UnmarshalJSON` after the decoding: a `convert` member that is a string
sets the receiving currency code. -/
def unmarshalConvert (rawReq : List (String × JsonValue))
    (p : PayRequest PayerData CounterPartyDataOptions) : PayRequest PayerData CounterPartyDataOptions :=
  match mapGet rawReq "convert" with
  | some (.string convert) => { p with receivingCurrencyCode := some convert }
  | _ => p

/-- `(*PayRequest).UnmarshalJSON(data)` on the receiver `p`: the receiver after the call, and the
error the call returns. The method sets fields as it reaches them, so a call that fails can leave
some of them set. -/
def unmarshalJSON (floatText : String → String) (data : List Char)
    (p : PayRequest PayerData CounterPartyDataOptions) :
    PayRequest PayerData CounterPartyDataOptions × Except GoError Unit :=
  match unmarshalAnyMap data with
  | .error err => (p, .error err)
  | .ok rawReq => unmarshalAmount floatText rawReq (unmarshalConvert rawReq p)

end Codec

/-! ## What each part of `UnmarshalJSON` sets

Each part is described by the members it finds, so that a run of the method is the parts one
after another. A field keeps its old value when its member is missing. -/

section Parts

variable {floatText : String → String} {rawReq : List (String × JsonValue)}

theorem unmarshalConvert_of_mapGet {c : Option String} (h : mapGet rawReq "convert" = c.map .string)
    (p : PayRequest PayerData CounterPartyDataOptions) :
    unmarshalConvert rawReq p = { p with receivingCurrencyCode := c.or p.receivingCurrencyCode } := by
  cases c <;> simp [unmarshalConvert, h]

theorem decodeMember_of_mapGet {α : Type} [JsonCodec α] {key : String} {o : Option α}
    {m : α → List (String × JsonValue)} (h : mapGet rawReq key = o.map fun d => .object (m d))
    (hd : ∀ d ∈ o, JsonCodec.unmarshal (marshalAny floatText (.object (m d))) = .ok d) :
    decodeMember floatText rawReq key = o.map .ok := by
  cases o with
  | none => simp [decodeMember, h]
  | some d => simp [decodeMember, h, hd d rfl]

theorem unmarshalPayeeData_of_decodeMember [JsonCodec CounterPartyDataOptions]
    {q : Option CounterPartyDataOptions} {c : Option String}
    (hq : decodeMember floatText rawReq "payeeData" = q.map .ok)
    (hc : mapGet rawReq "comment" = c.map .string) (p : PayRequest PayerData CounterPartyDataOptions) :
    unmarshalPayeeData floatText rawReq p =
      ({ p with requestedPayeeData := q.or p.requestedPayeeData, comment := c.or p.comment }, .ok ()) := by
  cases q <;> cases c <;> simp [unmarshalPayeeData, hq, hc]

theorem unmarshalPayerData_of_decodeMember [JsonCodec PayerData]
    [JsonCodec CounterPartyDataOptions] {d : Option PayerData}
    (hd : decodeMember floatText rawReq "payerData" = d.map .ok)
    (p : PayRequest PayerData CounterPartyDataOptions) :
    unmarshalPayerData floatText rawReq p =
      unmarshalPayeeData floatText rawReq { p with payerData := d.or p.payerData } := by
  cases d <;> simp [unmarshalPayerData, hd]

/-- An amount text read back: the amount is set, and the currency code when there is one. -/
theorem unmarshalAmount_of_mapGet [JsonCodec PayerData] [JsonCodec CounterPartyDataOptions]
    {q : PayRequest PayerData CounterPartyDataOptions}
    (ha : mapGet rawReq "amount" = some (.string ⟨q.amountText⟩))
    (hcode : ∀ c ∈ q.sendingAmountCurrencyCode, '.' ∉ c.data ∧ c ≠ "")
    (p : PayRequest PayerData CounterPartyDataOptions) :
    unmarshalAmount floatText rawReq p = unmarshalPayerData floatText rawReq
      { p with amount := q.amount,
               sendingAmountCurrencyCode := q.sendingAmountCurrencyCode.or p.sendingAmountCurrencyCode } := by
  have hsplit := split_amountText q fun c hc => (hcode c hc).1
  rcases q with ⟨_ | c, conv, amount, payer, payee, comment⟩
  · simp [unmarshalAmount, ha, hsplit, parseInt_formatInt]
  · simp [unmarshalAmount, ha, hsplit, parseInt_formatInt, (hcode c rfl).2]


/-- The statements after the amount leave the amount and the sending currency code as they are. -/
theorem unmarshalPayeeData_amount [JsonCodec CounterPartyDataOptions]
    (p : PayRequest PayerData CounterPartyDataOptions) :
    (unmarshalPayeeData floatText rawReq p).1.amount = p.amount ∧
      (unmarshalPayeeData floatText rawReq p).1.sendingAmountCurrencyCode =
        p.sendingAmountCurrencyCode := by
  simp only [unmarshalPayeeData]
  split <;> (try split) <;> exact ⟨rfl, rfl⟩

theorem unmarshalPayerData_amount [JsonCodec PayerData] [JsonCodec CounterPartyDataOptions]
    (p : PayRequest PayerData CounterPartyDataOptions) :
    (unmarshalPayerData floatText rawReq p).1.amount = p.amount ∧
      (unmarshalPayerData floatText rawReq p).1.sendingAmountCurrencyCode =
        p.sendingAmountCurrencyCode := by
  unfold unmarshalPayerData
  split
  · exact ⟨rfl, rfl⟩
  · exact unmarshalPayeeData_amount _
  · exact unmarshalPayeeData_amount p

theorem unmarshalConvert_sendingAmountCurrencyCode
    (p : PayRequest PayerData CounterPartyDataOptions) :
    (unmarshalConvert rawReq p).sendingAmountCurrencyCode = p.sendingAmountCurrencyCode := by
  unfold unmarshalConvert
  split <;> rfl

/-- **The amount text comes back.** Decoding into a zero request a document whose `amount` member
is the text `MarshalJSON` writes for an amount `a` and a code `c` sets the amount to `a` and the
sending currency code to `c`, without an error, and goes on to the payer data, when `c` is absent
or non-empty without a dot. -/
theorem unmarshalJSON_amountText [JsonCodec PayerData] [JsonCodec CounterPartyDataOptions]
    {data : List Char} (a : Int64) (c : Option String)
    (hc : ∀ code ∈ c, '.' ∉ code.data ∧ code ≠ "")
    (hmap : unmarshalAnyMap data = .ok rawReq)
    (ha : mapGet rawReq "amount" = some (.string ⟨amountText
      ({ zero with amount := a, sendingAmountCurrencyCode := c } :
        PayRequest PayerData CounterPartyDataOptions)⟩)) :
    let r := unmarshalJSON floatText data (zero : PayRequest PayerData CounterPartyDataOptions)
    r = unmarshalPayerData floatText rawReq
        { unmarshalConvert rawReq zero with amount := a, sendingAmountCurrencyCode := c } ∧
      r.1.amount = a ∧ r.1.sendingAmountCurrencyCode = c := by
  intro r
  have h : r = unmarshalPayerData floatText rawReq
      { unmarshalConvert rawReq zero with amount := a, sendingAmountCurrencyCode := c } := by
    show unmarshalJSON floatText data zero = _
    rw [unmarshalJSON, hmap]
    dsimp only
    rw [unmarshalAmount_of_mapGet ha hc, unmarshalConvert_sendingAmountCurrencyCode]
    simp only [zero, Option.or_none]
  refine ⟨h, ?_⟩
  rw [h]
  exact unmarshalPayerData_amount _

/-- `{"amount":"1000.USD"}` decodes into the amount `1000` in `USD`. -/
theorem unmarshalJSON_amountText_usd :
    let r := unmarshalJSON id "\x7b\"amount\":\"1000.USD\"\x7d".data (zero : PayRequest Unit Unit)
    r = unmarshalPayerData id [("amount", .string "1000.USD")]
        { unmarshalConvert [("amount", .string "1000.USD")] zero with
          amount := 1000, sendingAmountCurrencyCode := some "USD" } ∧
      r.1.amount = 1000 ∧ r.1.sendingAmountCurrencyCode = some "USD" :=
  unmarshalJSON_amountText 1000 (some "USD") (by decide) rfl rfl

/-- The amount texts `MarshalJSON` writes for the codes `""` and `"U.S"` do not come back: the
first is read as millisatoshis, and the second is rejected. -/
theorem encode_unmarshalJSON_emptyCode_dottedCode :
    (({ zero with amount := 1000, sendingAmountCurrencyCode := some "" } :
        PayRequest Unit Unit).encode = .ok "\x7b\"amount\":\"1000.\"\x7d".data ∧
      unmarshalJSON id "\x7b\"amount\":\"1000.\"\x7d".data (zero : PayRequest Unit Unit) =
        ({ zero with amount := 1000 }, .ok ())) ∧
    (({ zero with amount := 1000, sendingAmountCurrencyCode := some "U.S" } :
        PayRequest Unit Unit).encode = .ok "\x7b\"amount\":\"1000.U.S\"\x7d".data ∧
      unmarshalJSON id "\x7b\"amount\":\"1000.U.S\"\x7d".data (zero : PayRequest Unit Unit) =
        (zero, .error (.new "invalid amount field"))) :=
  ⟨⟨rfl, rfl⟩, rfl, rfl⟩

/-- **The unit of an amount depends on the receiver.** `{"amount":"1000"}` sets the amount and
keeps the receiver's sending currency code, for every receiver: one that held `USD` reads the
amount in dollars, where a zero one reads it in millisatoshis. -/
theorem unmarshalJSON_amount_keeps_code [JsonCodec PayerData] [JsonCodec CounterPartyDataOptions]
    (floatText : String → String) (p : PayRequest PayerData CounterPartyDataOptions) :
    unmarshalJSON floatText "\x7b\"amount\":\"1000\"\x7d".data p =
      ({ p with amount := 1000 }, .ok ()) := by
  have hmap : unmarshalAnyMap "\x7b\"amount\":\"1000\"\x7d".data =
      .ok [("amount", .string "1000")] := rfl
  rw [unmarshalJSON, hmap]
  rfl

/-! ## What a failed `UnmarshalJSON` leaves set

The payee data and the comment are set by the last statements, after every statement that can
fail, so a failed call leaves them as they were. The fields set before the failing statement stay
set. -/

variable {p q : PayRequest PayerData CounterPartyDataOptions} {e : GoError}

/-- A failure of the payee data leaves the receiver as it was. -/
theorem unmarshalPayeeData_error [JsonCodec CounterPartyDataOptions]
    (h : unmarshalPayeeData floatText rawReq p = (q, .error e)) : q = p := by
  simp only [unmarshalPayeeData] at h
  split at h
  · exact (Prod.mk.inj h).1.symm
  all_goals split at h <;> cases h

theorem unmarshalPayerData_error [JsonCodec PayerData] [JsonCodec CounterPartyDataOptions]
    (h : unmarshalPayerData floatText rawReq p = (q, .error e)) :
    q.requestedPayeeData = p.requestedPayeeData ∧ q.comment = p.comment := by
  unfold unmarshalPayerData at h
  split at h
  · cases h; exact ⟨rfl, rfl⟩
  all_goals
    cases unmarshalPayeeData_error h
    exact ⟨rfl, rfl⟩

theorem unmarshalAmount_error [JsonCodec PayerData] [JsonCodec CounterPartyDataOptions]
    (h : unmarshalAmount floatText rawReq p = (q, .error e)) :
    q.requestedPayeeData = p.requestedPayeeData ∧ q.comment = p.comment := by
  unfold unmarshalAmount at h
  split at h
  · dsimp only at h
    split at h
    · cases h; exact ⟨rfl, rfl⟩
    split at h
    · cases h; exact ⟨rfl, rfl⟩
    have hp := unmarshalPayerData_error h
    split at hp
    · split at hp <;> exact hp
    · exact hp
  · cases h; exact ⟨rfl, rfl⟩

/-- **A failed call can leave a field set.** `{"convert":"EUR"}` has no amount: `UnmarshalJSON`
fails, after it has set the receiving currency code of the receiver, whatever the receiver. -/
theorem unmarshalJSON_convert_without_amount [JsonCodec PayerData]
    [JsonCodec CounterPartyDataOptions] (floatText : String → String)
    (p : PayRequest PayerData CounterPartyDataOptions) :
    unmarshalJSON floatText "\x7b\"convert\":\"EUR\"\x7d".data p =
      ({ p with receivingCurrencyCode := some "EUR" },
        .error (.new "missing or invalid amount field")) := by
  have hmap : unmarshalAnyMap "\x7b\"convert\":\"EUR\"\x7d".data =
      .ok [("convert", .string "EUR")] := rfl
  rw [unmarshalJSON, hmap]
  rfl

/-- Into a zero request the call fails, with the receiving currency code set where it was unset. -/
theorem unmarshalJSON_convertOnly_sets_code :
    unmarshalJSON id "\x7b\"convert\":\"EUR\"\x7d".data (zero : PayRequest Unit Unit) =
      ({ zero with receivingCurrencyCode := some "EUR" },
        .error (.new "missing or invalid amount field")) ∧
    (zero : PayRequest Unit Unit).receivingCurrencyCode ≠ some "EUR" :=
  ⟨unmarshalJSON_convert_without_amount id zero, by decide⟩

/-- **A failed `UnmarshalJSON` leaves the payee data and the comment as they were.** The fields it
reached before the failure, the currency codes, the amount and the payer data, may be set. -/
theorem unmarshalJSON_error_keeps [JsonCodec PayerData] [JsonCodec CounterPartyDataOptions]
    {data : List Char} (h : unmarshalJSON floatText data p = (q, .error e)) :
    q.requestedPayeeData = p.requestedPayeeData ∧ q.comment = p.comment := by
  unfold unmarshalJSON at h
  split at h
  · cases h; exact ⟨rfl, rfl⟩
  · have hq := unmarshalAmount_error h
    unfold unmarshalConvert at hq
    split at hq <;> exact hq

/-- A receiver with payee data and a comment keeps both when `{"convert":"EUR"}` fails. -/
theorem unmarshalJSON_error_keeps_convertOnly :
    let p : PayRequest Unit Unit :=
      { (zero : PayRequest Unit Unit) with requestedPayeeData := some (), comment := some "hi" }
    let q := { p with receivingCurrencyCode := some "EUR" }
    unmarshalJSON id "\x7b\"convert\":\"EUR\"\x7d".data p =
        (q, .error (.new "missing or invalid amount field")) ∧
      q.requestedPayeeData = p.requestedPayeeData ∧ q.comment = p.comment := by
  intro p q
  have h := unmarshalJSON_convert_without_amount id p
  exact ⟨h, unmarshalJSON_error_keeps h⟩

end Parts

section Codec

variable [JsonCodec PayerData] [JsonCodec CounterPartyDataOptions]

/-- The parameter value `EncodeAsUrlParams` writes for a member: a string as it is, and any other
value as the text `json.Marshal` writes for it. -/
def paramValue (floatText : String → String) : JsonValue → String
  | .string valueString => valueString
  | value => ⟨marshalAny floatText value⟩

/-- `(*PayRequest).EncodeAsUrlParams`. Go ranges over the decoded map in a random order; every key
comes once, so the parameters do not depend on the order, and the map's own order is taken. -/
def encodeAsUrlParams (floatText : String → String)
    (p : PayRequest PayerData CounterPartyDataOptions) : Except GoError Values := do
  let jsonBytes ← p.encode
  let jsonMap ← unmarshalAnyMap jsonBytes
  pure <| jsonMap.foldl (fun payReqParams (key, value) =>
    payReqParams.add key (paramValue floatText value)) []

/-- A comment that closes its string and opens a second `amount` member. -/
def injectedComment : String := "x\", \"amount\": \"7"

/-- `Encode` accepts the document the comment breaks into, and `UnmarshalJSON` reads it into a zero
request with the amount from the comment and the comment cut short, without an error. -/
theorem encode_unmarshalJSON_injectedComment (floatText : String → String) :
    ({ zero with comment := some injectedComment } :
        PayRequest PayerData CounterPartyDataOptions).encode =
      .ok "\x7b\"amount\":\"0\",\"comment\":\"x\",\"amount\":\"7\"\x7d".data ∧
    unmarshalJSON floatText "\x7b\"amount\":\"0\",\"comment\":\"x\",\"amount\":\"7\"\x7d".data
        (zero : PayRequest PayerData CounterPartyDataOptions) =
      ({ zero with amount := 7, comment := some "x" }, .ok ()) := by
  constructor
  · simp only [encode, marshalJSON, zero, amountText, Option.isSome_none]
    decide
  · rfl

end Codec

end PayRequest

end Uma
