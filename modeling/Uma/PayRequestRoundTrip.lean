import Uma.Go.JsonText
import Uma.PayRequestJson

/-!
# `Encode` and `UnmarshalJSON` are inverse

`MarshalJSON` builds its document by splicing text: strings go between quotes as they are, and the
payer and payee data as `json.Marshal` wrote them. `Encode` checks the document and compacts it,
and `UnmarshalJSON` reads it back through a `map[string]interface{}`.

**The document.** The members of a request are its amount text, its receiving currency code, its
payer and payee data as objects, and its comment (`requestMembers`); `rawMembers` is the text
`MarshalJSON` writes for them after the opening brace. When no spliced string holds a quote, a
backslash or a control character (`SplicesSafe`) and the data objects are ones the parser reads,
the parser reads that text as the object of the members (`parse_rawMembers`), and `compact` turns
it into the encoding of the object (`compact_document`), so `Encode` returns that encoding
(`encode_eq`).

**Reading it back.** `UnmarshalJSON` decodes the encoding into the sorted map of the members, each
data object decoded into a `map[string]interface{}` of its own (`unmarshalAnyMap_encode`), and each
part of the method sets its field from its member. The amount text splits at its one dot into the
amount and the sending currency code when the code is non-empty and has no dot. A data value comes
back when its type's decoder reads the decoded object, written out again, as the value
(`RoundTrips`).

**URL parameters.** `EncodeAsUrlParams` reads the same encoding into the same map and writes one
parameter for each of its members, so the parameters are the members of the request: each once,
with the text `MarshalJSON` gave it, the data objects as JSON texts their types read back.

Main results: `unmarshalJSON_encode`, `encodeAsUrlParams_members`.
-/

namespace Uma

open Go

namespace PayRequest

/-! ## The text of members -/

/-- The text `MarshalJSON` writes for a member's value: a string between quotes as it is, and any
other value as `json.Marshal` wrote it. -/
def rawText : JsonValue → List Char
  | .string s => quoteRaw s.data
  | v => v.encode

/-- A member's value whose text reads back as it: a string that can stand between quotes as it is,
or a value the parser reads inside the request's object. -/
def ValueSafe : JsonValue → Prop
  | .string s => RawSafe s.data
  | v => v.Readable 1

/-- The text `MarshalJSON` writes after the opening brace. -/
def rawMembers : List (String × JsonValue) → List Char
  | [] => ['}']
  | [(k, v)] => memberText k (rawText v) ++ ['}']
  | (k, v) :: ms => memberText k (rawText v) ++ ',' :: rawMembers ms

/-- Members whose keys and values read back as they are. -/
def MembersSafe (ms : List (String × JsonValue)) : Prop :=
  ∀ kv ∈ ms, RawSafe kv.1.data ∧ ValueSafe kv.2

theorem rawMembers_cons_cons (k : String) (v : JsonValue) (m : String × JsonValue)
    (ms : List (String × JsonValue)) :
    rawMembers ((k, v) :: m :: ms) = memberText k (rawText v) ++ ',' :: rawMembers (m :: ms) := rfl

theorem rawMembers_cons (k : String) (v : JsonValue) (ms : List (String × JsonValue)) :
    ∃ rest, rawMembers ((k, v) :: ms) = memberText k (rawText v) ++ rest := by
  cases ms with
  | nil => exact ⟨_, rfl⟩
  | cons m ms => exact ⟨_, rawMembers_cons_cons k v m ms⟩

theorem memberText_append (k : String) (t rest : List Char) :
    memberText k t ++ rest =
      '\n' :: '\t' :: '\t' :: '"' :: (k.data ++ '"' :: ':' :: ' ' :: (t ++ rest)) := by
  simp [memberText]

theorem skipWs_memberText (k : String) (t rest : List Char) :
    skipWs (memberText k t ++ rest) = '"' :: (k.data ++ '"' :: ':' :: ' ' :: (t ++ rest)) := by
  rw [memberText_append]
  rfl

theorem parseValue_space (fuel depth : Nat) (t : List Char) :
    parseValue fuel depth (' ' :: t) = parseValue fuel depth t := by
  cases fuel <;> rfl

/-- The parser reads a member's value back from its text. -/
theorem parseValue_rawText {v : JsonValue} (hv : ValueSafe v) {fuel : Nat} (hf : v.size ≤ fuel)
    {r : List Char} (hr : NumberEnd r) :
    parseValue fuel 1 (' ' :: (rawText v ++ r)) = some (v, r) := by
  rw [parseValue_space]
  cases v with
  | string s =>
    obtain ⟨f, rfl⟩ : ∃ f, fuel = f + 1 := ⟨fuel - 1, by simp only [JsonValue.size] at hf; omega⟩
    simp only [rawText, quoteRaw, List.cons_append, List.append_assoc, List.singleton_append]
    show (parseStringBody none (s.data ++ '"' :: r)).map _ = _
    rw [parseStringBody_raw hv]
    rfl
  | _ => exact parseValue_encode _ fuel 1 r hv hf hr

theorem parseMembers_memberText_comma {k : String} {v : JsonValue} (hk : RawSafe k.data)
    (hv : ValueSafe v) {fuel : Nat} (hf : v.size ≤ fuel) (rest : List Char) :
    parseMembers (fuel + 1) 1 (memberText k (rawText v) ++ ',' :: rest) =
      (parseMembers fuel 1 rest).map fun (ms, s) => ((k, v) :: ms, s) := by
  rw [parseMembers, skipWs_memberText]
  simp only [parseStringBody_raw hk, skipWs_of_isWs (c := ':') rfl,
    parseValue_rawText hv hf (numberEnd_comma rest), skipWs_of_isWs (c := ',') rfl]

theorem parseMembers_memberText_close {k : String} {v : JsonValue} (hk : RawSafe k.data)
    (hv : ValueSafe v) {fuel : Nat} (hf : v.size ≤ fuel) :
    parseMembers (fuel + 1) 1 (memberText k (rawText v) ++ ['}']) = some ([(k, v)], []) := by
  rw [parseMembers, skipWs_memberText]
  simp only [parseStringBody_raw hk, skipWs_of_isWs (c := ':') rfl,
    parseValue_rawText hv hf (numberEnd_brace []), skipWs_of_isWs (c := '}') rfl]

theorem parseMembers_rawMembers : ∀ (ms : List (String × JsonValue)), ms ≠ [] → MembersSafe ms →
    ∀ fuel, sizeMembers ms ≤ fuel → parseMembers fuel 1 (rawMembers ms) = some (ms, [])
  | [], h, _, _, _ => absurd rfl h
  | [(k, v)], _, hs, f + 1, hf => by
    obtain ⟨hk, hv⟩ : RawSafe k.data ∧ ValueSafe v := hs _ (List.mem_singleton_self _)
    rw [rawMembers, parseMembers_memberText_close hk hv (by simp only [sizeMembers] at hf; omega)]
  | (k, v) :: (k', w) :: ms, _, hs, f + 1, hf => by
    obtain ⟨hk, hv⟩ : RawSafe k.data ∧ ValueSafe v := hs _ (List.mem_cons_self _ _)
    have ih := parseMembers_rawMembers ((k', w) :: ms) (List.cons_ne_nil _ _)
      (fun kv h => hs kv (List.mem_cons_of_mem _ h)) f
      (by simp only [sizeMembers] at hf ⊢; omega)
    rw [rawMembers_cons_cons, parseMembers_memberText_comma hk hv
      (by simp only [sizeMembers] at hf; omega), ih]
    rfl
  | (_, v) :: _, _, _, 0, hf => by simp only [sizeMembers] at hf; omega

theorem size_le_rawText {v : JsonValue} (hv : ValueSafe v) :
    v.size ≤ 2 * (rawText v).length + 1 := by
  cases v with
  | string s => simp [JsonValue.size]
  | _ => exact JsonValue.size_le _

theorem sizeMembers_le_rawMembers : ∀ ms : List (String × JsonValue), MembersSafe ms →
    sizeMembers ms ≤ 2 * (rawMembers ms).length
  | [], _ => by simp [sizeMembers]
  | [(k, v)], hs => by
    have := size_le_rawText (v := v) (hs _ (List.mem_singleton_self _)).2
    simp only [sizeMembers, rawMembers, memberText_append, List.length_cons, List.length_append]
    omega
  | (k, v) :: (k', w) :: ms, hs => by
    have h₁ := size_le_rawText (v := v) (hs _ (List.mem_cons_self _ _)).2
    have h₂ := sizeMembers_le_rawMembers ((k', w) :: ms) fun kv h => hs kv (List.mem_cons_of_mem _ h)
    rw [rawMembers_cons_cons]
    simp only [sizeMembers, memberText_append, List.length_cons, List.length_append] at h₂ ⊢
    omega

theorem parse_rawMembers {ms : List (String × JsonValue)} (hne : ms ≠ []) (hs : MembersSafe ms) :
    parse ('{' :: rawMembers ms) = some (.object ms) := by
  obtain ⟨⟨k, v⟩, ms', rfl⟩ := List.exists_cons_of_ne_nil hne
  obtain ⟨rest, hrest⟩ := rawMembers_cons k v ms'
  have hlen := sizeMembers_le_rawMembers _ hs
  unfold parse
  rw [show 2 * ('{' :: rawMembers ((k, v) :: ms')).length + 2 =
      (2 * (rawMembers ((k, v) :: ms')).length + 3) + 1 by simp; omega,
    parseValue_object (by decide) (by simp [hrest, skipWs_memberText]),
    parseMembers_rawMembers _ hne hs _ (by omega)]
  rfl

theorem compact_memberText {k : String} {v : JsonValue} (hk : RawSafe k.data) (hv : ValueSafe v)
    (rest : List Char) :
    compact .outside (memberText k (rawText v) ++ rest) =
      encodeString k ++ ':' :: (v.encode ++ compact .outside rest) := by
  have e₁ : ∀ x, compact .outside ('\n' :: '\t' :: '\t' :: '"' :: x) = '"' :: compact .inString x :=
    fun _ => rfl
  have e₂ : ∀ y, compact .outside (':' :: ' ' :: y) = ':' :: compact .outside y := fun _ => rfl
  have hv' : compact .outside (rawText v ++ rest) = v.encode ++ compact .outside rest := by
    cases v with
    | string s =>
      simp only [rawText, quoteRaw, List.cons_append, List.append_assoc, List.singleton_append]
      show '"' :: compact .inString (s.data ++ '"' :: rest) = _
      rw [compact_raw hv]
      simp [JsonValue.encode, encodeString]
    | _ => exact compact_encode _ 1 rest hv
  rw [memberText_append, e₁, compact_raw hk, e₂, hv']
  simp [encodeString]

theorem compact_rawMembers : ∀ (ms : List (String × JsonValue)), ms ≠ [] → MembersSafe ms →
    compact .outside (rawMembers ms) = encodeMembers ms ++ ['}']
  | [], h, _ => absurd rfl h
  | [(k, v)], _, hs => by
    obtain ⟨hk, hv⟩ : RawSafe k.data ∧ ValueSafe v := hs _ (List.mem_singleton_self _)
    rw [rawMembers, compact_memberText hk hv]
    simp [encodeMembers]
    rfl
  | (k, v) :: (k', w) :: ms, _, hs => by
    obtain ⟨hk, hv⟩ : RawSafe k.data ∧ ValueSafe v := hs _ (List.mem_cons_self _ _)
    have ih := compact_rawMembers ((k', w) :: ms) (List.cons_ne_nil _ _)
      (fun kv h => hs kv (List.mem_cons_of_mem _ h))
    rw [rawMembers_cons_cons, compact_memberText hk hv, compact_cons_punct (by simp), ih]
    simp [encodeMembers_cons_cons]

theorem compact_document {ms : List (String × JsonValue)} (hne : ms ≠ []) (hs : MembersSafe ms) :
    compact .outside ('{' :: rawMembers ms) = (JsonValue.object ms).encode := by
  rw [compact_cons_punct (by simp), compact_rawMembers ms hne hs]
  rfl

/-! ## The members of a request -/

variable {PayerData CounterPartyDataOptions : Type}

/-- The members `MarshalJSON` writes for a request, with the payer and payee data as the objects
`payer` and `payee`. -/
def requestMembers (p : PayRequest PayerData CounterPartyDataOptions)
    (payer : PayerData → List (String × JsonValue))
    (payee : CounterPartyDataOptions → List (String × JsonValue)) : List (String × JsonValue) :=
  ("amount", .string ⟨p.amountText⟩) ::
    ((p.receivingCurrencyCode.map fun c => ("convert", .string c)).toList ++
      (p.payerData.map fun d => ("payerData", .object (payer d))).toList ++
      (p.requestedPayeeData.map fun d => ("payeeData", .object (payee d))).toList ++
      (p.comment.map fun c => ("comment", .string c)).toList)

/-- The strings `MarshalJSON` splices into its document hold no quote, backslash or control
character. -/
def SplicesSafe (p : PayRequest PayerData CounterPartyDataOptions) : Prop :=
  (∀ c ∈ p.sendingAmountCurrencyCode, RawSafe c.data) ∧
    (∀ c ∈ p.receivingCurrencyCode, RawSafe c.data) ∧ ∀ c ∈ p.comment, RawSafe c.data

instance (p : PayRequest PayerData CounterPartyDataOptions) : Decidable p.SplicesSafe :=
  inferInstanceAs (Decidable (_ ∧ _ ∧ _))

theorem rawSafe_formatInt (i : Int) : RawSafe (formatInt i) := fun c hc => by
  rcases mem_formatInt hc with rfl | h
  · decide
  · rw [isDigit_iff] at h
    refine ⟨?_, ?_, by omega⟩ <;> rintro rfl <;> simp at h

theorem rawSafe_append {s t : List Char} (hs : RawSafe s) (ht : RawSafe t) : RawSafe (s ++ t) :=
  fun c hc => (List.mem_append.mp hc).elim (hs c) (ht c)

theorem rawSafe_amountText {p : PayRequest PayerData CounterPartyDataOptions}
    (h : ∀ c ∈ p.sendingAmountCurrencyCode, RawSafe c.data) : RawSafe p.amountText := by
  unfold amountText
  split
  · exact rawSafe_append (rawSafe_formatInt _) fun c hc =>
      (List.mem_cons.mp hc).elim (fun h => h ▸ by decide) (h _ ‹_› c)
  · exact rawSafe_formatInt _

theorem mem_toList_map {β : Type} {o : Option β} {f : β → String × JsonValue}
    {kv : String × JsonValue} (h : kv ∈ (o.map f).toList) : ∃ b ∈ o, kv = f b := by
  cases o <;> simp_all [eq_comm]

theorem membersSafe_requestMembers {p : PayRequest PayerData CounterPartyDataOptions}
    {payer : PayerData → List (String × JsonValue)}
    {payee : CounterPartyDataOptions → List (String × JsonValue)} (h : p.SplicesSafe)
    (h₁ : ∀ d ∈ p.payerData, (JsonValue.object (payer d)).Readable 1)
    (h₂ : ∀ d ∈ p.requestedPayeeData, (JsonValue.object (payee d)).Readable 1) :
    MembersSafe (p.requestMembers payer payee) := by
  obtain ⟨hcode, hconv, hcomment⟩ := h
  intro kv hkv
  simp only [requestMembers, List.mem_cons, List.mem_append] at hkv
  rcases hkv with rfl | ((hkv | hkv) | hkv) | hkv
  · exact ⟨(by decide : RawSafe "amount".data), rawSafe_amountText hcode⟩
  all_goals obtain ⟨b, hb, rfl⟩ := mem_toList_map hkv
  · exact ⟨(by decide : RawSafe "convert".data), hconv b hb⟩
  · exact ⟨(by decide : RawSafe "payerData".data), h₁ b hb⟩
  · exact ⟨(by decide : RawSafe "payeeData".data), h₂ b hb⟩
  · exact ⟨(by decide : RawSafe "comment".data), hcomment b hb⟩

/-! ## Decoding the members -/

theorem mapGet_toList_map {β : Type} (o : Option β) (key k : String) (f : β → JsonValue) :
    mapGet (o.map fun b => (key, f b)).toList.reverse k = if k = key then o.map f else none := by
  cases o <;> simp [mapGet_cons]

section Lookups

variable (p : PayRequest PayerData CounterPartyDataOptions)
  (payer : PayerData → List (String × JsonValue))
  (payee : CounterPartyDataOptions → List (String × JsonValue))

theorem mapGet_amount :
    mapGet (toMap (p.requestMembers payer payee)) "amount" = some (.string ⟨p.amountText⟩) := by
  simp [requestMembers, mapGet_toMap, mapGet_append, mapGet_toList_map, mapGet_cons]

theorem mapGet_convert :
    mapGet (toMap (p.requestMembers payer payee)) "convert" = p.receivingCurrencyCode.map .string := by
  simp [requestMembers, mapGet_toMap, mapGet_append, mapGet_toList_map, mapGet_cons]

theorem mapGet_payerData :
    mapGet (toMap (p.requestMembers payer payee)) "payerData" =
      p.payerData.map fun d => .object (payer d) := by
  simp [requestMembers, mapGet_toMap, mapGet_append, mapGet_toList_map, mapGet_cons]

theorem mapGet_payeeData :
    mapGet (toMap (p.requestMembers payer payee)) "payeeData" =
      p.requestedPayeeData.map fun d => .object (payee d) := by
  simp [requestMembers, mapGet_toMap, mapGet_append, mapGet_toList_map, mapGet_cons]

theorem mapGet_comment :
    mapGet (toMap (p.requestMembers payer payee)) "comment" = p.comment.map .string := by
  simp [requestMembers, mapGet_toMap, mapGet_append, mapGet_toList_map, mapGet_cons]

end Lookups

theorem readableMembers_of_forall {depth : Nat} :
    ∀ {ms : List (String × JsonValue)}, (∀ kv ∈ ms, kv.2.Readable depth) → ReadableMembers depth ms
  | [], _ => trivial
  | (_, _) :: _, h => ⟨h _ (List.mem_cons_self _ _), readableMembers_of_forall fun kv hkv =>
      h kv (List.mem_cons_of_mem _ hkv)⟩

theorem readableMembers_requestMembers {p : PayRequest PayerData CounterPartyDataOptions}
    {payer : PayerData → List (String × JsonValue)}
    {payee : CounterPartyDataOptions → List (String × JsonValue)}
    (h₁ : ∀ d ∈ p.payerData, (JsonValue.object (payer d)).Readable 1)
    (h₂ : ∀ d ∈ p.requestedPayeeData, (JsonValue.object (payee d)).Readable 1) :
    ReadableMembers 1 (p.requestMembers payer payee) := by
  refine readableMembers_of_forall fun kv hkv => ?_
  simp only [requestMembers, List.mem_cons, List.mem_append] at hkv
  rcases hkv with rfl | ((hkv | hkv) | hkv) | hkv
  · trivial
  all_goals obtain ⟨b, hb, rfl⟩ := mem_toList_map hkv
  · trivial
  · exact h₁ b hb
  · exact h₂ b hb
  · trivial

theorem decodeAnyMembers_cons {k : String} {v v' : JsonValue} {l l' : List (String × JsonValue)}
    (hv : decodeAny v = .ok v') (hl : decodeAnyMembers l = .ok l') :
    decodeAnyMembers ((k, v) :: l) = .ok ((k, v') :: l') := by
  simp only [decodeAnyMembers, hv, hl]
  rfl

theorem decodeAnyMembers_append {l₁ l₂ a b : List (String × JsonValue)}
    (h₁ : decodeAnyMembers l₁ = .ok a) (h₂ : decodeAnyMembers l₂ = .ok b) :
    decodeAnyMembers (l₁ ++ l₂) = .ok (a ++ b) := by
  induction l₁ generalizing a with
  | nil => cases h₁; exact h₂
  | cons kv l₁ ih =>
    obtain ⟨k, v⟩ := kv
    cases hv : decodeAny v with
    | error e => simp [decodeAnyMembers, hv, bind, Except.bind] at h₁
    | ok v' =>
      cases hl : decodeAnyMembers l₁ with
      | error e => simp [decodeAnyMembers, hv, hl, bind, Except.bind] at h₁
      | ok l' =>
        rw [decodeAnyMembers_cons hv hl] at h₁
        cases h₁
        exact decodeAnyMembers_cons hv (ih hl)

theorem decodeAnyMembers_toList {β : Type} {o : Option β} (key : String) {v v' : β → JsonValue}
    (h : ∀ b ∈ o, decodeAny (v b) = .ok (v' b)) :
    decodeAnyMembers (o.map fun b => (key, v b)).toList = .ok (o.map fun b => (key, v' b)).toList := by
  cases o with
  | none => rfl
  | some b =>
    simp only [Option.map_some', Option.toList_some, decodeAnyMembers, h b rfl]
    rfl

theorem decodeAny_object {m m' : List (String × JsonValue)} (h : decodeAnyMembers m = .ok m') :
    decodeAny (.object m) = .ok (.object (toMap m')) := by
  simp only [decodeAny, h]
  rfl

/-- Decoding into a `map[string]interface{}` keeps the strings and decodes the data objects. -/
theorem decodeAnyMembers_requestMembers {p : PayRequest PayerData CounterPartyDataOptions}
    {payer payer' : PayerData → List (String × JsonValue)}
    {payee payee' : CounterPartyDataOptions → List (String × JsonValue)}
    (h₁ : ∀ d ∈ p.payerData, decodeAnyMembers (payer d) = .ok (payer' d))
    (h₂ : ∀ d ∈ p.requestedPayeeData, decodeAnyMembers (payee d) = .ok (payee' d)) :
    decodeAnyMembers (p.requestMembers payer payee) =
      .ok (p.requestMembers (fun d => toMap (payer' d)) fun d => toMap (payee' d)) := by
  have hs : ∀ (o : Option String) (key : String),
      decodeAnyMembers (o.map fun c => (key, JsonValue.string c)).toList =
        .ok (o.map fun c => (key, JsonValue.string c)).toList :=
    fun _ key => decodeAnyMembers_toList key fun _ _ => rfl
  have h := decodeAnyMembers_append (decodeAnyMembers_append (decodeAnyMembers_append
    (hs p.receivingCurrencyCode "convert")
    (decodeAnyMembers_toList "payerData" fun d hd => decodeAny_object (h₁ d hd)))
    (decodeAnyMembers_toList "payeeData" fun d hd => decodeAny_object (h₂ d hd)))
    (hs p.comment "comment")
  simp only [requestMembers, decodeAnyMembers, h]
  rfl

/-- The encoding of a request's members decodes into a `map[string]interface{}` of the members,
with the data objects decoded. -/
theorem unmarshalAnyMap_requestMembers {p : PayRequest PayerData CounterPartyDataOptions}
    {payer payer' : PayerData → List (String × JsonValue)}
    {payee payee' : CounterPartyDataOptions → List (String × JsonValue)}
    (h₁ : ∀ d ∈ p.payerData, (JsonValue.object (payer d)).Readable 1 ∧
      decodeAnyMembers (payer d) = .ok (payer' d))
    (h₂ : ∀ d ∈ p.requestedPayeeData, (JsonValue.object (payee d)).Readable 1 ∧
      decodeAnyMembers (payee d) = .ok (payee' d)) :
    unmarshalAnyMap (JsonValue.object (p.requestMembers payer payee)).encode =
      .ok (toMap (p.requestMembers (fun d => toMap (payer' d)) fun d => toMap (payee' d))) := by
  rw [unmarshalAnyMap_encode (readableMembers_requestMembers (fun d hd => (h₁ d hd).1)
    (fun d hd => (h₂ d hd).1)), decodeAnyMembers_requestMembers (fun d hd => (h₁ d hd).2)
    (fun d hd => (h₂ d hd).2)]
  rfl

/-! ## Encoding and decoding -/

section Codec

variable [JsonCodec PayerData] [JsonCodec CounterPartyDataOptions]

/-- What `MarshalJSON` writes, when `json.Marshal` writes the payer and payee data as the objects
`payer` and `payee`. -/
theorem marshalJSON_eq {p : PayRequest PayerData CounterPartyDataOptions}
    {payer : PayerData → List (String × JsonValue)}
    {payee : CounterPartyDataOptions → List (String × JsonValue)}
    (h₁ : ∀ d ∈ p.payerData, JsonCodec.marshal d = .ok (JsonValue.object (payer d)).encode)
    (h₂ : ∀ d ∈ p.requestedPayeeData, JsonCodec.marshal d = .ok (JsonValue.object (payee d)).encode) :
    p.marshalJSON = .ok ('{' :: rawMembers (p.requestMembers payer payee)) := by
  rcases p with ⟨code, conv, amount, _ | d, _ | e, comment⟩
  all_goals
    simp only [Option.mem_def, Option.some.injEq, forall_eq', reduceCtorEq, false_implies,
      implies_true] at h₁ h₂
    cases conv <;> cases comment <;>
      simp only [marshalJSON, h₁, h₂, Option.isSome_none, Option.isSome_some, Bool.false_eq_true,
        if_true, if_false, List.cons_append, List.append_assoc, bind_pure_comp, map_pure,
        Except.map_ok, pure_bind, rawMembers, rawText] <;> rfl

/-- `Encode` returns the encoding of the object of the request's members. -/
theorem encode_eq {p : PayRequest PayerData CounterPartyDataOptions}
    {payer : PayerData → List (String × JsonValue)}
    {payee : CounterPartyDataOptions → List (String × JsonValue)} (h : p.SplicesSafe)
    (h₁ : ∀ d ∈ p.payerData, JsonCodec.marshal d = .ok (JsonValue.object (payer d)).encode ∧
      (JsonValue.object (payer d)).Readable 1)
    (h₂ : ∀ d ∈ p.requestedPayeeData, JsonCodec.marshal d = .ok (JsonValue.object (payee d)).encode ∧
      (JsonValue.object (payee d)).Readable 1) :
    p.encode = .ok (JsonValue.object (p.requestMembers payer payee)).encode := by
  have hs := membersSafe_requestMembers h (fun d hd => (h₁ d hd).2) (fun d hd => (h₂ d hd).2)
  have hne : p.requestMembers payer payee ≠ [] := List.cons_ne_nil _ _
  rw [encode, marshalJSON_eq (fun d hd => (h₁ d hd).1) (fun d hd => (h₂ d hd).1), marshalMarshaler,
    parse_rawMembers hne hs, compact_document hne hs]
  rfl

/-- `UnmarshalJSON` reads the encoding of a request's members into any receiver: it sets the amount
and every field the request sets, and keeps the receiver's other fields, when the data objects
decode into maps that their types' decoders read back. -/
theorem unmarshalJSON_requestMembers_into (floatText : String → String)
    {p : PayRequest PayerData CounterPartyDataOptions}
    {payer payer' : PayerData → List (String × JsonValue)}
    {payee payee' : CounterPartyDataOptions → List (String × JsonValue)}
    (hcode : ∀ c ∈ p.sendingAmountCurrencyCode, '.' ∉ c.data ∧ c ≠ "")
    (h₁ : ∀ d ∈ p.payerData, (JsonValue.object (payer d)).Readable 1 ∧
      decodeAnyMembers (payer d) = .ok (payer' d) ∧
      JsonCodec.unmarshal (marshalAny floatText (.object (toMap (payer' d)))) = .ok d)
    (h₂ : ∀ d ∈ p.requestedPayeeData, (JsonValue.object (payee d)).Readable 1 ∧
      decodeAnyMembers (payee d) = .ok (payee' d) ∧
      JsonCodec.unmarshal (marshalAny floatText (.object (toMap (payee' d)))) = .ok d)
    (q : PayRequest PayerData CounterPartyDataOptions) :
    unmarshalJSON floatText (JsonValue.object (p.requestMembers payer payee)).encode q =
      (⟨p.sendingAmountCurrencyCode.or q.sendingAmountCurrencyCode,
        p.receivingCurrencyCode.or q.receivingCurrencyCode, p.amount, p.payerData.or q.payerData,
        p.requestedPayeeData.or q.requestedPayeeData, p.comment.or q.comment⟩, .ok ()) := by
  rw [unmarshalJSON, unmarshalAnyMap_requestMembers (fun d hd => ⟨(h₁ d hd).1, (h₁ d hd).2.1⟩)
    fun d hd => ⟨(h₂ d hd).1, (h₂ d hd).2.1⟩]
  dsimp only
  rw [unmarshalConvert_of_mapGet (mapGet_convert _ _ _), unmarshalAmount_of_mapGet (q := p)
      (mapGet_amount _ _ _) hcode,
    unmarshalPayerData_of_decodeMember (decodeMember_of_mapGet (mapGet_payerData _ _ _)
      fun d hd => (h₁ d hd).2.2),
    unmarshalPayeeData_of_decodeMember (decodeMember_of_mapGet (mapGet_payeeData _ _ _)
      fun d hd => (h₂ d hd).2.2) (mapGet_comment _ _ _)]

/-- `UnmarshalJSON` on a zero receiver reads the encoding of a request's members back into the
request, when the data objects decode into maps that their types' decoders read back. -/
theorem unmarshalJSON_requestMembers (floatText : String → String)
    {p : PayRequest PayerData CounterPartyDataOptions}
    {payer payer' : PayerData → List (String × JsonValue)}
    {payee payee' : CounterPartyDataOptions → List (String × JsonValue)}
    (hcode : ∀ c ∈ p.sendingAmountCurrencyCode, '.' ∉ c.data ∧ c ≠ "")
    (h₁ : ∀ d ∈ p.payerData, (JsonValue.object (payer d)).Readable 1 ∧
      decodeAnyMembers (payer d) = .ok (payer' d) ∧
      JsonCodec.unmarshal (marshalAny floatText (.object (toMap (payer' d)))) = .ok d)
    (h₂ : ∀ d ∈ p.requestedPayeeData, (JsonValue.object (payee d)).Readable 1 ∧
      decodeAnyMembers (payee d) = .ok (payee' d) ∧
      JsonCodec.unmarshal (marshalAny floatText (.object (toMap (payee' d)))) = .ok d) :
    unmarshalJSON floatText (JsonValue.object (p.requestMembers payer payee)).encode zero =
      (p, .ok ()) := by
  rw [unmarshalJSON_requestMembers_into floatText hcode h₁ h₂]
  simp only [zero, Option.or_none]

/-! ## The round trip -/

/-- A payer or payee data value that comes back through `Encode` and `UnmarshalJSON`:
`json.Marshal` writes it as an object that the parser reads inside the request, and that object,
decoded into a `map[string]interface{}` and written out again, decodes to the value. -/
def RoundTrips {α : Type} [JsonCodec α] (floatText : String → String) (d : α) : Prop :=
  ∃ m, JsonCodec.marshal d = .ok (JsonValue.object m).encode ∧ (JsonValue.object m).Readable 1 ∧
    ∃ m', decodeAnyMembers m = .ok m' ∧
      JsonCodec.unmarshal (marshalAny floatText (.object (toMap m'))) = .ok d

theorem exists_members_of_roundTrips {α : Type} [JsonCodec α] {floatText : String → String}
    {o : Option α} (h : ∀ d ∈ o, RoundTrips floatText d) :
    ∃ m m' : α → List (String × JsonValue), ∀ d ∈ o,
      JsonCodec.marshal d = .ok (JsonValue.object (m d)).encode ∧
        (JsonValue.object (m d)).Readable 1 ∧ decodeAnyMembers (m d) = .ok (m' d) ∧
        JsonCodec.unmarshal (marshalAny floatText (.object (toMap (m' d)))) = .ok d := by
  cases o with
  | none => exact ⟨fun _ => [], fun _ => [], fun _ hd => nomatch hd⟩
  | some d =>
    obtain ⟨m, hm, hr, m', hd, hu⟩ := h d rfl
    exact ⟨fun _ => m, fun _ => m', fun _ he => by cases he; exact ⟨hm, hr, hd, hu⟩⟩

/-- A request whose spliced strings hold no quote, backslash or control character, whose sending
currency code is non-empty and has no dot, and whose payer and payee data come back through
`map[string]interface{}`, is encoded, and `UnmarshalJSON` on a zero receiver reads the encoding
back into the same request. -/
theorem unmarshalJSON_encode (floatText : String → String)
    {p : PayRequest PayerData CounterPartyDataOptions} (hs : p.SplicesSafe)
    (hcode : ∀ c ∈ p.sendingAmountCurrencyCode, '.' ∉ c.data ∧ c ≠ "")
    (h₁ : ∀ d ∈ p.payerData, RoundTrips floatText d)
    (h₂ : ∀ d ∈ p.requestedPayeeData, RoundTrips floatText d) :
    ∃ data, p.encode = .ok data ∧ unmarshalJSON floatText data zero = (p, .ok ()) := by
  obtain ⟨payer, payer', hp⟩ := exists_members_of_roundTrips h₁
  obtain ⟨payee, payee', hq⟩ := exists_members_of_roundTrips h₂
  exact ⟨_, encode_eq hs (fun d hd => ⟨(hp d hd).1, (hp d hd).2.1⟩)
    (fun d hd => ⟨(hq d hd).1, (hq d hd).2.1⟩),
    unmarshalJSON_requestMembers floatText hcode (fun d hd => (hp d hd).2) fun d hd => (hq d hd).2⟩

end Codec

/-- `struct{}` comes back: it is written as an empty object, which decodes to an empty map. -/
theorem roundTrips_unit (floatText : String → String) : RoundTrips floatText () :=
  ⟨[], rfl, ⟨by decide, trivial⟩, [], rfl, rfl⟩

theorem unmarshalJSON_encode_usd :
    let p : PayRequest Unit Unit :=
      ⟨some "USD", some "EUR", 1000, some (), some (), some "for <lunch> & more"⟩
    ∃ data, p.encode = .ok data ∧ unmarshalJSON id data zero = (p, .ok ()) :=
  unmarshalJSON_encode id (by decide) (by decide) (fun _ _ => roundTrips_unit id)
    fun _ _ => roundTrips_unit id

section Params

variable [JsonCodec PayerData] [JsonCodec CounterPartyDataOptions]

/-! ## URL parameters -/

theorem encodeAsUrlParams_of_map (floatText : String → String)
    {p : PayRequest PayerData CounterPartyDataOptions} {data : List Char}
    {jsonMap : List (String × JsonValue)} (he : p.encode = .ok data)
    (hm : unmarshalAnyMap data = .ok jsonMap) :
    p.encodeAsUrlParams floatText =
      .ok (jsonMap.map fun kv => (kv.1, [paramValue floatText kv.2])) := by
  have h := Values.foldl_add (paramValue floatText) jsonMap []
    (sortedKeys_of_unmarshalAnyMap hm).pairwise_ne (by simp)
  rw [List.nil_append] at h
  simp only [encodeAsUrlParams, he, hm, bind, Except.bind, pure, Except.pure, h]

/-- The parameter of a data member: one JSON text, which the data's type decodes back. -/
theorem mapGet_dataParam {α : Type} [JsonCodec α] {floatText : String → String}
    {m' : α → List (String × JsonValue)} {o : Option α}
    (hd : ∀ d ∈ o, JsonCodec.unmarshal (marshalAny floatText (.object (toMap (m' d)))) = .ok d)
    {x : Option JsonValue} (hx : x = o.map fun d => .object (toMap (m' d))) :
    (x.map fun v => [paramValue floatText v]).map (List.map fun t => JsonCodec.unmarshal t.data) =
      o.map fun d => [(.ok d : Except GoError α)] := by
  subst hx
  cases o with
  | none => rfl
  | some d => simp only [Option.map_some', List.map_cons, List.map_nil, paramValue, hd d rfl]

/-- **What `EncodeAsUrlParams` sends.** For every request whose spliced strings hold no quote,
backslash or control character and whose payer and payee data come back through
`map[string]interface{}`, `EncodeAsUrlParams` succeeds and writes each member of the request once,
with one value: the amount as the text `MarshalJSON` writes for it, the currency code to convert
to and the comment as they are, and the payer and payee data as JSON texts that their types decode
back into the same data. It writes no other parameter. -/
theorem encodeAsUrlParams_members (floatText : String → String)
    {p : PayRequest PayerData CounterPartyDataOptions} (hs : p.SplicesSafe)
    (h₁ : ∀ d ∈ p.payerData, RoundTrips floatText d)
    (h₂ : ∀ d ∈ p.requestedPayeeData, RoundTrips floatText d) :
    ∃ params, p.encodeAsUrlParams floatText = .ok params ∧ (params.map Prod.fst).Nodup ∧
      mapGet params "amount" = some [⟨p.amountText⟩] ∧
      mapGet params "convert" = p.receivingCurrencyCode.map (fun c => [c]) ∧
      mapGet params "comment" = p.comment.map (fun c => [c]) ∧
      (mapGet params "payerData").map (List.map fun t => JsonCodec.unmarshal t.data) =
        p.payerData.map (fun d => [.ok d]) ∧
      (mapGet params "payeeData").map (List.map fun t => JsonCodec.unmarshal t.data) =
        p.requestedPayeeData.map (fun d => [.ok d]) ∧
      ∀ k, k ∉ ["amount", "convert", "payerData", "payeeData", "comment"] →
        mapGet params k = none := by
  obtain ⟨payer, payer', hp⟩ := exists_members_of_roundTrips h₁
  obtain ⟨payee, payee', hq⟩ := exists_members_of_roundTrips h₂
  have he := encode_eq hs (fun d hd => ⟨(hp d hd).1, (hp d hd).2.1⟩)
    (fun d hd => ⟨(hq d hd).1, (hq d hd).2.1⟩)
  have hm := unmarshalAnyMap_requestMembers (fun d hd => ⟨(hp d hd).2.1, (hp d hd).2.2.1⟩)
    (fun d hd => ⟨(hq d hd).2.1, (hq d hd).2.2.1⟩)
  refine ⟨_, encodeAsUrlParams_of_map floatText he hm, ?_, ?_, ?_, ?_, ?_, ?_, fun k hk => ?_⟩
  · -- the keys of a decoded map are distinct
    rw [List.map_map]
    exact List.pairwise_map.mpr (sortedKeys_toMap _).pairwise_ne
  · rw [mapGet_map (fun v => [paramValue floatText v]), mapGet_amount]; rfl
  · rw [mapGet_map (fun v => [paramValue floatText v]), mapGet_convert, Option.map_map]; rfl
  · rw [mapGet_map (fun v => [paramValue floatText v]), mapGet_comment, Option.map_map]; rfl
  · rw [mapGet_map (fun v => [paramValue floatText v])]
    exact mapGet_dataParam (fun d hd => (hp d hd).2.2.2) (mapGet_payerData _ _ _)
  · rw [mapGet_map (fun v => [paramValue floatText v])]
    exact mapGet_dataParam (fun d hd => (hq d hd).2.2.2) (mapGet_payeeData _ _ _)
  · simp only [List.mem_cons, List.not_mem_nil, or_false, not_or] at hk
    rw [mapGet_map (fun v => [paramValue floatText v])]
    simp [requestMembers, mapGet_toMap, mapGet_append, mapGet_toList_map, mapGet_cons, hk]

end Params

/-- The request of `unmarshalJSON_encode_usd` is sent as five parameters. -/
theorem encodeAsUrlParams_members_usd :
    let p : PayRequest Unit Unit :=
      ⟨some "USD", some "EUR", 1000, some (), some (), some "for <lunch> & more"⟩
    ∃ params, p.encodeAsUrlParams id = .ok params ∧ (params.map Prod.fst).Nodup ∧
      mapGet params "amount" = some [⟨p.amountText⟩] ∧
      mapGet params "convert" = p.receivingCurrencyCode.map (fun c => [c]) ∧
      mapGet params "comment" = p.comment.map (fun c => [c]) ∧
      (mapGet params "payerData").map (List.map fun t => JsonCodec.unmarshal t.data) =
        p.payerData.map (fun d => [.ok d]) ∧
      (mapGet params "payeeData").map (List.map fun t => JsonCodec.unmarshal t.data) =
        p.requestedPayeeData.map (fun d => [.ok d]) ∧
      ∀ k, k ∉ ["amount", "convert", "payerData", "payeeData", "comment"] →
        mapGet params k = none :=
  encodeAsUrlParams_members id (by decide) (fun _ _ => roundTrips_unit id)
    fun _ _ => roundTrips_unit id

end PayRequest

end Uma
