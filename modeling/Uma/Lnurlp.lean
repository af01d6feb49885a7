import Uma.Go.Url

/-!
# The first round trip: `LnurlpRequest` and `LnurlpResponse`

The sending VASP asks the receiving VASP about a receiver with an `LnurlpRequest`, sent as the
query of a URL. A request is an UMA request when it carries the five compliance fields; the
travel-rule flag is optional even then. `AsUmaRequest` turns such a request into an
`UmaLnurlpRequest`, whose fields are no longer optional, and `EncodeToUrl` writes it as a URL.

The responses have the same two forms, `LnurlpResponse` and `UmaLnurlpResponse`.

Pointers are `Option`s. A dereference is `Go.deref`, which panics on `none`, so the functions that
dereference return in `Go.Run`.

* `encodeToUrl_spec`: what `EncodeToUrl` does on every request, an error, a panic or a URL, with
  the condition on the request that leads to each.
* `encodeToUrl_panics`: it panics on every UMA request that leaves out the travel-rule flag and
  has a well-formed address, although `AsUmaRequest` reads the missing flag as `false`.
* `encodeToUrl_query`: the query of an UMA request's URL splits back into exactly its six
  parameters, whatever characters the fields hold.
-/

namespace Uma

open Go

/-- `time.Time`, of which the package reads only `Unix()`. -/
structure Time where
  unix : Int64
deriving DecidableEq

/-- `LnurlpRequest`. -/
structure LnurlpRequest where
  receiverAddress : String
  nonce : Option String
  signature : Option String
  isSubjectToTravelRule : Option Bool
  vaspDomain : Option String
  timestamp : Option Time
  umaVersion : Option String
deriving DecidableEq

/-- `UmaLnurlpRequest`, which embeds the `LnurlpRequest` it was made from. -/
structure UmaLnurlpRequest where
  lnurlpRequest : LnurlpRequest
  receiverAddress : String
  nonce : String
  signature : String
  isSubjectToTravelRule : Bool
  vaspDomain : String
  timestamp : Time
  umaVersion : String
deriving DecidableEq

namespace LnurlpRequest

variable (q : LnurlpRequest)

/-- `IsUmaRequest`. -/
def isUmaRequest : Bool :=
  q.vaspDomain.isSome && q.nonce.isSome && q.signature.isSome && q.timestamp.isSome &&
    q.umaVersion.isSome

/-- `AsUmaRequest`. The travel-rule flag is `q.IsSubjectToTravelRule != nil &&
*q.IsSubjectToTravelRule`. -/
def asUmaRequest : Run (Option UmaLnurlpRequest) :=
  if !q.isUmaRequest then pure none else do
  let nonce ← deref q.nonce
  let signature ← deref q.signature
  let vaspDomain ← deref q.vaspDomain
  let timestamp ← deref q.timestamp
  let umaVersion ← deref q.umaVersion
  pure (some
    { lnurlpRequest := q
      receiverAddress := q.receiverAddress
      nonce := nonce
      signature := signature
      isSubjectToTravelRule := q.isSubjectToTravelRule.getD false
      vaspDomain := vaspDomain
      timestamp := timestamp
      umaVersion := umaVersion })

variable (isDomainLocalhost : String → Bool)

/-- `EncodeToUrl`. `IsDomainLocalhost` is defined outside this file and is a parameter here. -/
def encodeToUrl : Run (Except GoError URL) :=
  match split q.receiverAddress '@' with
  | [user, host] => do
    let scheme := if isDomainLocalhost host then "http" else "https"
    let queryParams : Values := []
    let queryParams ← if q.isUmaRequest then do
        let signature ← deref q.signature
        let vaspDomain ← deref q.vaspDomain
        let nonce ← deref q.nonce
        let isSubjectToTravelRule ← deref q.isSubjectToTravelRule
        let timestamp ← deref q.timestamp
        let umaVersion ← deref q.umaVersion
        pure (((((queryParams.add "signature" signature).add "vaspDomain" vaspDomain).add
          "nonce" nonce).add "isSubjectToTravelRule" (formatBool isSubjectToTravelRule)).add
          "timestamp" ⟨formatInt timestamp.unix.val⟩ |>.add "umaVersion" umaVersion)
      else pure queryParams
    pure (.ok
      { scheme := scheme
        host := host
        path := "/.well-known/lnurlp/" ++ user
        rawQuery := queryParams.encode })
  | _ => pure (.error (.new "invalid receiver address"))

/-- `signablePayload`: `ReceiverAddress|Nonce|Timestamp`. -/
def signablePayload : Except GoError String :=
  match q.timestamp, q.nonce with
  | some timestamp, some nonce =>
    .ok (join [q.receiverAddress, nonce, ⟨formatInt timestamp.unix.val⟩] '|')
  | _, _ => .error (.new "timestamp and nonce are required for signing")

/-! ### What `AsUmaRequest` and `EncodeToUrl` return -/

theorem isUmaRequest_iff : q.isUmaRequest = true ↔
    ∃ d n s t v, q.vaspDomain = some d ∧ q.nonce = some n ∧ q.signature = some s ∧
      q.timestamp = some t ∧ q.umaVersion = some v := by
  simp only [isUmaRequest, Bool.and_eq_true, Option.isSome_iff_exists]
  constructor
  · rintro ⟨⟨⟨⟨⟨d, hd⟩, n, hn⟩, s, hs⟩, t, ht⟩, v, hv⟩; exact ⟨d, n, s, t, v, hd, hn, hs, ht, hv⟩
  · rintro ⟨d, n, s, t, v, hd, hn, hs, ht, hv⟩; exact ⟨⟨⟨⟨⟨d, hd⟩, n, hn⟩, s, hs⟩, t, ht⟩, v, hv⟩

theorem asUmaRequest_of_fields {d n s v : String} {t : Time} (hd : q.vaspDomain = some d)
    (hn : q.nonce = some n) (hs : q.signature = some s) (ht : q.timestamp = some t)
    (hv : q.umaVersion = some v) :
    q.asUmaRequest = .returns (some
      { lnurlpRequest := q
        receiverAddress := q.receiverAddress
        nonce := n
        signature := s
        isSubjectToTravelRule := q.isSubjectToTravelRule.getD false
        vaspDomain := d
        timestamp := t
        umaVersion := v }) := by
  have h : q.isUmaRequest = true := (q.isUmaRequest_iff).mpr ⟨d, n, s, t, v, hd, hn, hs, ht, hv⟩
  simp [asUmaRequest, h, hd, hn, hs, ht, hv]

/-- The query parameters `EncodeToUrl` adds for an UMA request, in the order it adds them. -/
def umaQueryParams (r : UmaLnurlpRequest) : Values :=
  [("signature", [r.signature]), ("vaspDomain", [r.vaspDomain]), ("nonce", [r.nonce]),
    ("isSubjectToTravelRule", [formatBool r.isSubjectToTravelRule]),
    ("timestamp", [⟨formatInt r.timestamp.unix.val⟩]), ("umaVersion", [r.umaVersion])]

theorem split_eq_pair {q : LnurlpRequest} (h : q.receiverAddress.data.count '@' = 1) :
    ∃ user host, split q.receiverAddress '@' = [user, host] ∧
      join [user, host] '@' = q.receiverAddress := by
  have hlen := length_split q.receiverAddress '@'
  rw [h] at hlen
  match hs : split q.receiverAddress '@', hlen with
  | [user, host], _ => exact ⟨user, host, rfl, hs ▸ join_split _ _⟩

theorem encodeToUrl_invalid (h : q.receiverAddress.data.count '@' ≠ 1) :
    q.encodeToUrl isDomainLocalhost = .returns (.error (.new "invalid receiver address")) := by
  have hlen := length_split q.receiverAddress '@'
  unfold encodeToUrl
  split
  · rename_i user host hs
    rw [hs] at hlen; simp at hlen; omega
  · rfl

theorem add_umaQueryParams (r : UmaLnurlpRequest) :
    Values.add (Values.add (Values.add (Values.add (Values.add (Values.add []
      "signature" r.signature) "vaspDomain" r.vaspDomain) "nonce" r.nonce)
      "isSubjectToTravelRule" (formatBool r.isSubjectToTravelRule))
      "timestamp" ⟨formatInt r.timestamp.unix.val⟩) "umaVersion" r.umaVersion =
      umaQueryParams r := by
  simp [Values.add, umaQueryParams]

/-- A request that is not an UMA request gets a URL with no query. -/
theorem encodeToUrl_of_not_uma (h : q.receiverAddress.data.count '@' = 1)
    (hq : q.isUmaRequest = false) :
    ∃ user host, join [user, host] '@' = q.receiverAddress ∧
      q.encodeToUrl isDomainLocalhost = .returns (.ok
        { scheme := if isDomainLocalhost host then "http" else "https"
          host := host
          path := "/.well-known/lnurlp/" ++ user
          rawQuery := "" }) := by
  obtain ⟨user, host, hs, hj⟩ := split_eq_pair h
  refine ⟨user, host, hj, ?_⟩
  simp [encodeToUrl, hs, hq]

/-- An UMA request with the travel-rule flag set gets exactly the six parameters of its
`AsUmaRequest`, with the flag written by `FormatBool` and the timestamp in Unix seconds. -/
theorem encodeToUrl_of_uma (h : q.receiverAddress.data.count '@' = 1) {d n s v : String}
    {t : Time} {b : Bool} (hd : q.vaspDomain = some d) (hn : q.nonce = some n)
    (hs : q.signature = some s) (ht : q.timestamp = some t) (hv : q.umaVersion = some v)
    (hb : q.isSubjectToTravelRule = some b) :
    ∃ user host r, join [user, host] '@' = q.receiverAddress ∧
      q.asUmaRequest = .returns (some r) ∧ r.isSubjectToTravelRule = b ∧
      q.encodeToUrl isDomainLocalhost = .returns (.ok
        { scheme := if isDomainLocalhost host then "http" else "https"
          host := host
          path := "/.well-known/lnurlp/" ++ user
          rawQuery := (umaQueryParams r).encode }) := by
  obtain ⟨user, host, hsplit, hj⟩ := split_eq_pair h
  refine ⟨user, host, _, hj, q.asUmaRequest_of_fields hd hn hs ht hv, by simp [hb], ?_⟩
  have hq : q.isUmaRequest = true := (q.isUmaRequest_iff).mpr ⟨d, n, s, t, v, hd, hn, hs, ht, hv⟩
  simp only [encodeToUrl, hsplit, hq, if_true, hd, hn, hs, ht, hv, hb, deref_some,
    Run.returns_bind]
  rw [← add_umaQueryParams]
  rfl

/-- An UMA request without the travel-rule flag makes `EncodeToUrl` dereference a nil pointer. -/
theorem encodeToUrl_panics (h : q.receiverAddress.data.count '@' = 1)
    (hq : q.isUmaRequest = true) (hb : q.isSubjectToTravelRule = none) :
    q.encodeToUrl isDomainLocalhost = .panics nilDereference := by
  obtain ⟨user, host, hsplit, -⟩ := split_eq_pair h
  obtain ⟨d, n, s, t, v, hd, hn, hs, ht, hv⟩ := (q.isUmaRequest_iff).mp hq
  simp [encodeToUrl, hsplit, hq, hd, hn, hs, hb]

end LnurlpRequest

/-- A compliant request for `bob@vasp.com` that leaves out the travel-rule flag. -/
def bobRequest : LnurlpRequest where
  receiverAddress := "bob@vasp.com"
  nonce := some "abc"
  signature := some "c2lnbmF0dXJl"
  isSubjectToTravelRule := none
  vaspDomain := some "vasp1.com"
  timestamp := some ⟨1700000000⟩
  umaVersion := some "1.0"

/-- `AsUmaRequest` reads the missing flag as `false`, but `EncodeToUrl` panics on the request. -/
theorem encodeToUrl_bobRequest_panics (isDomainLocalhost : String → Bool) :
    (∃ r, bobRequest.asUmaRequest = .returns (some r) ∧ r.isSubjectToTravelRule = false) ∧
      bobRequest.encodeToUrl isDomainLocalhost = .panics nilDereference :=
  ⟨⟨_, bobRequest.asUmaRequest_of_fields rfl rfl rfl rfl rfl, rfl⟩,
    bobRequest.encodeToUrl_panics isDomainLocalhost (by decide) rfl rfl⟩

namespace LnurlpRequest

variable (q : LnurlpRequest) (isDomainLocalhost : String → Bool)

/-- **What `EncodeToUrl` does, on every request.** An address without exactly one `@` is an error,
and an UMA request without the travel-rule flag panics. Any other request with exactly one `@` in
its address gets the URL of that address, with an empty query when it is not an UMA request, and
with the six parameters of its `AsUmaRequest` when it is one. -/
theorem encodeToUrl_spec :
    (q.receiverAddress.data.count '@' ≠ 1 ∧
      q.encodeToUrl isDomainLocalhost = .returns (.error (.new "invalid receiver address"))) ∨
    (q.receiverAddress.data.count '@' = 1 ∧ q.isUmaRequest = true ∧
      q.isSubjectToTravelRule = none ∧ q.encodeToUrl isDomainLocalhost = .panics nilDereference) ∨
    (q.receiverAddress.data.count '@' = 1 ∧
      ∃ user host query, join [user, host] '@' = q.receiverAddress ∧
        q.encodeToUrl isDomainLocalhost = .returns (.ok
          { scheme := if isDomainLocalhost host then "http" else "https"
            host := host
            path := "/.well-known/lnurlp/" ++ user
            rawQuery := query }) ∧
        ((q.isUmaRequest = false ∧ query = "") ∨
          ∃ r, q.asUmaRequest = .returns (some r) ∧
            q.isSubjectToTravelRule = some r.isSubjectToTravelRule ∧
            query = (umaQueryParams r).encode)) := by
  by_cases h : q.receiverAddress.data.count '@' = 1
  swap
  · exact .inl ⟨h, q.encodeToUrl_invalid isDomainLocalhost h⟩
  right
  cases hq : q.isUmaRequest
  · obtain ⟨user, host, hj, he⟩ := q.encodeToUrl_of_not_uma isDomainLocalhost h hq
    exact .inr ⟨h, user, host, "", hj, he, .inl ⟨rfl, rfl⟩⟩
  cases hb : q.isSubjectToTravelRule with
  | none => exact .inl ⟨h, rfl, rfl, q.encodeToUrl_panics isDomainLocalhost h hq hb⟩
  | some b =>
    obtain ⟨d, n, s, t, v, hd, hn, hs, ht, hv⟩ := q.isUmaRequest_iff.mp hq
    obtain ⟨user, host, r, hj, hr, hrb, he⟩ :=
      q.encodeToUrl_of_uma isDomainLocalhost h hd hn hs ht hv hb
    exact .inr ⟨h, user, host, _, hj, he, .inr ⟨r, hr, by rw [hrb], rfl⟩⟩

/-! ### No field can add a query parameter -/

/-- `Encode` writes the parameters of an UMA request in the order of their keys. -/
theorem mergeSort_umaQueryParams (r : UmaLnurlpRequest) :
    (umaQueryParams r).mergeSort (fun a b => decide (a.1 ≤ b.1)) =
      [("isSubjectToTravelRule", [formatBool r.isSubjectToTravelRule]), ("nonce", [r.nonce]),
        ("signature", [r.signature]), ("timestamp", [⟨formatInt r.timestamp.unix.val⟩]),
        ("umaVersion", [r.umaVersion]), ("vaspDomain", [r.vaspDomain])] := by
  simp +decide [umaQueryParams, List.mergeSort, List.splitInTwo, List.merge]

theorem umaQueryParams_split (r : UmaLnurlpRequest) :
    (split (umaQueryParams r).encode '&').map (fun param => split param '=') =
      [["isSubjectToTravelRule", queryEscape (formatBool r.isSubjectToTravelRule)],
        ["nonce", queryEscape r.nonce], ["signature", queryEscape r.signature],
        ["timestamp", queryEscape ⟨formatInt r.timestamp.unix.val⟩],
        ["umaVersion", queryEscape r.umaVersion], ["vaspDomain", queryEscape r.vaspDomain]] := by
  rw [Values.split_encode [("isSubjectToTravelRule", formatBool r.isSubjectToTravelRule),
    ("nonce", r.nonce), ("signature", r.signature), ("timestamp", ⟨formatInt r.timestamp.unix.val⟩),
    ("umaVersion", r.umaVersion), ("vaspDomain", r.vaspDomain)] (mergeSort_umaQueryParams r)
    (List.cons_ne_nil _ _)]
  rfl

/-- **No field of an UMA request can add a query parameter.** The query of a URL that
`EncodeToUrl` returns for an UMA request splits at `&` into exactly six parameters, in key order,
and each splits at `=` into its key and the escaped value of its field in `AsUmaRequest`, whatever
characters the fields hold. -/
theorem encodeToUrl_query {u : URL} (h : q.encodeToUrl isDomainLocalhost = .returns (.ok u))
    (hq : q.isUmaRequest = true) :
    ∃ r, q.asUmaRequest = .returns (some r) ∧
      (split u.rawQuery '&').map (fun param => split param '=') =
        [["isSubjectToTravelRule", queryEscape (formatBool r.isSubjectToTravelRule)],
          ["nonce", queryEscape r.nonce], ["signature", queryEscape r.signature],
          ["timestamp", queryEscape ⟨formatInt r.timestamp.unix.val⟩],
          ["umaVersion", queryEscape r.umaVersion], ["vaspDomain", queryEscape r.vaspDomain]] := by
  by_cases hc : q.receiverAddress.data.count '@' = 1
  swap
  · rw [q.encodeToUrl_invalid isDomainLocalhost hc] at h
    cases h
  cases hb : q.isSubjectToTravelRule with
  | none =>
    rw [q.encodeToUrl_panics isDomainLocalhost hc hq hb] at h
    cases h
  | some b =>
    obtain ⟨d, n, s, t, v, hd, hn, hs, ht, hv⟩ := q.isUmaRequest_iff.mp hq
    obtain ⟨_, _, r, -, hr, -, he⟩ := q.encodeToUrl_of_uma isDomainLocalhost hc hd hn hs ht hv hb
    rw [he] at h
    cases h
    exact ⟨r, hr, umaQueryParams_split r⟩

/-- A nonce that holds `&umaVersion=9` stays one parameter: the query still has six. -/
theorem encodeToUrl_query_injectedNonce :
    let q : LnurlpRequest :=
      ⟨"bob@vasp.com", some "abc&umaVersion=9", some "c2lnbmF0dXJl", some true, some "vasp1.com",
        some ⟨1700000000⟩, some "1.0"⟩
    ∃ u, q.encodeToUrl (fun _ => false) = .returns (.ok u) ∧ q.isUmaRequest = true ∧
      ∃ r, q.asUmaRequest = .returns (some r) ∧
        (split u.rawQuery '&').map (fun param => split param '=') =
          [["isSubjectToTravelRule", queryEscape (formatBool r.isSubjectToTravelRule)],
            ["nonce", queryEscape r.nonce], ["signature", queryEscape r.signature],
            ["timestamp", queryEscape ⟨formatInt r.timestamp.unix.val⟩],
            ["umaVersion", queryEscape r.umaVersion], ["vaspDomain", queryEscape r.vaspDomain]] := by
  intro q
  obtain ⟨_, _, _, -, -, -, he⟩ :=
    q.encodeToUrl_of_uma (fun _ => false) (by decide) rfl rfl rfl rfl rfl rfl
  exact ⟨_, he, rfl, q.encodeToUrl_query (fun _ => false) he rfl⟩

theorem signablePayload_eq_ok_iff (s : String) : q.signablePayload = .ok s ↔
    ∃ n t, q.nonce = some n ∧ q.timestamp = some t ∧
      s = join [q.receiverAddress, n, ⟨formatInt t.unix.val⟩] '|' := by
  unfold signablePayload
  split
  · simp_all [eq_comm]
  · rename_i h
    simp only [reduceCtorEq, false_iff, not_exists, not_and]
    exact fun n t hn ht => (h t n ht hn).elim

end LnurlpRequest

/-! ## Responses -/

section Responses

variable {Currency CounterPartyDataOptions KycStatus : Type}

/-- `LnurlComplianceResponse`. `KycStatus` is defined outside this file. -/
structure LnurlComplianceResponse (KycStatus : Type) where
  kycStatus : KycStatus
  signature : String
  nonce : String
  timestamp : Int64
  isSubjectToTravelRule : Bool
  receiverIdentifier : String

/-- `LnurlpResponse`. `Currency` and `CounterPartyDataOptions` are defined outside this file. -/
structure LnurlpResponse (Currency CounterPartyDataOptions KycStatus : Type) where
  tag : String
  callback : String
  minSendable : Int64
  maxSendable : Int64
  encodedMetadata : String
  currencies : Option (List Currency)
  requiredPayerData : Option CounterPartyDataOptions
  compliance : Option (LnurlComplianceResponse KycStatus)
  umaVersion : Option String
  commentCharsAllowed : Option Int64
  nostrPubkey : Option String
  allowsNostr : Option Bool

/-- `UmaLnurlpResponse`, which embeds the `LnurlpResponse` it was made from. -/
structure UmaLnurlpResponse (Currency CounterPartyDataOptions KycStatus : Type) where
  lnurlpResponse : LnurlpResponse Currency CounterPartyDataOptions KycStatus
  currencies : List Currency
  requiredPayerData : CounterPartyDataOptions
  compliance : LnurlComplianceResponse KycStatus
  umaVersion : String
  commentCharsAllowed : Option Int64
  nostrPubkey : Option String
  allowsNostr : Option Bool

/-- `(*LnurlpResponse).IsUmaResponse`. -/
def LnurlpResponse.isUmaResponse (r : LnurlpResponse Currency CounterPartyDataOptions KycStatus) :
    Bool :=
  r.compliance.isSome && r.umaVersion.isSome && r.currencies.isSome && r.requiredPayerData.isSome

/-- `(*LnurlpResponse).AsUmaResponse`. -/
def LnurlpResponse.asUmaResponse (r : LnurlpResponse Currency CounterPartyDataOptions KycStatus) :
    Run (Option (UmaLnurlpResponse Currency CounterPartyDataOptions KycStatus)) :=
  if !r.isUmaResponse then pure none else do
  let currencies ← deref r.currencies
  let requiredPayerData ← deref r.requiredPayerData
  let compliance ← deref r.compliance
  let umaVersion ← deref r.umaVersion
  pure (some
    { lnurlpResponse := r
      currencies := currencies
      requiredPayerData := requiredPayerData
      compliance := compliance
      umaVersion := umaVersion
      commentCharsAllowed := r.commentCharsAllowed
      nostrPubkey := r.nostrPubkey
      allowsNostr := r.allowsNostr })

/-- `(*UmaLnurlpResponse).signablePayload`: `ReceiverIdentifier|Nonce|Timestamp` of the
compliance block. -/
def UmaLnurlpResponse.signablePayload
    (r : UmaLnurlpResponse Currency CounterPartyDataOptions KycStatus) : String :=
  join [r.compliance.receiverIdentifier, r.compliance.nonce, ⟨formatInt r.compliance.timestamp.val⟩]
    '|'

end Responses

end Uma
