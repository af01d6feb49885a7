import Uma.Go.JsonRoundTrip
import Uma.Go.JsonDecode

/-!
# `encoding/json`: text written by hand

A `MarshalJSON` method that builds its document with `fmt` puts strings between quotes as they
are. Such a string reads back as itself when it holds no quote, no backslash and no control
character (`RawSafe`): the parser then takes every character as it stands
(`parseStringBody_raw`). `json.Marshal` compacts the method's output, which escapes the
characters `<`, `>`, `&`, U+2028 and U+2029 as the encoder does, so a compacted raw string is the
encoder's text of it (`compact_raw`).

**The encoder's text.** `compact` leaves the text the encoder writes for a value as it is
(`compact_encode`): outside strings it has no white space, and inside them every character
`compact` would escape is escaped already. A number keeps its characters, which are digits,
signs, the point and exponent letters (`numberChar_of_parseNumber`).
-/

namespace Go

/-! ## Raw strings -/

/-- Text that can stand between the quotes of a JSON string as it is: no quote, no backslash and
no control character. -/
def RawSafe (s : List Char) : Prop := ∀ c ∈ s, c ≠ '"' ∧ c ≠ '\\' ∧ 0x20 ≤ c.toNat

instance (s : List Char) : Decidable (RawSafe s) := inferInstanceAs (Decidable (∀ c ∈ s, _))

theorem rawSafe_cons {c : Char} {s : List Char} (h : RawSafe (c :: s)) :
    (c ≠ '"' ∧ c ≠ '\\' ∧ 0x20 ≤ c.toNat) ∧ RawSafe s :=
  ⟨h c (List.mem_cons_self c s), fun d hd => h d (List.mem_cons_of_mem c hd)⟩

theorem parseStringBody_raw {s : List Char} (hs : RawSafe s) (rest : List Char) :
    parseStringBody none (s ++ '"' :: rest) = some (s, rest) := by
  induction s with
  | nil => rfl
  | cons c s ih =>
    obtain ⟨⟨h₁, h₂, h₃⟩, hs⟩ := rawSafe_cons hs
    rw [List.cons_append, parseStringBody_plain h₁ h₂ h₃, ih hs]
    rfl

/-- On a character that may stand unescaped, the encoder escapes what `compact` escapes. -/
theorem escapeRune_of_safe {c : Char} (h₁ : c ≠ '"') (h₂ : c ≠ '\\') (h₃ : 0x20 ≤ c.toNat) :
    escapeRune c = (htmlEscape c).getD [c] := by
  have hn : c ≠ '\n' := by rintro rfl; simp at h₃
  have hr : c ≠ '\r' := by rintro rfl; simp at h₃
  have ht : c ≠ '\t' := by rintro rfl; simp at h₃
  unfold escapeRune htmlEscape
  simp only [h₁, h₂, hn, hr, ht, if_false, Nat.not_lt.mpr h₃, false_or]
  split_ifs <;> rfl

theorem compact_raw {s : List Char} (hs : RawSafe s) (rest : List Char) :
    compact .inString (s ++ '"' :: rest) = s.flatMap escapeRune ++ '"' :: compact .outside rest := by
  induction s with
  | nil => rfl
  | cons c s ih =>
    obtain ⟨⟨h₁, h₂, h₃⟩, hs⟩ := rawSafe_cons hs
    rw [List.cons_append, List.flatMap_cons, escapeRune_of_safe h₁ h₂ h₃, List.append_assoc, ← ih hs]
    cases h : htmlEscape c with
    | some e => simp [compact, h]
    | none => simp [compact, h, h₁, h₂]

/-! ## Compacting the encoder's text -/

/-- A character a number literal is written with: a digit, a sign, the point or an exponent
letter. -/
def NumberChar (c : Char) : Prop := c.isDigit = true ∨ c ∈ ['-', '+', '.', 'e', 'E']

theorem numberChar_of_span {s : List Char} {c : Char} (h : c ∈ (s.span Char.isDigit).1) :
    NumberChar c := by
  rw [List.span_eq_take_drop] at h
  exact .inl (List.mem_takeWhile_imp h)

theorem numberChar_of_parseIntPart {s i t : List Char} (h : parseIntPart s = some (i, t)) :
    ∀ c ∈ i, NumberChar c := by
  unfold parseIntPart at h
  split at h
  · cases h; simp [NumberChar]
  · split at h
    · cases h
      rintro d (_ | ⟨_, hd⟩)
      · exact .inl ‹_›
      · exact numberChar_of_span hd
    · cases h
  · cases h

theorem numberChar_of_parseFrac {s f t : List Char} (h : parseFrac s = some (f, t)) :
    ∀ c ∈ f, NumberChar c := by
  unfold parseFrac at h
  split at h
  · split at h
    · cases h
    · cases h
      rintro d (_ | ⟨_, hd⟩)
      · simp [NumberChar]
      · exact numberChar_of_span (by rename_i h; rw [h]; exact hd)
  · cases h; simp

theorem numberChar_of_parseExp {s e t : List Char} (h : parseExp s = some (e, t)) :
    ∀ c ∈ e, NumberChar c := by
  unfold parseExp at h
  split at h
  · split at h
    · split at h
      · cases h
      · cases h
        rename_i hee _ _ _ hspan
        rintro d (_ | ⟨_, hd⟩)
        · rcases hee with rfl | rfl <;> simp [NumberChar]
        · rcases List.mem_append.mp hd with hd | hd
          · unfold expSign at hd
            split at hd <;> simp_all [NumberChar]
          · exact numberChar_of_span (by rw [hspan]; exact hd)
    · cases h; simp
  · cases h; simp

theorem numberChar_of_parseNumber {s n t : List Char} (h : parseNumber s = some (n, t)) :
    ∀ c ∈ n, NumberChar c := by
  unfold parseNumber at h
  simp only [bind, Option.bind_eq_some, pure, Option.some.injEq, Prod.exists, Prod.mk.injEq] at h
  obtain ⟨i, s₁, hi, f, s₂, hf, e, s₃, he, rfl, -⟩ := h
  have hsign : ∀ c ∈ (match s with | '-' :: s => (['-'], s) | s => ([], s)).1, NumberChar c := by
    split <;> simp [NumberChar]
  intro c hc
  simp only [List.mem_append] at hc
  rcases hc with ((hc | hc) | hc) | hc
  exacts [hsign c hc, numberChar_of_parseIntPart hi c hc, numberChar_of_parseFrac hf c hc,
    numberChar_of_parseExp he c hc]

theorem compact_inString_cons {c : Char} (h : htmlEscape c = none) (h₁ : c ≠ '"') (h₂ : c ≠ '\\')
    (t : List Char) : compact .inString (c :: t) = c :: compact .inString t := by
  simp [compact, h, h₁, h₂]

theorem compact_outside_cons {c : Char} (h : htmlEscape c = none) (hw : isWs c = false)
    (h₁ : c ≠ '"') (t : List Char) : compact .outside (c :: t) = c :: compact .outside t := by
  simp [compact, h, hw, h₁]

theorem hexDigit_plain : ∀ n < 16,
    htmlEscape (hexDigit n) = none ∧ hexDigit n ≠ '"' ∧ hexDigit n ≠ '\\' := by
  decide

theorem compact_escapeRune (c : Char) (t : List Char) :
    compact .inString (escapeRune c ++ t) = escapeRune c ++ compact .inString t := by
  obtain ⟨b₁, b₂, b₃⟩ := hexDigit_plain (c.toNat % 16) (Nat.mod_lt _ (by decide))
  -- `\"`, `\\`, `\n`, `\r` and `\t`
  obtain rfl | h₁ := eq_or_ne c '"'; · rfl
  obtain rfl | h₂ := eq_or_ne c '\\'; · rfl
  obtain rfl | h₃ := eq_or_ne c '\n'; · rfl
  obtain rfl | h₄ := eq_or_ne c '\r'; · rfl
  obtain rfl | h₅ := eq_or_ne c '\t'; · rfl
  rw [escapeRune, if_neg h₁, if_neg h₂, if_neg h₃, if_neg h₄, if_neg h₅]
  by_cases h₆ : c.toNat < 0x20 ∨ c = '<' ∨ c = '>' ∨ c = '&'
  · -- `\u00` and two digits: a control character, `<`, `>` or `&`
    have h16 : c.toNat / 16 < 16 := by
      rcases h₆ with h | rfl | rfl | rfl <;> first | omega | decide
    obtain ⟨a₁, a₂, a₃⟩ := hexDigit_plain _ h16
    rw [if_pos h₆]
    show '\\' :: 'u' :: '0' :: '0' :: compact .inString (_ :: _ :: t) = _
    rw [compact_inString_cons a₁ a₂ a₃, compact_inString_cons b₁ b₂ b₃]
    rfl
  by_cases h₇ : c.toNat = 0x2028 ∨ c.toNat = 0x2029
  · -- `\u202` and a digit: the line and paragraph separators
    rw [if_neg h₆, if_pos h₇]
    show '\\' :: 'u' :: '2' :: '0' :: '2' :: compact .inString (_ :: t) = _
    rw [compact_inString_cons b₁ b₂ b₃]
    rfl
  have : htmlEscape c = none := by
    rw [htmlEscape, if_neg (fun h => h₆ (.inr h)), if_neg h₇]
  rw [if_neg h₆, if_neg h₇]
  exact compact_inString_cons this h₁ h₂ t

/-- A character a number is written with stays as it is outside strings. -/
theorem compact_numberChar {c : Char} (h : NumberChar c) (t : List Char) :
    compact .outside (c :: t) = c :: compact .outside t := by
  rcases h with h | h
  · rw [isDigit_iff] at h
    have ne : ∀ d : Char, (d.toNat < 48 ∨ 57 < d.toNat) → c ≠ d := by
      rintro d hd rfl; omega
    refine compact_outside_cons ?_ ?_ (ne '"' (by decide)) t
    · simp only [htmlEscape, ne '<' (by decide), ne '>' (by decide), ne '&' (by decide), or_self,
        if_false]
      rw [if_neg (by omega)]
    · simp [isWs, ne ' ' (by decide), ne '\t' (by decide), ne '\n' (by decide), ne '\r' (by decide)]
  · simp only [List.mem_cons, List.mem_singleton, List.not_mem_nil, or_false] at h
    rcases h with rfl | rfl | rfl | rfl | rfl <;> rfl

theorem compact_numberLit {lit : List Char} (h : NumberLit lit) (r : List Char) :
    compact .outside (lit ++ r) = lit ++ compact .outside r := by
  have hc := numberChar_of_parseNumber (by simpa using h [] numberEnd_nil)
  clear h
  induction lit with
  | nil => rfl
  | cons c lit ih =>
    rw [List.cons_append, compact_numberChar (hc c (List.mem_cons_self _ _)),
      ih fun d hd => hc d (List.mem_cons_of_mem _ hd)]
    rfl

theorem compact_encodeString (s : String) (r : List Char) :
    compact .outside (encodeString s ++ r) = encodeString s ++ compact .outside r := by
  suffices h : ∀ cs : List Char, compact .inString (cs.flatMap escapeRune ++ '"' :: r) =
      cs.flatMap escapeRune ++ '"' :: compact .outside r by
    simp only [encodeString, List.cons_append, List.append_assoc, List.singleton_append]
    exact congrArg (List.cons '"') (h s.data)
  intro cs
  induction cs with
  | nil => rfl
  | cons c cs ih => rw [List.flatMap_cons, List.append_assoc, compact_escapeRune, ih, List.append_assoc]

theorem compact_cons_punct {c : Char} (h : c ∈ ['[', ']', '{', '}', ',', ':']) (t : List Char) :
    compact .outside (c :: t) = c :: compact .outside t := by
  simp only [List.mem_cons, List.mem_singleton, List.not_mem_nil, or_false] at h
  rcases h with rfl | rfl | rfl | rfl | rfl | rfl <;> rfl

mutual
/-- `compact` leaves the encoder's text of a readable value as it is. -/
theorem compact_encode : ∀ (v : JsonValue) (depth : Nat) (r : List Char), v.Readable depth →
    compact .outside (v.encode ++ r) = v.encode ++ compact .outside r
  | .null, _, _, _ => rfl
  | .bool b, _, _, _ => by cases b <;> rfl
  | .number lit, _, r, hv => compact_numberLit hv r
  | .string s, _, r, _ => compact_encodeString s r
  | .array vs, d, r, hv => by
    simp only [JsonValue.encode, List.cons_append, List.append_assoc, List.singleton_append,
      List.nil_append]
    rw [compact_cons_punct (by simp), compact_encodeElements vs (d + 1) _ hv.2,
      compact_cons_punct (by simp)]
  | .object ms, d, r, hv => by
    simp only [JsonValue.encode, List.cons_append, List.append_assoc, List.singleton_append,
      List.nil_append]
    rw [compact_cons_punct (by simp), compact_encodeMembers ms (d + 1) _ hv.2,
      compact_cons_punct (by simp)]
/-- `compact` leaves the encoder's text of array elements as it is. -/
theorem compact_encodeElements : ∀ (vs : List JsonValue) (depth : Nat) (r : List Char),
    ReadableElems depth vs → compact .outside (encodeElements vs ++ r) = encodeElements vs ++ compact .outside r
  | [], _, _, _ => rfl
  | [v], d, r, hv => compact_encode v d r hv.1
  | v :: w :: ws, d, r, hv => by
    rw [encodeElements_cons_cons, List.append_assoc, compact_encode v d _ hv.1, List.cons_append,
      compact_cons_punct (by simp), compact_encodeElements (w :: ws) d r hv.2]
    simp
/-- `compact` leaves the encoder's text of object members as it is. -/
theorem compact_encodeMembers : ∀ (ms : List (String × JsonValue)) (depth : Nat) (r : List Char),
    ReadableMembers depth ms → compact .outside (encodeMembers ms ++ r) = encodeMembers ms ++ compact .outside r
  | [], _, _, _ => rfl
  | [(k, v)], d, r, hv => by
    rw [encodeMembers, List.append_assoc, compact_encodeString, List.cons_append,
      compact_cons_punct (by simp), compact_encode v d r hv.1]
    simp
  | (k, v) :: (k', w) :: ms, d, r, hv => by
    rw [encodeMembers_cons_cons, List.append_assoc, compact_encodeString, List.cons_append,
      compact_cons_punct (by simp), List.append_assoc, compact_encode v d _ hv.1, List.cons_append,
      compact_cons_punct (by simp), compact_encodeMembers ((k', w) :: ms) d r hv.2]
    simp
end

/-! ## Decoding an encoded object -/

/-- `json.Unmarshal` into a `map[string]interface{}` reads an encoded object back member by
member. -/
theorem unmarshalAnyMap_encode {ms : List (String × JsonValue)} (hms : ReadableMembers 1 ms) :
    unmarshalAnyMap (JsonValue.object ms).encode = toMap <$> decodeAnyMembers ms := by
  rw [unmarshalAnyMap, parse_encode (v := .object ms) ⟨by decide, hms⟩]

end Go
