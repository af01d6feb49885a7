import Uma.Go.Json
import Uma.Go.Scan

/-!
# `encoding/json`: the parser reads back what the encoder writes

**Main result.** `parse_encode`: `parse v.encode = some v` for every value whose numbers are
literals the number grammar reads in full (`NumberLit`) and which is nested no deeper than
`maxNestingDepth` (`JsonValue.Readable`).

**Strings.** Every escape `escapeRune` writes is read back as the rune it stands for
(`parseStringBody_escapeRune`). None is a `\u` escape of a surrogate, so no surrogate is ever left
waiting, and the closing quote ends the string (`parseStringBody_escape`).

**Numbers.** A literal is read in full when the text after it cannot continue a number
(`NumberEnd`): within an array or object a comma or a bracket follows it. `strconv.FormatInt`
writes such literals (`numberLit_formatInt`), since it writes no leading zero.

**Values.** `parseValue_encode` goes by recursion over the value, leaving the text after it. The
fuel `size v` is enough: each call the parser makes is on a smaller part of the value, and an
array or object takes one call more than its elements. `size v` is at most twice the length of the
text plus one, which `parse` gives.
-/

namespace Go

/-! ## Strings -/

theorem hexVal_hexDigit : ∀ n < 16, hexVal (hexDigit n) = some n := by decide

theorem hex4_byte {n : Nat} (h : n < 256) :
    hex4 '0' '0' (hexDigit (n / 16)) (hexDigit (n % 16)) = some n := by
  simp only [hex4, hexVal_hexDigit _ (by omega : n / 16 < 16),
    hexVal_hexDigit _ (Nat.mod_lt n (by decide))]
  simp [hexVal]
  omega

theorem escapeUnit_none {n : Nat} (h : n < 0xD800) :
    escapeUnit none n = ([Char.ofNat n], none) := by
  simp [escapeUnit, isSurrogate, Nat.not_le.mpr h]

theorem parseStringBody_plain {c : Char} (h₁ : c ≠ '"') (h₂ : c ≠ '\\') (h₃ : 0x20 ≤ c.toNat)
    (rest : List Char) :
    parseStringBody none (c :: rest) = prependRunes [c] (parseStringBody none rest) := by
  rw [parseStringBody.eq_5 _ _ _ h₁ (fun _ _ _ _ _ h _ => h₂ h) (fun _ _ h _ => h₂ h),
    if_neg (by omega)]
  rfl

/-- A `\u` escape of a unit below the surrogates is read as the rune of that unit. -/
theorem parseStringBody_unit {n : Nat} (hn : n < 0xD800) {a b c d : Char}
    (h : hex4 a b c d = some n) (rest : List Char) :
    parseStringBody none (['\\', 'u', a, b, c, d] ++ rest) =
      prependRunes [Char.ofNat n] (parseStringBody none rest) := by
  show parseStringBody none ('\\' :: 'u' :: a :: b :: c :: d :: rest) = _
  simp only [parseStringBody, h, escapeUnit_none hn]

theorem toNat_lt_256 {c : Char} (h : c.toNat < 0x20 ∨ c = '<' ∨ c = '>' ∨ c = '&') :
    c.toNat < 256 := by
  rcases h with h | rfl | rfl | rfl <;> first | omega | decide

theorem parseStringBody_escapeRune (c : Char) (rest : List Char) :
    parseStringBody none (escapeRune c ++ rest) = prependRunes [c] (parseStringBody none rest) := by
  -- `\"`, `\\`, `\n`, `\r` and `\t`
  obtain rfl | h₁ := eq_or_ne c '"'; · rfl
  obtain rfl | h₂ := eq_or_ne c '\\'; · rfl
  obtain rfl | h₃ := eq_or_ne c '\n'; · rfl
  obtain rfl | h₄ := eq_or_ne c '\r'; · rfl
  obtain rfl | h₅ := eq_or_ne c '\t'; · rfl
  rw [escapeRune, if_neg h₁, if_neg h₂, if_neg h₃, if_neg h₄, if_neg h₅]
  by_cases h₆ : c.toNat < 0x20 ∨ c = '<' ∨ c = '>' ∨ c = '&'
  · rw [if_pos h₆, parseStringBody_unit (by have := toNat_lt_256 h₆; omega)
      (hex4_byte (toNat_lt_256 h₆)), Char.ofNat_toNat]
  by_cases h₇ : c.toNat = 0x2028 ∨ c.toNat = 0x2029
  · have h : hex4 '2' '0' '2' (hexDigit (c.toNat % 16)) = some c.toNat := by
      rcases h₇ with h | h <;> rw [h] <;> rfl
    rw [if_neg h₆, if_pos h₇, parseStringBody_unit (by omega) h, Char.ofNat_toNat]
  rw [if_neg h₆, if_neg h₇]
  exact parseStringBody_plain h₁ h₂ (by omega) rest

theorem parseStringBody_escape (s rest : List Char) :
    parseStringBody none (s.flatMap escapeRune ++ '"' :: rest) = some (s, rest) := by
  induction s with
  | nil => rfl
  | cons c s ih => rw [List.flatMap_cons, List.append_assoc, parseStringBody_escapeRune, ih]; rfl

theorem encodeString_append (k : String) (r : List Char) :
    encodeString k ++ r = '"' :: (k.data.flatMap escapeRune ++ '"' :: r) := by
  simp [encodeString]

/-! ## Numbers -/

/-- Text that cannot continue a number: it does not start with a digit, `.`, `e` or `E`. -/
def NumberEnd (r : List Char) : Prop :=
  ∀ c r', r = c :: r' → c.isDigit = false ∧ c ≠ '.' ∧ c ≠ 'e' ∧ c ≠ 'E'

/-- A number literal the parser reads in full, before any text that cannot continue it. -/
def NumberLit (lit : List Char) : Prop := ∀ r, NumberEnd r → parseNumber (lit ++ r) = some (lit, r)

theorem numberEnd_nil : NumberEnd [] := fun _ _ h => nomatch h

theorem numberEnd_comma (r : List Char) : NumberEnd (',' :: r) := by
  rintro _ _ ⟨⟩; decide

theorem numberEnd_bracket (r : List Char) : NumberEnd (']' :: r) := by
  rintro _ _ ⟨⟩; decide

theorem numberEnd_brace (r : List Char) : NumberEnd ('}' :: r) := by
  rintro _ _ ⟨⟩; decide

theorem parseFrac_of_numberEnd {r : List Char} (hr : NumberEnd r) : parseFrac r = some ([], r) := by
  match r, hr with
  | [], _ => rfl
  | c :: r', hr => simp [parseFrac, (hr c r' rfl).2.1]

theorem parseExp_of_numberEnd {r : List Char} (hr : NumberEnd r) : parseExp r = some ([], r) := by
  match r, hr with
  | [], _ => rfl
  | c :: r', hr => simp [parseExp, (hr c r' rfl).2.2]

/-- The first digit `strconv` writes is `0` only for zero. -/
theorem toDigits_cons (n : Nat) :
    ∃ c ds, Nat.toDigits 10 n = c :: ds ∧ c.isDigit = true ∧ (c = '0' → n = 0) := by
  induction n using Nat.strong_induction_on with
  | _ n ih =>
    rw [toDigits_eq]
    split
    · have hd : ∀ d < 10, Nat.digitChar d = '0' → d = 0 := by decide
      refine ⟨_, _, rfl, isDigit_digitChar (Nat.mod_lt n (by decide)), fun h => ?_⟩
      have := hd _ (Nat.mod_lt n (by decide)) h
      omega
    · obtain ⟨c, ds, h, hc, h0⟩ := ih (n / 10) (by omega)
      exact ⟨c, ds ++ _, by rw [h]; rfl, hc, fun hc0 => absurd (h0 hc0) ‹_›⟩

theorem parseIntPart_toDigits (n : Nat) {r : List Char} (hr : NoDigitHead r) :
    parseIntPart (Nat.toDigits 10 n ++ r) = some (Nat.toDigits 10 n, r) := by
  obtain ⟨c, ds, h, hc, h0⟩ := toDigits_cons n
  by_cases hc0 : c = '0'
  · obtain rfl := h0 hc0
    rfl
  · have hds : ∀ d ∈ ds, d.isDigit = true := fun d hd =>
      isDigit_of_mem_toDigits n d (h ▸ List.mem_cons_of_mem c hd)
    rw [h, List.cons_append]
    simp [parseIntPart, hc0, hc, -List.span_eq_take_drop, span_isDigit_append hds hr]

theorem numberLit_formatInt (i : Int) : NumberLit (formatInt i) := by
  intro r hr
  have hd : NoDigitHead r := fun c r' h => (hr c r' h).1
  rw [formatInt_eq]
  unfold signOf
  split
  · simp only [parseNumber, List.singleton_append, List.cons_append, parseIntPart_toDigits _ hd,
      parseFrac_of_numberEnd hr, parseExp_of_numberEnd hr, Option.bind_eq_bind, Option.some_bind,
      List.append_nil, List.nil_append, Option.pure_def]
  · -- no sign: the first digit is not `-`, so the sign's match takes its second arm
    obtain ⟨c, ds, h, hc, -⟩ := toDigits_cons i.natAbs
    have hc' : c ≠ '-' := by rintro rfl; exact absurd hc (by decide)
    have hi : parseIntPart (c :: (ds ++ r)) = some (c :: ds, r) := by
      rw [← List.cons_append, ← h]; exact parseIntPart_toDigits _ hd
    simp only [parseNumber, List.nil_append, h, List.cons_append, hc', hi, List.cons.injEq,
      false_and, false_implies, implies_true, parseFrac_of_numberEnd hr, parseExp_of_numberEnd hr,
      Option.bind_eq_bind, Option.some_bind, List.append_nil, Option.pure_def]

theorem parseNumber_head {c : Char} {s : List Char} {x : List Char × List Char}
    (h : parseNumber (c :: s) = some x) : c = '-' ∨ c.isDigit = true := by
  by_cases hc : c = '-'
  · exact .inl hc
  · right
    by_contra hd
    simp [parseNumber, hc, parseIntPart] at h
    split at h <;> simp_all

theorem isWs_of_numberHead {c : Char} (hc : c = '-' ∨ c.isDigit = true) : isWs c = false := by
  rcases hc with rfl | hc
  · rfl
  · rw [isDigit_iff] at hc
    simp only [isWs, Bool.or_eq_false_iff, beq_eq_false_iff_ne, ne_eq]
    refine ⟨⟨⟨?_, ?_⟩, ?_⟩, ?_⟩ <;> rintro rfl <;> simp at hc

/-! ## The dispatch of `parseValue` -/

theorem skipWs_of_isWs {c : Char} (h : isWs c = false) (t : List Char) :
    skipWs (c :: t) = c :: t := by
  simp [skipWs, h]

theorem isDigit_cases {c : Char} (h : c.isDigit = true) :
    c = '0' ∨ c = '1' ∨ c = '2' ∨ c = '3' ∨ c = '4' ∨ c = '5' ∨ c = '6' ∨ c = '7' ∨ c = '8' ∨
      c = '9' := by
  rw [isDigit_iff] at h
  rw [← Char.ofNat_toNat c]
  obtain ⟨h₁, h₂⟩ := h
  interval_cases c.toNat <;> simp

/-- A number starts with one of eleven characters, on each of which `parseValue` goes to the
number grammar. -/
theorem parseValue_number {c : Char} (hc : c = '-' ∨ c.isDigit = true) (fuel depth : Nat)
    (t : List Char) :
    parseValue (fuel + 1) depth (c :: t) =
      (parseNumber (c :: t)).map fun (cs, s) => (.number ⟨cs⟩, s) := by
  rcases hc with rfl | hc
  · rfl
  · rcases isDigit_cases hc with rfl | rfl | rfl | rfl | rfl | rfl | rfl | rfl | rfl | rfl <;> rfl

theorem parseValue_string (fuel depth : Nat) (t : List Char) :
    parseValue (fuel + 1) depth ('"' :: t) =
      (parseStringBody none t).map fun (cs, s) => (.string ⟨cs⟩, s) := rfl

theorem parseValue_array {depth : Nat} (hd : depth < maxNestingDepth) {s : List Char}
    (hs : ∀ t, skipWs s ≠ ']' :: t) (fuel : Nat) :
    parseValue (fuel + 1) depth ('[' :: s) =
      (parseElements fuel (depth + 1) s).map fun (vs, s) => (.array vs, s) := by
  have h : parseValue (fuel + 1) depth ('[' :: s) =
      if depth < maxNestingDepth then
        match skipWs s with
        | ']' :: s => some (.array [], s)
        | _ => (parseElements fuel (depth + 1) s).map fun (vs, s) => (.array vs, s)
      else none := rfl
  rw [h, if_pos hd]
  split
  · exact absurd ‹_› (hs _)
  · rfl

theorem parseValue_object {depth : Nat} (hd : depth < maxNestingDepth) {s : List Char}
    (hs : ∀ t, skipWs s ≠ '}' :: t) (fuel : Nat) :
    parseValue (fuel + 1) depth ('{' :: s) =
      (parseMembers fuel (depth + 1) s).map fun (ms, s) => (.object ms, s) := by
  have h : parseValue (fuel + 1) depth ('{' :: s) =
      if depth < maxNestingDepth then
        match skipWs s with
        | '}' :: s => some (.object [], s)
        | _ => (parseMembers fuel (depth + 1) s).map fun (ms, s) => (.object ms, s)
      else none := rfl
  rw [h, if_pos hd]
  split
  · exact absurd ‹_› (hs _)
  · rfl

/-! ## Values -/

mutual
/-- The fuel the parser needs for a value. -/
def JsonValue.size : JsonValue → Nat
  | .array vs => sizeElems vs + 2
  | .object ms => sizeMembers ms + 2
  | _ => 1
/-- The fuel the parser needs for the elements of an array. -/
def sizeElems : List JsonValue → Nat
  | [] => 0
  | v :: vs => v.size + sizeElems vs + 1
/-- The fuel the parser needs for the members of an object. -/
def sizeMembers : List (String × JsonValue) → Nat
  | [] => 0
  | (_, v) :: ms => v.size + sizeMembers ms + 1
end

theorem JsonValue.size_pos (v : JsonValue) : 0 < v.size := by
  cases v <;> simp [JsonValue.size]

mutual
/-- A value the parser reads back inside `depth` open arrays and objects: its numbers are literals
it reads in full, and it is nested no deeper than `maxNestingDepth`. -/
def JsonValue.Readable (depth : Nat) : JsonValue → Prop
  | .number lit => NumberLit lit.data
  | .array vs => depth < maxNestingDepth ∧ ReadableElems (depth + 1) vs
  | .object ms => depth < maxNestingDepth ∧ ReadableMembers (depth + 1) ms
  | _ => True
/-- `Readable` for every element of an array. -/
def ReadableElems (depth : Nat) : List JsonValue → Prop
  | [] => True
  | v :: vs => v.Readable depth ∧ ReadableElems depth vs
/-- `Readable` for every member of an object. -/
def ReadableMembers (depth : Nat) : List (String × JsonValue) → Prop
  | [] => True
  | (_, v) :: ms => v.Readable depth ∧ ReadableMembers depth ms
end

/-- The text of a readable value starts with a character that is no white space and closes
nothing. -/
theorem JsonValue.encode_head {depth : Nat} {v : JsonValue} (hv : v.Readable depth)
    (r : List Char) : ∃ c t, v.encode ++ r = c :: t ∧ isWs c = false ∧ c ≠ ']' ∧ c ≠ '}' := by
  cases v with
  | null => exact ⟨_, _, rfl, rfl, by decide, by decide⟩
  | bool b => cases b <;> exact ⟨_, _, rfl, rfl, by decide, by decide⟩
  | number lit =>
    have hlit := hv [] numberEnd_nil
    obtain ⟨c, t, h⟩ := List.exists_cons_of_ne_nil (l := lit.data) fun h => by
      simp [h, parseNumber, parseIntPart] at hlit
    have hc := parseNumber_head (h ▸ hlit)
    refine ⟨c, t ++ r, by simp [JsonValue.encode, h], isWs_of_numberHead hc, ?_, ?_⟩ <;>
      rintro rfl <;> simp at hc
  | string s => exact ⟨_, _, rfl, rfl, by decide, by decide⟩
  | array vs => exact ⟨_, _, rfl, rfl, by decide, by decide⟩
  | object ms => exact ⟨_, _, rfl, rfl, by decide, by decide⟩

theorem encodeElements_cons (v : JsonValue) (vs : List JsonValue) (r : List Char) :
    ∃ z, encodeElements (v :: vs) ++ r = v.encode ++ z := by
  cases vs with
  | nil => exact ⟨r, rfl⟩
  | cons w ws => exact ⟨',' :: (encodeElements (w :: ws) ++ r), by simp [encodeElements]⟩

theorem encodeElements_cons_cons (v w : JsonValue) (ws : List JsonValue) :
    encodeElements (v :: w :: ws) = v.encode ++ ',' :: encodeElements (w :: ws) := rfl

theorem encodeMembers_cons (k : String) (v : JsonValue) (ms : List (String × JsonValue))
    (r : List Char) : ∃ z, encodeMembers ((k, v) :: ms) ++ r = encodeString k ++ z := by
  cases ms with
  | nil => exact ⟨':' :: (v.encode ++ r), by simp [encodeMembers]⟩
  | cons m ms =>
    exact ⟨':' :: (v.encode ++ ',' :: (encodeMembers (m :: ms) ++ r)), by simp [encodeMembers]⟩

theorem encodeMembers_cons_cons (k k' : String) (v w : JsonValue)
    (ms : List (String × JsonValue)) :
    encodeMembers ((k, v) :: (k', w) :: ms) =
      encodeString k ++ ':' :: (v.encode ++ ',' :: encodeMembers ((k', w) :: ms)) := rfl

mutual
/-- The parser reads a readable value back from its text, leaving the text after it. -/
theorem parseValue_encode : ∀ (v : JsonValue) (fuel depth : Nat) (r : List Char),
    v.Readable depth → v.size ≤ fuel → NumberEnd r →
      parseValue fuel depth (v.encode ++ r) = some (v, r)
  | v, 0, _, _, _, hf, _ => absurd hf (by have := v.size_pos; omega)
  | .null, _ + 1, _, _, _, _, _ => rfl
  | .bool b, _ + 1, _, _, _, _, _ => by cases b <;> rfl
  | .number lit, f + 1, d, r, hv, _, hr => by
    obtain ⟨c, t, h, -⟩ := JsonValue.encode_head (r := r) (v := .number lit) hv
    simp only [JsonValue.encode] at h ⊢
    rw [h, parseValue_number (parseNumber_head (h ▸ hv r hr)), ← h, hv r hr]
    rfl
  | .string s, f + 1, d, r, _, _, _ => by
    rw [JsonValue.encode, encodeString_append, parseValue_string, parseStringBody_escape]
    rfl
  | .array [], f + 1, d, r, hv, _, _ => by
    show (if d < maxNestingDepth then some (JsonValue.array [], r) else none) = some (.array [], r)
    rw [if_pos hv.1]
  | .array (v :: vs), f + 1, d, r, hv, hf, _ => by
    obtain ⟨z, hz⟩ := encodeElements_cons v vs (']' :: r)
    obtain ⟨c, t, h, hws, hc, -⟩ := JsonValue.encode_head hv.2.1 z
    have := parseElements_encode v vs f (d + 1) r hv.2 (by simp only [JsonValue.size] at hf; omega)
    rw [show (JsonValue.array (v :: vs)).encode ++ r = '[' :: (encodeElements (v :: vs) ++ ']' :: r)
      by simp [JsonValue.encode],
      parseValue_array hv.1 (by rw [hz, h, skipWs_of_isWs hws]; simp [hc]), this]
    rfl
  | .object [], f + 1, d, r, hv, _, _ => by
    show (if d < maxNestingDepth then some (JsonValue.object [], r) else none) = some (.object [], r)
    rw [if_pos hv.1]
  | .object ((k, v) :: ms), f + 1, d, r, hv, hf, _ => by
    obtain ⟨z, hz⟩ := encodeMembers_cons k v ms ('}' :: r)
    rw [encodeString_append] at hz
    have := parseMembers_encode k v ms f (d + 1) r hv.2 (by simp only [JsonValue.size] at hf; omega)
    rw [show (JsonValue.object ((k, v) :: ms)).encode ++ r =
      '{' :: (encodeMembers ((k, v) :: ms) ++ '}' :: r) by simp [JsonValue.encode],
      parseValue_object hv.1 (by rw [hz]; simp [skipWs, isWs]), this]
    rfl
/-- The parser reads the elements of an array back, through the closing bracket. -/
theorem parseElements_encode : ∀ (v : JsonValue) (vs : List JsonValue) (fuel depth : Nat)
    (r : List Char), ReadableElems depth (v :: vs) → sizeElems (v :: vs) ≤ fuel →
      parseElements fuel depth (encodeElements (v :: vs) ++ ']' :: r) = some (v :: vs, r)
  | v, _, 0, _, _, _, hf => absurd hf (by simp only [sizeElems]; omega)
  | v, [], f + 1, d, r, hv, hf => by
    have := parseValue_encode v f d (']' :: r) hv.1 (by simp only [sizeElems] at hf; omega)
      (numberEnd_bracket r)
    rw [encodeElements, parseElements, this]
    rfl
  | v, w :: ws, f + 1, d, r, hv, hf => by
    have h₁ := parseValue_encode v f d (',' :: (encodeElements (w :: ws) ++ ']' :: r)) hv.1
      (by simp only [sizeElems] at hf; omega) (numberEnd_comma _)
    have h₂ := parseElements_encode w ws f d r hv.2
      (by have := v.size_pos; simp only [sizeElems] at hf ⊢; omega)
    rw [encodeElements_cons_cons, List.append_assoc, List.cons_append, parseElements, h₁]
    simp [skipWs, isWs, h₂]
/-- The parser reads the members of an object back, through the closing brace. -/
theorem parseMembers_encode : ∀ (k : String) (v : JsonValue) (ms : List (String × JsonValue))
    (fuel depth : Nat) (r : List Char), ReadableMembers depth ((k, v) :: ms) →
      sizeMembers ((k, v) :: ms) ≤ fuel →
      parseMembers fuel depth (encodeMembers ((k, v) :: ms) ++ '}' :: r) = some ((k, v) :: ms, r)
  | _, v, _, 0, _, _, _, hf => absurd hf (by simp only [sizeMembers]; omega)
  | k, v, [], f + 1, d, r, hv, hf => by
    have := parseValue_encode v f d ('}' :: r) hv.1 (by simp only [sizeMembers] at hf; omega)
      (numberEnd_brace r)
    rw [encodeMembers, List.append_assoc, encodeString_append, parseMembers]
    simp [skipWs, isWs, parseStringBody_escape, this]
  | k, v, (k', w) :: ms, f + 1, d, r, hv, hf => by
    have h₁ := parseValue_encode v f d (',' :: (encodeMembers ((k', w) :: ms) ++ '}' :: r)) hv.1
      (by simp only [sizeMembers] at hf; omega) (numberEnd_comma _)
    have h₂ := parseMembers_encode k' w ms f d r hv.2
      (by have := v.size_pos; simp only [sizeMembers] at hf ⊢; omega)
    rw [encodeMembers_cons_cons, List.append_assoc, encodeString_append, parseMembers]
    simp [skipWs, isWs, parseStringBody_escape, h₁, h₂]
end

mutual
/-- The fuel a value needs is at most twice the length of its text, and one. -/
theorem JsonValue.size_le : ∀ v : JsonValue, v.size ≤ 2 * v.encode.length + 1
  | .array vs => by
    have := sizeElems_le vs
    simp only [JsonValue.size, JsonValue.encode, List.length_cons, List.length_append,
      List.length_singleton]
    omega
  | .object ms => by
    have := sizeMembers_le ms
    simp only [JsonValue.size, JsonValue.encode, List.length_cons, List.length_append,
      List.length_singleton]
    omega
  | .null | .bool _ | .number _ | .string _ => by simp [JsonValue.size]
theorem sizeElems_le : ∀ vs : List JsonValue, sizeElems vs ≤ 2 * (encodeElements vs).length + 3
  | [] => by simp [sizeElems]
  | v :: vs => by
    have h₁ := v.size_le
    have h₂ := sizeElems_le vs
    cases vs with
    | nil => simp only [sizeElems, encodeElements] at h₂ ⊢; omega
    | cons w ws =>
      simp only [sizeElems, encodeElements_cons_cons, List.length_append, List.length_cons] at h₂ ⊢
      omega
theorem sizeMembers_le : ∀ ms : List (String × JsonValue),
    sizeMembers ms ≤ 2 * (encodeMembers ms).length + 3
  | [] => by simp [sizeMembers]
  | (k, v) :: ms => by
    have h₁ := v.size_le
    have h₂ := sizeMembers_le ms
    cases ms with
    | nil => simp only [sizeMembers, encodeMembers, List.length_append, List.length_cons] at h₂ ⊢; omega
    | cons m ms =>
      obtain ⟨k', w⟩ := m
      simp only [sizeMembers, encodeMembers_cons_cons, List.length_append, List.length_cons] at h₂ ⊢
      omega
end

/-- `json.Unmarshal` reads back what `json.Marshal` writes. -/
theorem parse_encode {v : JsonValue} (hv : v.Readable 0) : parse v.encode = some v := by
  have h := parseValue_encode v (2 * v.encode.length + 2) 0 [] hv
    (by have := v.size_le; omega) numberEnd_nil
  rw [List.append_nil] at h
  simp [parse, h, skipWs]

theorem readableElems_intArray (depth : Nat) (ns : List Int64) :
    ReadableElems depth (ns.map fun n => .number ⟨formatInt n.val⟩) := by
  induction ns with
  | nil => trivial
  | cons n ns ih => exact ⟨numberLit_formatInt n.val, ih⟩

theorem readable_intArray {depth : Nat} (hd : depth < maxNestingDepth) (ns : List Int64) :
    (intArray ns).Readable depth :=
  ⟨hd, readableElems_intArray _ ns⟩

end Go
