import Uma.Go.Basic

/-!
# Decimal integers: `strconv` and `fmt`'s `%d`

`formatInt` is `strconv.FormatInt(i, 10)`, which prints the same text as `fmt`'s `%d`.
`parseInt` is `strconv.ParseInt(s, 10, 64)`: an optional sign, then the digit loop of
`strconv.ParseUint`, then the range check of the signed result. `strconv.Atoi` agrees with it on
every input and differs only in the function name its errors carry.

**Theorem (`parseInt_formatInt`).** Every 64-bit integer is read back from its decimal text.

Parsing is stated over the value of a digit string, `digitsValue`, so that the scanner of `fmt`
(`Uma.Go.Scan`) can reuse the same facts.
-/

namespace Go

/-! ## Printing -/

/-- The decimal text of `i`, with `-` in front of a negative value. -/
def formatInt (i : Int) : List Char :=
  if i < 0 then '-' :: Nat.toDigits 10 i.natAbs else Nat.toDigits 10 i.natAbs

theorem toDigitsCore_acc (fuel n : Nat) (ds : List Char) (h : n < fuel) :
    Nat.toDigitsCore 10 fuel n ds = Nat.toDigitsCore 10 fuel n [] ++ ds := by
  induction fuel generalizing n ds with
  | zero => omega
  | succ fuel ih =>
    simp only [Nat.toDigitsCore]
    split
    · rfl
    · rw [ih _ _ (by omega), ih _ [_] (by omega), List.append_assoc]; rfl

theorem toDigitsCore_fuel (f₁ f₂ n : Nat) (ds : List Char) (h₁ : n < f₁) (h₂ : n < f₂) :
    Nat.toDigitsCore 10 f₁ n ds = Nat.toDigitsCore 10 f₂ n ds := by
  induction f₁ generalizing f₂ n ds with
  | zero => omega
  | succ f₁ ih =>
    obtain ⟨f₂, rfl⟩ : ∃ f, f₂ = f + 1 := ⟨f₂ - 1, by omega⟩
    simp only [Nat.toDigitsCore]
    split
    · rfl
    · exact ih _ _ _ (by omega) (by omega)

/-- The last digit is written last, after the digits of `n / 10`. -/
theorem toDigits_eq (n : Nat) :
    Nat.toDigits 10 n =
      (if n / 10 = 0 then [] else Nat.toDigits 10 (n / 10)) ++ [Nat.digitChar (n % 10)] := by
  show Nat.toDigitsCore 10 (n + 1) n [] = _
  rw [Nat.toDigitsCore]
  split
  · rfl
  · rw [toDigitsCore_acc _ _ _ (by omega), toDigitsCore_fuel n (n / 10 + 1) _ _ (by omega) (by omega)]
    rfl

theorem isDigit_digitChar {d : Nat} (h : d < 10) : (Nat.digitChar d).isDigit = true := by
  have : ∀ d < 10, (Nat.digitChar d).isDigit = true := by decide
  exact this d h

theorem digitChar_toNat {d : Nat} (h : d < 10) : (Nat.digitChar d).toNat - 48 = d := by
  have : ∀ d < 10, (Nat.digitChar d).toNat - 48 = d := by decide
  exact this d h

theorem isDigit_of_mem_toDigits (n : Nat) : ∀ c ∈ Nat.toDigits 10 n, c.isDigit = true := by
  induction n using Nat.strong_induction_on with
  | _ n ih =>
    rw [toDigits_eq]
    intro c hc
    simp only [List.mem_append, List.mem_singleton] at hc
    rcases hc with hc | rfl
    · split at hc
      · simp at hc
      · exact ih (n / 10) (by omega) c hc
    · exact isDigit_digitChar (Nat.mod_lt _ (by decide))

theorem toDigits_ne_nil (n : Nat) : Nat.toDigits 10 n ≠ [] := by
  rw [toDigits_eq]; simp

theorem length_toDigits_le {n k : Nat} (hk : 0 < k) (h : n < 10 ^ k) :
    (Nat.toDigits 10 n).length ≤ k := by
  induction n using Nat.strong_induction_on generalizing k with
  | _ n ih =>
    rw [toDigits_eq]
    split
    · simpa using hk
    · obtain ⟨k, rfl⟩ : ∃ j, k = j + 1 := ⟨k - 1, by omega⟩
      have hk' : 0 < k := by
        rcases Nat.eq_zero_or_pos k with rfl | hk'
        · omega
        · exact hk'
      have := ih (n / 10) (by omega) hk' (by rw [Nat.pow_succ] at h; omega)
      simpa using this

theorem isDigit_iff (c : Char) : c.isDigit = true ↔ 48 ≤ c.toNat ∧ c.toNat ≤ 57 := by
  simp [Char.isDigit, Char.le_def, UInt32.le_def, Char.toNat, UInt32.toNat, BitVec.le_def]

/-! ## The value of a digit string -/

/-- The value of a string of decimal digits, read left to right from `n`. -/
def digitsValueFrom (n : Nat) (ds : List Char) : Nat :=
  ds.foldl (fun n c => n * 10 + (c.toNat - 48)) n

/-- The value of a string of decimal digits. -/
def digitsValue (ds : List Char) : Nat := digitsValueFrom 0 ds

@[simp] theorem digitsValueFrom_nil (n : Nat) : digitsValueFrom n [] = n := rfl

@[simp] theorem digitsValueFrom_cons (n : Nat) (c : Char) (ds : List Char) :
    digitsValueFrom n (c :: ds) = digitsValueFrom (n * 10 + (c.toNat - 48)) ds := rfl

theorem digitsValueFrom_append (n : Nat) (ds es : List Char) :
    digitsValueFrom n (ds ++ es) = digitsValueFrom (digitsValueFrom n ds) es :=
  List.foldl_append _ _ _ _

theorem le_digitsValueFrom (n : Nat) (ds : List Char) : n ≤ digitsValueFrom n ds := by
  induction ds generalizing n with
  | nil => exact Nat.le_refl n
  | cons c ds ih =>
    show n ≤ digitsValueFrom (n * 10 + (c.toNat - 48)) ds
    exact Nat.le_trans (by omega) (ih _)

theorem digitsValue_toDigits (n : Nat) : digitsValue (Nat.toDigits 10 n) = n := by
  induction n using Nat.strong_induction_on with
  | _ n ih =>
    rw [toDigits_eq, digitsValue, digitsValueFrom_append]
    simp only [digitsValueFrom_cons, digitsValueFrom_nil,
      digitChar_toNat (Nat.mod_lt n (by decide : 10 > 0))]
    split
    · simp only [digitsValueFrom_nil]; omega
    · rw [← digitsValue, ih _ (by omega)]; omega

/-! ## Parsing -/

/-- The largest `uint64`. -/
def maxUint64 : Nat := 2 ^ 64 - 1

/-- The digit loop of `strconv.ParseUint(s0, 10, 64)`, with `n` the value read so far: a byte that
is not a decimal digit is a syntax error, and a value past `maxUint64` is a range error. -/
def parseUintLoop (s0 : String) : Nat → List Char → Except GoError Nat
  | n, [] => .ok n
  | n, c :: cs =>
    if c.isDigit then
      if maxUint64 < n * 10 + (c.toNat - 48) then .error (.num "ParseUint" s0 .errRange)
      else parseUintLoop s0 (n * 10 + (c.toNat - 48)) cs
    else .error (.num "ParseUint" s0 .errSyntax)

/-- `strconv.ParseUint(s, 10, 64)`. -/
def parseUint (s : List Char) : Except GoError Nat :=
  if s = [] then .error (.num "ParseUint" ⟨s⟩ .errSyntax) else parseUintLoop ⟨s⟩ 0 s

/-- The leading sign that `strconv.ParseInt` picks off: whether it is `-`, and the rest. -/
def pickSign : List Char → Bool × List Char
  | '+' :: s => (false, s)
  | '-' :: s => (true, s)
  | s => (false, s)

/-- `strconv.ParseInt(s, 10, 64)`. A range error of the unsigned part becomes the range error of
`ParseInt`; the result must lie in `[-2^63, 2^63)`. -/
def parseInt (s : List Char) : Except GoError Int64 :=
  if s = [] then .error (.num "ParseInt" ⟨s⟩ .errSyntax) else
  match parseUint (pickSign s).2 with
  | .error (.num _ _ .errSyntax) => .error (.num "ParseInt" ⟨s⟩ .errSyntax)
  | .error _ => .error (.num "ParseInt" ⟨s⟩ .errRange)
  | .ok un =>
    if h : (pickSign s).1 then
      if hu : 2 ^ 63 < un then .error (.num "ParseInt" ⟨s⟩ .errRange)
      else .ok ⟨-un, by omega, by omega⟩
    else
      if hu : 2 ^ 63 ≤ un then .error (.num "ParseInt" ⟨s⟩ .errRange)
      else .ok ⟨un, by omega, by omega⟩

/-- The `int64` that `strconv.ParseInt(s, 10, 64)` returns along with an error: the bound on the
side of the sign for a range error, and 0 for a syntax error. -/
def parseIntErrValue (s : List Char) : GoError → Int64
  | .num _ _ .errRange =>
    if (pickSign s).1 then ⟨-2 ^ 63, by decide, by decide⟩ else ⟨2 ^ 63 - 1, by decide, by decide⟩
  | _ => 0

/-- `strconv.Atoi(s)`: `ParseInt(s, 10, 0)`, with `Atoi` as the function its errors name. Its fast
path for short inputs computes the same value and the same syntax errors. -/
def atoi (s : List Char) : Except GoError Int64 :=
  match parseInt s with
  | .error (.num _ num err) => .error (.num "Atoi" num err)
  | r => r

/-- `strconv.Itoa(i)`: `FormatInt(int64(i), 10)`. -/
def itoa (i : Int64) : String := ⟨formatInt i.val⟩

/-! ## Reading back -/

theorem parseUintLoop_of_isDigit (s0 : String) (n : Nat) (ds : List Char)
    (hn : n ≤ maxUint64) (hds : ∀ c ∈ ds, c.isDigit = true) :
    parseUintLoop s0 n ds =
      if maxUint64 < digitsValueFrom n ds then .error (.num "ParseUint" s0 .errRange)
      else .ok (digitsValueFrom n ds) := by
  induction ds generalizing n with
  | nil => simp [parseUintLoop, Nat.not_lt.mpr hn]
  | cons c ds ih =>
    simp only [parseUintLoop, hds c (List.mem_cons_self c ds), if_true, digitsValueFrom_cons]
    have := le_digitsValueFrom (n * 10 + (c.toNat - 48)) ds
    by_cases hc : maxUint64 < n * 10 + (c.toNat - 48)
    · rw [if_pos hc, if_pos (by omega)]
    · rw [if_neg hc, ih _ (by omega) fun c hc => hds c (List.mem_cons_of_mem _ hc)]

/-- On a non-empty run of digits, `ParseUint` returns its value or a range error. -/
theorem parseUint_of_isDigit (ds : List Char) (hne : ds ≠ [])
    (hds : ∀ c ∈ ds, c.isDigit = true) :
    parseUint ds =
      if maxUint64 < digitsValue ds then .error (.num "ParseUint" ⟨ds⟩ .errRange)
      else .ok (digitsValue ds) := by
  rw [parseUint, if_neg hne, parseUintLoop_of_isDigit _ _ _ (by decide) hds]; rfl

/-- The signs `ParseInt` accepts in front of the digits. -/
def IsSign (sign : List Char) : Prop := sign = [] ∨ sign = ['+'] ∨ sign = ['-']

theorem pickSign_append {sign ds : List Char} (hsign : IsSign sign) (c : Char) (cs : List Char)
    (hds : ds = c :: cs) (hc : c.isDigit = true) :
    pickSign (sign ++ ds) = (decide (sign = ['-']), ds) := by
  subst hds
  rcases hsign with rfl | rfl | rfl
  · have h1 : c ≠ '+' := by rintro rfl; simp at hc
    have h2 : c ≠ '-' := by rintro rfl; simp at hc
    unfold pickSign
    split <;> simp_all
  · rfl
  · rfl

/-- The value an optionally signed run of digits denotes. -/
def signedValue (sign ds : List Char) : Int :=
  if sign = ['-'] then -(digitsValue ds : Int) else digitsValue ds

/-- `ParseInt` on an optionally signed run of digits returns exactly the value it denotes, when
that value fits in 64 bits, and fails otherwise. -/
theorem parseInt_eq_ok_iff {sign ds : List Char} (hsign : IsSign sign) (hne : ds ≠ [])
    (hds : ∀ c ∈ ds, c.isDigit = true) (x : Int64) :
    parseInt (sign ++ ds) = .ok x ↔ x.val = signedValue sign ds := by
  obtain ⟨c, cs, rfl⟩ := List.exists_cons_of_ne_nil hne
  have hx := x.ge
  have hx' := x.lt
  rw [parseInt, if_neg (by simp), pickSign_append hsign c cs rfl (hds c (List.mem_cons_self _ _)),
    parseUint_of_isDigit _ hne hds, signedValue, maxUint64]
  by_cases hmax : 2 ^ 64 - 1 < digitsValue (c :: cs)
  · simp only [if_pos hmax, reduceCtorEq, false_iff]
    split_ifs <;> omega
  · simp only [if_neg hmax]
    by_cases hneg : sign = ['-']
    · simp only [hneg, decide_True, dite_true, if_true]
      split
      · simp only [reduceCtorEq, false_iff]; omega
      · exact ⟨fun h => by cases h; rfl, fun h => congrArg _ (Int64.ext h.symm)⟩
    · simp only [hneg, decide_False, Bool.false_eq_true, dite_false, if_false]
      split
      · simp only [reduceCtorEq, false_iff]; omega
      · exact ⟨fun h => by cases h; rfl, fun h => congrArg _ (Int64.ext h.symm)⟩

/-- The sign `formatInt` writes. -/
def signOf (i : Int) : List Char := if i < 0 then ['-'] else []

theorem length_formatInt_le (i : Int64) : (formatInt i.val).length ≤ 20 := by
  have := length_toDigits_le (n := i.val.natAbs) (k := 19) (by decide)
    (by have := i.ge; have := i.lt; omega)
  unfold formatInt; split <;> simp <;> omega

theorem formatInt_eq (i : Int) : formatInt i = signOf i ++ Nat.toDigits 10 i.natAbs := by
  unfold formatInt signOf; split <;> rfl

/-- `strconv.FormatInt` writes a sign and digits. -/
theorem mem_formatInt {i : Int} {c : Char} (h : c ∈ formatInt i) : c = '-' ∨ c.isDigit = true := by
  rw [formatInt_eq] at h
  rcases List.mem_append.mp h with h | h
  · unfold signOf at h; split at h <;> simp_all
  · exact .inr (isDigit_of_mem_toDigits _ _ h)

theorem isSign_signOf (i : Int) : IsSign (signOf i) := by
  unfold signOf IsSign; split <;> simp

theorem signedValue_formatInt (i : Int) :
    signedValue (signOf i) (Nat.toDigits 10 i.natAbs) = i := by
  unfold signedValue signOf
  rw [digitsValue_toDigits]
  by_cases h : i < 0
  · simp only [h, if_true]; omega
  · simp only [h, if_false, List.nil_eq, reduceCtorEq]; omega

theorem parseInt_formatInt (i : Int64) : parseInt (formatInt i.val) = .ok i := by
  rw [formatInt_eq, parseInt_eq_ok_iff (isSign_signOf _) (toDigits_ne_nil _)
    (isDigit_of_mem_toDigits _), signedValue_formatInt]

theorem atoi_itoa (i : Int64) : atoi (itoa i).data = .ok i := by
  rw [atoi, itoa, parseInt_formatInt]

theorem mapM_atoi_itoa (ns : List Int64) : (ns.map itoa).mapM (fun s => atoi s.data) = .ok ns := by
  induction ns with
  | nil => rfl
  | cons n ns ih =>
    rw [List.map_cons, List.mapM_cons, atoi_itoa, ih]
    rfl

end Go
