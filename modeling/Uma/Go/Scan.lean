import Uma.Go.Strconv

/-!
# `fmt.Sscanf` with the format `"%d.%d"`

`ParseVersion` reads a version with `fmt.Sscanf(version, "%d.%d", &major, &minor)`. This file
models the scanner on that format: for each `%d`, `doScanf` skips spaces and calls `scanInt`,
which skips spaces again, accepts an optional sign, and reads the longest run of decimal digits;
the literal `.` must be the next rune. Nothing checks that the input ends after the second number.
The scanner reads at most `hugeWid` runes of its input.

**Theorem (`sscanfVersion_eq_ok_iff`).** `sscanfVersion s` returns `(major, minor)` exactly when the
first `hugeWid` runes of `s` are: spaces, a numeral for `major`, `.`, spaces, a numeral for `minor`,
and then anything that does not start with a digit. A numeral is an optional sign and a non-empty
run of digits, leading zeros allowed, whose value fits in 64 bits.
-/

namespace Go

/-! ## The scanner's steps -/

/-- `isSpace` of `fmt`'s scanner: the runes of its table of white space. -/
def isSpace (r : Char) : Bool :=
  let n := r.toNat
  (0x09 ≤ n && n ≤ 0x0d) || n == 0x20 || n == 0x85 || n == 0xa0 || n == 0x1680 ||
    (0x2000 ≤ n && n ≤ 0x200a) || n == 0x2028 || n == 0x2029 || n == 0x202f || n == 0x205f ||
    n == 0x3000

/-- `ss.SkipSpace` for `Sscanf`, where a newline is not white space but an error. (A `\r` before a
newline is passed over first, which this gets by `\r` being a space.) -/
def skipSpace : List Char → Except GoError (List Char)
  | [] => .ok []
  | c :: s =>
    if c = '\n' then .error (.new "unexpected newline")
    else if isSpace c then skipSpace s else .ok (c :: s)

/-- `ss.accept(sign)`: an optional `+` or `-`, which stays in the token. -/
def acceptSign : List Char → List Char × List Char
  | '+' :: s => (['+'], s)
  | '-' :: s => (['-'], s)
  | s => ([], s)

/-- `ss.scanInt` for `%d` into an `int`. Reaching the end of the input where a number must start
is `io.EOF`; a sign with no digit after it is `expected integer`; the token, sign included, goes
to `strconv.ParseInt`. -/
def scanInt (s : List Char) : Except GoError (Int64 × List Char) :=
  match skipSpace s with
  | .error e => .error e
  | .ok [] => .error .eof
  | .ok (c :: s) =>
    match acceptSign (c :: s) with
    | (_, []) => .error .eof
    | (sign, d :: s) =>
      match (d :: s).span Char.isDigit with
      | ([], _) => .error (.new "expected integer")
      | (digits, rest) => (parseInt (sign ++ digits)).map fun i => (i, rest)

/-- `ss.advance` on a literal rune of the format: the input must go on with that rune. -/
def advance (c : Char) : List Char → Except GoError (List Char)
  | [] => .error .unexpectedEOF
  | r :: s => if r = c then .ok s else .error (.new "input does not match format")

/-- `hugeWid`: the scanner stops reading after this many runes. -/
def hugeWid : Nat := 2 ^ 30

/-- `fmt.Sscanf(s, "%d.%d", &major, &minor)`. -/
def sscanfVersion (s : String) : Except GoError (Int64 × Int64) := do
  let s ← skipSpace (s.data.take hugeWid)
  let (major, s) ← scanInt s
  let s ← advance '.' s
  let s ← skipSpace s
  let (minor, _) ← scanInt s
  pure (major, minor)

/-! ## What each step reads -/

/-- A run of runes that `skipSpace` passes over. -/
def Spaces (w : List Char) : Prop := ∀ c ∈ w, isSpace c = true ∧ c ≠ '\n'

/-- The text does not start with a rune that `skipSpace` passes over or stops at. -/
def NoSpaceHead (r : List Char) : Prop := ∀ c r', r = c :: r' → isSpace c = false

/-- The text does not go on with a digit. -/
def NoDigitHead (r : List Char) : Prop := ∀ c r', r = c :: r' → c.isDigit = false

/-- `t` is an optionally signed decimal numeral for `x`; leading zeros are allowed. -/
def IsNumeral (t : List Char) (x : Int64) : Prop :=
  ∃ sign ds, t = sign ++ ds ∧ IsSign sign ∧ ds ≠ [] ∧ (∀ c ∈ ds, c.isDigit = true) ∧
    x.val = signedValue sign ds

theorem skipSpace_append {w : List Char} (hw : Spaces w) {r : List Char} (hr : NoSpaceHead r) :
    skipSpace (w ++ r) = .ok r := by
  induction w with
  | nil =>
    cases r with
    | nil => rfl
    | cons c r =>
      have hc := hr c r rfl
      have : c ≠ '\n' := by rintro rfl; simp [isSpace] at hc
      simp [skipSpace, hc, this]
  | cons c w ih =>
    obtain ⟨hc, hn⟩ := hw c (List.mem_cons_self _ _)
    simp only [List.cons_append, skipSpace, hn, if_false, hc, if_true]
    exact ih fun c hc => hw c (List.mem_cons_of_mem _ hc)

theorem skipSpace_eq_ok {s r : List Char} (h : skipSpace s = .ok r) :
    ∃ w, s = w ++ r ∧ Spaces w ∧ NoSpaceHead r := by
  induction s with
  | nil => cases h; exact ⟨[], rfl, by simp [Spaces], by simp [NoSpaceHead]⟩
  | cons c s ih =>
    simp only [skipSpace] at h
    split_ifs at h with hn hc
    · obtain ⟨w, rfl, hw, hr⟩ := ih h
      refine ⟨c :: w, rfl, fun d hd => ?_, hr⟩
      rcases List.mem_cons.mp hd with rfl | hd
      · exact ⟨hc, hn⟩
      · exact hw d hd
    · cases h
      exact ⟨[], rfl, by simp [Spaces], fun d r' he => by cases he; simpa using hc⟩

theorem skipSpace_idem {s r : List Char} (h : skipSpace s = .ok r) : skipSpace r = .ok r := by
  obtain ⟨_, _, _, hr⟩ := skipSpace_eq_ok h
  simpa using skipSpace_append (w := []) (by simp [Spaces]) hr

/-- Skipping spaces before `scanInt` changes nothing: it skips them itself. -/
theorem skipSpace_bind_scanInt (s : List Char) :
    (skipSpace s >>= scanInt) = scanInt s := by
  cases h : skipSpace s with
  | error e => show Except.error e = _; unfold scanInt; rw [h]
  | ok r => show scanInt r = _; unfold scanInt; rw [skipSpace_idem h, h]

theorem acceptSign_append {sign ds : List Char} (hsign : IsSign sign) {c : Char} {cs : List Char}
    (hds : ds = c :: cs) (hc : c.isDigit = true) : acceptSign (sign ++ ds) = (sign, ds) := by
  subst hds
  rcases hsign with rfl | rfl | rfl
  · have h1 : c ≠ '+' := by rintro rfl; simp at hc
    have h2 : c ≠ '-' := by rintro rfl; simp at hc
    unfold acceptSign
    split <;> simp_all
  · rfl
  · rfl

theorem acceptSign_eq (s : List Char) :
    IsSign (acceptSign s).1 ∧ s = (acceptSign s).1 ++ (acceptSign s).2 := by
  unfold acceptSign IsSign
  split <;> simp

theorem span_isDigit_append {ds r : List Char} (hds : ∀ c ∈ ds, c.isDigit = true)
    (hr : NoDigitHead r) : (ds ++ r).span Char.isDigit = (ds, r) := by
  rw [List.span_eq_take_drop]
  induction ds with
  | nil =>
    cases r with
    | nil => rfl
    | cons c r => simp [hr c r rfl]
  | cons c ds ih =>
    simp only [Prod.mk.injEq] at ih ⊢
    simp [hds c (List.mem_cons_self _ _), ih fun d hd => hds d (List.mem_cons_of_mem _ hd)]

theorem span_isDigit (l : List Char) :
    l = (l.span Char.isDigit).1 ++ (l.span Char.isDigit).2 ∧
      (∀ c ∈ (l.span Char.isDigit).1, c.isDigit = true) ∧ NoDigitHead (l.span Char.isDigit).2 := by
  rw [List.span_eq_take_drop]
  induction l with
  | nil => simp [NoDigitHead]
  | cons c l ih =>
    by_cases hc : c.isDigit
    · simp only [List.takeWhile_cons, List.dropWhile_cons, hc, if_true, List.cons_append,
        List.mem_cons, forall_eq_or_imp, true_and]
      exact ⟨congrArg _ ih.1, ih.2⟩
    · simp only [List.takeWhile_cons, List.dropWhile_cons, hc, Bool.false_eq_true, if_false]
      exact ⟨rfl, by simp, fun d r' h => by cases h; simpa using hc⟩

theorem isSpace_of_isDigit {c : Char} (hc : c.isDigit = true) : isSpace c = false := by
  rw [isDigit_iff] at hc
  simp only [isSpace, Bool.or_eq_false_iff, Bool.and_eq_false_iff, decide_eq_false_iff_not,
    beq_eq_false_iff_ne, ne_eq]
  omega

theorem noSpaceHead_of_numeral {t r : List Char} {x : Int64} (ht : IsNumeral t x) :
    NoSpaceHead (t ++ r) := by
  obtain ⟨sign, ds, rfl, hsign, hne, hds, -⟩ := ht
  obtain ⟨c, cs, rfl⟩ := List.exists_cons_of_ne_nil hne
  have hc := isSpace_of_isDigit (hds c (List.mem_cons_self _ _))
  rcases hsign with rfl | rfl | rfl <;> intro d r' h <;> cases h
  · exact hc
  · rfl
  · rfl

/-- **`scanInt` reads exactly one numeral**, after spaces, and stops at the first rune that is
not a digit. -/
theorem scanInt_eq_ok_iff (s r : List Char) (x : Int64) :
    scanInt s = .ok (x, r) ↔
      ∃ w t, s = w ++ t ++ r ∧ Spaces w ∧ IsNumeral t x ∧ NoDigitHead r := by
  constructor
  · intro h
    unfold scanInt at h
    split at h
    · cases h
    · cases h
    · rename_i c s' hskip
      obtain ⟨w, rfl, hw, -⟩ := skipSpace_eq_ok hskip
      obtain ⟨hsign, hsplit⟩ := acceptSign_eq (c :: s')
      split at h
      · cases h
      · rename_i sign d s'' hacc
        rw [hacc] at hsign hsplit
        obtain ⟨hcat, hds, hr⟩ := span_isDigit (d :: s'')
        split at h
        · cases h
        · rename_i digits rest hne hspan
          rw [hspan] at hcat hds hr
          cases hp : parseInt (sign ++ digits) with
          | error e => rw [hp] at h; cases h
          | ok i =>
            rw [hp] at h
            cases h
            refine ⟨w, sign ++ digits, ?_, hw, ⟨sign, digits, rfl, hsign, ?_, hds, ?_⟩, hr⟩
            · simp only at hsplit hcat
              rw [hsplit, hcat]; simp
            · rintro rfl; exact hne rfl
            · exact (parseInt_eq_ok_iff hsign (by rintro rfl; exact hne rfl) hds _).mp hp
  · rintro ⟨w, t, rfl, hw, ht, hr⟩
    have hsp := skipSpace_append (r := t ++ r) hw (noSpaceHead_of_numeral ht)
    obtain ⟨sign, ds, rfl, hsign, hne, hds, hx⟩ := ht
    obtain ⟨c, cs, rfl⟩ := List.exists_cons_of_ne_nil hne
    have hc := hds c (List.mem_cons_self _ _)
    have hacc := acceptSign_append hsign (show c :: cs ++ r = c :: (cs ++ r) from rfl) hc
    obtain ⟨c', l', hcons⟩ : ∃ c' l', sign ++ (c :: cs ++ r) = c' :: l' := by
      cases sign <;> simp
    simp only [List.append_assoc] at hsp ⊢
    unfold scanInt
    rw [hsp, hcons]
    simp only
    rw [← hcons, hacc]
    simp only [List.cons_append]
    rw [← List.cons_append, span_isDigit_append hds hr]
    simp only [(parseInt_eq_ok_iff hsign hne hds x).mpr hx, Except.map]

theorem spaces_append {w w' : List Char} (hw : Spaces w) (hw' : Spaces w') : Spaces (w ++ w') :=
  fun c hc => (List.mem_append.mp hc).elim (hw c) (hw' c)

theorem advance_eq_ok {c : Char} {s r : List Char} : advance c s = .ok r ↔ s = c :: r := by
  cases s with
  | nil => simp [advance]
  | cons d s =>
    simp only [advance, List.cons.injEq]
    split <;> simp_all [eq_comm]

/-- **The language of `"%d.%d"`.** -/
theorem sscanfVersion_eq_ok_iff (s : String) (major minor : Int64) :
    sscanfVersion s = .ok (major, minor) ↔
      ∃ w₁ t₁ w₂ t₂ r, s.data.take hugeWid = w₁ ++ t₁ ++ '.' :: (w₂ ++ t₂ ++ r) ∧
        Spaces w₁ ∧ IsNumeral t₁ major ∧ Spaces w₂ ∧ IsNumeral t₂ minor ∧ NoDigitHead r := by
  unfold sscanfVersion
  rw [← bind_assoc]
  simp only [skipSpace_bind_scanInt]
  simp only [bind_eq_ok, pure, Except.pure, Except.ok.injEq, Prod.mk.injEq]
  constructor
  · rintro ⟨⟨major', s₂⟩, h₁, s₃, h₂, s₄, h₃, ⟨minor', r⟩, h₄, rfl, rfl⟩
    obtain ⟨w₁, t₁, ht, hw₁, ht₁, -⟩ := (scanInt_eq_ok_iff _ _ _).mp h₁
    obtain ⟨w, rfl, hw, -⟩ := skipSpace_eq_ok h₃
    obtain ⟨w₂, t₂, rfl, hw₂, ht₂, hr⟩ := (scanInt_eq_ok_iff _ _ _).mp h₄
    rw [advance_eq_ok] at h₂
    subst h₂
    exact ⟨w₁, t₁, w ++ w₂, t₂, r, by simp [ht], hw₁, ht₁, spaces_append hw hw₂, ht₂, hr⟩
  · rintro ⟨w₁, t₁, w₂, t₂, r, ht, hw₁, ht₁, hw₂, ht₂, hr⟩
    refine ⟨(major, '.' :: (w₂ ++ t₂ ++ r)), (scanInt_eq_ok_iff _ _ _).mpr
      ⟨w₁, t₁, ht, hw₁, ht₁, fun c r' h => by cases h; rfl⟩, _, rfl, t₂ ++ r, ?_,
      (minor, r), (scanInt_eq_ok_iff _ _ _).mpr ⟨[], t₂, rfl, by simp [Spaces], ht₂, hr⟩, rfl, rfl⟩
    rw [List.append_assoc]
    exact skipSpace_append hw₂ (noSpaceHead_of_numeral ht₂)

end Go
