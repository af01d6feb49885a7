import Uma.Go.Scan

/-!
# Versions: `ParseVersion` and `String`

A version is a pair of Go `int`s, `Major` and `Minor`. `ParseVersion` reads one with
`fmt.Sscanf(version, "%d.%d", ...)` and `String` prints one with `fmt.Sprintf("%d.%d", ...)`.
Versions are compared lexicographically, major first, as `SelectLowerVersion` compares them.

* `parseVersion_string`: printing and then parsing gives the version back, for every pair of
  64-bit integers, negative ones included.
* `parseVersion_eq_ok_iff`: the exact set of strings `ParseVersion` accepts. It is larger than the
  set of printed versions: spaces, signs, leading zeros and text after the minor number all pass.
* `selectLowerVersion_lower`: `SelectLowerVersion` returns the argument with the smaller version,
  and the first argument on a tie.
* `selectLowerVersion_assoc`: so the lowest of three versions does not depend on which two are
  compared first.
-/

namespace Uma

open Go

/-- `ParsedVersion`. -/
structure ParsedVersion where
  major : Int64
  minor : Int64
deriving DecidableEq

namespace ParsedVersion

theorem toLex_injective :
    Function.Injective fun v : ParsedVersion => toLex (v.major, v.minor) := by
  rintro ⟨_, _⟩ ⟨_, _⟩ h
  cases h; rfl

/-- Versions in lexicographic order, major first. -/
instance : LinearOrder ParsedVersion := LinearOrder.lift' _ toLex_injective

theorem lt_iff {v w : ParsedVersion} :
    v < w ↔ v.major < w.major ∨ v.major = w.major ∧ v.minor < w.minor :=
  Prod.Lex.lt_iff _ _

end ParsedVersion

/-- `fmt.Sprintf("%d.%d", major, minor)`. -/
def sprintfVersion (major minor : Int64) : String :=
  ⟨formatInt major.val ++ '.' :: formatInt minor.val⟩

/-- `(*ParsedVersion).String`. -/
def ParsedVersion.string (v : ParsedVersion) : String := sprintfVersion v.major v.minor

/-- `ParseVersion`. -/
def parseVersion (version : String) : Except GoError ParsedVersion :=
  match sscanfVersion version with
  | .error e => .error e
  | .ok (major, minor) => .ok ⟨major, minor⟩

theorem parseVersion_eq_ok {version : String} {v : ParsedVersion} :
    parseVersion version = .ok v ↔ sscanfVersion version = .ok (v.major, v.minor) := by
  unfold parseVersion
  split <;> rename_i h <;> rw [h]
  · simp
  · constructor
    · rintro ⟨⟩; rfl
    · intro h; cases h; rfl

/-! ## Printed versions parse back -/

theorem isNumeral_formatInt (i : Int64) : IsNumeral (formatInt i.val) i :=
  ⟨signOf i.val, _, formatInt_eq i.val, isSign_signOf _, toDigits_ne_nil _,
    isDigit_of_mem_toDigits _, (signedValue_formatInt _).symm⟩

theorem parseVersion_sprintfVersion (major minor : Int64) :
    parseVersion (sprintfVersion major minor) = .ok ⟨major, minor⟩ := by
  rw [parseVersion_eq_ok, sscanfVersion_eq_ok_iff]
  refine ⟨[], formatInt major.val, [], formatInt minor.val, [], ?_, by simp [Spaces],
    isNumeral_formatInt major, by simp [Spaces], isNumeral_formatInt minor, by simp [NoDigitHead]⟩
  have h₁ := length_formatInt_le major
  have h₂ := length_formatInt_le minor
  rw [List.take_of_length_le (by simp [sprintfVersion, hugeWid]; omega)]
  simp [sprintfVersion]

theorem parseVersion_string (v : ParsedVersion) : parseVersion v.string = .ok v :=
  parseVersion_sprintfVersion v.major v.minor

/-! ## What `ParseVersion` accepts -/

theorem parseVersion_eq_ok_iff (s : String) (v : ParsedVersion) :
    parseVersion s = .ok v ↔
      ∃ w₁ t₁ w₂ t₂ r, s.data.take hugeWid = w₁ ++ t₁ ++ '.' :: (w₂ ++ t₂ ++ r) ∧
        Spaces w₁ ∧ IsNumeral t₁ v.major ∧ Spaces w₂ ∧ IsNumeral t₂ v.minor ∧ NoDigitHead r := by
  rw [parseVersion_eq_ok, sscanfVersion_eq_ok_iff]

theorem parseVersion_accepts_trailing_text :
    parseVersion "1.0abc" = .ok ⟨1, 0⟩ ∧ (ParsedVersion.string ⟨1, 0⟩) ≠ "1.0abc" := by
  decide

/-! ## `SelectLowerVersion` -/

/-- `SelectLowerVersion`. -/
def selectLowerVersion (version1String version2String : String) : Except GoError String := do
  let version1 ← parseVersion version1String
  let version2 ← parseVersion version2String
  if version1.major > version2.major ∨
      (version1.major = version2.major ∧ version1.minor > version2.minor) then
    pure version2String
  else
    pure version1String

theorem selectLowerVersion_eq (a b : String) :
    selectLowerVersion a b = (do
      let va ← parseVersion a
      let vb ← parseVersion b
      pure (if vb < va then b else a)) := by
  simp only [selectLowerVersion, gt_iff_lt, ParsedVersion.lt_iff, eq_comm, apply_ite pure]

theorem selectLowerVersion_of_ok {a b : String} {va vb : ParsedVersion}
    (ha : parseVersion a = .ok va) (hb : parseVersion b = .ok vb) :
    selectLowerVersion a b = .ok (if vb < va then b else a) := by
  rw [selectLowerVersion_eq, ha, hb]; rfl

theorem parseVersion_lower {a b : String} {va vb : ParsedVersion}
    (ha : parseVersion a = .ok va) (hb : parseVersion b = .ok vb) :
    parseVersion (if vb < va then b else a) = .ok (min va vb) := by
  split_ifs with h
  · rw [hb, min_eq_right h.le]
  · rw [ha, min_eq_left (not_lt.mp h)]

/-- **`SelectLowerVersion` picks the lower version.** On two parseable strings both argument
orders return a string that parses to the smaller of the two versions; the two strings agree
unless the versions are equal, where each call returns its first argument. It fails exactly
when one of the strings does not parse. -/
theorem selectLowerVersion_lower (a b : String) :
    (∀ va vb, parseVersion a = .ok va → parseVersion b = .ok vb →
      selectLowerVersion a b = .ok (if vb < va then b else a) ∧
      ∃ r r', selectLowerVersion a b = .ok r ∧ selectLowerVersion b a = .ok r' ∧
        parseVersion r = .ok (min va vb) ∧ parseVersion r' = .ok (min va vb) ∧
        (va ≠ vb → r = r')) ∧
    ((∃ e, selectLowerVersion a b = .error e) ↔
      (∃ e, parseVersion a = .error e) ∨ ∃ e, parseVersion b = .error e) := by
  constructor
  · intro va vb ha hb
    refine ⟨selectLowerVersion_of_ok ha hb, _, _, selectLowerVersion_of_ok ha hb,
      selectLowerVersion_of_ok hb ha, parseVersion_lower ha hb, ?_, fun hne => ?_⟩
    · rw [min_comm]; exact parseVersion_lower hb ha
    · rcases lt_trichotomy va vb with h | rfl | h
      · simp [h, not_lt.mpr h.le]
      · exact absurd rfl hne
      · simp [h, not_lt.mpr h.le]
  · rw [selectLowerVersion_eq]
    cases ha : parseVersion a <;> cases hb : parseVersion b <;> simp [bind, Except.bind, pure,
      Except.pure]

/-- `1.0` and `01.0` are one version, so each order returns its first argument. -/
theorem selectLowerVersion_tie_depends_on_order :
    selectLowerVersion "1.0" "01.0" = .ok "1.0" ∧ selectLowerVersion "01.0" "1.0" = .ok "01.0" := by
  decide

theorem selectLowerVersion_of_error {a : String} {e : GoError} (ha : parseVersion a = .error e)
    (b : String) : selectLowerVersion a b = .error e := by
  rw [selectLowerVersion_eq, ha]; rfl

theorem selectLowerVersion_of_ok_error {a b : String} {va : ParsedVersion} {e : GoError}
    (ha : parseVersion a = .ok va) (hb : parseVersion b = .error e) :
    selectLowerVersion a b = .error e := by
  rw [selectLowerVersion_eq, ha, hb]; rfl

/-- **The lowest of three does not depend on the grouping.** Taking the lower of `a` and `b` and
then the lower of that and `c` gives the same string as taking the lower of `b` and `c` and then
the lower of `a` and that, and one grouping fails exactly when the other does: both keep the first
of the strings with the lowest version. -/
theorem selectLowerVersion_assoc (a b c : String) :
    (selectLowerVersion a b >>= fun x => selectLowerVersion x c).toOption =
      (selectLowerVersion b c >>= fun y => selectLowerVersion a y).toOption := by
  rcases ha : parseVersion a with ea | va
  · rw [selectLowerVersion_of_error ha]
    cases selectLowerVersion b c <;>
      simp only [bind, Except.bind, selectLowerVersion_of_error ha, Except.toOption]
  rcases hb : parseVersion b with eb | vb
  · rw [selectLowerVersion_of_ok_error ha hb, selectLowerVersion_of_error hb]; rfl
  rcases hc : parseVersion c with ec | vc
  · rw [selectLowerVersion_of_ok ha hb, selectLowerVersion_of_ok_error hb hc]
    exact congrArg Except.toOption (selectLowerVersion_of_ok_error (parseVersion_lower ha hb) hc)
  rw [selectLowerVersion_of_ok ha hb, selectLowerVersion_of_ok hb hc]
  simp only [bind, Except.bind]
  rw [selectLowerVersion_of_ok (parseVersion_lower ha hb) hc,
    selectLowerVersion_of_ok ha (parseVersion_lower hb hc)]
  congr 2
  by_cases h₁ : vb < va
  · -- `b` is below `a`, and so is the lower of `b` and `c`
    rw [if_pos h₁, min_eq_right h₁.le, if_pos ((min_le_left vb vc).trans_lt h₁)]
  · have hab := not_lt.mp h₁
    rw [if_neg h₁, min_eq_left hab]
    by_cases h₂ : vc < va
    · -- `c` is below `a`, and so below `b`
      rw [if_pos h₂, if_pos (min_lt_iff.mpr (.inr h₂)), if_pos (h₂.trans_le hab)]
    · rw [if_neg h₂, if_neg (not_lt.mpr (le_min hab (not_lt.mp h₂)))]

end Uma
