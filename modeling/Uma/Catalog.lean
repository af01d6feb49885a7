import Uma.Version

/-!
# The version catalog and the choice of a version

The package knows its current version, `MAJOR_VERSION.MINOR_VERSION`, and a list
`backcompatVersions` of older versions it still speaks. Here the three are the fields of a
`Catalog`, so that every statement holds for every catalog and not only for the shipped one.

Two lookups read the catalog: `getSupportedMajorVersions` collects the majors, and
`getHighestSupportedVersionForMajor` finds the version to use for one major. They are written
independently, as two loops over `backcompatVersions`; `getHighestSupportedVersionForMajor_spec`
shows that they agree, and which version the second one finds.

**Theorem (`selectHighestSupportedVersion_spec`).** `SelectHighestSupportedVersion` returns nothing
when the counterparty lists no supported major, and otherwise the version of the largest supported
major it lists, whatever the order and repetitions of the list. The loop invariant is `SelectInv`:
after a prefix of the list, the loop keeps the version of the largest supported major of the prefix.
-/

namespace Uma

open Go

/-- The package's version constants: `MAJOR_VERSION`, `MINOR_VERSION` and `backcompatVersions`. -/
structure Catalog where
  majorVersion : Int64
  minorVersion : Int64
  backcompatVersions : List String

/-- The constants as the package ships them. -/
def shipped : Catalog := ⟨1, 0, ["0.3"]⟩

namespace Catalog

variable (c : Catalog)

/-- `UmaProtocolVersion`. -/
def umaProtocolVersion : String := sprintfVersion c.majorVersion c.minorVersion

/-- `GetSupportedMajorVersions`, as the list of the keys of the map it builds. -/
def getSupportedMajorVersions : List Int64 :=
  c.backcompatVersions.foldl (fun versions version =>
    match parseVersion version with
    | .error _ => versions
    | .ok parsedVersion => versions.insert parsedVersion.major) [c.majorVersion]

/-- The test in the loop of `GetHighestSupportedVersionForMajor`. -/
def versionWithMajor (majorVersion : Int64) (version : String) : Option ParsedVersion :=
  match parseVersion version with
  | .error _ => none
  | .ok parsedVersion => if parsedVersion.major = majorVersion then some parsedVersion else none

/-- `GetHighestSupportedVersionForMajor`. -/
def getHighestSupportedVersionForMajor (majorVersion : Int64) : Option ParsedVersion :=
  if majorVersion = c.majorVersion then (parseVersion c.umaProtocolVersion).toOption
  else c.backcompatVersions.findSome? (versionWithMajor majorVersion)

/-- One pass of the loop in `SelectHighestSupportedVersion`; `highestVersion` is the version kept
so far. -/
def selectStep (supportedMajorVersions : List Int64) (highestVersion : Option ParsedVersion)
    (otherVaspMajorVersion : Int64) : Option ParsedVersion :=
  if otherVaspMajorVersion ∉ supportedMajorVersions then highestVersion
  else match highestVersion with
    | none => c.getHighestSupportedVersionForMajor otherVaspMajorVersion
    | some highest =>
      if otherVaspMajorVersion > highest.major then
        c.getHighestSupportedVersionForMajor otherVaspMajorVersion
      else highestVersion

/-- `SelectHighestSupportedVersion`. -/
def selectHighestSupportedVersion (otherVaspSupportedMajorVersions : List Int64) :
    Option String :=
  (otherVaspSupportedMajorVersions.foldl (c.selectStep c.getSupportedMajorVersions) none).map
    ParsedVersion.string

/-- `IsVersionSupported`. -/
def isVersionSupported (version : String) : Bool :=
  match parseVersion version with
  | .error _ => false
  | .ok parsedVersion => parsedVersion.major ∈ c.getSupportedMajorVersions

/-! ## The two lookups agree -/

/-- The majors of the parseable entries of a backward-compatibility list. -/
def BackcompatMajor (versions : List String) (m : Int64) : Prop :=
  ∃ version ∈ versions, ∃ v, parseVersion version = .ok v ∧ v.major = m

theorem backcompatMajor_cons (version : String) (versions : List String) (m : Int64) :
    BackcompatMajor (version :: versions) m ↔
      (∃ v, parseVersion version = .ok v ∧ v.major = m) ∨ BackcompatMajor versions m := by
  simp only [BackcompatMajor, List.mem_cons, exists_eq_or_imp]

theorem mem_foldl_insert (versions : List String) (init : List Int64) (m : Int64) :
    m ∈ versions.foldl (fun versions version =>
      match parseVersion version with
      | .error _ => versions
      | .ok parsedVersion => versions.insert parsedVersion.major) init ↔
      m ∈ init ∨ BackcompatMajor versions m := by
  induction versions generalizing init with
  | nil => simp [BackcompatMajor]
  | cons version versions ih =>
    rw [List.foldl_cons, ih, backcompatMajor_cons]
    cases parseVersion version with
    | error e => simp
    | ok v =>
      simp only [List.mem_insert_iff, Except.ok.injEq, exists_eq_left']
      rw [eq_comm (a := v.major)]
      tauto

theorem mem_getSupportedMajorVersions (m : Int64) :
    m ∈ c.getSupportedMajorVersions ↔ m = c.majorVersion ∨ BackcompatMajor c.backcompatVersions m := by
  rw [getSupportedMajorVersions, mem_foldl_insert, List.mem_singleton]

theorem parseVersion_umaProtocolVersion :
    parseVersion c.umaProtocolVersion = .ok ⟨c.majorVersion, c.minorVersion⟩ :=
  parseVersion_sprintfVersion _ _

theorem versionWithMajor_eq_some {m : Int64} {version : String} {v : ParsedVersion} :
    versionWithMajor m version = some v ↔ parseVersion version = .ok v ∧ v.major = m := by
  unfold versionWithMajor
  cases parseVersion version with
  | error e => simp
  | ok p =>
    by_cases hm : p.major = m
    · simp only [hm, if_true, Option.some.injEq, Except.ok.injEq]
      exact ⟨fun h => ⟨h, h ▸ hm⟩, And.left⟩
    · simp only [hm, if_false, reduceCtorEq, Except.ok.injEq, false_iff, not_and]
      rintro rfl; exact hm

/-- A version for a major is found only for that major, and only when the major is supported. -/
theorem mem_of_getHighest {m : Int64} {v : ParsedVersion}
    (h : c.getHighestSupportedVersionForMajor m = some v) :
    v.major = m ∧ m ∈ c.getSupportedMajorVersions := by
  rw [mem_getSupportedMajorVersions]
  unfold getHighestSupportedVersionForMajor at h
  split_ifs at h with hm
  · rw [parseVersion_umaProtocolVersion] at h
    cases h
    exact ⟨hm.symm, .inl hm⟩
  · obtain ⟨version, hmem, hv⟩ := List.exists_of_findSome?_eq_some h
    obtain ⟨hp, rfl⟩ := versionWithMajor_eq_some.mp hv
    exact ⟨rfl, .inr ⟨version, hmem, v, hp, rfl⟩⟩

/-- Every supported major has a version. -/
theorem getHighest_of_mem {m : Int64} (h : m ∈ c.getSupportedMajorVersions) :
    ∃ v, c.getHighestSupportedVersionForMajor m = some v := by
  rw [← Option.isSome_iff_exists]
  unfold getHighestSupportedVersionForMajor
  split_ifs with hm
  · simp [parseVersion_umaProtocolVersion, Except.toOption]
  · obtain ⟨version, hmem, v, hp, rfl⟩ :=
      ((mem_getSupportedMajorVersions c _).mp h).resolve_left hm
    exact List.findSome?_isSome_iff.mpr ⟨version, hmem, by
      simp [versionWithMajor_eq_some.mpr ⟨hp, rfl⟩]⟩

/-- **The two lookups agree.** A major is a key of `GetSupportedMajorVersions` exactly when
`GetHighestSupportedVersionForMajorVersion` finds a version for it. The version found has that
major: it is the parse of `UmaProtocolVersion` for the current major, and otherwise the parse of
the first entry of `backcompatVersions` that parses to a version of that major. -/
theorem getHighestSupportedVersionForMajor_spec (m : Int64) :
    (m ∈ c.getSupportedMajorVersions ↔ (c.getHighestSupportedVersionForMajor m).isSome) ∧
    ∀ v, c.getHighestSupportedVersionForMajor m = some v → v.major = m ∧
      (m = c.majorVersion → parseVersion c.umaProtocolVersion = .ok v) ∧
      (m ≠ c.majorVersion → ∃ pre version post,
        c.backcompatVersions = pre ++ version :: post ∧ parseVersion version = .ok v ∧
        ∀ w ∈ pre, ∀ p, parseVersion w = .ok p → p.major ≠ m) := by
  refine ⟨⟨fun h => Option.isSome_iff_exists.mpr (c.getHighest_of_mem h), fun h => ?_⟩,
    fun v h => ⟨(c.mem_of_getHighest h).1, fun hm => ?_, fun hm => ?_⟩⟩
  · obtain ⟨v, hv⟩ := Option.isSome_iff_exists.mp h
    exact (c.mem_of_getHighest hv).2
  · rw [getHighestSupportedVersionForMajor, if_pos hm, parseVersion_umaProtocolVersion] at h
    cases h
    exact c.parseVersion_umaProtocolVersion
  · rw [getHighestSupportedVersionForMajor, if_neg hm] at h
    obtain ⟨pre, version, post, hL, hv, hpre⟩ := List.findSome?_eq_some_iff.mp h
    refine ⟨pre, version, post, hL, (versionWithMajor_eq_some.mp hv).1, fun w hw p hp hpm => ?_⟩
    exact Option.some_ne_none p
      ((versionWithMajor_eq_some.mpr ⟨hp, hpm⟩).symm.trans (hpre w hw))

/-! ## The loop of `SelectHighestSupportedVersion` -/

/-- The loop invariant: after reading `ys`, nothing is kept while no element of `ys` is supported,
and otherwise the version found for the largest supported element of `ys`. -/
def SelectInv (ys : List Int64) : Option ParsedVersion → Prop
  | none => ∀ y ∈ ys, y ∉ c.getSupportedMajorVersions
  | some v => ∃ M ∈ ys, M ∈ c.getSupportedMajorVersions ∧
      (∀ y ∈ ys, y ∈ c.getSupportedMajorVersions → y ≤ M) ∧
      c.getHighestSupportedVersionForMajor M = some v

theorem selectInv_nil : c.SelectInv [] none := by simp [SelectInv]

theorem selectInv_step {ys : List Int64} {st : Option ParsedVersion} (h : c.SelectInv ys st)
    (x : Int64) : c.SelectInv (ys ++ [x]) (c.selectStep c.getSupportedMajorVersions st x) := by
  unfold selectStep
  by_cases hx : x ∈ c.getSupportedMajorVersions
  · -- `x` is kept when it is at least every supported major read so far
    have hkeep (hle : ∀ y ∈ ys, y ∈ c.getSupportedMajorVersions → y ≤ x) :
        c.SelectInv (ys ++ [x]) (c.getHighestSupportedVersionForMajor x) := by
      obtain ⟨v', hv'⟩ := c.getHighest_of_mem hx
      rw [hv']
      exact ⟨x, by simp, hx, List.forall_mem_append.mpr ⟨hle, List.forall_mem_singleton.mpr fun _ => le_rfl⟩,
        hv'⟩
    simp only [hx, not_true_eq_false, if_false]
    cases st with
    | none => exact hkeep fun y hy hys => absurd hys (h y hy)
    | some v =>
      obtain ⟨M, hM, hMs, hmax, hv⟩ := h
      simp only [gt_iff_lt, (c.mem_of_getHighest hv).1]
      split_ifs with hlt
      · exact hkeep fun y hy hys => (hmax y hy hys).trans hlt.le
      · exact ⟨M, by simp [hM], hMs, List.forall_mem_append.mpr
          ⟨hmax, List.forall_mem_singleton.mpr fun _ => not_lt.mp hlt⟩, hv⟩
  · simp only [hx, not_false_eq_true, if_true]
    cases st with
    | none => exact List.forall_mem_append.mpr ⟨h, List.forall_mem_singleton.mpr hx⟩
    | some v =>
      obtain ⟨M, hM, hMs, hmax, hv⟩ := h
      exact ⟨M, by simp [hM], hMs, List.forall_mem_append.mpr
        ⟨hmax, List.forall_mem_singleton.mpr fun hxs => absurd hxs hx⟩, hv⟩

theorem selectInv_foldl (xs : List Int64) {ys : List Int64} {st : Option ParsedVersion}
    (h : c.SelectInv ys st) :
    c.SelectInv (ys ++ xs) (xs.foldl (c.selectStep c.getSupportedMajorVersions) st) := by
  induction xs generalizing ys st with
  | nil => simpa using h
  | cons x xs ih =>
    rw [List.foldl_cons, ← List.singleton_append, ← List.append_assoc]
    exact ih (c.selectInv_step h x)

/-- The two outcomes of `SelectHighestSupportedVersion`. -/
theorem selectHighest_cases (xs : List Int64) :
    (c.selectHighestSupportedVersion xs = none ∧ ∀ x ∈ xs, x ∉ c.getSupportedMajorVersions) ∨
    ∃ M v, M ∈ xs ∧ M ∈ c.getSupportedMajorVersions ∧
      (∀ x ∈ xs, x ∈ c.getSupportedMajorVersions → x ≤ M) ∧
      c.getHighestSupportedVersionForMajor M = some v ∧
      c.selectHighestSupportedVersion xs = some v.string := by
  have h := c.selectInv_foldl xs c.selectInv_nil
  rw [List.nil_append] at h
  unfold selectHighestSupportedVersion
  cases hst : xs.foldl (c.selectStep c.getSupportedMajorVersions) none with
  | none => rw [hst] at h; exact .inl ⟨rfl, h⟩
  | some v =>
    rw [hst] at h
    obtain ⟨M, hM, hMs, hmax, hv⟩ := h
    exact .inr ⟨M, v, hM, hMs, hmax, hv, rfl⟩

/-- **`SelectHighestSupportedVersion`.** It returns nothing exactly when the list names no supported
major. Otherwise it returns the printed version found for the largest supported major `M` in the
list, and that text parses back to a version of major `M`. So the result depends only on which
supported majors the list names. -/
theorem selectHighestSupportedVersion_spec (xs : List Int64) :
    (c.selectHighestSupportedVersion xs = none ↔ ∀ x ∈ xs, x ∉ c.getSupportedMajorVersions) ∧
    (∀ M ∈ xs, M ∈ c.getSupportedMajorVersions →
      (∀ x ∈ xs, x ∈ c.getSupportedMajorVersions → x ≤ M) →
      ∃ v, c.getHighestSupportedVersionForMajor M = some v ∧
        c.selectHighestSupportedVersion xs = some v.string ∧
        parseVersion v.string = .ok v ∧ v.major = M) ∧
    (∀ ys : List Int64, (∀ m, m ∈ xs ∧ m ∈ c.getSupportedMajorVersions ↔
        m ∈ ys ∧ m ∈ c.getSupportedMajorVersions) →
      c.selectHighestSupportedVersion xs = c.selectHighestSupportedVersion ys) := by
  refine ⟨?_, fun M hM hMs hmax => ?_, fun ys hys => ?_⟩
  · rcases c.selectHighest_cases xs with ⟨h, hn⟩ | ⟨M, v, hM, hMs, -, -, h⟩
    · exact ⟨fun _ => hn, fun _ => h⟩
    · rw [h]; exact ⟨nofun, fun hn => absurd hMs (hn M hM)⟩
  · rcases c.selectHighest_cases xs with ⟨-, hn⟩ | ⟨M', v, hM', hM's, hmax', hv, h⟩
    · exact absurd hMs (hn M hM)
    · have hMM : M' = M := le_antisymm (hmax M' hM' hM's) (hmax' M hM hMs)
      subst hMM
      exact ⟨v, hv, h, parseVersion_sprintfVersion _ _, (c.mem_of_getHighest hv).1⟩
  · rcases c.selectHighest_cases xs with ⟨h, hn⟩ | ⟨M, v, hM, hMs, hmax, hv, h⟩ <;>
      rcases c.selectHighest_cases ys with ⟨h', hn'⟩ | ⟨M', v', hM', hM's, hmax', hv', h'⟩
    · rw [h, h']
    · exact absurd hM's (hn M' ((hys M').mpr ⟨hM', hM's⟩).1)
    · exact absurd hMs (hn' M ((hys M).mp ⟨hM, hMs⟩).1)
    · have hMM : M = M' := le_antisymm (hmax' M ((hys M).mp ⟨hM, hMs⟩).1 hMs)
        (hmax M' ((hys M').mpr ⟨hM', hM's⟩).1 hM's)
      subst hMM
      rw [h, h', Option.some.inj (hv.symm.trans hv')]

end Catalog

end Uma
