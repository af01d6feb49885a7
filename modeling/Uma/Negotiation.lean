import Uma.Catalog

/-!
# Two catalogs agree on a version

The sending party `A` proposes a version to the receiving party `B`: its own current version when
`B` supports that major, and otherwise the highest version it shares with the majors `B` lists.
`B` answers with the lower of the proposal and its own current version, by `SelectLowerVersion`.

**Theorem (`negotiation_agrees`).** Whenever `A` has a proposal, `B`'s answer exists and is a version
that both catalogs support. The one assumption is on `B`: no backward-compatible version of `B` has
a major above `B`'s current major. Without it `B` could accept a proposal above its current version
and answer with a lower version that `A` does not support.

**Theorem (`negotiation_highest_common_major`).** With the same assumption on `A` as well, `A` has a
proposal exactly when the catalogs share a major, and the version `B` answers with has the highest
major they share and is above neither current version.
-/

namespace Uma

open Go

namespace Catalog

variable (c : Catalog)

/-- No backward-compatible version is above the current major version. -/
def BackcompatBelow : Prop :=
  ∀ version ∈ c.backcompatVersions, ∀ v, parseVersion version = .ok v → v.major ≤ c.majorVersion

theorem le_majorVersion_of_mem (hc : c.BackcompatBelow) {m : Int64}
    (hm : m ∈ c.getSupportedMajorVersions) : m ≤ c.majorVersion := by
  rcases (c.mem_getSupportedMajorVersions m).mp hm with rfl | ⟨version, hmem, v, hp, rfl⟩
  · exact le_refl _
  · exact hc version hmem v hp

theorem majorVersion_mem : c.majorVersion ∈ c.getSupportedMajorVersions :=
  (c.mem_getSupportedMajorVersions _).mpr (.inl rfl)

theorem isVersionSupported_iff {s : String} {v : ParsedVersion} (h : parseVersion s = .ok v) :
    c.isVersionSupported s = true ↔ v.major ∈ c.getSupportedMajorVersions := by
  simp [isVersionSupported, h]

theorem isVersionSupported_umaProtocolVersion :
    c.isVersionSupported c.umaProtocolVersion = true :=
  (c.isVersionSupported_iff c.parseVersion_umaProtocolVersion).mpr c.majorVersion_mem

end Catalog

/-- `B`'s answer to a proposal whose major both catalogs support is supported by both. -/
theorem selectLower_supported {A B : Catalog} (hB : B.BackcompatBelow) {p : String}
    {vp : ParsedVersion} (hp : parseVersion p = .ok vp) (hA : vp.major ∈ A.getSupportedMajorVersions)
    (hB' : vp.major ∈ B.getSupportedMajorVersions) :
    ∃ r, selectLowerVersion p B.umaProtocolVersion = .ok r ∧
      A.isVersionSupported r = true ∧ B.isVersionSupported r = true := by
  have hvB := B.parseVersion_umaProtocolVersion
  refine ⟨_, selectLowerVersion_of_ok hp hvB, ?_⟩
  split_ifs with hlt
  · have hle := B.le_majorVersion_of_mem hB hB'
    have heq : vp.major = B.majorVersion := by
      rcases ParsedVersion.lt_iff.mp hlt with h | ⟨h, -⟩
      · exact absurd h (not_lt.mpr hle)
      · exact h.symm
    rw [A.isVersionSupported_iff hvB, ← heq]
    exact ⟨hA, B.isVersionSupported_umaProtocolVersion⟩
  · exact ⟨(A.isVersionSupported_iff hp).mpr hA, (B.isVersionSupported_iff hp).mpr hB'⟩

/-- **Negotiation converges.** `A` proposes its current version when `B` supports it, and otherwise
the highest version it shares with `keys`, any listing of `B`'s supported majors. Whenever there is a
proposal, `B`'s answer `SelectLowerVersion(proposal, B's current version)` succeeds, and both catalogs
support the version it returns. -/
theorem negotiation_agrees (A B : Catalog) (hB : B.BackcompatBelow) (keys : List Int64)
    (hkeys : ∀ m, m ∈ keys ↔ m ∈ B.getSupportedMajorVersions) (p : String)
    (hp : (if B.isVersionSupported A.umaProtocolVersion then some A.umaProtocolVersion
      else A.selectHighestSupportedVersion keys) = some p) :
    ∃ r, selectLowerVersion p B.umaProtocolVersion = .ok r ∧
      A.isVersionSupported r = true ∧ B.isVersionSupported r = true := by
  split_ifs at hp with hsup
  · cases hp
    exact selectLower_supported hB A.parseVersion_umaProtocolVersion A.majorVersion_mem
      ((B.isVersionSupported_iff A.parseVersion_umaProtocolVersion).mp hsup)
  · rcases A.selectHighest_cases keys with ⟨h, -⟩ | ⟨M, v, hM, hMA, -, hv, h⟩
    · rw [h] at hp; cases hp
    · rw [h] at hp
      cases hp
      have hvM := (A.mem_of_getHighest hv).1
      exact selectLower_supported hB (parseVersion_sprintfVersion _ _) (hvM ▸ hMA)
        (hvM ▸ (hkeys M).mp hM)

/-- `A` speaks `2.1` and still `1.5` and `0.3`; `B` is the shipped catalog. They settle on `1.0`. -/
theorem negotiation_agrees_shipped :
    ∃ r, selectLowerVersion "1.5" shipped.umaProtocolVersion = .ok r ∧
      Catalog.isVersionSupported ⟨2, 1, ["1.5", "0.3"]⟩ r = true ∧
      shipped.isVersionSupported r = true :=
  negotiation_agrees ⟨2, 1, ["1.5", "0.3"]⟩ shipped
    (by
      intro version hmem v hp
      simp only [shipped, List.mem_singleton] at hmem
      subst hmem
      rw [show parseVersion "0.3" = .ok ⟨0, 3⟩ by decide] at hp
      cases hp
      decide)
    [0, 1]
    (by
      rw [show shipped.getSupportedMajorVersions = [0, 1] by decide]
      exact fun _ => Iff.rfl)
    "1.5" (by decide)

/-! ## The highest common major -/

namespace Catalog

/-- What `A` proposes to `B`: its current version when `B` supports that major, and otherwise the
highest version it shares with `keys`, the majors `B` lists. -/
def proposal (A B : Catalog) (keys : List Int64) : Option String :=
  if B.isVersionSupported A.umaProtocolVersion then some A.umaProtocolVersion
  else A.selectHighestSupportedVersion keys

/-- The current version of a catalog, as `ParseVersion` reads `UmaProtocolVersion`. -/
def current (c : Catalog) : ParsedVersion := ⟨c.majorVersion, c.minorVersion⟩

/-- `m` is the highest major that both catalogs support. -/
def HighestCommonMajor (A B : Catalog) (m : Int64) : Prop :=
  m ∈ A.getSupportedMajorVersions ∧ m ∈ B.getSupportedMajorVersions ∧
    ∀ m' ∈ A.getSupportedMajorVersions, m' ∈ B.getSupportedMajorVersions → m' ≤ m

variable {A B : Catalog} {keys : List Int64}

theorem proposal_eq_none_iff (hkeys : ∀ m, m ∈ keys ↔ m ∈ B.getSupportedMajorVersions) :
    A.proposal B keys = none ↔
      ∀ m ∈ A.getSupportedMajorVersions, m ∉ B.getSupportedMajorVersions := by
  unfold proposal
  split_ifs with hsup
  · -- `A`'s own major is shared
    exact ⟨nofun, fun h => h _ A.majorVersion_mem
      ((B.isVersionSupported_iff A.parseVersion_umaProtocolVersion).mp hsup)⟩
  · rcases A.selectHighest_cases keys with ⟨h, hn⟩ | ⟨M, v, hM, hMA, -, -, h⟩
    · exact ⟨fun _ m hmA hmB => hn m ((hkeys m).mpr hmB) hmA, fun _ => h⟩
    · rw [h]
      exact ⟨nofun, fun hn => (hn M hMA ((hkeys M).mp hM)).elim⟩

/-- A version `GetHighestSupportedVersionForMajor` returns is at most the current version. -/
theorem le_current_of_getHighest (hA : A.BackcompatBelow) {m : Int64} {v : ParsedVersion}
    (hv : A.getHighestSupportedVersionForMajor m = some v) : v ≤ A.current := by
  obtain ⟨rfl, hm⟩ := A.mem_of_getHighest hv
  by_cases hcur : v.major = A.majorVersion
  · rw [getHighestSupportedVersionForMajor, if_pos hcur, parseVersion_umaProtocolVersion] at hv
    cases hv
    exact le_rfl
  · exact (ParsedVersion.lt_iff.mpr (.inl
      (lt_of_le_of_ne (A.le_majorVersion_of_mem hA hm) hcur))).le

/-- The proposal has the highest common major, and is at most `A`'s current version. -/
theorem proposal_highest (hA : A.BackcompatBelow)
    (hkeys : ∀ m, m ∈ keys ↔ m ∈ B.getSupportedMajorVersions) {p : String}
    (hp : A.proposal B keys = some p) :
    ∃ vp, parseVersion p = .ok vp ∧ HighestCommonMajor A B vp.major ∧ vp ≤ A.current := by
  unfold proposal at hp
  split_ifs at hp with hsup
  · cases hp
    exact ⟨_, A.parseVersion_umaProtocolVersion, ⟨A.majorVersion_mem,
      (B.isVersionSupported_iff A.parseVersion_umaProtocolVersion).mp hsup,
      fun m hm _ => A.le_majorVersion_of_mem hA hm⟩, le_rfl⟩
  · rcases A.selectHighest_cases keys with ⟨h, -⟩ | ⟨M, v, hM, hMA, hmax, hv, h⟩
    · rw [h] at hp; cases hp
    · rw [h] at hp
      cases hp
      have hle := le_current_of_getHighest hA hv
      obtain ⟨rfl, -⟩ := A.mem_of_getHighest hv
      exact ⟨v, parseVersion_string v,
        ⟨hMA, (hkeys _).mp hM, fun m hmA hmB => hmax m ((hkeys m).mpr hmB) hmA⟩, hle⟩

end Catalog

/-- The lower of two versions has the first one's major when that major is not above the
second's. -/
theorem ParsedVersion.major_min {v w : ParsedVersion} (h : v.major ≤ w.major) :
    (min v w).major = v.major := by
  rcases le_total v w with hvw | hwv
  · rw [min_eq_left hvw]
  · rw [min_eq_right hwv]
    rcases hwv.lt_or_eq with hlt | rfl
    · rcases ParsedVersion.lt_iff.mp hlt with hm | ⟨hm, -⟩
      · exact absurd hm (not_lt.mpr h)
      · exact hm
    · rfl

open Catalog in
/-- **Negotiation settles on the highest common major.** When neither catalog has a
backward-compatible version above its current major, `A` has a proposal exactly when the two
catalogs share a major; and then `B`'s answer, the lower of the proposal and its own current
version, is a version whose major is the highest one both support, and which is above neither
party's current version. -/
theorem negotiation_highest_common_major (A B : Catalog) (hA : A.BackcompatBelow)
    (hB : B.BackcompatBelow) (keys : List Int64)
    (hkeys : ∀ m, m ∈ keys ↔ m ∈ B.getSupportedMajorVersions) :
    (A.proposal B keys = none ↔
      ∀ m ∈ A.getSupportedMajorVersions, m ∉ B.getSupportedMajorVersions) ∧
    ∀ p, A.proposal B keys = some p → ∃ r v, selectLowerVersion p B.umaProtocolVersion = .ok r ∧
      parseVersion r = .ok v ∧ HighestCommonMajor A B v.major ∧ v ≤ A.current ∧ v ≤ B.current := by
  refine ⟨proposal_eq_none_iff hkeys, fun p hp => ?_⟩
  obtain ⟨vp, hvp, hcommon, hle⟩ := proposal_highest hA hkeys hp
  refine ⟨_, _, selectLowerVersion_of_ok hvp B.parseVersion_umaProtocolVersion,
    parseVersion_lower hvp B.parseVersion_umaProtocolVersion, ?_, (min_le_left _ _).trans hle,
    min_le_right _ _⟩
  rwa [ParsedVersion.major_min (B.le_majorVersion_of_mem hB hcommon.2.1)]

/-- `A` speaks `2.1` and still `1.5` and `0.3`, and `B` is the shipped catalog: they share the
majors `0` and `1`, and settle on major `1`. -/
theorem negotiation_highest_common_major_shipped :
    let A : Catalog := ⟨2, 1, ["1.5", "0.3"]⟩
    (A.proposal shipped [0, 1] = none ↔
      ∀ m ∈ A.getSupportedMajorVersions, m ∉ shipped.getSupportedMajorVersions) ∧
    ∀ p, A.proposal shipped [0, 1] = some p → ∃ r v,
      selectLowerVersion p shipped.umaProtocolVersion = .ok r ∧ parseVersion r = .ok v ∧
      Catalog.HighestCommonMajor A shipped v.major ∧ v ≤ A.current ∧ v ≤ shipped.current :=
  negotiation_highest_common_major ⟨2, 1, ["1.5", "0.3"]⟩ shipped
    (by
      intro version hmem v hp
      simp only [List.mem_cons, List.mem_singleton, List.not_mem_nil, or_false] at hmem
      rcases hmem with rfl | rfl
      · rw [show parseVersion "1.5" = .ok ⟨1, 5⟩ by decide] at hp
        cases hp
        decide
      · rw [show parseVersion "0.3" = .ok ⟨0, 3⟩ by decide] at hp
        cases hp
        decide)
    (by
      intro version hmem v hp
      simp only [shipped, List.mem_singleton] at hmem
      subst hmem
      rw [show parseVersion "0.3" = .ok ⟨0, 3⟩ by decide] at hp
      cases hp
      decide)
    [0, 1]
    (by
      rw [show shipped.getSupportedMajorVersions = [0, 1] by decide]
      exact fun _ => Iff.rfl)

end Uma
