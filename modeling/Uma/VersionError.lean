import Uma.Go.JsonRoundTrip
import Uma.Go.JsonDecode

/-!
# The version-mismatch error and the body that carries it

A VASP that does not support the version a request asks for answers with an
`UnsupportedVersionError`: the version it was asked for and the major versions it supports. The
other side reads the supported majors back from the response body with
`GetSupportedMajorVersionsFromErrorResponseBody`, which expects the majors as one string of
comma-separated integers.

**Main results.** `getSupportedMajorVersionsFromErrorResponseBody_itoa`: the documented body, an
object of strings whose `supportedMajorVersions` is the majors written by `Itoa` and joined with
commas, gives the majors back exactly, for every non-empty list.
`getSupportedMajorVersionsFromErrorResponseBody_pieces`: on any body, one major comes back for each
comma-separated piece, so never none; a missing or empty member is `Atoi`'s syntax error.
`getSupportedMajorVersions_marshal`: the body `json.Marshal` writes for the error is never read
back. The struct's tag makes `json.Marshal` write the majors as an array of numbers, which cannot
be decoded into the `string` the decoder's `map[string]string` holds, for every version string and
every list of majors.
-/

namespace Uma

open Go

/-- `UnsupportedVersionError`. A nil `SupportedMajorVersions`, which `json.Marshal` writes as
`null`, is not told apart from an empty one, written `[]`. -/
structure UnsupportedVersionError where
  unsupportedVersion : String
  supportedMajorVersions : List Int64

namespace UnsupportedVersionError

/-- `UnsupportedVersionError.Error`. -/
def error (e : UnsupportedVersionError) : String := "unsupported version: " ++ e.unsupportedVersion

/-- The value `json.Marshal` writes for the error: its fields under their tags, in order. -/
def toJson (e : UnsupportedVersionError) : JsonValue :=
  .object [("unsupportedVersion", .string e.unsupportedVersion),
    ("supportedMajorVersions", intArray e.supportedMajorVersions)]

/-- `json.Marshal(e)`. -/
def marshal (e : UnsupportedVersionError) : List Char := e.toJson.encode

theorem parse_marshal (e : UnsupportedVersionError) : parse e.marshal = some e.toJson :=
  parse_encode ⟨by decide, trivial, readable_intArray (by decide) _, trivial⟩

end UnsupportedVersionError

/-- `GetSupportedMajorVersionsFromErrorResponseBody`. -/
def getSupportedMajorVersionsFromErrorResponseBody (errorResponseBody : List Char) :
    Except GoError (List Int64) := do
  let responseJson ← unmarshalStringMap errorResponseBody
  let vasp2SupportedMajorVersions := (mapGet responseJson "supportedMajorVersions").getD ""
  (split vasp2SupportedMajorVersions ',').mapM fun version => atoi version.data

/-- **The documented body is read back.** For every non-empty list of majors, a body that parses
to an object of strings whose `supportedMajorVersions` member is the majors written by `Itoa` and
joined with commas gives back exactly that list. -/
theorem getSupportedMajorVersionsFromErrorResponseBody_itoa {body : List Char}
    {sm : List (String × String)} {ns : List Int64} (hns : ns ≠ [])
    (hbody : parse body = some (.object (sm.map fun kv => (kv.1, .string kv.2))))
    (hmem : ("supportedMajorVersions", join (ns.map itoa) ',') ∈ sm)
    (hall : ∀ v, ("supportedMajorVersions", v) ∈ sm → v = join (ns.map itoa) ',') :
    getSupportedMajorVersionsFromErrorResponseBody body = .ok ns := by
  have hget : mapGet (toMap sm) "supportedMajorVersions" = some (join (ns.map itoa) ',') := by
    rw [mapGet_toMap]
    exact mapGet_of_forall (List.mem_reverse.mpr hmem) fun v hv => hall v (List.mem_reverse.mp hv)
  have hsplit : split (join (ns.map itoa) ',') ',' = ns.map itoa := by
    refine split_join (fun e he => ?_) (by simpa using hns)
    obtain ⟨n, -, rfl⟩ := List.mem_map.mp he
    exact not_mem_formatInt (by decide) _
  rw [getSupportedMajorVersionsFromErrorResponseBody, unmarshalStringMap_of_strings hbody]
  show ((split ((mapGet (toMap sm) "supportedMajorVersions").getD "") ',').mapM _) = _
  rw [hget, Option.getD_some, hsplit, mapM_atoi_itoa]

/-- The documented body of an error for version `2.0`, with majors `1` and `0`, gives `[1, 0]`. -/
theorem getSupportedMajorVersionsFromErrorResponseBody_documented :
    getSupportedMajorVersionsFromErrorResponseBody
      "\x7b\"unsupportedVersion\":\"2.0\",\"supportedMajorVersions\":\"1,0\"\x7d".data =
        .ok [1, 0] :=
  getSupportedMajorVersionsFromErrorResponseBody_itoa (List.cons_ne_nil _ _)
    (show parse _ = some (.object
      ([("unsupportedVersion", "2.0"), ("supportedMajorVersions", "1,0")].map
        fun kv => (kv.1, .string kv.2))) from rfl) (by decide) fun v hv => by
    simp only [List.mem_cons, Prod.mk.injEq, List.mem_singleton, List.not_mem_nil] at hv
    rcases hv with ⟨h, -⟩ | ⟨-, rfl⟩ | h
    exacts [absurd h (by decide), by decide, h.elim]

theorem length_of_mapM_eq_ok {α β : Type} {f : α → Except GoError β} :
    ∀ {l : List α} {ns : List β}, l.mapM f = .ok ns → ns.length = l.length
  | [], _, h => by cases h; rfl
  | a :: l, ns, h => by
    rw [List.mapM_cons] at h
    obtain ⟨b, -, h⟩ := bind_eq_ok.mp h
    obtain ⟨bs, hl, h⟩ := bind_eq_ok.mp h
    cases h
    rw [List.length_cons, List.length_cons, length_of_mapM_eq_ok hl]

/-- **One major for each piece, and never none.** On a body that decodes into a map of strings, a
call that succeeds returns one major for each comma-separated piece of `supportedMajorVersions`, so
never an empty list; when that member is missing or empty, the call fails with the syntax error
`Atoi` returns for the empty string. -/
theorem getSupportedMajorVersionsFromErrorResponseBody_pieces {body : List Char}
    {m : List (String × String)} (hm : unmarshalStringMap body = .ok m) :
    (∀ ns, getSupportedMajorVersionsFromErrorResponseBody body = .ok ns →
      ns.length = ((mapGet m "supportedMajorVersions").getD "").data.count ',' + 1) ∧
    ((mapGet m "supportedMajorVersions").getD "" = "" →
      getSupportedMajorVersionsFromErrorResponseBody body =
        .error (.num "Atoi" "" .errSyntax)) := by
  rw [getSupportedMajorVersionsFromErrorResponseBody, hm]
  refine ⟨fun ns h => ?_, fun hs => ?_⟩
  · rw [length_of_mapM_eq_ok h, length_split]
  · show ((split ((mapGet m "supportedMajorVersions").getD "") ',').mapM _) = _
    rw [hs]
    rfl

/-- A body whose `supportedMajorVersions` is empty is an error, not an empty list of majors. -/
theorem getSupportedMajorVersionsFromErrorResponseBody_emptyMember :
    getSupportedMajorVersionsFromErrorResponseBody
      "\x7b\"supportedMajorVersions\":\"\"\x7d".data = .error (.num "Atoi" "" .errSyntax) := by
  refine (getSupportedMajorVersionsFromErrorResponseBody_pieces
    (m := [("supportedMajorVersions", "")]) ?_).2 rfl
  rfl

/-- The body `json.Marshal` writes for an `UnsupportedVersionError` does not decode: its
`supportedMajorVersions` is an array, and the decoder holds strings. -/
theorem getSupportedMajorVersions_marshal (e : UnsupportedVersionError) :
    getSupportedMajorVersionsFromErrorResponseBody e.marshal = .error (.jsonUnmarshalType "array") := by
  rw [getSupportedMajorVersionsFromErrorResponseBody, unmarshalStringMap, e.parse_marshal]
  rfl

end Uma
