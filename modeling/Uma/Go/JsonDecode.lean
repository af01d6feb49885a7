import Uma.Go.Json

/-!
# `encoding/json`: decoding into Go variables

`json.Unmarshal` parses the text and then stores the value into the variable it is given; what it
stores, and which error it returns, depend on the variable's type. The package decodes into three
kinds of variable:

* a `map[string]string` (`unmarshalStringMap`): the text must be an object, or `null`, whose values
  are strings, or `null`, which stores `""`;
* a `map[string]interface{}` (`unmarshalAnyMap`): any object; its numbers become `float64`, and a
  number out of the range of `float64` is an error;
* a type of its own, defined outside the modelled files (`JsonCodec`).

A Go map is kept as its entries sorted by key, each key once: a later member with the key of an
earlier one replaces it, as a map store does. A `nil` map is kept as the empty one, which reads the
same. Of several type errors the decoder returns the first, as it does.

A `float64` decoded into an `interface{}` keeps the literal it was read from; the text that
`json.Marshal` writes for it, the shortest that reads back as the same `float64`, is the parameter
`floatText` of the functions that write one.
-/

namespace Go

/-! ## Maps -/

/-- `m[k] = v` on a map kept sorted by key. Go orders keys by their bytes, which for UTF-8 is the
order of their runes. -/
def mapInsert {α : Type} (k : String) (v : α) : List (String × α) → List (String × α)
  | [] => [(k, v)]
  | (k', v') :: m =>
    if k.data < k'.data then (k, v) :: (k', v') :: m
    else if k = k' then (k, v) :: m
    else (k', v') :: mapInsert k v m

/-- The map that storing the members one after another builds. -/
def toMap {α : Type} (ms : List (String × α)) : List (String × α) :=
  ms.foldl (fun m kv => mapInsert kv.1 kv.2 m) []

/-- `m[k]`, or `none` when the key is not there. -/
def mapGet {α : Type} (m : List (String × α)) (k : String) : Option α := m.lookup k

section Maps

variable {α : Type}

@[simp] theorem mapGet_nil (k : String) : mapGet ([] : List (String × α)) k = none := rfl

theorem mapGet_cons (k k' : String) (v : α) (m : List (String × α)) :
    mapGet ((k, v) :: m) k' = if k' = k then some v else mapGet m k' := by
  unfold mapGet
  by_cases h : k' = k
  · subst h; simp [List.lookup]
  · simp [List.lookup, beq_eq_false_iff_ne.mpr h, h]

theorem mapGet_append (m₁ m₂ : List (String × α)) (k : String) :
    mapGet (m₁ ++ m₂) k = (mapGet m₁ k).or (mapGet m₂ k) := by
  induction m₁ with
  | nil => rfl
  | cons kv m₁ ih =>
    rw [List.cons_append, mapGet_cons, mapGet_cons, ih]
    split <;> rfl

theorem mapGet_mapInsert (k k' : String) (v : α) (m : List (String × α)) :
    mapGet (mapInsert k v m) k' = if k' = k then some v else mapGet m k' := by
  induction m with
  | nil => exact mapGet_cons k k' v []
  | cons kv m ih =>
    obtain ⟨k₀, v₀⟩ := kv
    unfold mapInsert
    by_cases h₁ : k.data < k₀.data
    · rw [if_pos h₁, mapGet_cons]
    rw [if_neg h₁]
    by_cases h₂ : k = k₀
    · subst h₂
      rw [if_pos rfl, mapGet_cons, mapGet_cons]
      split_ifs <;> rfl
    · rw [if_neg h₂, mapGet_cons, ih, mapGet_cons]
      by_cases h₃ : k' = k₀
      · subst h₃; simp [Ne.symm h₂]
      · simp [h₃]

/-- Reading a map built from members reads the last member with the key. -/
theorem mapGet_toMap (ms : List (String × α)) (k : String) :
    mapGet (toMap ms) k = mapGet ms.reverse k := by
  suffices ∀ acc, mapGet (ms.foldl (fun m kv => mapInsert kv.1 kv.2 m) acc) k =
      (mapGet ms.reverse k).or (mapGet acc k) from by simpa using this []
  induction ms with
  | nil => intro acc; rfl
  | cons kv ms ih =>
    intro acc
    rw [List.foldl_cons, ih, mapGet_mapInsert, List.reverse_cons, mapGet_append, Option.or_assoc,
      mapGet_cons]
    split <;> rfl

/-- A map as `mapInsert` keeps it: keys in strictly increasing order. -/
def SortedKeys (m : List (String × α)) : Prop := m.Pairwise fun a b => a.1.data < b.1.data

theorem mem_mapInsert {k : String} {v : α} {m : List (String × α)} {kv : String × α}
    (h : kv ∈ mapInsert k v m) : kv = (k, v) ∨ kv ∈ m := by
  induction m with
  | nil => simpa [mapInsert] using h
  | cons kv₀ m ih =>
    obtain ⟨k₀, v₀⟩ := kv₀
    unfold mapInsert at h
    split_ifs at h with h₁ h₂
    · simpa using h
    · rcases List.mem_cons.mp h with h | h
      · exact .inl h
      · exact .inr (List.mem_cons_of_mem _ h)
    · rcases List.mem_cons.mp h with h | h
      · exact .inr (h ▸ List.mem_cons_self _ _)
      · exact (ih h).imp_right (List.mem_cons_of_mem _)

theorem sortedKeys_mapInsert (k : String) (v : α) {m : List (String × α)} (h : SortedKeys m) :
    SortedKeys (mapInsert k v m) := by
  induction m with
  | nil => simp [SortedKeys, mapInsert]
  | cons kv₀ m ih =>
    obtain ⟨k₀, v₀⟩ := kv₀
    rw [SortedKeys, List.pairwise_cons] at h
    obtain ⟨h₀, hm⟩ := h
    unfold mapInsert
    split_ifs with h₁ h₂
    · refine List.Pairwise.cons (fun x hx => ?_) (List.Pairwise.cons h₀ hm)
      rcases List.mem_cons.mp hx with rfl | hx
      · exact h₁
      · exact lt_trans h₁ (h₀ x hx)
    · subst h₂
      exact List.Pairwise.cons h₀ hm
    · have hlt : k₀.data < k.data :=
        lt_of_le_of_ne (not_lt.mp h₁) fun h => h₂ (String.ext h.symm)
      refine List.Pairwise.cons (fun x hx => ?_) (ih hm)
      rcases mem_mapInsert hx with rfl | hx
      · exact hlt
      · exact h₀ x hx

theorem sortedKeys_toMap (ms : List (String × α)) : SortedKeys (toMap ms) := by
  suffices ∀ acc, SortedKeys acc → SortedKeys (ms.foldl (fun m kv => mapInsert kv.1 kv.2 m) acc) from
    this [] List.Pairwise.nil
  induction ms with
  | nil => exact fun _ h => h
  | cons kv ms ih => exact fun acc h => ih _ (sortedKeys_mapInsert _ _ h)

theorem SortedKeys.pairwise_ne {m : List (String × α)} (h : SortedKeys m) :
    m.Pairwise fun a b => a.1 ≠ b.1 :=
  h.imp fun {a b} h (e : a.1 = b.1) => lt_irrefl b.1.data (e ▸ h)

/-- A map whose values are rewritten is read as the rewritten value. -/
theorem mapGet_map {β : Type} (f : α → β) (m : List (String × α)) (k : String) :
    mapGet (m.map fun kv => (kv.1, f kv.2)) k = (mapGet m k).map f := by
  induction m with
  | nil => rfl
  | cons kv m ih =>
    rw [List.map_cons, mapGet_cons, mapGet_cons, ih]
    split <;> rfl

/-- A key whose entries all hold one value is looked up to that value. -/
theorem mapGet_of_forall {m : List (String × α)} {k : String} {x : α} (hmem : (k, x) ∈ m)
    (hall : ∀ v, (k, v) ∈ m → v = x) : mapGet m k = some x := by
  induction m with
  | nil => cases hmem
  | cons kv m ih =>
    obtain ⟨k', v'⟩ := kv
    rw [mapGet_cons]
    split
    · next h => subst h; rw [hall v' (List.mem_cons_self _ _)]
    · next h =>
      exact ih ((List.mem_cons.mp hmem).resolve_left (by rintro ⟨⟩; exact h rfl))
        fun v hv => hall v (List.mem_cons_of_mem _ hv)

end Maps

/-! ## `map[string]string` -/

/-- What `json.Unmarshal` stores into a `string` for a member's value. -/
def stringElem : JsonValue → Except GoError String
  | .string s => .ok s
  | .null => .ok ""
  | v => .error (.jsonUnmarshalType v.kind)

/-- `json.Unmarshal(data, &m)` for `m map[string]string`. -/
def unmarshalStringMap (data : List Char) : Except GoError (List (String × String)) :=
  match parse data with
  | none => .error .jsonSyntax
  | some .null => .ok []
  | some (.object ms) => toMap <$> ms.mapM fun kv => (kv.1, ·) <$> stringElem kv.2
  | some v => .error (.jsonUnmarshalType v.kind)

theorem mapM_stringElem (sm : List (String × String)) :
    (sm.map fun kv => (kv.1, JsonValue.string kv.2)).mapM
      (fun kv => (kv.1, ·) <$> stringElem kv.2) = .ok sm := by
  induction sm with
  | nil => rfl
  | cons kv sm ih =>
    rw [List.map_cons, List.mapM_cons, ih]
    rfl

/-- A document that parses to an object of strings decodes into the map of those strings. -/
theorem unmarshalStringMap_of_strings {data : List Char} {sm : List (String × String)}
    (h : parse data = some (.object (sm.map fun kv => (kv.1, .string kv.2)))) :
    unmarshalStringMap data = .ok (toMap sm) := by
  rw [unmarshalStringMap, h]
  dsimp only
  rw [mapM_stringElem]
  rfl

/-! ## `map[string]interface{}` -/

/-- What `strconv.ParseFloat` reads from a number literal: the digits of its integer part and its
fraction together, and the power of ten that scales them. -/
def floatDigits (lit : List Char) : List Char × Int :=
  let s := match lit with
    | '-' :: s => s
    | s => s
  let (i, s) := s.span Char.isDigit
  let (f, s) := match s with
    | '.' :: s => s.span Char.isDigit
    | s => ([], s)
  let e : Int := match s with
    | _ :: '-' :: s => -(digitsValue s : Int)
    | _ :: '+' :: s => digitsValue s
    | _ :: s => digitsValue s
    | [] => 0
  (i ++ f, e - f.length)

/-- Whether `strconv.ParseFloat(lit, 64)` fails with a range error: the magnitude of the literal
rounds past the largest `float64`, which it does from `2 ^ 1024 - 2 ^ 970` on. With `d` digits the
value lies between `10 ^ (d - 1 + e)` and `10 ^ (d + e)`, so only the literals on the boundary are
compared exactly. -/
def floatOverflows (lit : List Char) : Bool :=
  let m := digitsValue (floatDigits lit).1
  let e := (floatDigits lit).2
  let d : Int := (Nat.toDigits 10 m).length
  if m = 0 then false
  else if 309 ≤ d - 1 + e then true
  else if d + e ≤ 308 then false
  else if 0 ≤ e then 2 ^ 1024 - 2 ^ 970 ≤ m * 10 ^ e.toNat
  else (2 ^ 1024 - 2 ^ 970) * 10 ^ (-e).toNat ≤ m

mutual
/-- `json.Unmarshal` into an `interface{}`: numbers become `float64`, objects maps. -/
def decodeAny : JsonValue → Except GoError JsonValue
  | .number lit =>
    if floatOverflows lit.data then .error (.jsonUnmarshalType ("number " ++ lit))
    else .ok (.number lit)
  | .array vs => .array <$> decodeAnyElems vs
  | .object ms => (fun ms => .object (toMap ms)) <$> decodeAnyMembers ms
  | v => .ok v
/-- The elements of an array, into a `[]interface{}`. -/
def decodeAnyElems : List JsonValue → Except GoError (List JsonValue)
  | [] => .ok []
  | v :: vs => do
    let v ← decodeAny v
    let vs ← decodeAnyElems vs
    pure (v :: vs)
/-- The members of an object, into a `map[string]interface{}`. -/
def decodeAnyMembers : List (String × JsonValue) → Except GoError (List (String × JsonValue))
  | [] => .ok []
  | (k, v) :: ms => do
    let v ← decodeAny v
    let ms ← decodeAnyMembers ms
    pure ((k, v) :: ms)
end

/-- `json.Unmarshal(data, &m)` for `m map[string]interface{}`. -/
def unmarshalAnyMap (data : List Char) : Except GoError (List (String × JsonValue)) :=
  match parse data with
  | none => .error .jsonSyntax
  | some .null => .ok []
  | some (.object ms) => toMap <$> decodeAnyMembers ms
  | some v => .error (.jsonUnmarshalType v.kind)

/-- A decoded map has each key once, in order. -/
theorem sortedKeys_of_unmarshalAnyMap {data : List Char} {m : List (String × JsonValue)}
    (h : unmarshalAnyMap data = .ok m) : SortedKeys m := by
  unfold unmarshalAnyMap at h
  split at h
  · cases h
  · cases h; exact List.Pairwise.nil
  · cases hd : decodeAnyMembers _ <;> rw [hd] at h <;> cases h
    exact sortedKeys_toMap _
  · cases h

mutual
/-- A decoded `interface{}` value with each `float64` written as `floatText` says. -/
def JsonValue.withFloatText (floatText : String → String) : JsonValue → JsonValue
  | .number lit => .number (floatText lit)
  | .array vs => .array (withFloatTextElems floatText vs)
  | .object ms => .object (withFloatTextMembers floatText ms)
  | v => v
/-- `withFloatText` on the elements of an array. -/
def withFloatTextElems (floatText : String → String) : List JsonValue → List JsonValue
  | [] => []
  | v :: vs => v.withFloatText floatText :: withFloatTextElems floatText vs
/-- `withFloatText` on the members of an object. -/
def withFloatTextMembers (floatText : String → String) :
    List (String × JsonValue) → List (String × JsonValue)
  | [] => []
  | (k, v) :: ms => (k, v.withFloatText floatText) :: withFloatTextMembers floatText ms
end

/-- `json.Marshal` on a decoded `interface{}` value. A map writes its keys in sorted order, which is
the order it is kept in. -/
def marshalAny (floatText : String → String) (v : JsonValue) : List Char :=
  (v.withFloatText floatText).encode

/-! ## Types defined elsewhere -/

/-- `json.Marshal` and `json.Unmarshal` on a type that is defined outside the modelled files. -/
class JsonCodec (α : Type) where
  /-- `json.Marshal(&x)` -/
  marshal : α → Except GoError (List Char)
  /-- `json.Unmarshal(data, &x)` into a zero `x`. -/
  unmarshal : List Char → Except GoError α

/-- `json.Marshal` and `json.Unmarshal` on `struct{}`: it is written as an empty object, and it reads
any object, whose members match no field, or `null`. -/
instance : JsonCodec Unit where
  marshal _ := .ok "\x7b\x7d".data
  unmarshal data :=
    match parse data with
    | some (.object _) | some .null => .ok ()
    | some v => .error (.jsonUnmarshalType v.kind)
    | none => .error .jsonSyntax

end Go
