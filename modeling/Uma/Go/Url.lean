import Uma.Go.Strings

/-!
# `net/url`: query escaping, `url.Values` and `url.URL`

`EncodeToUrl` builds a `url.URL`, collects its query parameters in a `url.Values` with `Add`,
and writes them with `Values.Encode`: keys in sorted order, each `key=value` pair escaped with
`url.QueryEscape`, pairs joined with `&`. `QueryEscape` works on the UTF-8 bytes of the text: it
keeps letters, digits and `-_.~`, writes a space as `+`, and every other byte as `%XX`.
-/

namespace Go

/-- The digit `upperhex[n]` of `net/url`, for `n < 16`. -/
def upperhex (n : Nat) : Char := if n < 10 then Char.ofNat (48 + n) else Char.ofNat (55 + n)

/-- `shouldEscape(b, encodeQueryComponent)`: every byte but letters, digits and `-_.~`. -/
def shouldEscapeQuery (b : UInt8) : Bool :=
  let c := b.toNat
  !((97 ≤ c && c ≤ 122) || (65 ≤ c && c ≤ 90) || (48 ≤ c && c ≤ 57) ||
    c == 45 || c == 95 || c == 46 || c == 126)

/-- What `escape(s, encodeQueryComponent)` writes for one byte. -/
def escapeByte (b : UInt8) : List Char :=
  if b.toNat = 32 then ['+']
  else if shouldEscapeQuery b then ['%', upperhex (b.toNat / 16), upperhex (b.toNat % 16)]
  else [Char.ofNat b.toNat]

/-- `url.QueryEscape`. -/
def queryEscape (s : String) : String :=
  ⟨s.data.flatMap fun c => (String.utf8EncodeChar c).flatMap escapeByte⟩

/-- `url.Values`: each key with its values, keys in the order they were first added. -/
abbrev Values := List (String × List String)

/-- `(url.Values).Add`: append a value to the key's values. -/
def Values.add (v : Values) (key value : String) : Values :=
  if v.any (·.1 == key) then v.map fun kv => if kv.1 = key then (kv.1, kv.2 ++ [value]) else kv
  else v ++ [(key, [value])]

/-- `(url.Values).Encode`: `key=value` pairs, keys sorted, joined with `&`. -/
def Values.encode (v : Values) : String :=
  join ((v.mergeSort fun a b => decide (a.1 ≤ b.1)).flatMap fun kv =>
    kv.2.map fun x => queryEscape kv.1 ++ "=" ++ queryEscape x) '&'

/-- `url.URL`, with the fields `EncodeToUrl` sets; the others keep their zero values. -/
structure URL where
  scheme : String
  host : String
  path : String
  rawQuery : String
deriving DecidableEq

@[simp] theorem Values.encode_nil : Values.encode [] = "" := by
  simp [Values.encode, join, List.mergeSort]; rfl

/-- Adding distinct new keys one value each appends them in order. -/
theorem Values.foldl_add {β : Type} (f : β → String) : ∀ (m : List (String × β)) (acc : Values),
    m.Pairwise (fun a b => a.1 ≠ b.1) → (∀ kv ∈ m, ∀ e ∈ acc, e.1 ≠ kv.1) →
      m.foldl (fun ps kv => ps.add kv.1 (f kv.2)) acc = acc ++ m.map fun kv => (kv.1, [f kv.2])
  | [], _, _, _ => by simp
  | kv :: m, acc, hm, hacc => by
    rw [List.pairwise_cons] at hm
    have hadd : acc.add kv.1 (f kv.2) = acc ++ [(kv.1, [f kv.2])] := by
      rw [Values.add, if_neg]
      simpa using fun x he => hacc kv (List.mem_cons_self _ _) (kv.1, x) he rfl
    rw [List.foldl_cons, hadd, Values.foldl_add f m _ hm.2, List.append_assoc]
    · rfl
    · intro kv' hkv' e he
      rcases List.mem_append.mp he with he | he
      · exact hacc kv' (List.mem_cons_of_mem _ hkv') e he
      · rw [List.mem_singleton.mp he]
        exact hm.1 kv' hkv'

/-! ## No text can add a parameter

`Encode` separates parameters with `&` and keys from values with `=`, and `QueryEscape` writes
neither: both are escaped as `%26` and `%3D`. So an escaped `key=value` splits back into its key
and value, and a query splits back into its parameters, whatever text they hold. -/

theorem toNat_ofNat_byte (b : UInt8) : (Char.ofNat b.toNat).toNat = b.toNat := by
  rw [Char.ofNat, dif_pos (Or.inl (by have := b.toNat_lt; omega))]
  rfl

theorem upperhex_sep : ∀ n < 16, upperhex n ≠ '&' ∧ upperhex n ≠ '=' := by decide

theorem escapeByte_sep (b : UInt8) : '&' ∉ escapeByte b ∧ '=' ∉ escapeByte b := by
  unfold escapeByte
  split
  · decide
  split
  · obtain ⟨h₁, h₂⟩ := upperhex_sep (b.toNat / 16) (by have := b.toNat_lt; omega)
    obtain ⟨h₃, h₄⟩ := upperhex_sep (b.toNat % 16) (Nat.mod_lt _ (by decide))
    simp [h₁.symm, h₂.symm, h₃.symm, h₄.symm]
  · -- a byte kept as it is would have to be one that `shouldEscapeQuery` escapes
    rename_i hs
    have h := toNat_ofNat_byte b
    constructor <;> intro hm <;> rw [← List.mem_singleton.mp hm] at h <;>
      simp [shouldEscapeQuery, ← h] at hs

theorem queryEscape_sep (s : String) : '&' ∉ (queryEscape s).data ∧ '=' ∉ (queryEscape s).data := by
  simp only [queryEscape, List.mem_flatMap, not_exists, not_and]
  exact ⟨fun _ _ b _ => (escapeByte_sep b).1, fun _ _ b _ => (escapeByte_sep b).2⟩

/-- The text `Encode` writes for one parameter. -/
theorem param_eq_join (k v : String) :
    queryEscape k ++ "=" ++ queryEscape v = join [queryEscape k, queryEscape v] '=' :=
  String.ext (by rw [join_two]; simp)

/-- An escaped parameter splits at `=` back into its escaped key and value. -/
theorem split_param (k v : String) :
    split (queryEscape k ++ "=" ++ queryEscape v) '=' = [queryEscape k, queryEscape v] := by
  rw [param_eq_join, split_join _ (List.cons_ne_nil _ _)]
  simp only [List.mem_cons, List.not_mem_nil, or_false, forall_eq_or_imp, forall_eq]
  exact ⟨(queryEscape_sep k).2, (queryEscape_sep v).2⟩

theorem amp_not_mem_param (k v : String) : '&' ∉ (queryEscape k ++ "=" ++ queryEscape v).data := by
  rw [param_eq_join, join_two]
  simp only [List.mem_append, List.mem_cons, not_or]
  exact ⟨(queryEscape_sep k).1, by decide, (queryEscape_sep v).1⟩

/-- A query whose parameters, in key order, have one value each splits back at `&` and `=` into
those parameters, escaped. -/
theorem Values.split_encode {v : Values} (ps : List (String × String))
    (hs : v.mergeSort (fun a b => decide (a.1 ≤ b.1)) = ps.map fun kv => (kv.1, [kv.2]))
    (hne : ps ≠ []) :
    (split v.encode '&').map (fun param => split param '=') =
      ps.map fun kv => [queryEscape kv.1, queryEscape kv.2] := by
  have hps : (ps.map fun kv => (kv.1, [kv.2])).flatMap
      (fun kv => kv.2.map fun x => queryEscape kv.1 ++ "=" ++ queryEscape x) =
      ps.map fun kv => queryEscape kv.1 ++ "=" ++ queryEscape kv.2 := by
    rw [List.flatMap_map, List.map_eq_flatMap]
    rfl
  rw [Values.encode, hs, hps, split_join _ (by simpa using hne), List.map_map]
  · exact List.map_congr_left fun kv _ => split_param kv.1 kv.2
  · simp only [List.mem_map]
    rintro _ ⟨kv, -, rfl⟩
    exact amp_not_mem_param kv.1 kv.2

end Go
