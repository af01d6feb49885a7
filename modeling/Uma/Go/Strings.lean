import Uma.Go.Strconv

/-!
# `strings.Split`, `strings.Join` and `strconv.FormatBool`

The package splits and joins only on one-rune separators (`@`, `,`, `.`, `|`), so `split` and
`join` take a `Char`. `split` is `List.splitOn` on the runes and `join` is `List.intercalate`.

* `length_split`: `Split` returns one more piece than there are separators.
* `eq_of_append_sep`: text before the last separator is determined when the text after it has
  no separator. Signing payloads are joined with `|`, and this is what decides whether two
  payloads can only come from the same fields.
-/

namespace Go

/-- `strings.Split(s, sep)` for a separator of one rune. -/
def split (s : String) (sep : Char) : List String := (s.data.splitOn sep).map String.mk

/-- `strings.Join(elems, sep)` for a separator of one rune. -/
def join (elems : List String) (sep : Char) : String :=
  ⟨[sep].intercalate (elems.map String.data)⟩

/-- `strconv.FormatBool`. -/
def formatBool (b : Bool) : String := if b then "true" else "false"

theorem length_splitOn (l : List Char) (sep : Char) :
    (l.splitOn sep).length = l.count sep + 1 := by
  induction l with
  | nil => rfl
  | cons c l ih =>
    rw [List.splitOn, List.splitOnP_cons, ← List.splitOn, List.count_cons]
    by_cases h : c = sep
    · simp [h, ih]
    · simp only [beq_iff_eq, h, if_false, List.length_modifyHead, ih]

theorem length_split (s : String) (sep : Char) : (split s sep).length = s.data.count sep + 1 := by
  rw [split, List.length_map, length_splitOn]

theorem join_split (s : String) (sep : Char) : join (split s sep) sep = s := by
  simp only [join, split, List.map_map]
  have : String.data ∘ String.mk = id := rfl
  rw [this, List.map_id, List.intercalate_splitOn]

theorem join_three (a b c : String) (sep : Char) :
    (join [a, b, c] sep).data = a.data ++ sep :: (b.data ++ sep :: c.data) := by
  simp [join, List.intercalate]

theorem join_four (a b c d : String) (sep : Char) :
    (join [a, b, c, d] sep).data = a.data ++ sep :: (b.data ++ sep :: (c.data ++ sep :: d.data)) := by
  simp [join, List.intercalate]

theorem join_two (a b : String) (sep : Char) : (join [a, b] sep).data = a.data ++ sep :: b.data := by
  simp [join, List.intercalate]

/-- Splitting at the last separator: the parts are determined. -/
theorem eq_of_append_sep {sep : Char} : ∀ {x x' y y' : List Char},
    x ++ sep :: y = x' ++ sep :: y' → sep ∉ y → sep ∉ y' → x = x' ∧ y = y'
  | [], [], _, _, h, _, _ => ⟨rfl, by simpa using h⟩
  | [], c :: x', y, y', h, hy, _ => by
    simp only [List.nil_append, List.cons_append, List.cons.injEq] at h
    exact absurd (h.2 ▸ List.mem_append_right _ (List.mem_cons_self _ _)) hy
  | c :: x, [], y, y', h, _, hy' => by
    simp only [List.nil_append, List.cons_append, List.cons.injEq] at h
    exact absurd (h.2.symm ▸ List.mem_append_right _ (List.mem_cons_self _ _)) hy'
  | c :: x, c' :: x', y, y', h, hy, hy' => by
    simp only [List.cons_append, List.cons.injEq] at h
    obtain ⟨h₁, h₂⟩ := eq_of_append_sep h.2 hy hy'
    exact ⟨by rw [h.1, h₁], h₂⟩

/-- `FormatInt` writes a sign and digits, so none of the separators the package splits on. -/
theorem not_mem_formatInt {c : Char} (hc : c ≠ '-' ∧ c.isDigit = false) (i : Int) :
    c ∉ formatInt i := fun h => by
  rcases mem_formatInt h with rfl | h
  · exact hc.1 rfl
  · exact Bool.false_ne_true (hc.2.symm.trans h)

/-- `strings.Split` undoes `strings.Join` when no element holds the separator. -/
theorem split_join {elems : List String} {sep : Char} (h : ∀ e ∈ elems, sep ∉ e.data)
    (hne : elems ≠ []) : split (join elems sep) sep = elems := by
  rw [split, join, @List.splitOn_intercalate _ (elems.map String.data) _ sep (by simpa using h)
    (by simpa using hne),
    List.map_map]
  exact List.map_id'' (fun _ => rfl) elems

theorem formatInt_injective {a b : Int64} (h : formatInt a.val = formatInt b.val) : a = b := by
  have ha := parseInt_formatInt a
  rw [h, parseInt_formatInt] at ha
  exact (Except.ok.inj ha).symm

end Go
