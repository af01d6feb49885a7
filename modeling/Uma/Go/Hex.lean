import Uma.Go.Basic

/-!
# `encoding/hex`: decoding hex strings

`PubKeyResponse` carries its public keys as hex strings and decodes them with
`hex.DecodeString`. It reads the UTF-8 bytes of the string two at a time, looks each up in
`reverseHexTable`, and writes one byte for each pair of digits. It stops at the first byte that is
not a hex digit (`InvalidByteError`), or at a last digit without a pair (`ErrLength`), and returns
the bytes written so far beside the error.

**Encoding.** `hex.Encode` writes each byte as two lower-case digits, high half first. The
package never encodes; the encoding serves to describe what decoding accepts.

**What decoding accepts.** Decoding succeeds exactly on the texts that, with their letters
lowered, are the encoding of the bytes it returns (`decode_eq_ok_iff`): upper-case digits are
read as lower-case ones, and nothing else is read.

The facts about single bytes are checked over all 256 values (`forall_uint8`).

Main result: `decode_eq_ok_iff`.
-/

namespace Go

/-- `[]byte(s)`: the UTF-8 bytes of a string. -/
def bytes (s : String) : List UInt8 := s.data.flatMap String.utf8EncodeChar

/-- `reverseHexTable[c]`: the value of a hex digit, `0xff` for every other byte. -/
def reverseHexTable (c : UInt8) : UInt8 :=
  if 48 ≤ c ∧ c ≤ 57 then c - 48
  else if 97 ≤ c ∧ c ≤ 102 then c - 87
  else if 65 ≤ c ∧ c ≤ 70 then c - 55
  else 0xff

/-- `hex.ErrLength`. -/
def errLength : GoError := .new "encoding/hex: odd length hex string"

/-- `hex.Decode(src, src)`, as `DecodeString` calls it: the bytes it writes before it stops, and
its error. -/
def decode : List UInt8 → List UInt8 × Option GoError
  | p :: q :: src =>
    let a := reverseHexTable p
    let b := reverseHexTable q
    if a > 0x0f then ([], some (.hexInvalidByte p))
    else if b > 0x0f then ([], some (.hexInvalidByte q))
    else
      let r := decode src
      ((a <<< 4 ||| b) :: r.1, r.2)
  | [p] => ([], some (if reverseHexTable p > 0x0f then .hexInvalidByte p else errLength))
  | [] => ([], none)

/-- `hex.DecodeString(s)`. -/
def decodeString (s : String) : List UInt8 × Option GoError := decode (bytes s)

/-- `hextable[v]`: the lower-case digit of a value below 16. -/
def hextable (v : UInt8) : UInt8 := if v < 10 then 48 + v else 87 + v

/-- `hex.Encode(dst, src)`: the digits it writes to `dst`. -/
def encode (src : List UInt8) : List UInt8 :=
  src.flatMap fun v => [hextable (v >>> 4), hextable (v &&& 0x0f)]

/-- An ASCII byte with its upper-case letter lowered. -/
def toLowerAscii (c : UInt8) : UInt8 := if 65 ≤ c ∧ c ≤ 90 then c + 32 else c

/-! ## Single bytes -/

/-- A fact about every byte, from a check of each of the 256 values. -/
theorem forall_uint8 {P : UInt8 → Prop} (h : ∀ n : Fin 256, P ⟨⟨n⟩⟩) : ∀ v, P v := by
  rintro ⟨⟨n⟩⟩
  exact h n

/-- A fact about every digit value, from a check of each of the 16. -/
theorem forall_uint8_le {P : UInt8 → Prop} (h : ∀ n : Fin 16, P ⟨⟨n.castLE (by decide)⟩⟩) :
    ∀ v : UInt8, v ≤ 0x0f → P v := by
  rintro ⟨⟨n, hn⟩⟩ hv
  exact h ⟨n, Nat.lt_succ_of_le hv⟩

set_option maxRecDepth 8000 in
/-- The two halves of a byte are digit values, and put back together they give the byte. -/
theorem halves (v : UInt8) :
    v >>> 4 ≤ 0x0f ∧ v &&& 0x0f ≤ 0x0f ∧ (v >>> 4) <<< 4 ||| (v &&& 0x0f) = v := by
  revert v
  exact forall_uint8 (by decide)

/-- A fact about every pair of digit values, from a check of each of the 256 pairs. -/
theorem forall_uint8_le₂ {P : UInt8 → UInt8 → Prop}
    (h : ∀ m n : Fin 16, P ⟨⟨m.castLE (by decide)⟩⟩ ⟨⟨n.castLE (by decide)⟩⟩) :
    ∀ a b : UInt8, a ≤ 0x0f → b ≤ 0x0f → P a b := by
  rintro ⟨⟨m, hm⟩⟩ ⟨⟨n, hn⟩⟩ ha hb
  exact h ⟨m, Nat.lt_succ_of_le ha⟩ ⟨n, Nat.lt_succ_of_le hb⟩

set_option maxRecDepth 8000 in
/-- A byte built from two digit values gives them back as its halves. -/
theorem halves_of_digits {a b : UInt8} (ha : a ≤ 0x0f) (hb : b ≤ 0x0f) :
    (a <<< 4 ||| b) >>> 4 = a ∧ (a <<< 4 ||| b) &&& 0x0f = b := by
  revert a b
  exact @forall_uint8_le₂ _ (by decide)

theorem reverseHexTable_hextable {v : UInt8} (h : v ≤ 0x0f) : reverseHexTable (hextable v) = v := by
  revert v
  exact @forall_uint8_le _ (by decide)

set_option maxRecDepth 8000 in
theorem hextable_reverseHexTable {c : UInt8} (h : reverseHexTable c ≤ 0x0f) :
    hextable (reverseHexTable c) = toLowerAscii c := by
  revert c
  exact @forall_uint8 _ (by decide)

set_option maxRecDepth 8000 in
theorem reverseHexTable_toLowerAscii (c : UInt8) :
    reverseHexTable (toLowerAscii c) = reverseHexTable c := by
  revert c
  exact @forall_uint8 _ (by decide)

theorem encode_cons (v : UInt8) (bs : List UInt8) :
    encode (v :: bs) = hextable (v >>> 4) :: hextable (v &&& 0x0f) :: encode bs := rfl

/-! ## Decoding -/

/-- One pair of digits decodes to one byte, followed by the decoding of the rest. -/
theorem decode_digits {p q : UInt8} (hp : reverseHexTable p ≤ 0x0f) (hq : reverseHexTable q ≤ 0x0f)
    (src : List UInt8) :
    decode (p :: q :: src) =
      ((reverseHexTable p <<< 4 ||| reverseHexTable q) :: (decode src).1, (decode src).2) := by
  simp [decode, UInt8.not_lt.mpr hp, UInt8.not_lt.mpr hq]

/-- A text whose lowered letters are the encoding of some bytes decodes to those bytes. -/
theorem decode_of_toLowerAscii : ∀ {src bs : List UInt8}, src.map toLowerAscii = encode bs →
    decode src = (bs, none)
  | [], [], _ => rfl
  | [], _ :: _, h => by simp [encode] at h
  | _ :: _, [], h => by simp [encode] at h
  | [_], _ :: _, h => by simp [encode] at h
  | p :: q :: src, v :: bs, h => by
    rw [encode_cons, List.map_cons, List.map_cons, List.cons.injEq, List.cons.injEq] at h
    obtain ⟨hp, hq, h⟩ := h
    obtain ⟨hhi, hlo, hv⟩ := halves v
    have ep : reverseHexTable p = v >>> 4 := by
      rw [← reverseHexTable_toLowerAscii, hp, reverseHexTable_hextable hhi]
    have eq : reverseHexTable q = v &&& 0x0f := by
      rw [← reverseHexTable_toLowerAscii, hq, reverseHexTable_hextable hlo]
    rw [decode_digits (ep ▸ hhi) (eq ▸ hlo), ep, eq, hv, decode_of_toLowerAscii h]

/-- A text that decodes without error is, with its letters lowered, the encoding of what it
decodes to. -/
theorem toLowerAscii_of_decode : ∀ {src bs : List UInt8}, decode src = (bs, none) →
    src.map toLowerAscii = encode bs
  | [], _, h => by cases h; rfl
  | [p], _, h => by simp [decode] at h
  | p :: q :: src, bs, h => by
    by_cases hp : reverseHexTable p ≤ 0x0f
    · by_cases hq : reverseHexTable q ≤ 0x0f
      · rw [decode_digits hp hq] at h
        obtain ⟨rfl, hsrc⟩ := Prod.mk.inj h
        obtain ⟨hhi, hlo⟩ := halves_of_digits hp hq
        rw [List.map_cons, List.map_cons, encode_cons, hhi, hlo, hextable_reverseHexTable hp,
          hextable_reverseHexTable hq, toLowerAscii_of_decode (Prod.ext rfl hsrc)]
      · simp [decode, UInt8.not_lt.mpr hp, UInt8.not_le.mp hq] at h
    · simp [decode, UInt8.not_le.mp hp] at h

/-- `DecodeString` returns bytes and no error exactly when the text, with its letters lowered, is
the hex encoding of those bytes. -/
theorem decode_eq_ok_iff (src bs : List UInt8) :
    decode src = (bs, none) ↔ src.map toLowerAscii = encode bs :=
  ⟨toLowerAscii_of_decode, decode_of_toLowerAscii⟩

example : decodeString "0aFf" = ([0x0a, 0xff], none) := by decide

/-- On an error, the bytes before the failing pair are returned with it. -/
example : decodeString "abc" = ([0xab], some errLength) ∧
    decodeString "a0g1" = ([0xa0], some (.hexInvalidByte 0x67)) := by decide

end Go
