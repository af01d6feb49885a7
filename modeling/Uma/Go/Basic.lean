import Mathlib

/-!
# The Go values the UMA package is built from

The package `uma` is written against a handful of Go library types. This file fixes how each is
represented here; the library functions themselves are modelled in the files that follow.

* A Go `int` or `int64` (the package is built for 64-bit platforms) is `Go.Int64`: an integer
  together with the proof that it fits in 64 bits, so that no value out of range can be built.
* A Go `string` is a Lean `String`. Go strings are byte strings; the model keeps the ones that are
  valid UTF-8, which are the ones the protocol exchanges.
* An `error` is `Go.GoError`, which has one constructor per kind of error the package can return.
* A call that can panic returns in `Go.Run`.
-/

namespace Go

/-- The `Err` field of a `*strconv.NumError`. -/
inductive NumErr
  | errSyntax
  | errRange
deriving DecidableEq, Repr

/-- The errors that the modelled functions return. Library errors keep the data a caller can
inspect (`*strconv.NumError` its function, input and kind); the texts of `encoding/json` errors
are not modelled. -/
inductive GoError
  /-- `errors.New(text)`, and the `errorString` panics of `fmt`'s scanner. -/
  | new (text : String)
  /-- `io.EOF`. -/
  | eof
  /-- `io.ErrUnexpectedEOF`. -/
  | unexpectedEOF
  /-- `&strconv.NumError{Func: fn, Num: num, Err: err}`. -/
  | num (fn num : String) (err : NumErr)
  /-- A `*json.SyntaxError`: the input is not JSON. -/
  | jsonSyntax
  /-- A `*json.UnmarshalTypeError`: a JSON value of kind `value` met a Go type that cannot hold it. -/
  | jsonUnmarshalType (value : String)
  /-- A `*json.MarshalerError`: a `MarshalJSON` method failed or returned text that is not JSON. -/
  | jsonMarshaler
  /-- A `hex.InvalidByteError`: the first byte of a hex string that is not a hex digit. -/
  | hexInvalidByte (byte : UInt8)
deriving DecidableEq, Repr

/-- A Go `int64` (and `int`, which has 64 bits on the platforms the package targets). -/
structure Int64 where
  val : Int
  ge : -2 ^ 63 ≤ val
  lt : val < 2 ^ 63
deriving DecidableEq

namespace Int64

theorem ext {a b : Int64} (h : a.val = b.val) : a = b := by
  cases a; cases b; cases h; rfl

instance : LinearOrder Int64 := LinearOrder.lift' Int64.val fun _ _ => ext

theorem lt_iff {a b : Int64} : a < b ↔ a.val < b.val := Iff.rfl

theorem le_iff {a b : Int64} : a ≤ b ↔ a.val ≤ b.val := Iff.rfl

/-- Integer constants, converted as Go converts an untyped constant: modulo `2 ^ 64`. -/
instance (n : Nat) : OfNat Int64 n :=
  ⟨⟨Int.bmod n (2 ^ 64), by have := Int.le_bmod (x := n) (m := 2 ^ 64) (by decide); omega,
    by have := Int.bmod_lt (x := n) (m := 2 ^ 64) (by decide); omega⟩⟩

end Int64

instance instDecidableEqExcept {ε α : Type} [DecidableEq ε] [DecidableEq α] :
    DecidableEq (Except ε α)
  | .ok a, .ok b => decidable_of_iff (a = b) (by simp)
  | .error e, .error f => decidable_of_iff (e = f) (by simp)
  | .ok _, .error _ => isFalse (by simp)
  | .error _, .ok _ => isFalse (by simp)

theorem bind_eq_ok {ε α β : Type} {x : Except ε α} {f : α → Except ε β} {b : β} :
    x >>= f = .ok b ↔ ∃ a, x = .ok a ∧ f a = .ok b := by
  cases x <;> simp [bind, Except.bind]

/-- How a Go call ends: it returns, or it panics with a runtime error. -/
inductive Run (α : Type) where
  | returns (a : α)
  | panics (msg : String)
deriving DecidableEq, Repr

instance : Monad Run where
  pure := .returns
  bind r f := match r with
    | .returns a => f a
    | .panics msg => .panics msg

@[simp] theorem Run.pure_eq {α : Type} (a : α) : (pure a : Run α) = .returns a := rfl

@[simp] theorem Run.returns_bind {α β : Type} (a : α) (f : α → Run β) :
    (Run.returns a >>= f) = f a := rfl

@[simp] theorem Run.panics_bind {α β : Type} (msg : String) (f : α → Run β) :
    (Run.panics msg >>= f) = .panics msg := rfl

/-- The runtime panic of reading through a nil pointer. -/
def nilDereference : String := "runtime error: invalid memory address or nil pointer dereference"

/-- `*p`: reading through a pointer, which panics when it is nil. -/
def deref {α : Type} : Option α → Run α
  | some a => .returns a
  | none => .panics nilDereference

@[simp] theorem deref_some {α : Type} (a : α) : deref (some a) = .returns a := rfl

@[simp] theorem deref_none {α : Type} : deref (none : Option α) = .panics nilDereference := rfl

end Go
