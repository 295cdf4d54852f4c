/-!
# Document values

A document store holds trees of plain values: null, booleans, numbers, texts,
arrays and objects. This file has the tree type with its decidable equality.

Two points matter for everything built on it:

* whole numbers and decimals never compare equal, so `1` and `1.0` are two
  values, and a decimal is kept in lowest terms so that equal decimals have one
  representation;
* an object is a list of fields in ascending order of their names. `Odm.Document`
  keeps that order, which makes equality of objects ignore the order in which
  their fields were written.
-/

namespace Odm

/-- A number with a fractional part: `mantissa / 10 ^ places`. -/
structure Decimal where
  mantissa : Int
  places : Nat
  deriving DecidableEq, Repr, Inhabited

/-- The same number with as few places as it needs. -/
def Decimal.reduce (mantissa : Int) : Nat → Decimal
  | 0 => ⟨mantissa, 0⟩
  | places + 1 =>
    if mantissa % 10 = 0 then reduce (mantissa / 10) places else ⟨mantissa, places + 1⟩

/-- Whole numbers and decimals are kept apart. -/
inductive Number where
  | whole (n : Int)
  | decimal (d : Decimal)
  deriving DecidableEq, Repr, Inhabited

/-- A value a document can hold. -/
inductive Value where
  | null
  | bool (b : Bool)
  | num (n : Number)
  | str (s : String)
  | arr (items : List Value)
  | obj (fields : List (String × Value))
  deriving Repr, Inhabited

namespace Value

mutual

/-- Equality of values is decidable. -/
def decEq : (a b : Value) → Decidable (a = b)
  | .null, .null => isTrue rfl
  | .bool a, .bool b => decidable_of_iff (a = b) (by simp)
  | .num a, .num b => decidable_of_iff (a = b) (by simp)
  | .str a, .str b => decidable_of_iff (a = b) (by simp)
  | .arr as, .arr bs =>
    match decEqItems as bs with
    | isTrue h => isTrue (by rw [h])
    | isFalse h => isFalse (by simpa using h)
  | .obj as, .obj bs =>
    match decEqFields as bs with
    | isTrue h => isTrue (by rw [h])
    | isFalse h => isFalse (by simpa using h)
  | .null, .bool _ | .null, .num _ | .null, .str _ | .null, .arr _ | .null, .obj _
  | .bool _, .null | .bool _, .num _ | .bool _, .str _ | .bool _, .arr _ | .bool _, .obj _
  | .num _, .null | .num _, .bool _ | .num _, .str _ | .num _, .arr _ | .num _, .obj _
  | .str _, .null | .str _, .bool _ | .str _, .num _ | .str _, .arr _ | .str _, .obj _
  | .arr _, .null | .arr _, .bool _ | .arr _, .num _ | .arr _, .str _ | .arr _, .obj _
  | .obj _, .null | .obj _, .bool _ | .obj _, .num _ | .obj _, .str _ | .obj _, .arr _ =>
    isFalse (by simp)

/-- Equality of array items is decidable. -/
def decEqItems : (as bs : List Value) → Decidable (as = bs)
  | [], [] => isTrue rfl
  | [], _ :: _ | _ :: _, [] => isFalse (by simp)
  | a :: as, b :: bs =>
    match decEq a b, decEqItems as bs with
    | isTrue h, isTrue hs => isTrue (by rw [h, hs])
    | isFalse h, _ => isFalse (by simp [h])
    | _, isFalse hs => isFalse (by simp [hs])

/-- Equality of object fields is decidable. -/
def decEqFields : (as bs : List (String × Value)) → Decidable (as = bs)
  | [], [] => isTrue rfl
  | [], _ :: _ | _ :: _, [] => isFalse (by simp)
  | (k, a) :: as, (l, b) :: bs =>
    match instDecidableEqString k l, decEq a b, decEqFields as bs with
    | isTrue hk, isTrue h, isTrue hs => isTrue (by rw [hk, h, hs])
    | isFalse hk, _, _ => isFalse (by simp [hk])
    | _, isFalse h, _ => isFalse (by simp [h])
    | _, _, isFalse hs => isFalse (by simp [hs])

end

instance : DecidableEq Value := decEq

/-- The whole number `n`. -/
def int (n : Int) : Value := .num (.whole n)

/-- An object whose fields are given in ascending order of their names. -/
def ofFields (fields : List (String × Value)) : Value := .obj fields

/-- The largest count. -/
def maxCount : Nat := 0xffffffffffffffff

/-- The value as a count: a whole number from zero up to the largest 64-bit one. -/
def toCount? : Value → Option Nat
  | .num (.whole n) => if 0 ≤ n ∧ n ≤ maxCount then some n.toNat else none
  | _ => none

end Value

end Odm
