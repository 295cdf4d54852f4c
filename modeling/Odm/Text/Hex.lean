/-!
# Hexadecimal texts
-/

namespace Odm

/-- The last `width` hexadecimal digits of `n`, the most significant one first. -/
def hexDigits : (width n : Nat) → List Char
  | 0, _ => []
  | width + 1, n => hexDigits width (n / 16) ++ [Nat.digitChar (n % 16)]

/-- The last `width` hexadecimal digits of `n` as a text. -/
def hex (width n : Nat) : String := String.ofList (hexDigits width n)

end Odm
