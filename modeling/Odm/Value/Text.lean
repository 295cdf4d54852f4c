import Odm.Value

/-!
# The text of a value

Values are written compactly: no blanks, fields in the order they are held, and
in a text only the quote, the backslash and the control characters are escaped.
A decimal shows at least one digit after its point, unless it is so large or so
small that it is written with an exponent.
-/

namespace Odm

/-- Four hexadecimal digits for a control character, the first two of them zero. -/
def controlEscape (c : Char) : String :=
  "\\u00" ++ String.ofList [Nat.digitChar (c.toNat / 16), Nat.digitChar (c.toNat % 16)]

/-- A character inside a quoted text. -/
def escapeChar (c : Char) : String :=
  if c = '"' then "\\\""
  else if c = '\\' then "\\\\"
  else if c = '\x08' then "\\b"
  else if c = '\x0c' then "\\f"
  else if c = '\n' then "\\n"
  else if c = '\r' then "\\r"
  else if c = '\t' then "\\t"
  else if c.toNat < 0x20 then controlEscape c
  else c.toString

/-- A text in quotes. -/
def quoted (s : String) : String :=
  "\"" ++ String.join (s.toList.map escapeChar) ++ "\""

/-- The most digits that stand before the point of a decimal. -/
def maxIntegerDigits : Int := 16

/-- The least position of the point at which zeros are written after it. -/
def minPoint : Int := -4

/-- The decimal `0.digits * 10 ^ point`, of which neither the first digit nor the last is zero. -/
def pointedText (digits : List Char) (point : Int) : String :=
  if digits.isEmpty then "0.0"
  else if digits.length ≤ point ∧ point ≤ maxIntegerDigits then
    String.ofList (digits ++ List.replicate (point.toNat - digits.length) '0') ++ ".0"
  else if 0 < point ∧ point ≤ maxIntegerDigits then
    String.ofList (digits.take point.toNat) ++ "." ++ String.ofList (digits.drop point.toNat)
  else if minPoint ≤ point ∧ point ≤ 0 then
    "0." ++ String.ofList (List.replicate (-point).toNat '0' ++ digits)
  else
    let rest := digits.drop 1
    String.ofList (digits.take 1) ++ (if rest.isEmpty then "" else "." ++ String.ofList rest)
      ++ "e" ++ toString (point - 1)

/-- A decimal as it is written in a value. -/
def Decimal.text (d : Decimal) : String :=
  let digits := (toString d.mantissa.natAbs).toList
  let sign := if d.mantissa < 0 then "-" else ""
  sign ++ pointedText (digits.reverse.dropWhile (· = '0')).reverse (digits.length - d.places)

/-- A number as it is written in a value. -/
def Number.text : Number → String
  | .whole n => toString n
  | .decimal d => d.text

namespace Value

mutual

/-- The compact text of a value. -/
def text : Value → String
  | .null => "null"
  | .bool true => "true"
  | .bool false => "false"
  | .num n => n.text
  | .str s => quoted s
  | .arr items => "[" ++ ",".intercalate (itemTexts items) ++ "]"
  | .obj fields => "\x7b" ++ ",".intercalate (fieldTexts fields) ++ "\x7d"

/-- The texts of array items. -/
def itemTexts : List Value → List String
  | [] => []
  | item :: rest => item.text :: itemTexts rest

/-- The texts of object fields. -/
def fieldTexts : List (String × Value) → List String
  | [] => []
  | (name, value) :: rest => (quoted name ++ ":" ++ value.text) :: fieldTexts rest

end

end Value

end Odm
