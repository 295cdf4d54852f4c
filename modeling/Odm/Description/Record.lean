import Odm.Table
import Odm.Value

/-!
# Descriptions

A description is a value that shows how something is built, so that tools can print it,
compare it or keep it. Structures are described by records of their parts, a missing part by
null, lists by arrays. Errors are described by a code, which never changes, and by the text
that people read.
-/

namespace Odm.Value

/-- An object with the given fields, in any order. -/
def record (fields : List (String × Value)) : Value := .obj (Table.ofEntries fields)

/-- A part that may be missing. -/
def option {α : Type} (f : α → Value) : Option α → Value
  | none => .null
  | some a => f a

/-- A list of parts. -/
def items {α : Type} (f : α → Value) (parts : List α) : Value := .arr (parts.map f)

/-- A list of texts. -/
def strs (texts : List String) : Value := items .str texts

def count (n : Nat) : Value := .int n

/-- An error. -/
def failure (code message : String) : Value :=
  record [("error", .str code), ("message", .str message)]

/-- The field of that name, if the value is an object that has it. -/
def field? : Value → String → Option Value
  | .obj fields, name => Table.get? fields name
  | _, _ => none

end Odm.Value
