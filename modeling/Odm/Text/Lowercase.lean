import Odm.Text.CaseData

/-!
# Lower case

The lower-case form of a text by the rules of the Unicode standard. Each character is
lowered by itself, with two exceptions: the capital I with a dot becomes two characters,
and a capital sigma takes its final form at the end of a word. A sigma ends a word when a
cased letter comes before it and none after it, case-ignorable characters aside.
-/

namespace Odm

def inRanges (ranges : List (Nat × Nat)) (c : Char) : Bool :=
  ranges.any fun (first, last) => first ≤ c.toNat && c.toNat ≤ last

def isCaseIgnorable (c : Char) : Bool := inRanges caseIgnorableRanges c

/-- Whether a character that is not case-ignorable has case. -/
def isCased (c : Char) : Bool := inRanges casedRanges c

/-- The lower-case form of a single character. -/
def lowercaseChar (c : Char) : List Char :=
  if c = 'İ' then ['i', '\u0307']
  else
    match lowercaseRuns.find? (·.covers c.toNat) with
    | some run => [Char.ofNat (c.toNat + run.distance).toNat]
    | none => [c]

/-- Whether the first character that is not case-ignorable has case. -/
def meetsCased (cs : List Char) : Bool := (cs.dropWhile isCaseIgnorable).head?.any isCased

/-- The lower-case form of a capital sigma between the characters `before` it, the nearest
first, and those `after` it. -/
def lowercaseSigma (before after : List Char) : Char :=
  if meetsCased before && !meetsCased after then 'ς' else 'σ'

/-- The lower-case form of characters that follow the characters `before`, the nearest
first. -/
def lowercaseAfter (before : List Char) : List Char → List Char
  | [] => []
  | c :: rest =>
    (if c = 'Σ' then [lowercaseSigma before rest] else lowercaseChar c)
      ++ lowercaseAfter (c :: before) rest

/-- The lower-case form of a text. -/
def lowercase (s : String) : String := String.ofList (lowercaseAfter [] s.toList)

end Odm
