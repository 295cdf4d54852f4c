/-!
# Blank text

The characters with the `White_Space` property of the Unicode character database,
and the texts made of nothing else.
-/

namespace Odm

/-- The code points with the `White_Space` property, as ranges. -/
def whiteSpaceRanges : List (Nat × Nat) :=
  [(0x09, 0x0d), (0x20, 0x20), (0x85, 0x85), (0xa0, 0xa0), (0x1680, 0x1680), (0x2000, 0x200a),
    (0x2028, 0x2029), (0x202f, 0x202f), (0x205f, 0x205f), (0x3000, 0x3000)]

def isWhiteSpace (c : Char) : Bool :=
  whiteSpaceRanges.any fun (first, last) => first ≤ c.toNat && c.toNat ≤ last

/-- A text is blank when it is empty or holds white space only. -/
def isBlank (s : String) : Bool := s.toList.all isWhiteSpace

end Odm
