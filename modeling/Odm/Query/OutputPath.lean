/-!
# Output paths

The results of a query are shaped: each position in the result has a path of
member names, and the empty path is the queried entity itself.
-/

namespace Odm

/-- A position in the shape of a query's results. -/
abbrev OutputPath := List String

namespace OutputPath

/-- The position of the queried entity itself. -/
def root : OutputPath := []

def isRoot (path : OutputPath) : Bool := path.isEmpty

/-- The position one level deeper. -/
def child (path : OutputPath) (name : String) : OutputPath := path ++ [name]

/-- The name of the innermost member. -/
def last? (path : OutputPath) : Option String := path.getLast?

def text (path : OutputPath) : String :=
  if path.isEmpty then "<root>" else ".".intercalate path

end OutputPath

end Odm
