/-!
# Names derived from type and member names

Element names can be derived from member names in lower camel case, collection
names from type names in lower camel case and, by default, in the plural. Case
changes concern the letters of ASCII only; all other characters are kept.
-/

namespace Odm

/-- The capitals that lead `cs`, up to one that starts a word: `HTTPServer` has four. -/
def leadingCapitals : List Char → Nat
  | [] => 0
  | c :: rest =>
    if c.isUpper && !rest.head?.any Char.isLower then leadingCapitals rest + 1 else 0

/-- How many leading characters lower camel case lowers: all leading capitals, and at
least the first one. -/
def loweredLength (cs : List Char) : Nat :=
  match leadingCapitals cs with
  | 0 => if cs.head?.any Char.isUpper then 1 else 0
  | n => n

/-- `HTTPServer` becomes `httpServer`, `Family` becomes `family`. -/
def lowerCamelCase (name : String) : String :=
  let cs := name.toList
  let n := loweredLength cs
  String.ofList ((cs.take n).map Char.toLower ++ cs.drop n)

/-- A simple English plural: `city` becomes `cities`, `key` becomes `keys`, and a name
that already ends in `s` is kept. -/
def plural (name : String) : String :=
  match (name.toList.map Char.toLower).reverse with
  | [] => name
  | 's' :: _ => name
  | 'y' :: 'e' :: _ => name ++ "s"
  | 'y' :: _ => String.ofList name.toList.dropLast ++ "ies"
  | _ => name ++ "s"

/-- How a collection name is derived from a type name. -/
inductive CollectionNaming where
  /-- `Family` is stored in `families`. -/
  | pluralCamelCase
  /-- `Family` is stored in `family`. -/
  | camelCase
  /-- `Family` is stored in `Family`. -/
  | typeName
  deriving DecidableEq, Repr, Inhabited

/-- The collection name of a type under a naming. -/
def CollectionNaming.collectionName (naming : CollectionNaming) (typeName : String) : String :=
  match naming with
  | .pluralCamelCase => plural (lowerCamelCase typeName)
  | .camelCase => lowerCamelCase typeName
  | .typeName => typeName

end Odm
