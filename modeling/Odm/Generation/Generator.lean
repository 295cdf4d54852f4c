import Odm.Generation.Entropy
import Odm.HostType
import Odm.Text.Hex
import Odm.Value

/-!
# Value generators

A generator makes new values for one property, one after the other: numbers
in sequence, object ids, or guids. Which one a property needs depends on its type.

An object id is written with 24 hexadecimal digits: eight for the time in seconds, ten for the
tag of the generator, and six for a counter that wraps round. The clock is read for every id; the
tag and the start of the counter are the first half of a uuid that is drawn for the generator. A
guid is a uuid that is drawn for the value, written with 32 digits in five groups.
-/

namespace Odm

/-- Makes new values of one type. -/
inductive Generator where
  /-- Numbers that increase by one, from the largest 64-bit one to the smallest. -/
  | sequence (next : Int64)
  /-- Object ids with a tag and a counter of their own. -/
  | objectId (tag counter : Nat)
  | guid
  deriving DecidableEq, Repr

/-- The object id of a reading of the clock, a generator's tag and its counter. -/
def objectIdText (seconds tag counter : Nat) : String :=
  hex 8 seconds ++ hex 10 tag ++ hex 6 counter

/-- A uuid in five groups of digits. -/
def guidText (uuid : Uuid) : String :=
  "-".intercalate [
    hex 8 (uuid.high >>> 32),
    hex 4 (uuid.high >>> 16),
    hex 4 uuid.high,
    hex 4 (uuid.low >>> 48),
    hex 12 uuid.low]

namespace Generator

/-- The number of values that a counter of object ids takes. -/
def counterSize : Nat := 0x1000000

/-- A sequence that starts at one. -/
def ofOne : Generator := .sequence 1

/-- An object id generator with a tag of its own. -/
def newObjectId (entropy : Entropy) : Generator × Entropy :=
  let (uuid, entropy) := entropy.uuid
  (.objectId (uuid.high / counterSize) (uuid.high % counterSize), entropy)

/-- The generator for values of a type, if there is one. -/
def ofType? (type : HostType) (entropy : Entropy) : Option (Generator × Entropy) :=
  match type with
  | .objectId => some (newObjectId entropy)
  | .guid => some (.guid, entropy)
  | .int16 | .int32 | .int64 => some (ofOne, entropy)
  | _ => none

/-- A new value, and the generator for the values after it. -/
def next (generator : Generator) (entropy : Entropy) : Value × Generator × Entropy :=
  match generator with
  | .sequence n => (.int n.toInt, .sequence (n + 1), entropy)
  | .objectId tag counter =>
    let (seconds, entropy) := entropy.now
    (.str (objectIdText seconds tag counter), .objectId tag ((counter + 1) % counterSize), entropy)
  | .guid =>
    let (uuid, entropy) := entropy.uuid
    (.str (guidText uuid), .guid, entropy)

/-- The next `n` values. -/
def values (generator : Generator) (entropy : Entropy) : Nat → List Value
  | 0 => []
  | n + 1 =>
    let (v, generator, entropy) := generator.next entropy
    v :: generator.values entropy n

end Generator

end Odm
