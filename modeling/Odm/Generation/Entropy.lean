/-!
# Entropy

New ids need the time and bits that nobody else has. Both are supplied from outside: what the clock
shows each time it is read, and the words that are drawn one after the other. A supply can be
anything. The clock may stand still or go back, and words may come again.
-/

namespace Odm

/-- What is supplied from outside, one item after the other. -/
structure Supply (α : Type) where
  /-- The items, from the first one on. -/
  item : Nat → α
  /-- How many of them were taken. -/
  taken : Nat := 0

namespace Supply

variable {α : Type}

/-- The next item, and the supply without it. -/
def next (supply : Supply α) : α × Supply α :=
  (supply.item supply.taken, { supply with taken := supply.taken + 1 })

/-- The same item again and again. -/
def always (a : α) : Supply α where
  item _ := a

/-- The bits of a word, spread so that close words become distant ones. -/
def mix (word : UInt64) : UInt64 :=
  let word := (word ^^^ (word >>> 30)) * 0xbf58476d1ce4e5b9
  let word := (word ^^^ (word >>> 27)) * 0x94d049bb133111eb
  word ^^^ (word >>> 31)

/-- Words that are spread evenly, the same ones for the same seed. -/
def ofSeed (seed : UInt64) : Supply UInt64 where
  item n := mix (seed + 0x9e3779b97f4a7c15 * .ofNat (n + 1))

end Supply

/-- A number of seconds is a clock that stands still. -/
instance (n : Nat) : OfNat (Supply Nat) n := ⟨.always n⟩

/-- A number is the seed of a supply of words. -/
instance (n : Nat) : OfNat (Supply UInt64) n := ⟨.ofSeed (.ofNat n)⟩

/-- A uuid as two numbers below `2 ^ 64`. -/
structure Uuid where
  high : Nat
  low : Nat
  deriving DecidableEq, Repr

namespace Uuid

/-- The uuid of two random words. The version, 4, and the variant take the place of some bits. -/
def ofWords (high low : UInt64) : Uuid where
  high := high.toNat / 0x10000 * 0x10000 + 0x4000 + high.toNat % 0x1000
  low := 0x8000000000000000 + low.toNat % 0x4000000000000000

theorem version_ofWords (high low : UInt64) : (ofWords high low).high / 0x1000 % 16 = 4 := by
  simp only [ofWords]
  omega

end Uuid

/-- The time and a supply of unpredictable words. -/
structure Entropy where
  /-- Readings of the clock, in seconds since the epoch. -/
  clock : Supply Nat := 0
  words : Supply UInt64 := 0

namespace Entropy

/-- What the clock shows now. -/
def now (entropy : Entropy) : Nat × Entropy :=
  let (seconds, clock) := entropy.clock.next
  (seconds, { entropy with clock := clock })

/-- A new uuid, of two words. -/
def uuid (entropy : Entropy) : Uuid × Entropy :=
  let (high, words) := entropy.words.next
  let (low, words) := words.next
  (.ofWords high low, { entropy with words := words })

end Entropy

end Odm
