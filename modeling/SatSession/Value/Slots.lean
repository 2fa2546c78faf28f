/-
The order in which the members of a set are gone through.

A set keeps its members in a table of slots and is gone through slot by
slot. A member has a key, a word of 64 bits that it shares with every
value it equals, and the key says which slots the member may take, the
preferred one first: it takes the first of them that is free. Before the
table is three fifths full it is replaced by a larger one, into which the
members are put again in the order of their slots.

Numbers have keys, whatever their kinds, and so have empty texts and
bytes, ranges of at least two numbers, and tuples and sets of what has
keys. Nothing may depend on the order of other members, and a set that
has one keeps the order in which its members were given.
-/
import SatSession.Value.Items

namespace SatSession.Slots

-- =================================================== keys of numbers

/-- The number of different words. -/
def wordCount : Nat := 0x10000000000000000

/-- The prime `2 ^ 61 - 1`. The key of a number is its remainder modulo
this prime, so numbers that are equal have the same one. -/
def prime : Nat := 0x1FFFFFFFFFFFFFFF

/-- The key of what lies beyond all remainders. -/
def infiniteKey : Nat := 314159

/-- The remainder of the power `base ^ e` modulo the prime. -/
def powRemainder (base e : Nat) : Nat :=
  if e = 0 then 1
  else
    let half := powRemainder base (e / 2)
    let square := half * half % prime
    if e % 2 = 0 then square else square * base % prime
termination_by e
decreasing_by omega

/-- The remainder that gives one when it is multiplied with a number. -/
def inverse (n : Nat) : Nat := powRemainder (n % prime) (prime - 2)

/-- A remainder with its sign as a word. The word that stands for minus
one is not used as a key; minus two takes its place. -/
def signedKey (negative : Bool) (remainder : Nat) : Nat :=
  let word := if negative then (wordCount - remainder) % wordCount
    else remainder
  if word = wordCount - 1 then wordCount - 2 else word

/-- The key of `± n · base ^ exponent`. -/
def scaledKey (negative : Bool) (n base : Nat) (exponent : Int) : Nat :=
  let factor := match exponent with
    | .ofNat e => powRemainder base e
    | .negSucc e => powRemainder (inverse base) (e + 1)
  signedKey negative (n * factor % prime)

/-- The key of a double. One that is no number has none. -/
def doubleKey? : Binary64 → Option Nat
  | .finite negative mantissa exponent =>
      some (scaledKey negative mantissa 2 exponent)
  | .infinite negative => some (signedKey negative infiniteKey)
  | .nan => none

/-- The key of a fraction. -/
def fractionKey (q : Rat) : Nat :=
  signedKey (decide (q < 0))
    (if q.den % prime = 0 then infiniteKey
      else q.num.natAbs * inverse q.den % prime)

/-- The key of a decimal. One that is no number has none. -/
def decimalKey? : Decimal → Option Nat
  | .finite negative digits exponent =>
      some (scaledKey negative digits 10 exponent)
  | .infinite negative => some (signedKey negative infiniteKey)
  | .nan .. => none

/-- The key of a whole number. -/
def intKey (n : Int) : Nat := scaledKey (decide (n < 0)) n.natAbs 1 0

/-- The weight of the second part in the key of a complex number. -/
def imaginaryWeight : Nat := 1000003

/-- The key of a number. -/
def numberKey? : Number → Option Nat
  | .bool b => some (if b then 1 else 0)
  | .int n => some (intKey n)
  | .float x => doubleKey? x
  | .fraction q => some (fractionKey q)
  | .decimal d => decimalKey? d
  | .complex re im =>
      match doubleKey? re, doubleKey? im with
      | some r, some i =>
          let word := (r + imaginaryWeight * i) % wordCount
          some (if word = wordCount - 1 then wordCount - 2 else word)
      | _, _ => none

-- =============================================== keys of collections

/-- A word with its upper 31 bits and its lower 33 exchanged. -/
def turned (word : Nat) : Nat :=
  word * 0x80000000 % wordCount + word / 0x200000000

/-- The key of a tuple, mixed from the keys of its items. -/
def tupleKey (keys : List Nat) : Nat :=
  let start := 2870177450012600261
  let mixed := keys.foldl
    (fun word key =>
      turned ((word + key * 14029467366897019727) % wordCount)
        * 11400714785074694791 % wordCount)
    start
  let word := (mixed + (keys.length ^^^ start ^^^ 3527539)) % wordCount
  if word = wordCount - 1 then 1546275796 else word

/-- The key of a range of at least two numbers: that of the tuple of how
many they are, the first and the step. -/
def rangeKey? (start stop step : Int) : Option Nat :=
  let count := Value.rangeCount start stop step
  if count < 2 then none
  else some (tupleKey ([(count : Int), start, step].map intKey))

/-- A key, spread over the bits of a word. -/
def spread (key : Nat) : Nat :=
  (key ^^^ 89869747 ^^^ (key * 0x10000 % wordCount)) * 3644798167
    % wordCount

/-- The key of a set, from the keys of its members. -/
def setKey (keys : List Nat) : Nat :=
  let mixed := keys.foldl (fun word key => word ^^^ spread key)
    ((keys.length + 1) * 1927868237 % wordCount)
  let folded := mixed ^^^ (mixed / 0x800) ^^^ (mixed / 0x2000000)
  let word := (folded * 69069 + 907133923) % wordCount
  if word = wordCount - 1 then 590923713 else word

/-- The order in which the members of a set are given does not matter for
its key. -/
theorem setKey_perm {keys others : List Nat} (h : keys.Perm others) :
    setKey keys = setKey others := by
  unfold setKey
  rw [h.length_eq, h.foldl_eq' fun x _ y _ word => by
    rw [Nat.xor_assoc, Nat.xor_comm (spread x), ← Nat.xor_assoc]]

/-- The key of a value, if it has one. -/
def key? : Value → Option Nat
  | .number n => numberKey? n
  | .text "" | .bytes _ [] => some 0
  | .range start stop step => rangeKey? start stop step
  | .seq .tuple items => (keys? items).map tupleKey
  | .seq .frozenset items => (keys? items).map setKey
  | _ => none
where
  /-- The keys of several values, if all have one. -/
  keys? : List Value → Option (List Nat)
    | [] => some []
    | v :: rest =>
        match key? v, keys? rest with
        | some k, some ks => some (k :: ks)
        | _, _ => none

-- ========================================================= the table

/-- A table of slots, which holds members with their keys. -/
abbrev Table := Array (Option (Nat × Value))

/-- The number of slots of the smallest table. -/
def leastSize : Nat := 8

/-- How many neighbours of a slot are tried behind it, if so many are
left to the end of the table. -/
def neighbours : Nat := 9

/-- The slots to try together, from the given one on. -/
def stretch (size slot : Nat) : List Nat :=
  if slot + neighbours < size then List.range' slot (neighbours + 1)
  else [slot]

/-- Whether a slot of a table is free. -/
def isFree (table : Table) (slot : Nat) : Bool :=
  match table[slot]? with
  | some none => true
  | _ => false

/-- The first free slot for a key. The search jumps from stretch to
stretch, and where it lands depends on ever fewer bits of the key until
none are left and it comes by every slot. -/
def freeSlot? (table : Table) : (jumps : Nat) → (slot bits : Nat) →
    Option Nat
  | 0, _, _ => none
  | jumps + 1, slot, bits =>
      match (stretch table.size slot).find? (isFree table) with
      | some i => some i
      | none =>
          let bits := bits / 32
          freeSlot? table jumps ((slot * 5 + 1 + bits) % table.size) bits

/-- Puts a member into the first free slot for its key. -/
def put (table : Table) (member : Nat × Value) : Table :=
  -- thirteen jumps use the bits of a key up
  match freeSlot? table (table.size + 13) (member.1 % table.size) member.1 with
  | some i => table.setIfInBounds i (some member)
  | none => table

/-- The least number of slots above a bound: a power of two. -/
def sizeAbove (bound : Nat) : Nat :=
  max leastSize (Nat.pow 2 (Nat.log2 bound + 1))

/-- Puts one more member into a table with a number of members. -/
def insert (table : Table) (count : Nat) (member : Nat × Value) : Table :=
  let table := put table member
  let count := count + 1
  if count * 5 < (table.size - 1) * 3 then table
  else
    let bound := if 50000 < count then count * 2 else count * 4
    table.foldl
      (fun fresh slot => match slot with
        | some member => put fresh member
        | none => fresh)
      (Array.replicate (sizeAbove bound) none)

/-- A table with the given members, put in one after the other. -/
def fill (table : Table) (count : Nat) : List (Nat × Value) → Table
  | [] => table
  | member :: rest => fill (insert table count member) (count + 1) rest

/-- Different values in the order of the slots that they take as members
of a set. -/
def arranged (members : List Value) : List Value :=
  match key?.keys? members with
  | none => members
  | some keys =>
      let table := fill (Array.replicate leastSize none) 0 (keys.zip members)
      table.toList.filterMap fun slot => slot.map (·.2)

end SatSession.Slots
