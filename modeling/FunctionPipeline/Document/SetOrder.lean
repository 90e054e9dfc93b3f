import FunctionPipeline.Document.Value

/-!
The order in which a set shows its members. Members stand in slots, the number of which is a power of
two: each is put in the slot that its mark names, or in one found from there if that one is taken,
and they are shown slot by slot. Only numbers have a mark that is the same at any time, so a set with
other members shows them as they were written.
-/

namespace FunctionPipeline.SetOrder

/-- Marks of numbers are remainders by this prime, two to the 61st less one. -/
def modulus : Nat := 0x1FFFFFFFFFFFFFFF

/-- Two to the 64th: marks are taken as numbers of 64 bits. -/
def wordCount : Nat := 0x10000000000000000

/-- A mark with a sign. Minus one is no mark. -/
def signedMark (negative : Bool) (magnitude : Nat) : Nat :=
  let magnitude := if negative && magnitude = 1 then 2 else magnitude
  if negative && magnitude ≠ 0 then wordCount - magnitude else magnitude

/-- The mark of a number. Equal numbers have equal marks: the unit of doubles is two to the power
-1074, which leaves the same remainder as two to the 24th. -/
def mark? : Value → Option Nat
  | .bool b => some (if b then 1 else 0)
  | .int i => some (signedMark (i < 0) (i.natAbs % modulus))
  | .float (.infinite negative) => some (signedMark negative 314159)
  | .float x => x.scaled?.map fun units =>
      signedMark (units < 0) (units.natAbs * 0x1000000 % modulus)
  | _ => none

/-- Slots with marks and members. -/
abbrev Slots := List (Option (Nat × Value))

def emptySlots (count : Nat) : Slots := List.replicate count none

def isFree (slots : Slots) (i : Nat) : Bool := (slots[i]?.map Option.isNone).getD false

/-- How many slots after the one that is named are looked at, if there are so many. -/
def neighbours : Nat := 9

/-- The slot for a mark, from a slot on, with what is left of the mark to find the next one by. -/
def freeFrom (slots : Slots) : Nat → Nat → Nat → Nat
  | 0, i, _ => i
  | fuel + 1, i, rest =>
      let near := if i + neighbours < slots.length then neighbours else 0
      match (List.range (near + 1)).find? fun k => isFree slots (i + k) with
      | some k => i + k
      | none =>
          let rest := rest / 32
          freeFrom slots fuel ((i * 5 + 1 + rest) % slots.length) rest

/-- With a member in the slot for its mark. What is left of a mark is nothing after a few steps, and
from then on every slot is come upon. -/
def insert (slots : Slots) (member : Nat × Value) : Slots :=
  slots.set (freeFrom slots (slots.length + 16) (member.1 % slots.length) member.1) (some member)

def members (slots : Slots) : List (Nat × Value) := slots.filterMap id

/-- How many slots there are for more than a number of members, when there are at least eight. -/
def slotCount (least : Nat) : Nat := Nat.pow 2 (max 3 (Nat.log2 least + 1))

def resized (slots : Slots) (least : Nat) : Slots :=
  (members slots).foldl insert (emptySlots (slotCount least))

def isFull (slots : Slots) (count : Nat) : Bool := count * 5 ≥ (slots.length - 1) * 3

/-- The factor by which slots become more. -/
def growth (count : Nat) : Nat := if count > 50000 then 2 else 4

def add (slots : Slots) (member : Nat × Value) : Slots :=
  let slots := insert slots member
  let count := (members slots).length
  if isFull slots count then resized slots (count * growth count) else slots

/-- Members with their marks, if all have one. -/
def marked? (values : List Value) : Option (List (Nat × Value)) :=
  values.mapM fun v => (mark? v).map fun mark => (mark, v)

def start : Slots := emptySlots 8

/-- The order of members that differ and were written one by one. -/
def ofMembers (values : List Value) : List Value :=
  match marked? values with
  | some found => (members (found.foldl add start)).map (·.2)
  | none => values

/-- The order of members that differ and were taken over from a mapping with these keys. -/
def ofKeys (keys : List Value) : List Value :=
  match marked? keys with
  | some found =>
      let slots := if isFull start found.length then resized start (found.length * 2) else start
      (members (found.foldl add slots)).map (·.2)
  | none => keys

end FunctionPipeline.SetOrder
