/-!
# Token modifiers

A modifier is a yes-or-no attribute of a token.  A set of modifiers is kept
as the bit mask that travels in an encoded stream, together with the fact
that it has no bit outside the modifiers in use.
-/

namespace SemanticTokens

/-- Attribute that a token has or lacks. -/
inductive Modifier where
  | declaration
  deriving DecidableEq, Repr

namespace Modifier

/-- Every modifier, in the order of the mask bits. -/
def all : List Modifier :=
  [.declaration]

def index : Modifier → UInt32
  | .declaration => 0

/-- The mask that holds just this modifier. -/
def bit (modifier : Modifier) : UInt32 :=
  1 <<< modifier.index

def name : Modifier → String
  | .declaration => "declaration"

/-- Name of the modifier as a constant in the text form of a set. -/
def constantName : Modifier → String
  | .declaration => "DECLARATION"

end Modifier

def definedBits : UInt32 :=
  Modifier.all.foldl (fun mask modifier => mask ||| modifier.bit) 0

/-- A set of modifiers, kept as its mask. -/
@[ext]
structure ModifierSet where
  /-- The mask as it travels in an encoded stream. -/
  bits : UInt32
  /-- No bit stands outside the modifiers in use. -/
  bits_defined : bits &&& definedBits = bits
  deriving DecidableEq

namespace ModifierSet

/-- The set of those bits of a mask that belong to a modifier. -/
def truncate (mask : UInt32) : ModifierSet where
  bits := mask &&& definedBits
  bits_defined := by rw [UInt32.and_assoc, UInt32.and_self]

/-- The set with a given mask, if the mask has no foreign bit. -/
def ofBits? (mask : UInt32) : Option ModifierSet :=
  if defined : mask &&& definedBits = mask then some ⟨mask, defined⟩ else none

def empty : ModifierSet :=
  truncate 0

instance : Inhabited ModifierSet :=
  ⟨empty⟩

def all : ModifierSet :=
  truncate definedBits

def union (left right : ModifierSet) : ModifierSet :=
  truncate (left.bits ||| right.bits)

def intersection (left right : ModifierSet) : ModifierSet :=
  truncate (left.bits &&& right.bits)

def complement (set : ModifierSet) : ModifierSet :=
  truncate (~~~set.bits)

def insert (set : ModifierSet) (modifier : Modifier) : ModifierSet :=
  truncate (set.bits ||| modifier.bit)

def erase (set : ModifierSet) (modifier : Modifier) : ModifierSet :=
  truncate (set.bits &&& ~~~modifier.bit)

/-- Adds a modifier that is no member and takes out one that is. -/
def toggle (set : ModifierSet) (modifier : Modifier) : ModifierSet :=
  truncate (set.bits ^^^ modifier.bit)

def contains (set : ModifierSet) (modifier : Modifier) : Bool :=
  set.bits &&& modifier.bit == modifier.bit

def ofList (modifiers : List Modifier) : ModifierSet :=
  modifiers.foldl insert empty

def toList (set : ModifierSet) : List Modifier :=
  Modifier.all.filter set.contains

def isEmpty (set : ModifierSet) : Bool :=
  set.bits == 0

/-- The members as constants, or `(empty)`. -/
def text (set : ModifierSet) : String :=
  if set.isEmpty then "(empty)"
  else " | ".intercalate (set.toList.map Modifier.constantName)

@[simp]
theorem truncate_bits (set : ModifierSet) : truncate set.bits = set :=
  ModifierSet.ext set.bits_defined

@[simp]
theorem ofBits?_bits (set : ModifierSet) : ofBits? set.bits = some set := by
  simp [ofBits?, set.bits_defined]

end ModifierSet

end SemanticTokens
