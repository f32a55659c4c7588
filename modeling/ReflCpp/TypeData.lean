import Mathlib.Algebra.Group.Nat.Defs
import ReflCpp.Cpp.Types

namespace ReflCpp

-- How an operation can stop without a result: an unchecked index, `value()`
-- on an error, or the end of a function that must have returned.
inductive Crash
  | outOfBounds | valueOnError | unreachable
  deriving DecidableEq

inductive ReflectError
  | maxLimitReached | creationFailed | outOfMemory
  deriving DecidableEq

inductive GetTypeError
  | none | invalidID | notFound
  deriving DecidableEq

def sizeMax : Nat := 2 ^ 64 - 1

structure TypeID where
  id_ : UInt32
  deriving DecidableEq

namespace TypeID

def invalid : TypeID := ⟨0⟩

/-- The implicit conversion from `size_t`, which keeps the low 32 bits. -/
def ofSize (n : Nat) : TypeID := ⟨UInt32.ofNat n⟩

def value (t : TypeID) : Nat := t.id_.toNat

def isValid (t : TypeID) : Bool := t.id_ != 0
def isInvalid (t : TypeID) : Bool := t.id_ == 0

@[simp] theorem value_ofSize (n : Nat) : (ofSize n).value = n % 2 ^ 32 := by
  simp [ofSize, value]

@[simp] theorem value_invalid : invalid.value = 0 := rfl

theorem ext_value {s t : TypeID} (h : s.value = t.value) : s = t := by
  cases s; cases t
  exact congrArg TypeID.mk (UInt32.toNat_inj.mp h)

theorem isInvalid_iff {t : TypeID} : t.isInvalid = true ↔ t.value = 0 := by
  simp only [isInvalid, value, beq_iff_eq, ← UInt32.toNat_inj]
  rfl

theorem isValid_iff {t : TypeID} : t.isValid = true ↔ t.value ≠ 0 := by
  simp only [isValid, value, bne_iff_ne, ne_eq, ← UInt32.toNat_inj]
  rfl

theorem value_lt (t : TypeID) : t.value < 2 ^ 32 := t.id_.toNat_lt

end TypeID

structure TypeFlags where
  value_ : UInt8
  deriving DecidableEq

namespace TypeFlags

def none : TypeFlags := ⟨0⟩
def isArray : TypeFlags := ⟨(1 : UInt8) <<< 0⟩
def isPointer : TypeFlags := ⟨(1 : UInt8) <<< 1⟩
def isLValueReference : TypeFlags := ⟨(1 : UInt8) <<< 2⟩
def isRValueReference : TypeFlags := ⟨(1 : UInt8) <<< 3⟩
def isConst : TypeFlags := ⟨(1 : UInt8) <<< 4⟩
def isVolatile : TypeFlags := ⟨(1 : UInt8) <<< 5⟩

def or (f g : TypeFlags) : TypeFlags := ⟨f.value_ ||| g.value_⟩

def has (f flag : TypeFlags) : Bool := f.value_ &&& flag.value_ = flag.value_

end TypeFlags

/-- A `const char*`: the address of the first character. -/
abbrev CharPtr := Nat

-- The shared pointers of a field and of a method's overloads are addresses of
-- the objects they own.
structure Field where
  name_ : CharPtr
  base_ : Nat
  deriving DecidableEq

structure Method where
  name_ : CharPtr
  funcs_ : List Nat
  deriving DecidableEq

structure TypeData where
  name : String
  namespace_ : Option String := .none
  bases : List TypeID := []
  inners : List TypeID := []
  flags : TypeFlags := TypeFlags.none
  fields : List Field := []
  methods : List Method := []

inductive Builtin
  | bool | char | float | double
  | uint8 | uint16 | uint32 | uint64
  | int8 | int16 | int32 | int64
  deriving DecidableEq

def Builtin.name : Builtin → String
  | .bool => "Boolean"
  | .char => "Character"
  | .float => "Float"
  | .double => "Double"
  | .uint8 => "Unsigned 8 Bit Integer"
  | .uint16 => "Unsigned 16 Bit Integer"
  | .uint32 => "Unsigned 32 Bit Integer"
  | .uint64 => "Unsigned 64 Bit Integer"
  | .int8 => "Unsigned 8 Bit Integer"
  | .int16 => "Unsigned 16 Bit Integer"
  | .int32 => "Unsigned 32 Bit Integer"
  | .int64 => "Unsigned 64 Bit Integer"

/-- The unqualified types below all pointers and references: `void`, the leaves
of `meta/`, and the types `L` for which a program writes its own `ReflectData`. -/
inductive Leaf (L : Type) : Type
  | void : Leaf L
  | builtin (b : Builtin) : Leaf L
  | charArray (size : Nat) : Leaf L
  | string : Leaf L
  | user (l : L) : Leaf L
  deriving DecidableEq

abbrev Obj (L : Type) := Cpp.Obj (Leaf L)
abbrev Ty (L : Type) := Cpp.Ty (Leaf L)

def Ty.void {L : Type} : Ty L := .obj (.leaf false false .void)

end ReflCpp
