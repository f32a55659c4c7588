import ReflCpp.Blocks
import ReflCpp.Database
import ReflCpp.VariantMatcher

namespace ReflCpp

open Cpp Blocks

variable {L V : Type}

inductive VariantGetError
  | isVoid | canNotGet
  deriving DecidableEq

abbrev Addr := Nat

/-- The wrapper object that `base_` points to.  `value_` is the address of the
object held or referred to (its first cell), or the pointer held; there is none in the void
wrapper, nor once a temporary is gone. -/
structure VariantBase (L : Type) where
  wrapper : WrapperClass L
  value_ : Option Addr

structure Variant (L : Type) where
  base_ : VariantBase L
  type_ : TypeID

structure World (L V : Type) where
  reg : Registry L
  mem : Addr → V
  next : Addr

abbrev int : Cpp.Obj (Leaf Nat) := .leaf false false (.builtin .int32)

def freshWorld : World Nat Nat := { reg := .init, mem := fun _ => 42, next := 8 }

abbrev WorldM (L V α : Type) := World L V → α × World L V

def Variant.void : Variant L where
  base_ := { wrapper := ⟨.void, .leaf false false .void⟩, value_ := none }
  type_ := ⟨0⟩

namespace Variant

def isVoid (v : Variant L) : Bool := v.base_.wrapper.kind = .void

/-- The type of `Get<U>()`. -/
def getResult : Ty L → Ty L
  | .obj (.leaf c _ a) => .lref (.leaf c false a)
  | .obj (.ptr _ _ t) => .obj (.ptr false false (t.strip false true))
  | .lref t => .lref (t.strip false true)
  | .rref t => .rref (t.strip false true)

end Variant

structure Got (L : Type) where
  cast : Ty L
  result : Ty L
  value : Option Addr

/-- `std::make_shared` of the wrapper, which is taken to get its memory; the faults
of a `Registry` are those of what it allocates. -/
def makeShared (c : WrapperClass L × Binding) (data : Addr) :
    WorldM L V (VariantBase L) := fun w =>
  match c.2 with
  | .copied cells =>
    ({ wrapper := c.1, value_ := some w.next },
      { w with
        mem := store w.mem w.next (load w.mem data cells)
        next := w.next + cells })
  | .direct => ({ wrapper := c.1, value_ := some data }, w)
  | .temporary => ({ wrapper := c.1, value_ := none }, w)

variable [DecidableEq L] (P : Program L)

/-- `TypeID::Equals<T>` -/
def TypeID.equals (T : Ty L) (id : TypeID) : RegM L Bool := fun s =>
  match reflectID P T s with
  | (.ok other, s) => (id = other, s)
  | (.error _, s) => (false, s)

/-- `VariantMatcher<kind, U>::Match` -/
def VariantMatcher.match (kind : VariantWrapperType) (U : Ty L) (type : TypeID) :
    RegM L Bool :=
  match matcher kind U with
  | some (m, R) => type.equals P (m.equals.inst R)
  | none => fun s => (false, s)

namespace Variant

/-- `Variant::Create<T>` where `MakeWrapper<T>` makes a `c`. -/
def createWith (c : WrapperClass L × Binding) (T : Ty L) (data : Addr) :
    WorldM L V (Except ReflectError (Variant L)) := fun w =>
  match reflectID P T w.reg with
  | (.error e, s) => (.error e, { w with reg := s })
  | (.ok i, s) =>
    let (base, w) := makeShared c data { w with reg := s }
    (.ok { base_ := base, type_ := i }, w)

/-- `Variant::Create<T>`, or nothing when it does not compile. -/
def create (τ : Traits L) (T : Ty L) (data : Addr) (w : World L V) :
    Option (Except ReflectError (Variant L) × World L V) :=
  (makeWrapper τ T).map fun c => createWith P c T data w

variable (v : Variant L) (U : Ty L)

def canGet : RegM L Bool := VariantMatcher.match P v.base_.wrapper.kind U v.type_

def checkGet : RegM L (Except VariantGetError Unit) := fun s =>
  match v.canGet P U s with
  | (true, s) => (.ok (), s)
  | (false, s) => (.error .canNotGet, s)

def getKinds : List VariantWrapperType :=
  [.value, .constValue, .lvalueRef, .constLvalueRef, .rvalueRef, .constRvalueRef, .pointer,
    .constPointer]

def getImpl : RegM L (Except Crash (Except VariantGetError (Got L))) := fun s =>
  if v.isVoid then (.ok (.error .isVoid), s)
  else
    match v.checkGet P U s with
    | (.error e, s) => (.ok (.error e), s)
    | (.ok (), s) =>
      match getKinds.findSome? fun kind =>
          if v.base_.wrapper.kind = kind then matcher kind U else none with
      | some (m, R) => (.ok (.ok ⟨m.cast.inst R, getResult U, v.base_.value_⟩), s)
      | none => (.error .unreachable, s)

end Variant

/-- `Get<U>` compiles: what the matcher of each kind returns converts to what
`Get<U>` returns, which drops a `volatile`. -/
def getCompiles (U : Ty L) : Bool :=
  Variant.getKinds.all fun kind =>
    match matcher kind U with
    | some (m, R) => m.result.inst R = Variant.getResult U
    | none => true

end ReflCpp
