import ReflCpp.FunctionWrapper

namespace ReflCpp

open Cpp Blocks

variable {L V : Type}

/-- `T C::*`, or `T*` for a static member; `T` may be const. -/
structure FieldType (L : Type) where
  class_ : Option L
  member : Obj L

structure FieldTraits (L : Type) where
  isStatic : Bool
  isConst : Bool
  classType : Obj L
  type : Obj L

/-- The specialisations of `FieldTraits`, those for `const T` before those for `T`. -/
def fieldTraits : FieldType L → FieldTraits L
  | ⟨some C, T⟩ =>
    if T.isConst then ⟨false, true, .leaf false false (.user C), T.removeConst⟩
    else ⟨false, false, .leaf false false (.user C), T⟩
  | ⟨none, T⟩ =>
    if T.isConst then ⟨true, true, .leaf false false .void, T.removeConst⟩
    else ⟨true, false, .leaf false false .void, T⟩

/-- The `return_type` of `GetRef`. -/
def FieldTraits.refType (t : FieldTraits L) : Ty L :=
  if t.isConst then .lref t.type.addConst else .lref t.type

inductive FieldGetError
  | variantIsVoid | instanceIsVoid | canNotGet
  | reflectMaxLimitReached | reflectCreationFailed | outOfMemory
  deriving DecidableEq

namespace FieldGetError

def ofVariant : VariantGetError → FieldGetError
  | .isVoid => .variantIsVoid
  | .canNotGet => .canNotGet

def ofReflect : ReflectError → FieldGetError
  | .maxLimitReached => .reflectMaxLimitReached
  | .creationFailed => .reflectCreationFailed
  | .outOfMemory => .outOfMemory

end FieldGetError

inductive FieldSetError
  | isConst | isNotCopyAssignable | instanceIsVoid | newValueIsVoid | canNotGetNewValue
  deriving DecidableEq

def FieldSetError.ofVariant : VariantGetError → FieldSetError
  | .isVoid => .newValueIsVoid
  | .canNotGet => .canNotGetNewValue

namespace World

variable (w : World L V)

/-- What a reference denotes: where its temporary is gone, some free memory. -/
def place (a : Option Addr) : Addr := a.getD w.next

def read (cells : Nat) (a : Option Addr) : List V := load w.mem (w.place a) cells

/-- The assignment of an object, all cells of it. -/
def assign (a : Option Addr) (xs : List V) : World L V :=
  { w with mem := store w.mem (w.place a) xs }

/-- The temporary that a `static_cast` to an object type makes, at `w.next`. -/
def temporary (cells : Nat) (a : Option Addr) : World L V :=
  { w with mem := store w.mem w.next (w.read cells a), next := w.next + cells }

end World

variable [DecidableEq L]

/-- `FieldWrapper<T>` for a member pointer type `T`; `ptr_` is the offset of the
member, or the address of a static one.  The fields after it are what the compiler
knows: that a member lies inside its class, `std::is_copy_assignable_v` of the
member's type, and the wrappers. -/
structure FieldWrapper (L : Type) [DecidableEq L] (τ : Traits L) where
  type : FieldType L
  ptr_ : Nat
  inside : ∀ C, type.class_ = some C → ptr_ + τ.cells type.member ≤ τ.size C
  isCopyAssignable : Bool
  value : WrapperClass L × Binding
  value_eq : makeWrapper τ (.obj (fieldTraits type).type) = some value
  ref : WrapperClass L × Binding
  ref_eq : makeWrapper τ (fieldTraits type).refType = some ref

variable (P : Program L) {τ : Traits L}

/-- `Variant::Create`, with its error converted. -/
def createField (c : WrapperClass L × Binding) (T : Ty L) (data : Addr) :
    WorldM L V (Except Crash (Except FieldGetError (Variant L))) := fun w =>
  match Variant.createWith P c T data w with
  | (.error e, w) => (.ok (.error (.ofReflect e)), w)
  | (.ok v, w) => (.ok (.ok v), w)

namespace FieldWrapper

variable (f : FieldWrapper L τ) (value instance_ : Variant L)

def traits : FieldTraits L := fieldTraits f.type

/-- The cells of the field. -/
def cells : Nat := τ.cells f.traits.type

/-- `*ptr_`, or `obj.*ptr_` for the `obj` that `instance.Get<ClassType&>()` gives. -/
def lvalue : RegM L (Except Crash (Except VariantGetError (Option Addr))) :=
  if f.traits.isStatic then RegM.ret (.ok (some f.ptr_))
  else
    RegM.andThen (instance_.getImpl P (.lref f.traits.classType)) fun
      | .error e => RegM.ret (.error e)
      | .ok g => RegM.ret (.ok (g.value.map (· + f.ptr_)))

/-- The checks on the instance in `GetValue` and `GetRef`. -/
def access (k : Option Addr → WorldM L V (Except Crash (Except FieldGetError (Variant L)))) :
    WorldM L V (Except Crash (Except FieldGetError (Variant L))) := fun w =>
  if !f.traits.isStatic && instance_.isVoid then (.ok (.error .instanceIsVoid), w)
  else
    match f.lvalue P instance_ w.reg with
    | (.error c, s) => (.error c, { w with reg := s })
    | (.ok (.error e), s) => (.ok (.error (.ofVariant e)), { w with reg := s })
    | (.ok (.ok a), s) => k a { w with reg := s }

def getValue : WorldM L V (Except Crash (Except FieldGetError (Variant L))) :=
  f.access P instance_ fun a w =>
    createField P f.value (.obj f.traits.type) w.next (w.temporary f.cells a)

def getRef : WorldM L V (Except Crash (Except FieldGetError (Variant L))) :=
  f.access P instance_ fun a w => createField P f.ref f.traits.refType (w.place a) w

/-- The two sides of the assignment in `SetValue`. -/
def sides : RegM L (Except Crash (Except FieldSetError (Option Addr × Option Addr))) :=
  -- What `fail` returns for a void instance is dropped, so there is no check here.
  RegM.andThen (f.lvalue P instance_) fun
    | .error e => RegM.ret (.error (.ofVariant e))
    | .ok a =>
      RegM.andThen (value.getImpl P (.lref f.traits.type.addConst)) fun
        | .error e => RegM.ret (.error (.ofVariant e))
        | .ok g => RegM.ret (.ok (a, g.value))

def setValue : WorldM L V (Except Crash (Except FieldSetError Unit)) := fun w =>
  if f.traits.isConst then (.ok (.error .isConst), w)
  else if !f.isCopyAssignable then (.ok (.error .isNotCopyAssignable), w)
  else
    match f.sides P value instance_ w.reg with
    | (.error c, s) => (.error c, { w with reg := s })
    | (.ok (.error e), s) => (.ok (.error e), { w with reg := s })
    | (.ok (.ok (a, b)), s) =>
      (.ok (.ok ()), { w with reg := s }.assign a (w.read f.cells b))

end FieldWrapper

namespace Field

variable (heap : Nat → FieldWrapper L τ) (f : Field) (value instance_ : Variant L)

def wrapper : FieldWrapper L τ := heap f.base_

def setValue : WorldM L V (Except Crash (Except FieldSetError Unit)) :=
  (f.wrapper heap).setValue P value instance_

def getValue : WorldM L V (Except Crash (Except FieldGetError (Variant L))) :=
  (f.wrapper heap).getValue P instance_

def getRef : WorldM L V (Except Crash (Except FieldGetError (Variant L))) :=
  (f.wrapper heap).getRef P instance_

end Field

end ReflCpp
