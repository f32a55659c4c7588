import ReflCpp.TypeData

namespace ReflCpp

open Cpp

variable {L : Type}

inductive VariantWrapperType
  | void | value | constValue | lvalueRef | constLvalueRef | rvalueRef | constRvalueRef
  | pointer | constPointer
  deriving DecidableEq

/-- What the wrappers need to know of the program's own types: whether an `l` can
be made from an lvalue or rvalue `l` with the given qualifiers, which types
convert implicitly to which, and how many cells of memory an `l` takes. -/
structure Traits (L : Type) where
  constructible : L → (c v lvalue : Bool) → Bool
  convertible : Obj L → Obj L → Bool
  size : L → Nat

def Traits.plain : Traits Nat where
  constructible := fun _ _ v _ => !v
  convertible := fun _ _ => false
  size := fun l => 2 * l + 2

namespace Traits

variable (τ : Traits L)

def constructibleFrom : Obj L → (c v lvalue : Bool) → Bool
  | .leaf _ _ .void, _, _, _ => false
  | .leaf _ _ (.builtin _), _, _, _ => true
  | .leaf _ _ (.charArray _), _, _, _ => false
  | .leaf _ _ .string, _, v, _ => !v
  | .leaf _ _ (.user l), c, v, lvalue => τ.constructible l c v lvalue
  | .ptr _ _ _, _, _, _ => true

def isCopyConstructible (T : Obj L) : Bool := τ.constructibleFrom T true T.isVolatile true

def isMoveConstructible (T : Obj L) : Bool :=
  τ.constructibleFrom T T.isConst T.isVolatile false

/-- The cells of a `T`: one for a number, a string or a pointer. -/
def cells : Obj L → Nat
  | .leaf _ _ (.user l) => τ.size l
  | .leaf _ _ (.charArray n) => n
  | .leaf _ _ _ => 1
  | .ptr _ _ _ => 1

@[simp] theorem cells_removeConst (T : Obj L) : τ.cells T.removeConst = τ.cells T := by
  cases T with
  | leaf c v a => cases a <;> rfl
  | ptr c v t => rfl

end Traits

def Obj.isVoid : Obj L → Bool
  | .leaf _ _ .void => true
  | _ => false

/-- The wrapper class template of each kind, at its argument. -/
structure WrapperClass (L : Type) where
  kind : VariantWrapperType
  T : Obj L

/-- The `X` of the base class `VariantWrapper<X>`. -/
def WrapperClass.base : WrapperClass L → Ty L
  | ⟨.void, _⟩ => Ty.void
  | ⟨.value, T⟩ => .lref T
  | ⟨.constValue, T⟩ => .lref T.addConst
  | ⟨.lvalueRef, T⟩ => .lref T
  | ⟨.constLvalueRef, T⟩ => .lref T.addConst
  | ⟨.rvalueRef, T⟩ => .rref T
  | ⟨.constRvalueRef, T⟩ => .rref T.addConst
  | ⟨.pointer, T⟩ => .obj (.ptr false false T)
  | ⟨.constPointer, T⟩ => .obj (.ptr false false T.addConst)

/-- What `value_` is initialised with: a copy of the cells of the data, the data
itself, or a temporary that the data was converted to and that does not outlive the
call. -/
inductive Binding
  | copied (cells : Nat)
  | direct
  | temporary
  deriving DecidableEq

variable [DecidableEq L] (τ : Traits L)

def bindLValue (target data : Obj L) : Option Binding :=
  if data.qualify target.isConst target.isVolatile = target then some .direct
  else if target.isConst && !target.isVolatile && τ.convertible data target then
    some .temporary
  else none

def bindRValue (target data : Obj L) : Option Binding :=
  if data.qualify target.isConst target.isVolatile = target then some .direct
  else if τ.convertible data target then some .temporary
  else none

def makeValueWrapper (T CleanT : Obj L) : Option (WrapperClass L × Binding) :=
  if τ.isCopyConstructible T then
    if T.isConst then some (⟨.constValue, CleanT⟩, .copied (τ.cells CleanT))
    else if τ.constructibleFrom CleanT false T.isVolatile true then
      some (⟨.value, CleanT⟩, .copied (τ.cells CleanT))
    else none
  -- `std::forward<T>(data)` is an rvalue, which `T& value` does not take.
  else if τ.isMoveConstructible T then none
  else (bindLValue τ CleanT.addConst T).map (⟨.constLvalueRef, CleanT⟩, ·)

def makeLValueRefWrapper (data CleanT : Obj L) (isConst : Bool) :
    Option (WrapperClass L × Binding) :=
  if isConst then (bindLValue τ CleanT.addConst data).map (⟨.constLvalueRef, CleanT⟩, ·)
  else (bindLValue τ CleanT data).map (⟨.lvalueRef, CleanT⟩, ·)

def makeRValueRefWrapper (data CleanT : Obj L) (isConst : Bool) :
    Option (WrapperClass L × Binding) :=
  if isConst then (bindRValue τ CleanT.addConst data).map (⟨.constRvalueRef, CleanT⟩, ·)
  else (bindRValue τ CleanT data).map (⟨.rvalueRef, CleanT⟩, ·)

def makePointerWrapper (CleanT : Obj L) (isConst : Bool) : WrapperClass L × Binding :=
  if isConst then (⟨.constPointer, CleanT⟩, .direct) else (⟨.pointer, CleanT⟩, .direct)

/-- `MakeWrapper<T>`, or nothing when it does not compile for `T`. -/
def makeWrapper (T : Ty L) : Option (WrapperClass L × Binding) :=
  let CleanT := T.removeReference.removePointer.removeConst
  if Obj.isVoid T.removeReference then none
  else
    match T with
    | .lref D => makeLValueRefWrapper τ D CleanT D.isConst
    | .rref D => makeRValueRefWrapper τ D CleanT D.isConst
    | .obj D =>
      if D.isPointer then some (makePointerWrapper CleanT D.removePointer.isConst)
      else if τ.isCopyConstructible CleanT || τ.isMoveConstructible CleanT then
        makeValueWrapper τ D CleanT
      else makeLValueRefWrapper τ D CleanT D.isConst

end ReflCpp
