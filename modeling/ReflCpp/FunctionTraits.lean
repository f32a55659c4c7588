import ReflCpp.TypeData

namespace ReflCpp

open Cpp

variable {L : Type}

/-- What stands behind the parameter list of a member function type. -/
inductive Qualifier
  | none | const | lref | constLref | rref | constRref
  deriving DecidableEq

/-- `R(*)(Args...)`, or `R(C::*)(Args...)` with a qualifier. -/
structure FunctionType (L : Type) where
  receiver : Option (L × Qualifier)
  ret : Ty L
  args : List (Ty L)

structure FunctionTraits (L : Type) where
  isStatic : Bool
  isConst : Bool
  hasLReferenceObject : Bool
  hasRReferenceObject : Bool
  classType : Obj L
  returnType : Ty L
  args : List (Ty L)

/-- The specialisations of `FunctionTraits`. -/
def functionTraits : FunctionType L → FunctionTraits L
  | ⟨none, R, args⟩ => ⟨true, false, false, false, .leaf false false .void, R, args⟩
  | ⟨some (C, .none), R, args⟩ =>
    ⟨false, false, false, false, .leaf false false (.user C), R, args⟩
  | ⟨some (C, .const), R, args⟩ =>
    ⟨false, true, false, false, .leaf false false (.user C), R, args⟩
  | ⟨some (C, .lref), R, args⟩ =>
    ⟨false, false, true, false, .leaf false false (.user C), R, args⟩
  | ⟨some (C, .constLref), R, args⟩ =>
    ⟨false, true, true, false, .leaf false false (.user C), R, args⟩
  | ⟨some (C, .rref), R, args⟩ =>
    ⟨false, false, false, true, .leaf false false (.user C), R, args⟩
  | ⟨some (C, .constRref), R, args⟩ =>
    ⟨false, true, false, true, .leaf false false (.user C), R, args⟩

namespace FunctionTraits

variable (t : FunctionTraits L)

def argCount : Nat := t.args.length

def hasReturn [DecidableEq L] : Bool := t.returnType ≠ Ty.void

def classRef : Ty L := if t.isConst then .lref t.classType.addConst else .lref t.classType

def classRRef : Ty L := if t.isConst then .rref t.classType.addConst else .rref t.classType

end FunctionTraits

section Traits

variable (t : FunctionType L)

@[simp] theorem functionTraits_returnType : (functionTraits t).returnType = t.ret := by
  rcases t with ⟨_ | ⟨C, q⟩, R, args⟩
  · rfl
  · cases q <;> rfl

@[simp] theorem functionTraits_args : (functionTraits t).args = t.args := by
  rcases t with ⟨_ | ⟨C, q⟩, R, args⟩
  · rfl
  · cases q <;> rfl

end Traits

end ReflCpp
