import Mathlib.Logic.Basic

/-! C++ type expressions over an arbitrary set of leaf types: cv-qualifiers,
pointers and one outer reference, with substitution for the leaves.  A template
pattern in one parameter is a type expression whose only leaf is that
parameter. -/

universe u v

namespace ReflCpp.Cpp

variable {A : Type u} {B : Type v}

/-- An object (or void) type.  The flags of a constructor are its own `const`
and `volatile`, so a qualifier cannot be written twice. -/
inductive Obj (A : Type u) : Type u
  | leaf (c v : Bool) (a : A) : Obj A
  | ptr (c v : Bool) (pointee : Obj A) : Obj A
  deriving DecidableEq

/-- A type with at most one reference, on the outside. -/
inductive Ty (A : Type u) : Type u
  | obj (t : Obj A) : Ty A
  | lref (t : Obj A) : Ty A
  | rref (t : Obj A) : Ty A
  deriving DecidableEq

namespace Obj

def isConst : Obj A → Bool
  | leaf c _ _ => c
  | ptr c _ _ => c

def isVolatile : Obj A → Bool
  | leaf _ v _ => v
  | ptr _ v _ => v

def isPointer : Obj A → Bool
  | leaf _ _ _ => false
  | ptr _ _ _ => true

/-- Add qualifiers; a qualifier that is there already is not doubled. -/
def qualify (c v : Bool) : Obj A → Obj A
  | leaf c' v' a => leaf (c || c') (v || v') a
  | ptr c' v' t => ptr (c || c') (v || v') t

def strip (c v : Bool) : Obj A → Obj A
  | leaf c' v' a => leaf (!c && c') (!v && v') a
  | ptr c' v' t => ptr (!c && c') (!v && v') t

def addConst (t : Obj A) : Obj A := t.qualify true false
def removeConst (t : Obj A) : Obj A := t.strip true false

def removePointer : Obj A → Obj A
  | leaf c v a => leaf c v a
  | ptr _ _ t => t

def subst (σ : A → Obj B) : Obj A → Obj B
  | leaf c v a => (σ a).qualify c v
  | ptr c v t => ptr c v (t.subst σ)

/-- The number of pointers and qualifiers, on top of the rank of the leaf. -/
def rank (rk : A → Nat) : Obj A → Nat
  | leaf c v a => rk a + c.toNat + v.toNat
  | ptr c v t => t.rank rk + 1 + c.toNat + v.toNat

def inst (p : Obj Unit) (T : Obj A) : Obj A := p.subst fun _ => T

@[simp] theorem isPointer_leaf (c v : Bool) (a : A) : (leaf c v a).isPointer = false := rfl

@[simp] theorem isConst_leaf (c v : Bool) (a : A) : (leaf c v a).isConst = c := rfl

@[simp] theorem isPointer_ptr (c v : Bool) (t : Obj A) : (ptr c v t).isPointer = true := rfl

@[simp] theorem removePointer_ptr (c v : Bool) (t : Obj A) :
    (ptr c v t).removePointer = t := rfl

@[simp] theorem isConst_qualify (c v : Bool) (t : Obj A) :
    (t.qualify c v).isConst = (c || t.isConst) := by cases t <;> rfl

@[simp] theorem isPointer_qualify (c v : Bool) (t : Obj A) :
    (t.qualify c v).isPointer = t.isPointer := by cases t <;> rfl

@[simp] theorem isConst_strip (c v : Bool) (t : Obj A) :
    (t.strip c v).isConst = (!c && t.isConst) := by cases t <;> rfl

theorem qualify_strip {c v : Bool} {t : Obj A} (hc : c = true → t.isConst = true)
    (hv : v = true → t.isVolatile = true) : (t.strip c v).qualify c v = t := by
  cases t <;> cases c <;> cases v <;> simp_all [strip, qualify, isConst, isVolatile]

theorem strip_qualify {c v : Bool} {t : Obj A} (hc : c = true → t.isConst = false)
    (hv : v = true → t.isVolatile = false) : (t.qualify c v).strip c v = t := by
  cases t <;> cases c <;> cases v <;> simp_all [strip, qualify, isConst, isVolatile]

theorem removeConst_of_not_isConst {t : Obj A} (h : t.isConst = false) :
    t.removeConst = t := by
  cases t <;> simp_all [removeConst, strip, isConst]

theorem addConst_removeConst {t : Obj A} (h : t.isConst = true) :
    t.removeConst.addConst = t :=
  qualify_strip (fun _ => h) (by simp)

theorem removeConst_addConst {t : Obj A} (h : t.isConst = false) :
    t.addConst.removeConst = t :=
  strip_qualify (fun _ => h) (by simp)

@[simp] theorem isConst_addConst (t : Obj A) : t.addConst.isConst = true := by
  simp [addConst]

@[simp] theorem isConst_removeConst (t : Obj A) : t.removeConst.isConst = false := by
  simp [removeConst]

@[simp] theorem isPointer_addConst (t : Obj A) : t.addConst.isPointer = t.isPointer := by
  simp [addConst]

@[simp] theorem isPointer_removeConst (t : Obj A) : t.removeConst.isPointer = t.isPointer := by
  cases t <;> rfl

theorem removeConst_eq_iff {s t : Obj A} (ht : t.isConst = false) :
    s.removeConst = t ↔ s = t ∨ s = t.addConst := by
  constructor
  · rintro rfl
    cases hs : s.isConst with
    | true => exact .inr (addConst_removeConst hs).symm
    | false => exact .inl (removeConst_of_not_isConst hs).symm
  · rintro (rfl | rfl)
    · exact removeConst_of_not_isConst ht
    · exact removeConst_addConst ht

theorem strip_volatile_eq_iff {t : Obj A} : t.strip false true = t ↔ t.isVolatile = false := by
  cases t <;> simp [strip, isVolatile, eq_comm]

def depth : Obj A → Nat
  | leaf _ _ _ => 0
  | ptr _ _ t => t.depth + 1

@[simp] theorem depth_qualify (c v : Bool) (t : Obj A) : (t.qualify c v).depth = t.depth := by
  cases t <;> rfl

@[simp] theorem depth_strip (c v : Bool) (t : Obj A) : (t.strip c v).depth = t.depth := by
  cases t <;> rfl

/-- The type below all pointers and qualifiers. -/
def root : Obj A → A
  | leaf _ _ a => a
  | ptr _ _ t => t.root

def eraseVolatile : Obj A → Obj A
  | leaf c _ a => leaf c false a
  | ptr c _ t => ptr c false t.eraseVolatile

/-- How often `volatile` stands in the type. -/
def volatiles : Obj A → Nat
  | leaf _ v _ => v.toNat
  | ptr _ v t => v.toNat + t.volatiles

/-- No level of the type is both const and volatile. -/
def qualifiedOnce : Obj A → Bool
  | leaf c v _ => !(c && v)
  | ptr c v t => !(c && v) && t.qualifiedOnce

@[simp] theorem subst_leaf (t : Obj A) : t.subst (leaf false false) = t := by
  induction t with
  | leaf c v a => simp [subst, qualify]
  | ptr c v t ih => simp [subst, ih]

theorem rank_strip (rk : A → Nat) {c v : Bool} {t : Obj A}
    (hc : c = true → t.isConst = true) (hv : v = true → t.isVolatile = true) :
    (t.strip c v).rank rk + c.toNat + v.toNat = t.rank rk := by
  cases t <;> cases c <;> cases v <;>
    simp_all [strip, rank, isConst, isVolatile] <;> omega

end Obj

namespace Ty

def isPointer : Ty A → Bool
  | obj t => t.isPointer
  | lref _ => false
  | rref _ => false

def isConst : Ty A → Bool
  | obj t => t.isConst
  | lref _ => false
  | rref _ => false

def isVolatile : Ty A → Bool
  | obj t => t.isVolatile
  | lref _ => false
  | rref _ => false

def isLValueReference : Ty A → Bool
  | obj _ => false
  | lref _ => true
  | rref _ => false

def isRValueReference : Ty A → Bool
  | obj _ => false
  | lref _ => false
  | rref _ => true

def isReference : Ty A → Bool
  | obj _ => false
  | lref _ => true
  | rref _ => true

def removeReference : Ty A → Obj A
  | obj t => t
  | lref t => t
  | rref t => t

def rank (rk : A → Nat) : Ty A → Nat
  | obj t => t.rank rk
  | lref t => t.rank rk + 1
  | rref t => t.rank rk + 1

def subst (σ : A → Obj B) : Ty A → Ty B
  | obj t => obj (t.subst σ)
  | lref t => lref (t.subst σ)
  | rref t => rref (t.subst σ)

def inst (p : Ty Unit) (T : Obj A) : Ty A := p.subst fun _ => T

@[simp] theorem subst_leaf (T : Ty A) : T.subst (Obj.leaf false false) = T := by
  cases T <;> simp [subst]

def root (T : Ty A) : A := T.removeReference.root

def eraseVolatile : Ty A → Ty A
  | obj t => obj t.eraseVolatile
  | lref t => lref t.eraseVolatile
  | rref t => rref t.eraseVolatile

def volatiles (T : Ty A) : Nat := T.removeReference.volatiles

def qualifiedOnce (T : Ty A) : Bool := T.removeReference.qualifiedOnce

end Ty

end ReflCpp.Cpp
