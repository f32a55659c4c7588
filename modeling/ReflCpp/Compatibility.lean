import ReflCpp.VariantLaws
import ReflCpp.WrapperKind

namespace ReflCpp

open Cpp

variable {L : Type}

/-- The types a variant of `C` or of a pointer to `X` can be created as, each
with the requests that are allowed for it. -/
def createForms (C X : Obj L) : List (Ty L × List (Ty L)) :=
  [ (.obj C, [.obj C, .obj C.addConst, .lref C, .lref C.addConst]),
    (.lref C, [.obj C, .obj C.addConst, .lref C, .lref C.addConst]),
    (.obj C.addConst, [.obj C.addConst, .lref C.addConst]),
    (.lref C.addConst, [.obj C.addConst, .lref C.addConst]),
    (.rref C, [.rref C, .rref C.addConst]),
    (.rref C.addConst, [.rref C.addConst]),
    (.obj (.ptr false false X), [.obj (.ptr false false X), .obj (.ptr false false X.addConst)]),
    (.obj (.ptr false false X.addConst), [.obj (.ptr false false X.addConst)]) ]

/-- What is reached through a `T` may not be changed. -/
def accessConst : Ty L → Bool
  | .obj t => if t.isPointer then t.removePointer.isConst else t.isConst
  | .lref t => t.isConst
  | .rref t => t.isConst

def isRValueReference : Ty L → Bool
  | .rref _ => true
  | _ => false

section Requests

variable {C X : Obj L} {U : Ty L}

theorem decorated_value_iff :
    decorated .value U = some (.obj C) ↔ decorated .lvalueRef U = some (.lref C) := by
  cases U <;> simp [decorated]

theorem decorated_constValue_iff :
    decorated .constValue U = some (.obj C) ↔ decorated .constLvalueRef U = some (.lref C) := by
  cases U <;> simp [decorated]

theorem decorated_lvalueRef_iff (hC : C.isPointer = false) (hc : C.isConst = false) :
    decorated .lvalueRef U = some (.lref C) ↔
      U ∈ [.obj C, .obj C.addConst, .lref C, .lref C.addConst] := by
  cases U with
  | obj A =>
    cases hA : A.isPointer with
    | true =>
      have hne : A ≠ C ∧ A ≠ C.addConst := by
        constructor <;> rintro rfl <;> simp_all
      simp [decorated, hA, hne]
    | false => simp [decorated, hA, Cpp.Obj.removeConst_eq_iff hc]
  | lref A => simp [decorated, Cpp.Obj.removeConst_eq_iff hc]
  | rref A => simp [decorated]

theorem decorated_constLvalueRef_iff (hC : C.isPointer = false) (hc : C.isConst = true) :
    decorated .constLvalueRef U = some (.lref C) ↔ U ∈ [.obj C, .lref C] := by
  cases U with
  | obj A =>
    have hA : A = C → A.isPointer = false ∧ A.isConst = true := by
      rintro rfl
      exact ⟨hC, hc⟩
    simpa [decorated] using hA
  | lref A =>
    have hA : A = C → A.isConst = true := by
      rintro rfl
      exact hc
    simpa [decorated] using hA
  | rref A => simp [decorated]

theorem decorated_rvalueRef_iff (hc : C.isConst = false) :
    decorated .rvalueRef U = some (.rref C) ↔ U ∈ [.rref C, .rref C.addConst] := by
  cases U <;> simp [decorated, Cpp.Obj.removeConst_eq_iff hc]

theorem decorated_constRvalueRef_iff (hc : C.isConst = true) :
    decorated .constRvalueRef U = some (.rref C) ↔ U ∈ [.rref C] := by
  cases U with
  | obj A => simp [decorated]
  | lref A => simp [decorated]
  | rref A =>
    have hA : A = C → A.isConst = true := by
      rintro rfl
      exact hc
    simpa [decorated] using hA

theorem decorated_pointer_iff (hX : X.isConst = false) :
    decorated .pointer U = some (.obj (.ptr false false X)) ↔
      U ∈ [.obj (.ptr false false X), .obj (.ptr false false X.addConst)] := by
  cases U with
  | obj A =>
    cases A with
    | leaf c v a => simp [decorated]
    | ptr c v A => cases c <;> cases v <;> simp [decorated, Cpp.Obj.removeConst_eq_iff hX]
  | lref A => simp [decorated]
  | rref A => simp [decorated]

theorem decorated_constPointer_iff (hX : X.isConst = true) :
    decorated .constPointer U = some (.obj (.ptr false false X)) ↔
      U ∈ [.obj (.ptr false false X)] := by
  cases U with
  | obj A =>
    cases A with
    | leaf c v a => simp [decorated]
    | ptr c v A =>
      have hA : A = X → A.isConst = true := by
        rintro rfl
        exact hX
      cases c <;> cases v <;> simp [decorated]
      exact hA
  | lref A => simp [decorated]
  | rref A => simp [decorated]

end Requests

theorem decorated_wrapperKind_iff (τ : Traits L) {C X : Obj L} (hC : C.isPointer = false)
    (hc : C.isConst = false) (hcopy : τ.isCopyConstructible C = true)
    (hX : X.isConst = false) {T : Ty L} {allowed : List (Ty L)}
    (hT : (T, allowed) ∈ createForms C X) (U : Ty L) :
    decorated (wrapperKind τ T) U = some T ↔ U ∈ allowed := by
  have hC' : C.addConst.isPointer = false := by simpa using hC
  have hcopy' : τ.isCopyConstructible C.addConst = true := by
    rw [isCopyConstructible_addConst, hcopy]
  simp only [createForms, List.mem_cons, Prod.mk.injEq, List.not_mem_nil, or_false] at hT
  rcases hT with ⟨rfl, rfl⟩ | ⟨rfl, rfl⟩ | ⟨rfl, rfl⟩ | ⟨rfl, rfl⟩ | ⟨rfl, rfl⟩ |
    ⟨rfl, rfl⟩ | ⟨rfl, rfl⟩ | ⟨rfl, rfl⟩
  · simp only [wrapperKind, hC, hcopy, hc, Bool.false_eq_true, if_false, if_true]
    rw [decorated_value_iff, decorated_lvalueRef_iff hC hc]
  · simp only [wrapperKind, hc, Bool.false_eq_true, if_false]
    exact decorated_lvalueRef_iff hC hc
  · simp only [wrapperKind, hC', hcopy', Cpp.Obj.isConst_addConst, Bool.false_eq_true,
      if_false, if_true]
    rw [decorated_constValue_iff, decorated_constLvalueRef_iff hC' (by simp)]
  · simp only [wrapperKind, Cpp.Obj.isConst_addConst, if_true]
    exact decorated_constLvalueRef_iff hC' (by simp)
  · simp only [wrapperKind, hc, Bool.false_eq_true, if_false]
    exact decorated_rvalueRef_iff hc
  · simp only [wrapperKind, Cpp.Obj.isConst_addConst, if_true]
    exact decorated_constRvalueRef_iff (by simp)
  · simp only [wrapperKind, Cpp.Obj.isPointer_ptr, Cpp.Obj.removePointer_ptr, hX,
      Bool.false_eq_true, if_false, if_true]
    exact decorated_pointer_iff hX
  · simp only [wrapperKind, Cpp.Obj.isPointer_ptr, Cpp.Obj.removePointer_ptr,
      Cpp.Obj.isConst_addConst, if_true]
    exact decorated_constPointer_iff (by simp)

theorem allowed_safe {C X : Obj L} (hC : C.isPointer = false) {T U : Ty L}
    {allowed : List (Ty L)} (hT : (T, allowed) ∈ createForms C X) (hU : U ∈ allowed) :
    (accessConst T = true → accessConst U = true) ∧
      isRValueReference U = isRValueReference T := by
  simp only [createForms, List.mem_cons, Prod.mk.injEq, List.not_mem_nil, or_false] at hT
  rcases hT with ⟨rfl, rfl⟩ | ⟨rfl, rfl⟩ | ⟨rfl, rfl⟩ | ⟨rfl, rfl⟩ | ⟨rfl, rfl⟩ |
    ⟨rfl, rfl⟩ | ⟨rfl, rfl⟩ | ⟨rfl, rfl⟩ <;>
  simp only [List.mem_cons, List.not_mem_nil, or_false] at hU <;>
  rcases hU with rfl | rfl | rfl | rfl <;>
  simp [hC, accessConst, isRValueReference]

theorem canGet_iff_allowed [DecidableEq L] (P : Program L) (τ : Traits L) {C X : Obj L}
    (hC : C.isPointer = false) (hc : C.isConst = false)
    (hcopy : τ.isCopyConstructible C = true) (hX : X.isConst = false) {T : Ty L}
    {allowed : List (Ty L)} (hT : (T, allowed) ∈ createForms C X) {s : Registry L}
    {v : Variant L} (hv : Created P τ s T v) (U : Ty L)
    (hlen : (v.canGet P U s).2.types_.length < 2 ^ 32) :
    ((v.canGet P U s).1 = true ↔ U ∈ allowed) ∧
    ((v.canGet P U s).1 = true → (accessConst T = true → accessConst U = true) ∧
      isRValueReference U = isRValueReference T) := by
  have hiff : (v.canGet P U s).1 = true ↔ U ∈ allowed := by
    obtain ⟨_, _, c, hmake, hwrapper⟩ := hv.issued
    rw [hv.canGet_iff hlen, hwrapper, makeWrapper_eq hmake]
    exact decorated_wrapperKind_iff τ hC hc hcopy hX hT U
  exact ⟨hiff, fun h => allowed_safe hC hT (hiff.mp h)⟩

section Int

def intRegistry : Registry Nat := (reflectID .plain (.obj int) .init).2

def intVariant : Variant Nat where
  base_ := { wrapper := ⟨.value, int⟩, value_ := some 8 }
  type_ := ⟨1⟩

def intWorld : World Nat Nat where
  reg := intRegistry
  mem := Blocks.store freshWorld.mem 8 [42]
  next := 9

theorem intVariant_created : Created .plain .plain intRegistry (.obj int) intVariant :=
  ⟨Nat, 0, freshWorld, _, .refl, rfl, .refl⟩

theorem canGet_iff_allowed_int :
    ((intVariant.canGet .plain (.lref int.addConst) intRegistry).1 = true ↔
      Cpp.Ty.lref int.addConst ∈
        [.obj int, .obj int.addConst, .lref int, .lref int.addConst]) ∧
    ((intVariant.canGet .plain (.lref int.addConst) intRegistry).1 = true →
      (accessConst (.obj int) = true → accessConst (.lref int.addConst) = true) ∧
      isRValueReference (.lref int.addConst) = isRValueReference (.obj int)) :=
  canGet_iff_allowed .plain .plain (C := int) (X := int) rfl rfl rfl rfl (.head _)
    intVariant_created (.lref int.addConst) (show 1 < 2 ^ 32 by decide)

end Int

end ReflCpp
