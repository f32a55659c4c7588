import ReflCpp.Compatibility
import ReflCpp.FieldLaws

namespace ReflCpp

open Cpp

variable {L V : Type} [DecidableEq L] (P : Program L) {τ : Traits L}

/-- `SetValue` of a field that is not static blames the object for what is wrong with the
object, as `GetValue` and `GetRef` do, and the value only for what is wrong with the value.
The value is asked for in the registry that `Get<ClassType&>()` leaves. -/
structure FaultLaw (heap : Nat → FieldWrapper L τ) (f : Field) (value instance_ : Variant L)
    (w : World L V) : Prop where
  void : instance_.isVoid = true →
    (f.setValue P heap value instance_ w).1 = .ok (.error .instanceIsVoid)
  getValue_void : instance_.isVoid = true →
    (f.getValue P heap instance_ w).1 = .ok (.error .instanceIsVoid)
  getRef_void : instance_.isVoid = true →
    (f.getRef P heap instance_ w).1 = .ok (.error .instanceIsVoid)
  newValueIsVoid : (f.setValue P heap value instance_ w).1 = .ok (.error .newValueIsVoid) →
    value.isVoid = true
  canNotGetNewValue :
    (f.setValue P heap value instance_ w).1 = .ok (.error .canNotGetNewValue) →
    value.isVoid = false ∧
      (value.canGet P (.lref (f.wrapper heap).traits.type.addConst)
        ((f.wrapper heap).lvalue P instance_ w.reg).2).1 = false
  blames : (instance_.canGet P (.lref (f.wrapper heap).traits.classType) w.reg).1 = false →
    (f.setValue P heap value instance_ w).1 ≠ .ok (.error .newValueIsVoid) ∧
      (f.setValue P heap value instance_ w).1 ≠ .ok (.error .canNotGetNewValue)

variable {P}

section SetValue

variable {f : FieldWrapper L τ} {value instance_ : Variant L} {w : World L V}

theorem reachable_eq (hstatic : f.traits.isStatic = false) (s : Registry L) :
    f.reachable instance_ P s = (instance_.canGet P (.lref f.traits.classType) s).1 := by
  rw [FieldWrapper.reachable, hstatic, Bool.false_or]

theorem access_of_isVoid (hstatic : f.traits.isStatic = false) (hvoid : instance_.isVoid = true)
    (k : Option Addr → WorldM L V (Except Crash (Except FieldGetError (Variant L)))) :
    f.access P instance_ k w = (.ok (.error .instanceIsVoid), w) := by
  unfold FieldWrapper.access
  rw [hstatic, hvoid]
  rfl

theorem getValue_of_isVoid (hstatic : f.traits.isStatic = false)
    (hvoid : instance_.isVoid = true) (w : World L V) :
    f.getValue P instance_ w = (.ok (.error .instanceIsVoid), w) := by
  rw [FieldWrapper.getValue, access_of_isVoid hstatic hvoid]

theorem getRef_of_isVoid (hstatic : f.traits.isStatic = false)
    (hvoid : instance_.isVoid = true) (w : World L V) :
    f.getRef P instance_ w = (.ok (.error .instanceIsVoid), w) := by
  rw [FieldWrapper.getRef, access_of_isVoid hstatic hvoid]

end SetValue

section Law

variable {heap : Nat → FieldWrapper L τ} {f : Field} {value instance_ : Variant L}
  {w : World L V}

theorem faultLaw_of_canGet (hstatic : (f.wrapper heap).traits.isStatic = false)
    (hconst : (f.wrapper heap).traits.isConst = false)
    (hassign : (f.wrapper heap).isCopyAssignable = true)
    (hcan : (instance_.canGet P (.lref (f.wrapper heap).traits.classType) w.reg).1 = true) :
    FaultLaw P heap f value instance_ w := by
  have hvoid : instance_.isVoid = true → False := by
    intro h
    rw [Variant.canGet_of_isVoid h] at hcan
    cases hcan
  have hset : (f.setValue P heap value instance_ w).1 = _ :=
    (f.wrapper heap).setValue_fst value instance_ w hconst hassign
  rw [reachable_eq hstatic, hcan, if_pos rfl] at hset
  have herror : ∀ e, (f.setValue P heap value instance_ w).1 = .ok (.error e) →
      (value.canGet P (.lref (f.wrapper heap).traits.type.addConst)
        ((f.wrapper heap).lvalue P instance_ w.reg).2).1 = false ∧
      e = .ofVariant value.fault := by
    intro e he
    rw [hset] at he
    split at he
    · cases he
    next hvalue =>
      cases he
      exact ⟨eq_false_of_ne_true hvalue, rfl⟩
  refine ⟨fun h => (hvoid h).elim,
    fun h => congrArg Prod.fst (getValue_of_isVoid (P := P) hstatic h w),
    fun h => congrArg Prod.fst (getRef_of_isVoid (P := P) hstatic h w),
    ?_, ?_, fun h => absurd (h.symm.trans hcan) Bool.false_ne_true⟩
  · intro he
    obtain ⟨_, hfault⟩ := herror _ he
    by_contra hv
    rw [Variant.fault_of_not_isVoid (eq_false_of_ne_true hv)] at hfault
    cases hfault
  · intro he
    obtain ⟨hvalue, hfault⟩ := herror _ he
    refine ⟨?_, hvalue⟩
    by_contra hv
    rw [Bool.not_eq_false] at hv
    rw [Variant.fault_of_isVoid hv] at hfault
    cases hfault

/-- A void object is reported as a void value, and one of another class as a value that
cannot be got. -/
theorem faultLaw_iff (hstatic : (f.wrapper heap).traits.isStatic = false)
    (hconst : (f.wrapper heap).traits.isConst = false)
    (hassign : (f.wrapper heap).isCopyAssignable = true) :
    FaultLaw P heap f value instance_ w ↔
      (instance_.canGet P (.lref (f.wrapper heap).traits.classType) w.reg).1 = true := by
  constructor
  · intro hlaw
    by_contra hcan
    rw [Bool.not_eq_true] at hcan
    obtain ⟨hnotVoid, hnotCanNot⟩ := hlaw.blames hcan
    have hset : (f.setValue P heap value instance_ w).1 = _ :=
      (f.wrapper heap).setValue_fst value instance_ w hconst hassign
    rw [reachable_eq hstatic, hcan, if_neg Bool.false_ne_true] at hset
    cases hvoid : instance_.isVoid with
    | true =>
      rw [Variant.fault_of_isVoid hvoid] at hset
      exact hnotVoid hset
    | false =>
      rw [Variant.fault_of_not_isVoid hvoid] at hset
      exact hnotCanNot hset
  · exact faultLaw_of_canGet hstatic hconst hassign

theorem faultLaw_point :
    FaultLaw .plain pointFields { name_ := 1, base_ := 0 } .void pointVariant pointWorld :=
  (faultLaw_iff rfl rfl rfl).mpr rfl

/-- There is an `int` to set, and no object to set it in. -/
theorem not_faultLaw_void :
    ¬ FaultLaw .plain pointFields { name_ := 1, base_ := 0 } intVariant .void intWorld := by
  intro hlaw
  have hset : (Field.setValue .plain pointFields { name_ := 1, base_ := 0 } intVariant .void
      intWorld).1 = .ok (.error .newValueIsVoid) := rfl
  have hvoid := hlaw.void rfl
  rw [hset] at hvoid
  cases hvoid

end Law

end ReflCpp
