import ReflCpp.Cpp.Specialization

universe u

namespace ReflCpp

open Cpp

variable {A : Type u}

/-- The flags of a `TypeTraitsBase`, in the order of its parameters. -/
structure TypeTraitsFlags where
  isConst : Bool
  isVolatile : Bool
  isLValueReference : Bool
  isRValueReference : Bool
  isPointer : Bool
  deriving DecidableEq

structure TypeTraits (A : Type u) extends TypeTraitsFlags where
  type : Cpp.Obj A

abbrev pTraits (c v : Bool) : Cpp.Obj Unit := .leaf c v ()

/-- The partial specialisations of `TypeTraits`. -/
def typeTraitsSpecs : List (Specialization A TypeTraitsFlags) :=
  [ ⟨.obj (pTraits true false), fun _ => true, true, false, false, false, false⟩,
    ⟨.obj (pTraits false true), fun _ => true, false, true, false, false, false⟩,
    ⟨.obj (pTraits true true), fun _ => true, true, true, false, false, false⟩,
    ⟨.lref (pTraits false false), fun _ => true, false, false, true, false, false⟩,
    ⟨.lref (pTraits true false), fun _ => true, true, false, true, false, false⟩,
    ⟨.lref (pTraits false true), fun _ => true, false, true, true, false, false⟩,
    ⟨.lref (pTraits true true), fun _ => true, true, true, true, false, false⟩,
    ⟨.rref (pTraits false false), fun _ => true, false, false, false, true, false⟩,
    ⟨.rref (pTraits true false), fun _ => true, true, false, false, true, false⟩,
    ⟨.rref (pTraits false true), fun _ => true, false, true, false, true, false⟩,
    ⟨.rref (pTraits true true), fun _ => true, true, true, false, true, false⟩,
    ⟨.obj (.ptr false false (pTraits false false)), fun _ => true,
      false, false, false, false, true⟩,
    ⟨.obj (.ptr true false (pTraits false false)), fun _ => true,
      true, false, false, false, true⟩,
    ⟨.obj (.ptr false true (pTraits false false)), fun _ => true,
      false, true, false, false, true⟩,
    ⟨.obj (.ptr true true (pTraits false false)), fun _ => true,
      true, true, false, false, true⟩ ]

/-- `TypeTraits<T>`; the primary template has `T` itself and no flags. -/
def typeTraits (T : Cpp.Ty A) : Option (TypeTraits A) :=
  match select typeTraitsSpecs T, T with
  | .chosen flags U, _ => some { flags with type := U }
  | .primary, .obj t => some ⟨⟨false, false, false, false, false⟩, t⟩
  | _, _ => none

namespace TypeTraits

/-- The pointer itself, or the type that is referred to or is plain. -/
def object (m : TypeTraits A) : Cpp.Obj A :=
  if m.isPointer then .ptr m.isConst m.isVolatile m.type
  else m.type.qualify m.isConst m.isVolatile

/-- The type that the members of a `TypeTraits` describe. -/
def reassemble (m : TypeTraits A) : Cpp.Ty A :=
  if m.isLValueReference then .lref m.object
  else if m.isRValueReference then .rref m.object
  else .obj m.object

end TypeTraits

section Laws

/-- The flags of a specialisation say what its pattern adds to the deduced type. -/
theorem inst_typeTraitsSpecs {s : Specialization A TypeTraitsFlags}
    (hs : s ∈ typeTraitsSpecs) (U : Cpp.Obj A) :
    s.pat.inst U = ({ s.body with type := U } : TypeTraits A).reassemble := by
  simp only [typeTraitsSpecs, List.mem_cons, List.not_mem_nil, or_false] at hs
  rcases hs with rfl | rfl | rfl | rfl | rfl | rfl | rfl | rfl | rfl | rfl | rfl | rfl | rfl |
    rfl | rfl <;> cases U <;> rfl

/-- What `select` finds for each shape of type: nothing only for a plain one. -/
theorem select_typeTraitsSpecs (T : Cpp.Ty A) :
    (∃ flags U, select typeTraitsSpecs T = .chosen flags U) ∨
    ∃ a, T = .obj (.leaf false false a) ∧ select typeTraitsSpecs T = .primary := by
  cases T with
  | obj t =>
    cases t with
    | leaf c v a =>
      cases c <;> cases v
      · exact .inr ⟨a, rfl, rfl⟩
      all_goals exact .inl ⟨_, _, rfl⟩
    | ptr c v t => left; cases t <;> cases c <;> cases v <;> exact ⟨_, _, rfl⟩
  | lref t => left; cases t <;> rename_i c v _ <;> cases c <;> cases v <;> exact ⟨_, _, rfl⟩
  | rref t => left; cases t <;> rename_i c v _ <;> cases c <;> cases v <;> exact ⟨_, _, rfl⟩

/-- One `TypeTraits` applies to `T`, and its members describe `T` and nothing else. -/
structure TypeTraitsLaw (T : Cpp.Ty A) : Prop where
  one : Unambiguous typeTraitsSpecs T
  whole : ∃ m, typeTraits T = some m ∧ m.reassemble = T

theorem typeTraitsLaw (T : Cpp.Ty A) : TypeTraitsLaw T := by
  have hpats : ((typeTraitsSpecs (A := A)).map Specialization.pat).Nodup := by
    change ((typeTraitsSpecs (A := Unit)).map Specialization.pat).Nodup
    decide
  rcases select_typeTraitsSpecs T with ⟨flags, U, h⟩ | ⟨a, rfl, h⟩
  · obtain ⟨s, hs, hbody, _, hdeduce⟩ := select_chosen h
    refine ⟨(unambiguous_iff hpats).mpr (by simp [h]), ⟨flags, U⟩, ?_, ?_⟩
    · simp only [typeTraits, h]
    · rw [← hbody, ← inst_typeTraitsSpecs hs U]
      exact Ty.inst_of_deduce hdeduce
  · exact ⟨.inl (select_eq_primary.mp h), _, rfl, rfl⟩

end Laws

end ReflCpp
