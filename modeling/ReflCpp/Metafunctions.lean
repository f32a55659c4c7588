import ReflCpp.FieldLaws

universe u

namespace ReflCpp

open Cpp

variable {A : Type u}

abbrev pPointee : Cpp.Obj Unit := .leaf false false ()

section Definitions

/-- The partial specialisations for `T*`, `T* const`, `T* volatile` and `T* const volatile`,
with the qualifiers that their bodies write again. -/
def pointerSpecs : List (Specialization A (Bool × Bool)) :=
  [ ⟨.obj (.ptr false false pPointee), fun _ => true, (false, false)⟩,
    ⟨.obj (.ptr true false pPointee), fun _ => true, (true, false)⟩,
    ⟨.obj (.ptr false true pPointee), fun _ => true, (false, true)⟩,
    ⟨.obj (.ptr true true pPointee), fun _ => true, (true, true)⟩ ]

/-- The partial specialisations for `T&` and `T&&`. -/
def referenceSpecs : List (Specialization A Bool) :=
  [⟨.lref pPointee, fun _ => true, true⟩, ⟨.rref pPointee, fun _ => true, false⟩]

/-- `make_const_t`; the recursion is at a type that is no reference. -/
def makeConst (T : Cpp.Ty A) : Option (Cpp.Ty A) :=
  match select referenceSpecs T, T with
  | .chosen true U, _ => some (.lref U.removeConst.addConst)
  | .chosen false U, _ => some (.rref U.removeConst.addConst)
  | .primary, .obj t => some (.obj t.removeConst.addConst)
  | _, _ => none

/-- `add_const_to_pointer_t`; the primary template is not defined. -/
def addConstToPointer (T : Cpp.Ty A) : Option (Cpp.Ty A) :=
  match select pointerSpecs T with
  | .chosen (c, v) U => some (.obj (.ptr c v U.addConst))
  | _ => none

/-- `remove_const_from_pointer_t` -/
def removeConstFromPointer (T : Cpp.Ty A) : Option (Cpp.Ty A) :=
  match select pointerSpecs T with
  | .chosen (c, v) U => some (.obj (.ptr c v U.removeConst))
  | _ => none

/-- `make_lvalue_reference_t` -/
def makeLvalueReference (T : Cpp.Ty A) : Option (Cpp.Ty A) :=
  match select referenceSpecs T, T with
  | .chosen _ U, _ => some (.lref U)
  | .primary, .obj t => some (.lref t)
  | _, _ => none

theorem rank_pointerSpecs {s : Specialization A (Bool × Bool)} (h : s ∈ pointerSpecs) :
    0 < s.pat.rank fun _ => 0 := by
  simp only [pointerSpecs, List.mem_cons, List.not_mem_nil, or_false] at h
  rcases h with rfl | rfl | rfl | rfl <;> exact Nat.succ_pos _

theorem rank_of_pointerSpecs {T : Cpp.Ty A} {b : Bool × Bool} {U : Cpp.Obj A}
    (h : select pointerSpecs T = .chosen b U) :
    U.rank (fun _ => 0) < T.rank fun _ => 0 := by
  obtain ⟨s, hs, _, _, hdeduce⟩ := select_chosen h
  rw [Cpp.Ty.rank_of_deduce _ hdeduce]
  exact Nat.lt_add_of_pos_right (rank_pointerSpecs hs)

/-- `remove_all_pointers_t` -/
def removeAllPointers (T : Cpp.Ty A) : Option (Cpp.Ty A) :=
  match _h : select pointerSpecs T with
  | .chosen _ U => removeAllPointers (.obj U)
  | .primary => some T
  | .ambiguous => none
termination_by T.rank fun _ => 0
decreasing_by exact rank_of_pointerSpecs _h

end Definitions

section Select

variable {T : Cpp.Ty A}

theorem select_pointerSpecs_ptr (c v : Bool) (t : Cpp.Obj A) :
    select pointerSpecs (.obj (.ptr c v t)) = .chosen (c, v) t := by
  cases t <;> cases c <;> cases v <;> rfl

theorem select_pointerSpecs_primary (h : T.isPointer = false) :
    select pointerSpecs T = .primary := by
  cases T with
  | obj t =>
    cases t with
    | leaf => rfl
    | ptr => cases h
  | lref t => rfl
  | rref t => rfl

/-- Both templates have a specialisation for each reference, and none for other types. -/
theorem select_referenceSpecs (t : Cpp.Obj A) :
    select referenceSpecs (.lref t) = .chosen true t ∧
      select referenceSpecs (.rref t) = .chosen false t ∧
      select (A := A) referenceSpecs (.obj t) = .primary := by
  cases t <;> exact ⟨rfl, rfl, rfl⟩

end Select

section Laws

variable {T : Cpp.Ty A}

theorem removeAllPointers_ptr (c v : Bool) (t : Cpp.Obj A) :
    removeAllPointers (.obj (.ptr c v t)) = removeAllPointers (.obj t) := by
  rw [removeAllPointers]
  split
  next h =>
    rw [select_pointerSpecs_ptr] at h
    cases h
    rfl
  next h =>
    rw [select_pointerSpecs_ptr] at h
    cases h
  next h =>
    rw [select_pointerSpecs_ptr] at h
    cases h

theorem removeAllPointers_of_not_isPointer (hT : T.isPointer = false) :
    removeAllPointers T = some T := by
  have hselect := select_pointerSpecs_primary hT
  rw [removeAllPointers]
  split
  next h =>
    rw [hselect] at h
    cases h
  next => rfl
  next h =>
    rw [hselect] at h
    cases h

/-- What is at the end of all pointers. -/
def bottom : Cpp.Obj A → Cpp.Obj A
  | .leaf c v a => .leaf c v a
  | .ptr _ _ t => bottom t

theorem removeAllPointers_obj (t : Cpp.Obj A) :
    removeAllPointers (.obj t) = some (.obj (bottom t)) := by
  induction t with
  | leaf c v a => exact removeAllPointers_of_not_isPointer rfl
  | ptr c v t ih => rw [removeAllPointers_ptr, ih, bottom]

theorem isPointer_bottom (t : Cpp.Obj A) : (bottom t).isPointer = false := by
  induction t with
  | leaf c v a => rfl
  | ptr c v t ih => exact ih

theorem root_bottom (t : Cpp.Obj A) : (bottom t).root = t.root := by
  induction t with
  | leaf c v a => rfl
  | ptr c v t ih => exact ih

theorem addConstToPointer_ptr (c v : Bool) (t : Cpp.Obj A) :
    addConstToPointer (.obj (.ptr c v t)) = some (.obj (.ptr c v t.addConst)) := by
  rw [addConstToPointer, select_pointerSpecs_ptr]

theorem removeConstFromPointer_ptr (c v : Bool) (t : Cpp.Obj A) :
    removeConstFromPointer (.obj (.ptr c v t)) = some (.obj (.ptr c v t.removeConst)) := by
  rw [removeConstFromPointer, select_pointerSpecs_ptr]

theorem makeConst_eq (t : Cpp.Obj A) :
    makeConst (.obj t) = some (.obj t.removeConst.addConst) ∧
      makeConst (.lref t) = some (.lref t.removeConst.addConst) ∧
      makeConst (.rref t) = some (.rref t.removeConst.addConst) := by
  cases t <;> exact ⟨rfl, rfl, rfl⟩

theorem makeLvalueReference_eq (T : Cpp.Ty A) :
    makeLvalueReference T = some (.lref T.removeReference) := by
  cases T with
  | obj t => rfl
  | lref t => cases t <;> rfl
  | rref t => cases t <;> rfl

/-- `const T&` from any `T`, reference or not. -/
theorem makeConst_makeLvalueReference (T : Cpp.Ty A) :
    (makeConst T).bind makeLvalueReference =
      some (.lref T.removeReference.removeConst.addConst) := by
  cases T with
  | obj t => rw [(makeConst_eq t).1, Option.bind_some, makeLvalueReference_eq]; rfl
  | lref t => rw [(makeConst_eq t).2.1, Option.bind_some, makeLvalueReference_eq]; rfl
  | rref t => rw [(makeConst_eq t).2.2, Option.bind_some, makeLvalueReference_eq]; rfl

theorem exists_pointer (hT : T.isPointer = true) : ∃ c v t, T = .obj (.ptr c v t) := by
  cases T with
  | obj t =>
    cases t with
    | leaf => cases hT
    | ptr c v t => exact ⟨c, v, t, rfl⟩
  | lref t => cases hT
  | rref t => cases hT

/-- Both metafunctions of a pointee have no type to give except for a pointer. -/
theorem constPointer_cases (T : Cpp.Ty A) :
    (T.isPointer = false ∧ addConstToPointer T = none ∧ removeConstFromPointer T = none) ∨
      ∃ c v t, T = .obj (.ptr c v t) := by
  cases hT : T.isPointer with
  | false =>
    left
    rw [addConstToPointer, removeConstFromPointer, select_pointerSpecs_primary hT]
    exact ⟨rfl, rfl, rfl⟩
  | true => exact .inr (exists_pointer hT)

/-- What the metafunctions make of `T`. -/
structure MetafunctionLaw (T : Cpp.Ty A) : Prop where
  one : Unambiguous pointerSpecs T ∧ Unambiguous referenceSpecs T
  defined : ((addConstToPointer T).isSome = T.isPointer) ∧
    (removeConstFromPointer T).isSome = T.isPointer
  removed : (addConstToPointer T).bind removeConstFromPointer = removeConstFromPointer T
  added : (removeConstFromPointer T).bind addConstToPointer = addConstToPointer T
  qualifiers : ∀ U, addConstToPointer T = some U ∨ removeConstFromPointer T = some U →
    U.isConst = T.isConst ∧ U.isVolatile = T.isVolatile
  bottom : ∃ U, removeAllPointers T = some U ∧ U.isPointer = false ∧
    removeAllPointers U = some U ∧ U.root = T.root
  const : (makeConst T).bind makeConst = makeConst T
  kind : ∃ U, makeConst T = some U ∧ U.removeReference.isConst = true ∧
    U.isLValueReference = T.isLValueReference ∧ U.isRValueReference = T.isRValueReference
  constReference : (makeConst T).bind makeLvalueReference =
    some (.lref T.removeReference.removeConst.addConst)

theorem unambiguous_specs (T : Cpp.Ty A) :
    Unambiguous pointerSpecs T ∧ Unambiguous referenceSpecs T := by
  have hpointer : ((pointerSpecs (A := A)).map Specialization.pat).Nodup := by
    change ((pointerSpecs (A := Unit)).map Specialization.pat).Nodup
    decide
  have hreference : ((referenceSpecs (A := A)).map Specialization.pat).Nodup := by
    change ((referenceSpecs (A := Unit)).map Specialization.pat).Nodup
    decide
  rw [unambiguous_iff hpointer, unambiguous_iff hreference]
  constructor
  · intro h
    cases hT : T.isPointer with
    | false =>
      rw [select_pointerSpecs_primary hT] at h
      cases h
    | true =>
      obtain ⟨c, v, t, rfl⟩ := exists_pointer hT
      rw [select_pointerSpecs_ptr] at h
      cases h
  · intro h
    cases T with
    | obj t =>
      rw [(select_referenceSpecs t).2.2] at h
      cases h
    | lref t =>
      rw [(select_referenceSpecs t).1] at h
      cases h
    | rref t =>
      rw [(select_referenceSpecs t).2.1] at h
      cases h

theorem metafunctions_lawful (T : Cpp.Ty A) : MetafunctionLaw T where
  one := unambiguous_specs T
  defined := by
    rcases constPointer_cases T with ⟨hT, hadd, hremove⟩ | ⟨c, v, t, rfl⟩
    · rw [hadd, hremove, hT]
      exact ⟨rfl, rfl⟩
    · rw [addConstToPointer_ptr, removeConstFromPointer_ptr]
      exact ⟨rfl, rfl⟩
  removed := by
    rcases constPointer_cases T with ⟨_, hadd, hremove⟩ | ⟨c, v, t, rfl⟩
    · rw [hadd, hremove]
      rfl
    · rw [addConstToPointer_ptr, removeConstFromPointer_ptr, Option.bind_some,
        removeConstFromPointer_ptr]
      cases t <;> rfl
  added := by
    rcases constPointer_cases T with ⟨_, hadd, hremove⟩ | ⟨c, v, t, rfl⟩
    · rw [hadd, hremove]
      rfl
    · rw [addConstToPointer_ptr, removeConstFromPointer_ptr, Option.bind_some,
        addConstToPointer_ptr]
      cases t <;> rfl
  qualifiers := by
    intro U hU
    rcases constPointer_cases T with ⟨_, hadd, hremove⟩ | ⟨c, v, t, rfl⟩
    · rw [hadd, hremove] at hU
      rcases hU with hU | hU <;> cases hU
    · rw [addConstToPointer_ptr, removeConstFromPointer_ptr] at hU
      rcases hU with hU | hU <;> cases hU <;> exact ⟨rfl, rfl⟩
  bottom := by
    cases T with
    | obj t =>
      exact ⟨_, removeAllPointers_obj t, isPointer_bottom t,
        removeAllPointers_of_not_isPointer (isPointer_bottom t), root_bottom t⟩
    | lref t => exact ⟨_, removeAllPointers_of_not_isPointer rfl, rfl,
        removeAllPointers_of_not_isPointer rfl, rfl⟩
    | rref t => exact ⟨_, removeAllPointers_of_not_isPointer rfl, rfl,
        removeAllPointers_of_not_isPointer rfl, rfl⟩
  const := by
    have hconst : ∀ t : Cpp.Obj A, t.removeConst.addConst.removeConst.addConst =
        t.removeConst.addConst :=
      fun t => Cpp.Obj.addConst_removeConst (Cpp.Obj.isConst_addConst _)
    cases T with
    | obj t =>
      rw [(makeConst_eq t).1, Option.bind_some, (makeConst_eq _).1, hconst]
    | lref t => rw [(makeConst_eq t).2.1, Option.bind_some, (makeConst_eq _).2.1, hconst]
    | rref t => rw [(makeConst_eq t).2.2, Option.bind_some, (makeConst_eq _).2.2, hconst]
  kind := by
    cases T with
    | obj t => exact ⟨_, (makeConst_eq t).1, Cpp.Obj.isConst_addConst _, rfl, rfl⟩
    | lref t => exact ⟨_, (makeConst_eq t).2.1, Cpp.Obj.isConst_addConst _, rfl, rfl⟩
    | rref t => exact ⟨_, (makeConst_eq t).2.2, Cpp.Obj.isConst_addConst _, rfl, rfl⟩
  constReference := makeConst_makeLvalueReference T

end Laws

section Fields

variable {L : Type} (t : FieldType L)

/-- What a `FieldWrapper` asks the metafunctions for: in `SetValue` the type of the new value,
in `GetRef` the type of the reference that is returned. -/
structure FieldRequests : Prop where
  setValue : (makeConst (.obj (fieldTraits t).type)).bind makeLvalueReference =
    some (.lref (fieldTraits t).type.addConst)
  getRef : makeLvalueReference (.obj (if (fieldTraits t).isConst then (fieldTraits t).type.addConst
    else (fieldTraits t).type)) = some (fieldTraits t).refType

theorem field_requests : FieldRequests t where
  setValue := by
    rw [makeConst_makeLvalueReference]
    change some (Cpp.Ty.lref (fieldTraits t).type.removeConst.addConst) = _
    rw [fieldTraits_type]
    cases t.member <;> rfl
  getRef := by
    rw [makeLvalueReference_eq, FieldTraits.refType]
    split <;> rfl

/-- The laws of the metafunctions, for each type, and what a field of each type asks of
them. -/
theorem metafunctionLaw {A : Type} (T : Cpp.Ty A) : MetafunctionLaw T ∧ FieldRequests t :=
  ⟨metafunctions_lawful T, field_requests t⟩

end Fields

end ReflCpp
