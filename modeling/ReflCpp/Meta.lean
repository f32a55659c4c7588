import ReflCpp.Cpp.Specialization
import ReflCpp.TypeData

namespace ReflCpp

open Cpp

variable {L : Type}

def Leaf.rank (rk : L → Nat) : Leaf L → Nat
  | .user l => rk l
  | _ => 0

def Ty.rank (rk : L → Nat) (T : Ty L) : Nat := Cpp.Ty.rank (Leaf.rank rk) T

/-- What a `CreateImpl` does before it has its `TypeData`: `alloc` is an allocation,
which may throw, `value` is `ReflectID<T>().value()`, which throws on an error, and
`attempt` looks at the result itself.  Only types of rank below `r` are reflected, so
no `Create` reaches itself. -/
inductive Creation (L : Type) (rk : L → Nat) (r : Nat) : Type
  | ret (data : TypeData) : Creation L rk r
  | alloc (k : Creation L rk r) : Creation L rk r
  | value (T : Ty L) (h : T.rank rk < r) (k : TypeID → Creation L rk r) :
      Creation L rk r
  | attempt (T : Ty L) (h : T.rank rk < r)
      (k : Except ReflectError TypeID → Creation L rk r) : Creation L rk r

def Creation.Calls {rk : L → Nat} {r : Nat} : Creation L rk r → Ty L → Prop
  | .ret _, _ => False
  | .alloc k, U => k.Calls U
  | .value T _ k, U => U = T ∨ ∃ i, (k i).Calls U
  | .attempt T _ k, U => U = T ∨ ∃ x, (k x).Calls U

/-- The `ReflectData` a program writes for its own types. -/
structure Program (L : Type) where
  rank : L → Nat
  create : (l : L) → Creation L rank (rank l)

/-- Classes whose `CreateImpl` allocates once. -/
def Program.plain : Program Nat where
  rank := fun _ => 0
  create := fun _ => .alloc (.ret { name := "Plain" })

section Meta

abbrev pT : Cpp.Obj Unit := .leaf false false ()

/-- The partial specialisations of `ReflectData` in `meta/common.hpp`, each with
the name and the flags of its `TypeData`. -/
def reflectDataSpecs : List (Specialization (Leaf L) (String × TypeFlags)) :=
  [ ⟨.obj (.ptr false false pT), fun _ => true, "Pointer", .isPointer⟩,
    ⟨.obj (.ptr true false pT), fun _ => true,
      "Const Pointer", .or .isPointer .isConst⟩,
    ⟨.lref pT, fun _ => true, "LValue Reference", .isLValueReference⟩,
    ⟨.rref pT, fun _ => true, "RValue Reference", .isRValueReference⟩,
    ⟨.obj (.leaf true false ()), fun _ => true, "Constant", .isConst⟩,
    ⟨.obj (.leaf false true ()), fun _ => true, "Volatile", .isVolatile⟩ ]

theorem rank_pos_of_mem_reflectDataSpecs
    {s : Specialization (Leaf L) (String × TypeFlags)} (h : s ∈ reflectDataSpecs) :
    0 < s.pat.rank fun _ => 0 := by
  simp only [reflectDataSpecs, List.mem_cons, List.not_mem_nil, or_false] at h
  rcases h with rfl | rfl | rfl | rfl | rfl | rfl <;>
    simp [Cpp.Ty.rank, Cpp.Obj.rank]

theorem rank_lt_of_select (rk : L → Nat) {T : Ty L} {b : String × TypeFlags} {U : Obj L}
    (h : select reflectDataSpecs T = .chosen b U) : Ty.rank rk (.obj U) < T.rank rk := by
  obtain ⟨s, hs, _, _, hd⟩ := select_chosen h
  have hpos := rank_pos_of_mem_reflectDataSpecs hs
  have hrank := Cpp.Ty.rank_of_deduce (Leaf.rank rk) hd
  show U.rank (Leaf.rank rk) < Cpp.Ty.rank (Leaf.rank rk) T
  omega

def leafData (P : Program L) : (a : Leaf L) →
    Option (Creation L P.rank (a.rank P.rank))
  | .void => none
  | .builtin b => some (.ret { name := b.name })
  | .charArray _ => some (.ret { name := "Char Array" })
  | .string => some (.ret { name := "string", namespace_ := some "std" })
  | .user l => some (P.create l)

/-- `ReflectData<T>::CreateImpl`, or nothing when no one specialisation fits `T`. -/
def reflectData (P : Program L) : (T : Ty L) → Option (Creation L P.rank (T.rank P.rank))
  | .obj (.leaf false false a) => leafData P a
  | T =>
    match h : select reflectDataSpecs T with
    | .chosen (name, flags) U =>
      -- The allocation is that of the vector `inners`.
      some (.value (.obj U) (rank_lt_of_select P.rank h) fun id =>
        .alloc (.ret { name := name, inners := [id], flags := flags }))
    | _ => none

section Cases

variable {P : Program L} {T : Ty L}

theorem reflectData_template (hT : ∀ a, T ≠ .obj (.leaf false false a)) :
    reflectData P T = match h : select reflectDataSpecs T with
      | .chosen (name, flags) U =>
        some (.value (.obj U) (rank_lt_of_select P.rank h) fun id =>
          .alloc (.ret { name := name, inners := [id], flags := flags }))
      | _ => none := by
  match T, hT with
  | .obj (.leaf false false a), hT => exact absurd rfl (hT a)
  | .obj (.leaf true _ _), _ => rfl
  | .obj (.leaf false true _), _ => rfl
  | .obj (.ptr _ _ _), _ => rfl
  | .lref _, _ => rfl
  | .rref _, _ => rfl

/-- A `ReflectData` is that of an unqualified leaf, or one of the templates. -/
theorem reflectData_cases {c : Creation L P.rank (T.rank P.rank)}
    (hc : reflectData P T = some c) :
    (∃ a, T = .obj (.leaf false false a)) ∨
    ∃ name flags U h, select reflectDataSpecs T = .chosen (name, flags) U ∧
      c = .value (.obj U) h fun id =>
        .alloc (.ret { name := name, inners := [id], flags := flags }) := by
  by_cases hplain : ∃ a, T = .obj (.leaf false false a)
  · exact .inl hplain
  · rw [reflectData_template (not_exists.mp hplain)] at hc
    split at hc
    next name flags U h =>
      cases hc
      exact .inr ⟨name, flags, U, _, h, rfl⟩
    next => cases hc

end Cases

end Meta

/-- `ReflectID<T>` compiles: `T` and every type its creation reflects has one
`ReflectData`. -/
inductive Reflectable (P : Program L) : Ty L → Prop
  | void : Reflectable P Ty.void
  | create (T : Ty L) (c : Creation L P.rank (T.rank P.rank)) (hc : reflectData P T = some c)
      (h : ∀ U, c.Calls U → Reflectable P U) : Reflectable P T

end ReflCpp
