import ReflCpp.TypeText

namespace ReflCpp

open Cpp

variable {L : Type}

/-- `std::is_array` -/
def Ty.isArray : Ty L → Bool
  | .obj (.leaf _ _ (.charArray _)) => true
  | _ => false

/-- The leaves of `meta/builtin.hpp`. -/
def Leaf.IsBuiltin : Leaf L → Prop
  | .builtin _ => True
  | .charArray _ => True
  | _ => False

/-- The flags of a type are what the predicates of the language say of it. -/
structure FlagsAgree (T : Ty L) (f : TypeFlags) : Prop where
  pointer : f.has .isPointer = true ↔ T.isPointer = true
  const : f.has .isConst = true ↔ T.isConst = true
  volatile : f.has .isVolatile = true ↔ T.isVolatile = true
  lvalueReference : f.has .isLValueReference = true ↔ T.isLValueReference = true
  rvalueReference : f.has .isRValueReference = true ↔ T.isRValueReference = true
  array : f.has .isArray = true ↔ T.isArray = true

/-- Not an array, and not a volatile pointer. -/
def Flagged (T : Ty L) : Prop :=
  T.isArray = false ∧ ¬ (T.isPointer = true ∧ T.isVolatile = true)

section Flags

variable {P : Program L} {T : Ty L} {d : TypeData}

/-- What the flags say, in the order of `FlagsAgree`. -/
def TypeFlags.answers (f : TypeFlags) : List Bool :=
  [f.has .isPointer, f.has .isConst, f.has .isVolatile, f.has .isLValueReference,
    f.has .isRValueReference, f.has .isArray]

namespace TypeFlags

theorem answers_none : none.answers = [false, false, false, false, false, false] := by decide

theorem answers_isPointer :
    isPointer.answers = [true, false, false, false, false, false] := by decide

theorem answers_constPointer :
    (or isPointer isConst).answers = [true, true, false, false, false, false] := by decide

theorem answers_isConst :
    isConst.answers = [false, true, false, false, false, false] := by decide

theorem answers_isVolatile :
    isVolatile.answers = [false, false, true, false, false, false] := by decide

theorem answers_isLValueReference :
    isLValueReference.answers = [false, false, false, true, false, false] := by decide

theorem answers_isRValueReference :
    isRValueReference.answers = [false, false, false, false, true, false] := by decide

end TypeFlags

def Ty.predicates (T : Ty L) : List Bool :=
  [T.isPointer, T.isConst, T.isVolatile, T.isLValueReference, T.isRValueReference, T.isArray]

/-- What the templates say of a type: no array is known as one, nor a volatile pointer as a
pointer. -/
def Ty.described (T : Ty L) : List Bool :=
  [T.isPointer && !T.isVolatile, T.isConst, T.isVolatile, T.isLValueReference,
    T.isRValueReference, false]

theorem flagsAgree_iff_answers {f : TypeFlags} : FlagsAgree T f ↔ f.answers = T.predicates := by
  simp only [TypeFlags.answers, Ty.predicates, List.cons.injEq, and_true]
  constructor
  · rintro ⟨h₁, h₂, h₃, h₄, h₅, h₆⟩
    exact ⟨Bool.eq_iff_iff.mpr h₁, Bool.eq_iff_iff.mpr h₂, Bool.eq_iff_iff.mpr h₃,
      Bool.eq_iff_iff.mpr h₄, Bool.eq_iff_iff.mpr h₅, Bool.eq_iff_iff.mpr h₆⟩
  · rintro ⟨h₁, h₂, h₃, h₄, h₅, h₆⟩
    exact ⟨by rw [h₁], by rw [h₂], by rw [h₃], by rw [h₄], by rw [h₅], by rw [h₆]⟩

theorem described_eq_predicates_iff : T.described = T.predicates ↔ Flagged T := by
  simp only [Ty.described, Ty.predicates, List.cons.injEq, and_true, true_and, Flagged]
  cases T.isPointer <;> cases T.isVolatile <;> cases Ty.isArray T <;> decide

theorem answers_template {e : Template L} (he : template T = some e) :
    e.data.2.answers = T.described := by
  cases T with
  | obj t =>
    cases t with
    | leaf c v a =>
      cases c <;> cases v <;> cases he
      · exact TypeFlags.answers_isVolatile
      · exact TypeFlags.answers_isConst
    | ptr c v t =>
      cases c <;> cases v <;> cases he
      · exact TypeFlags.answers_isPointer
      · exact TypeFlags.answers_isVolatile
      · exact TypeFlags.answers_constPointer
  | lref t => cases he; exact TypeFlags.answers_isLValueReference
  | rref t => cases he; exact TypeFlags.answers_isRValueReference

theorem answers_leaf {a : Leaf L} {c : Creation L P.rank (a.rank P.rank)}
    {R : Ty L → TypeID → Prop} (ha : a.IsBuiltin) (hc : leafData P a = some c)
    (hy : c.Yields R d) : d.flags.answers = Ty.described (.obj (.leaf false false a)) := by
  cases a with
  | builtin b =>
    cases hc
    cases hy
    exact TypeFlags.answers_none
  | charArray n =>
    cases hc
    cases hy
    exact TypeFlags.answers_none
  | void => exact ha.elim
  | string => exact ha.elim
  | user l => exact ha.elim

variable [DecidableEq L] {s : Registry L}

/-- The flags of a type made from the built-in leaves are right exactly if it is neither an
array nor a volatile pointer. -/
theorem flagsAgree_iff (P : Program L) (hs : Reachable P s) (hd : s.data T = some d)
    (hroot : T.root.IsBuiltin) : FlagsAgree T d.flags ↔ Flagged T := by
  obtain ⟨c, hc, hy⟩ := hs.built.data T d hd
  have hanswers : d.flags.answers = T.described := by
    rcases yields_cases hc hy with ⟨a, c', rfl, hc', hy'⟩ | ⟨e, i, he, _, rfl⟩
    · exact answers_leaf hroot hc' hy'
    · exact answers_template he
  rw [flagsAgree_iff_answers, hanswers, described_eq_predicates_iff]

end Flags

section Examples

theorem flagsAgree_intPointer :
    FlagsAgree intPointer .isPointer ↔ Flagged intPointer :=
  flagsAgree_iff .plain (s := run .plain [.reflectID intPointer []] .init)
    (d := { name := "Pointer", inners := [⟨1⟩], flags := .isPointer }) ⟨_, rfl⟩ rfl trivial

def charArrayType : Ty Nat := .obj (.leaf false false (.charArray 4))

/-- `char[4]` is registered with no flag. -/
theorem not_flagsAgree_charArray :
    (run .plain [.reflectID charArrayType []] .init).data charArrayType =
        some { name := "Char Array" } ∧
      ¬ FlagsAgree charArrayType (TypeData.flags { name := "Char Array" }) := by
  refine ⟨rfl, fun h => ?_⟩
  have harray := h.array.mpr rfl
  revert harray
  decide

end Examples

end ReflCpp
