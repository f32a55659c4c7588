import ReflCpp.Meta
import ReflCpp.VariantWrapper

namespace ReflCpp

open Cpp

variable {L : Type}

/-- The body of a `VariantMatcher` specialisation: `Match` compares the id of
`equals`, and `Get` returns `result`, read from `VariantWrapper<cast>`. -/
structure Matcher where
  equals : Cpp.Ty Unit
  result : Cpp.Ty Unit
  cast : Cpp.Ty Unit
  deriving DecidableEq

section Tables

abbrev pConstT : Cpp.Obj Unit := .leaf true false ()

/-- `!std::is_pointer_v<R> && !std::is_reference_v<R>` -/
def notPointer (R : Obj L) : Bool := !R.isPointer
def always (_ : Obj L) : Bool := true

/-- The partial specialisations of `VariantMatcher` for each kind. -/
def variantMatcher : VariantWrapperType → List (Specialization (Leaf L) Matcher)
  | .void => []
  | .value =>
    [ ⟨.obj pT, notPointer, ⟨.obj pT, .lref pT, .lref pT⟩⟩,
      ⟨.obj pConstT, notPointer, ⟨.obj pT, .lref pConstT, .lref pT⟩⟩,
      ⟨.lref pT, always, ⟨.obj pT, .lref pT, .lref pT⟩⟩,
      ⟨.lref pConstT, always, ⟨.obj pT, .lref pConstT, .lref pT⟩⟩ ]
  | .constValue =>
    [ ⟨.obj pConstT, notPointer, ⟨.obj pConstT, .lref pConstT, .lref pConstT⟩⟩,
      ⟨.lref pConstT, always, ⟨.obj pConstT, .lref pConstT, .lref pConstT⟩⟩ ]
  | .lvalueRef =>
    [ ⟨.obj pT, notPointer, ⟨.lref pT, .lref pT, .lref pT⟩⟩,
      ⟨.obj pConstT, notPointer, ⟨.lref pT, .lref pConstT, .lref pT⟩⟩,
      ⟨.lref pT, always, ⟨.lref pT, .lref pT, .lref pT⟩⟩,
      ⟨.lref pConstT, always, ⟨.lref pT, .lref pConstT, .lref pT⟩⟩ ]
  | .constLvalueRef =>
    [ ⟨.obj pConstT, notPointer, ⟨.lref pConstT, .lref pConstT, .lref pConstT⟩⟩,
      ⟨.lref pConstT, always, ⟨.lref pConstT, .lref pConstT, .lref pConstT⟩⟩ ]
  | .rvalueRef =>
    [ ⟨.rref pT, always, ⟨.rref pT, .rref pT, .rref pT⟩⟩,
      ⟨.rref pConstT, always, ⟨.rref pT, .rref pConstT, .rref pT⟩⟩ ]
  | .constRvalueRef =>
    [ ⟨.rref pConstT, always, ⟨.rref pConstT, .rref pConstT, .rref pConstT⟩⟩ ]
  | .pointer =>
    [ ⟨.obj (.ptr false false pT), always,
        ⟨.obj (.ptr false false pT), .obj (.ptr false false pT), .obj (.ptr false false pT)⟩⟩,
      ⟨.obj (.ptr false false pConstT), always,
        ⟨.obj (.ptr false false pT), .obj (.ptr false false pConstT),
          .obj (.ptr false false pT)⟩⟩ ]
  | .constPointer =>
    [ ⟨.obj (.ptr false false pConstT), always,
        ⟨.obj (.ptr false false pConstT), .obj (.ptr false false pConstT),
          .obj (.ptr false false pT)⟩⟩ ]

end Tables

/-- The specialisation that `VariantMatcher<kind, U>` names, with its `R`. -/
def matcher (kind : VariantWrapperType) (U : Ty L) : Option (Matcher × Obj L) :=
  match select (variantMatcher kind) U with
  | .chosen m R => some (m, R)
  | _ => none

end ReflCpp
