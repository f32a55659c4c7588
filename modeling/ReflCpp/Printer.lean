import ReflCpp.Database

namespace ReflCpp

open Cpp

variable {L : Type}

/-- `#TYPE` of `REFLECT_BUILTIN_TYPE`. -/
def Builtin.spelling : Builtin → String
  | .bool => "bool"
  | .char => "char"
  | .float => "float"
  | .double => "double"
  | .uint8 => "uint8_t"
  | .uint16 => "uint16_t"
  | .uint32 => "uint32_t"
  | .uint64 => "uint64_t"
  | .int8 => "int8_t"
  | .int16 => "int16_t"
  | .int32 => "int32_t"
  | .int64 => "int64_t"

/-- What a `ReflectPrinter<T>::Print` does: write a text, or print the first inner type
between two texts. -/
inductive Printer
  | text (str : String)
  | inner (before after : String)
  deriving DecidableEq

/-- The partial specialisations of `ReflectPrinter` in `meta/common.hpp`, each with what it
writes before and after the inner type. -/
def reflectPrinterSpecs : List (Specialization (Leaf L) (String × String)) :=
  [ ⟨.obj (.ptr false false pT), fun _ => true, "", "*"⟩,
    ⟨.obj (.ptr true false pT), fun _ => true, "", "* const"⟩,
    ⟨.lref pT, fun _ => true, "", "&"⟩,
    ⟨.rref pT, fun _ => true, "", "&&"⟩,
    ⟨.obj (.leaf true false ()), fun _ => true, "const ", ""⟩,
    ⟨.obj (.leaf false true ()), fun _ => true, "volatile ", ""⟩ ]

/-- The text that a program's own printers write for its own types, if it has them. -/
abbrev Texts (L : Type) := L → Option String

def leafPrinter (texts : Texts L) : Leaf L → Option Printer
  | .void => some (.text "void")
  | .builtin b => some (.text b.spelling)
  | .charArray size => some (.text ("char[" ++ toString size ++ "]"))
  | .string => none
  | .user l => (texts l).map .text

/-- `ReflectPrinter<T>::Print`, or nothing where `HasReflectPrinter<T>` does not hold. -/
def reflectPrinter (texts : Texts L) : Ty L → Option Printer
  | .obj (.leaf false false a) => leafPrinter texts a
  | T =>
    match select reflectPrinterSpecs T with
    | .chosen (before, after) _ => some (.inner before after)
    | _ => none

/-- `TypeID::GetType`, which asks the database only about valid ids. -/
def TypeID.getType (id : TypeID) (s : Registry L) :
    Except Crash (Except GetTypeError (TypeEntry L)) :=
  if id.isInvalid then .ok (.error .invalidID) else ReflCpp.getType id s

namespace TypeEntry

variable (s : Registry L) (t : TypeEntry L)

/-- `*data_`; the data of `Void()` is a static of its own. -/
def data : TypeData := (s.data t.data_).getD { name := "Void" }

def getNamespace : String := (t.data s).namespace_.getD "::"

def inNamespace : Bool := (t.data s).namespace_.isSome

/-- `Type::GetInner`; the index is not checked. -/
def getInner (index : Nat) : Except Crash (Except GetTypeError (TypeEntry L)) :=
  match (t.data s).inners[index]? with
  | none => .error .outOfBounds
  | some id => id.getType s

/-- What `Type::Print` writes, or nothing if it recurses to the given depth. -/
def print (texts : Texts L) : Nat → TypeEntry L → Option (Except Crash String)
  | 0, _ => none
  | depth + 1, t =>
    match reflectPrinter texts t.data_ with
    | some (.text str) => some (.ok str)
    | some (.inner before after) =>
      match t.getInner s 0 with
      | .ok (.ok u) => (print texts depth u).map fun r => r.map fun str => before ++ str ++ after
      | .ok (.error _) => some (.error .valueOnError)
      | .error c => some (.error c)
    | none =>
      some (.ok ((if t.inNamespace s then t.getNamespace s ++ "::" else "") ++ (t.data s).name))

/-- `Type::Dump`, which prints to a stream of its own. -/
def dump (texts : Texts L) (depth : Nat) : Option (Except Crash String) :=
  print s texts depth t

end TypeEntry

section Depth

variable {texts : Texts L} {s : Registry L} {t : TypeEntry L} {n m : Nat}
  {r : Except Crash String}

theorem print_succ (h : t.print s texts n = some r) : t.print s texts (n + 1) = some r := by
  induction n generalizing t r with
  | zero => cases h
  | succ n ih =>
    rw [TypeEntry.print] at h ⊢
    rcases hp : reflectPrinter texts t.data_ with _ | str | ⟨before, after⟩ <;> rw [hp] at h
    · exact h
    · exact h
    · rcases hin : t.getInner s 0 with c | e | u <;> rw [hin] at h
      · exact h
      · exact h
      · obtain ⟨r', hr', rfl⟩ := Option.map_eq_some_iff.mp h
        dsimp only
        rw [ih hr']
        rfl

/-- More depth changes nothing once there is a result. -/
theorem print_mono (hle : n ≤ m) (h : t.print s texts n = some r) :
    t.print s texts m = some r := by
  induction hle with
  | refl => exact h
  | step _ ih => exact print_succ ih

end Depth

end ReflCpp
