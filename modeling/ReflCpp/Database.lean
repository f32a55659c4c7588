import Mathlib.Logic.Function.Basic
import ReflCpp.Meta

namespace ReflCpp

open Cpp

variable {L : Type}

/-- `struct Type`.  `data_` is the `T` whose `ReflectData<T>` and
`ReflectPrinter<T>` the entry points to. -/
structure TypeEntry (L : Type) where
  id_ : TypeID
  data_ : Ty L

/-- The `types_` of the database with the function-local statics around it:
`TypeInstance<T>::ID`'s `id` and `ReflectData<T>::Create`'s `data`, for each `T`.
`faults` says of the coming allocations which throw. -/
structure Registry (L : Type) where
  types_ : List (TypeEntry L)
  id : Ty L → TypeID
  data : Ty L → Option TypeData
  faults : List Bool

abbrev RegM (L α : Type) := Registry L → α × Registry L

namespace Registry

def init : Registry L where
  types_ := []
  id := fun _ => .invalid
  data := fun _ => none
  faults := []

def throws (s : Registry L) : Bool := s.faults.headD false
def allocated (s : Registry L) : Registry L := { s with faults := s.faults.tail }

def keys (s : Registry L) : List (Ty L) := s.types_.map TypeEntry.data_

theorem keys_length (s : Registry L) : s.keys.length = s.types_.length := List.length_map _

end Registry

def Creation.run {rk : L → Nat} {r : Nat}
    (rec : (U : Ty L) → U.rank rk < r → RegM L (Except ReflectError TypeID)) :
    Creation L rk r → RegM L (Option TypeData)
  | .ret data, s => (some data, s)
  | .alloc k, s => if s.throws then (none, s.allocated) else k.run rec s.allocated
  | .value T h k, s =>
    match rec T h s with
    | (.ok i, s) => (k i).run rec s
    | (.error _, s) => (none, s)
  | .attempt T h k, s => (k (rec T h s).1).run rec (rec T h s).2

variable [DecidableEq L] (P : Program L)

section Body

variable (T : Ty L)
  (rec : (U : Ty L) → U.rank P.rank < T.rank P.rank → RegM L (Except ReflectError TypeID))

/-- `ReflectData<T>::Create`: the static is initialised by the first `CreateImpl`
that does not throw. -/
def create : RegM L (Option TypeData) := fun s =>
  match s.data T, reflectData P T with
  | some d, _ => (some d, s)
  -- No `ReflectData<T>`: the program does not compile, and no id is ever issued.
  | none, none => (none, s)
  | none, some c =>
    match c.run rec s with
    | (some d, s) => (some d, { s with data := Function.update s.data T (some d) })
    | (none, s) => (none, s)

/-- `ReflectionDatabase::RegisterType<T>` with the nested calls left open. -/
def registerTypeWith : RegM L (Except ReflectError TypeID) := fun s =>
  if s.types_.length = sizeMax then (.error .maxLimitReached, s)
  else
    match create P T rec s with
    | (none, s) => (.error .creationFailed, s)
    | (some _, s) =>
      let typeID := TypeID.ofSize (s.types_.length + 1)
      if s.throws then (.error .outOfMemory, s.allocated)
      else (.ok typeID,
        { s.allocated with types_ := s.types_ ++ [{ id_ := typeID, data_ := T }] })

/-- `TypeInstance<T>::ID`, with the specialisation for `void`. -/
def typeInstanceID : RegM L (Except ReflectError TypeID) := fun s =>
  if T = Ty.void then (.ok ⟨0⟩, s)
  else if (s.id T).isValid then (.ok (s.id T), s)
  else
    match registerTypeWith P T rec s with
    | (.ok i, s) => (.ok i, { s with id := Function.update s.id T i })
    | (.error e, s) => (.error e, s)

end Body

-- The nested calls are for types of smaller rank, so a bound on the rank is
-- enough to unfold them all.
def reflectAt : (r : Nat) → (T : Ty L) → T.rank P.rank < r →
    RegM L (Except ReflectError TypeID)
  | 0, _, h => absurd h (Nat.not_lt_zero _)
  | r + 1, T, h =>
    typeInstanceID P T fun U hU => reflectAt r U (Nat.lt_of_lt_of_le hU (Nat.le_of_lt_succ h))

def reflectID (T : Ty L) : RegM L (Except ReflectError TypeID) :=
  reflectAt P (T.rank P.rank + 1) T (Nat.lt_succ_self _)

def registerType (T : Ty L) : RegM L (Except ReflectError TypeID) :=
  registerTypeWith P T fun U _ => reflectID P U

/-- `ReflectionDatabase::GetType`; the last step indexes without a check. -/
def getType (id : TypeID) (s : Registry L) :
    Except Crash (Except GetTypeError (TypeEntry L)) :=
  if id.isInvalid then .ok (.error .invalidID)
  else if id.value > s.types_.length then .ok (.error .notFound)
  else
    match s.types_[(id.id_ - 1).toNat]? with
    | some t => .ok (.ok t)
    | none => .error .outOfBounds

def voidType : TypeEntry L := { id_ := ⟨0⟩, data_ := Ty.void }

/-- `TypeInstance<T>::Type`, with the specialisation for `void`. -/
def reflect (T : Ty L) : RegM L (Except Crash (Except ReflectError (TypeEntry L))) :=
  fun s =>
    if T = Ty.void then (.ok (.ok voidType), s)
    else
      match reflectID P T s with
      | (.error e, s) => (.ok (.error e), s)
      | (.ok id, s) =>
        match getType id s with
        | .ok (.ok t) => (.ok (.ok t), s)
        | .ok (.error _) => (.error .valueOnError, s)
        | .error c => (.error c, s)

/-- One call of a run, with the allocations that will throw during it. -/
inductive Request (L : Type)
  | reflectID (T : Ty L) (faults : List Bool) : Request L
  | reflect (T : Ty L) (faults : List Bool) : Request L

def Request.exec (s : Registry L) : Request L → Registry L
  | .reflectID T faults => (ReflCpp.reflectID P T { s with faults }).2
  | .reflect T faults => (ReflCpp.reflect P T { s with faults }).2

def run (rs : List (Request L)) (s : Registry L) : Registry L :=
  rs.foldl (Request.exec P) s

def Reaches (s s' : Registry L) : Prop := ∃ rs, run P rs s = s'

end ReflCpp
