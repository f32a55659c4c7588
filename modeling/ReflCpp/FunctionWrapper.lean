import ReflCpp.FunctionTraits
import ReflCpp.Variant

namespace ReflCpp

open Cpp

variable {L V : Type}

structure FunctionWrapperArgumentError where
  error : VariantGetError
  index : Nat
  deriving DecidableEq

inductive InvokeErrorType
  | incorrectNumberOfArguments | objectIsVoid | objectIsInvalid | argumentIsInvalid
  | maxReflectLimitReached | reflectTypeCreationFailed | outOfMemory
  | noCompatibleFunctionFound
  deriving DecidableEq

structure FunctionWrapperInvokeError where
  type : InvokeErrorType
  arg_error : Option FunctionWrapperArgumentError := none
  deriving DecidableEq

namespace FunctionWrapperInvokeError

def ofArgument (e : FunctionWrapperArgumentError) : FunctionWrapperInvokeError where
  type := .argumentIsInvalid
  arg_error := some e

def ofReflect : ReflectError → FunctionWrapperInvokeError
  | .maxLimitReached => { type := .maxReflectLimitReached }
  | .creationFailed => { type := .reflectTypeCreationFailed }
  | .outOfMemory => { type := .outOfMemory }

end FunctionWrapperInvokeError

namespace RegM

variable {α β : Type}

def ret (a : α) : RegM L (Except Crash α) := fun s => (.ok a, s)

def crash (c : Crash) : RegM L (Except Crash α) := fun s => (.error c, s)

def andThen (m : RegM L (Except Crash α)) (k : α → RegM L (Except Crash β)) :
    RegM L (Except Crash β) := fun s =>
  match m s with
  | (.error c, s) => (.error c, s)
  | (.ok a, s) => k a s

theorem andThen_of_ok {m : RegM L (Except Crash α)} {k : α → RegM L (Except Crash β)}
    {s s' : Registry L} {a : α} (h : m s = (.ok a, s')) : andThen m k s = k a s' := by
  rw [andThen, h]

end RegM

/-- What a wrapped function does: the objects after the call, the types it has
reflected on the way, and where its result is. -/
structure Effect (L V : Type) where
  mem : Addr → V
  next : Addr
  reflects : List (Request L)
  result : Addr

structure Call where
  ptr_ : Nat
  obj : Option Addr
  args : List (Option Addr)
  deriving DecidableEq

/-- How an invocation ends, and the calls made on the way. -/
structure Outcome (L V α : Type) where
  result : Except Crash (Except FunctionWrapperInvokeError α)
  world : World L V
  calls : List Call

def Outcome.orVoid (o : Outcome L V (Option (Variant L))) : Outcome L V (Variant L) :=
  { o with result := o.result.map fun r => r.map fun v => v.getD .void }

variable [DecidableEq L]

/-- `FunctionWrapper<T>` for a function type `T`.  The fields after `ptr_` say
what the function at that address does and that the wrapper compiles. -/
structure FunctionWrapper (L V : Type) [DecidableEq L] (τ : Traits L) where
  type : FunctionType L
  ptr_ : Nat
  body : Option Addr → List (Option Addr) → World L V → Effect L V
  returns : WrapperClass L × Binding
  returns_eq : (functionTraits type).hasReturn = true →
    makeWrapper τ (functionTraits type).returnType = some returns
  argCount_lt : (functionTraits type).argCount < 256

/-- A function that changes nothing and returns the `int` at address 0. -/
def intFunction (receiver : Option (Nat × Qualifier)) (ptr_ : Nat) (args : List (Ty Nat))
    (h : args.length < 256) : FunctionWrapper Nat Nat .plain where
  type := { receiver, ret := .obj int, args }
  ptr_ := ptr_
  body := fun _ _ w => { mem := w.mem, next := w.next, reflects := [], result := 0 }
  returns := (⟨.value, int⟩, .copied 1)
  returns_eq := by
    intro _
    rw [functionTraits_returnType]
    rfl
  argCount_lt := by
    rw [FunctionTraits.argCount, functionTraits_args]
    exact h

variable (P : Program L)

/-- `Get<U>().value()` -/
def Variant.getValue (v : Variant L) (U : Ty L) : RegM L (Except Crash (Option Addr)) :=
  RegM.andThen (v.getImpl P U) fun
    | .ok g => RegM.ret g.value
    | .error _ => RegM.crash .valueOnError

namespace FunctionWrapper

section Args

variable (args : List (Variant L))

/-- `CheckArgsImpl<First, Rest...>`, for the parameter types from `First` on. -/
def checkArgsImpl : (First : Nat) → List (Ty L) →
    RegM L (Except Crash (Except FunctionWrapperArgumentError Unit))
  | _, [] => RegM.ret (.ok ())
  | First, U :: Us =>
    match args[First]? with
    | none => RegM.crash .outOfBounds
    | some v => fun s =>
      match v.checkGet P U s with
      | (.error e, s) => (.ok (.error { error := e, index := First }), s)
      | (.ok (), s) => checkArgsImpl (First + 1) Us s

def getArgType : Ty L → Ty L
  | .obj A => if A.isPointer then .obj A else .lref A
  | .lref A => .lref A
  | .rref A => .rref A

def getArgs : (First : Nat) → List (Ty L) → RegM L (Except Crash (List (Option Addr)))
  | _, [] => RegM.ret []
  | First, U :: Us =>
    match args[First]? with
    | none => RegM.crash .outOfBounds
    | some v =>
      RegM.andThen (v.getValue P (getArgType U)) fun a =>
      RegM.andThen (getArgs (First + 1) Us) fun as => RegM.ret (a :: as)

end Args

variable {τ : Traits L} (f : FunctionWrapper L V τ) (args : List (Variant L))
  (obj : Variant L)

def traits : FunctionTraits L := functionTraits f.type

def checkArgs : RegM L (Except Crash (Except FunctionWrapperArgumentError Unit)) :=
  checkArgsImpl P args 0 f.traits.args

def canInvokeWithArgs : RegM L (Except Crash Bool) :=
  RegM.andThen (f.checkArgs P args) fun
    | .error _ => RegM.ret false
    | .ok () => RegM.ret true

/-- The object operand of a call: `obj.Get<ClassT_>().value()`, once `CanGet` has
been asked, for a member function with receiver type `ClassT_`. -/
def object : Option (Ty L) →
    RegM L (Except Crash (Except FunctionWrapperInvokeError (Option Addr)))
  | none => RegM.ret (.ok none)
  | some C => fun s =>
    match obj.canGet P C s with
    | (false, s) => (.ok (.error { type := .objectIsInvalid }), s)
    | (true, s) => RegM.andThen (obj.getValue P C) (fun a => RegM.ret (.ok a)) s

def objectAndArgs (classT : Option (Ty L)) :
    RegM L (Except Crash (Except FunctionWrapperInvokeError (Option Addr × List (Option Addr)))) :=
  RegM.andThen (object P obj classT) fun
    | .error e => RegM.ret (.error e)
    | .ok a => RegM.andThen (getArgs P args 0 f.traits.args) fun as => RegM.ret (.ok (a, as))

/-- The checks of `InvokeImpl`, and the operands of the call. -/
def operands (classT : Option (Ty L)) :
    RegM L (Except Crash (Except FunctionWrapperInvokeError (Option Addr × List (Option Addr)))) :=
  RegM.andThen (f.checkArgs P args) fun
    | .error e => RegM.ret (.error (.ofArgument e))
    | .ok () => f.objectAndArgs P args obj classT

def afterCall (obj : Option Addr) (as : List (Option Addr)) (w : World L V) : World L V :=
  let e := f.body obj as w
  { reg := run P e.reflects w.reg, mem := e.mem, next := e.next }

/-- The call of `ptr_`, and `Variant::Create<ReturnType>` of its result. -/
def call (hasReturn : Bool) (obj : Option Addr) (as : List (Option Addr)) (w : World L V) :
    Outcome L V (Option (Variant L)) :=
  let calls := [{ ptr_ := f.ptr_, obj, args := as }]
  if hasReturn then
    match Variant.createWith P f.returns f.traits.returnType (f.body obj as w).result
        (f.afterCall P obj as w) with
    | (.error e, w) => { result := .ok (.error (.ofReflect e)), world := w, calls }
    | (.ok v, w) => { result := .ok (.ok (some v)), world := w, calls }
  else { result := .ok (.ok none), world := f.afterCall P obj as w, calls }

/-- The six `InvokeImpl` members: `classT` is the receiver type of a member
function, and a function without a result gives no variant. -/
def invokeImplWith (classT : Option (Ty L)) (hasReturn : Bool) (w : World L V) :
    Outcome L V (Option (Variant L)) :=
  match f.operands P args obj classT w.reg with
  | (.error c, s) => { result := .error c, world := { w with reg := s }, calls := [] }
  | (.ok (.error e), s) =>
    { result := .ok (.error e), world := { w with reg := s }, calls := [] }
  | (.ok (.ok (a, as)), s) => f.call P hasReturn a as { w with reg := s }

section Members

variable (w : World L V)

def invokeImplStatic := f.invokeImplWith P args .void none true w
def invokeImplStaticVoid := f.invokeImplWith P args .void none false w
def invokeImplMember := f.invokeImplWith P args obj (some f.traits.classRef) true w
def invokeImplMemberVoid := f.invokeImplWith P args obj (some f.traits.classRef) false w
def invokeImplRValue := f.invokeImplWith P args obj (some f.traits.classRRef) true w
def invokeImplRValueVoid := f.invokeImplWith P args obj (some f.traits.classRRef) false w

/-- The member whose `requires` clause holds. -/
def invokeImpl : Outcome L V (Option (Variant L)) :=
  match f.traits.isStatic, f.traits.hasRReferenceObject, f.traits.hasReturn with
  | true, _, true => f.invokeImplStatic P args w
  | true, _, false => f.invokeImplStaticVoid P args w
  | false, false, true => f.invokeImplMember P args obj w
  | false, false, false => f.invokeImplMemberVoid P args obj w
  | false, true, true => f.invokeImplRValue P args obj w
  | false, true, false => f.invokeImplRValueVoid P args obj w

end Members

def invoke (w : World L V) : Outcome L V (Variant L) :=
  if args.length ≠ f.traits.argCount then
    { result := .ok (.error { type := .incorrectNumberOfArguments }), world := w, calls := [] }
  else if !f.traits.isStatic && obj.isVoid then
    { result := .ok (.error { type := .objectIsVoid }), world := w, calls := [] }
  else (f.invokeImpl P args obj w).orVoid

end FunctionWrapper

end ReflCpp
