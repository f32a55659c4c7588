import ReflCpp.ArgumentLaws
import ReflCpp.Session
import ReflCpp.VariantLaws
import ReflCpp.WrapperKind

namespace ReflCpp

open Cpp Blocks

variable {L V : Type}

/-- A variant as a program thinks of it, without ids and wrappers: the type that it was
created as, and where the object is that it gives.  The void variant has neither. -/
structure Typed (L : Type) where
  type : Ty L
  value : Option Addr

/-- What the library is for: a program with its memory and the variants it has made.  There
is no registry, so that nothing here depends on when a type was registered. -/
structure Ideal (L V : Type) where
  mem : Addr → V
  next : Addr
  held : List (Option (Typed L))

namespace Ideal

def start (mem : Addr → V) (next : Addr) : Ideal L V where
  mem := mem
  next := next
  held := []

section Store

variable (it : Ideal L V)

def variant (v : Nat) : Option (Typed L) := it.held[v]?.getD none

def variants (vs : List Nat) : List (Option (Typed L)) := vs.map it.variant

def place (a : Option Addr) : Addr := a.getD it.next

def read (cells : Nat) (a : Option Addr) : List V := load it.mem (it.place a) cells

def assign (a : Option Addr) (xs : List V) : Ideal L V :=
  { it with mem := store it.mem (it.place a) xs }

def temporary (cells : Nat) (a : Option Addr) : Ideal L V :=
  { it with mem := store it.mem it.next (it.read cells a), next := it.next + cells }

def hold (v : Option (Typed L)) : Ideal L V := { it with held := it.held ++ [v] }

end Store

variable [DecidableEq L] (τ : Traits L)

section Variants

variable (v : Option (Typed L)) (U : Ty L)

def canGet : Bool :=
  match v with
  | none => false
  | some t => decorated (wrapperKind τ t.type) U = some t.type

def get : Except VariantGetError (Option Addr) :=
  match v with
  | none => .error .isVoid
  | some t => if canGet τ v U then .ok t.value else .error .canNotGet

end Variants

section Steps

variable (it : Ideal L V)

/-- A variant of a copy of the object, or of the object itself. -/
def create (T : Ty L) (data : Addr) : Ideal L V :=
  match wrapperBinding τ T with
  | .copied cells => (it.temporary cells (some data)).hold (some ⟨T, some it.next⟩)
  | .direct => it.hold (some ⟨T, some data⟩)
  | .temporary => it.hold (some ⟨T, none⟩)

section Field

variable (f : FieldWrapper L τ) (value instance_ : Option (Typed L))

def lvalue : Except VariantGetError (Option Addr) :=
  if f.traits.isStatic then .ok (some f.ptr_)
  else (get τ instance_ (.lref f.traits.classType)).map fun a => a.map (· + f.ptr_)

def access : Except FieldGetError (Option Addr) :=
  if !f.traits.isStatic && instance_.isNone then .error .instanceIsVoid
  else (lvalue τ f instance_).mapError .ofVariant

def sides : Except FieldSetError (Option Addr × Option Addr) :=
  match lvalue τ f instance_ with
  | .error e => .error (.ofVariant e)
  | .ok a =>
    match get τ value (.lref f.traits.type.addConst) with
    | .error e => .error (.ofVariant e)
    | .ok b => .ok (a, b)

def setValue : Reply × Ideal L V :=
  if f.traits.isConst then (.assigned (.error .isConst), it)
  else if !f.isCopyAssignable then (.assigned (.error .isNotCopyAssignable), it)
  else
    match sides τ f value instance_ with
    | .error e => (.assigned (.error e), it)
    | .ok (a, b) => (.assigned (.ok ()), it.assign a (it.read f.cells b))

def getValue : Reply × Ideal L V :=
  match access τ f instance_ with
  | .error e => (.read (.error e), it)
  | .ok a =>
    (.read (.ok ()), (it.temporary f.cells a).create τ (.obj f.traits.type) it.next)

def getRef : Reply × Ideal L V :=
  match access τ f instance_ with
  | .error e => (.read (.error e), it)
  | .ok a => (.read (.ok ()), it.create τ f.traits.refType (it.place a))

end Field

section Function

variable (f : FunctionWrapper L V τ) (args : List (Option (Typed L))) (obj : Option (Typed L))

def fits : Bool := (args.zip f.traits.args).all fun p => canGet τ p.1 p.2

def refusal : Option FunctionWrapperInvokeError :=
  if args.length ≠ f.traits.argCount then some { type := .incorrectNumberOfArguments }
  else if !f.traits.isStatic && obj.isNone then some { type := .objectIsVoid }
  else
    match (args.zip f.traits.args).findIdx? fun p => !canGet τ p.1 p.2 with
    | some i => some (.ofArgument { error := .canNotGet, index := i })
    | none =>
      match f.receiver with
      | none => none
      | some C => if canGet τ obj C then none else some { type := .objectIsInvalid }

def callOn : Call where
  ptr_ := f.ptr_
  obj := f.receiver.bind fun _ => obj.bind Typed.value
  args := args.map fun v => v.bind Typed.value

/-- The call itself, and where its result is; the function sees a program that has registered
nothing. -/
def called (c : Call) : Addr × Ideal L V :=
  let e := f.body c.obj c.args { reg := .init, mem := it.mem, next := it.next }
  (e.result, { it with mem := e.mem, next := e.next })

/-- The call, with a variant of what it returns. -/
def call (c : Call) : Ideal L V :=
  let e := f.body c.obj c.args { reg := .init, mem := it.mem, next := it.next }
  let after := { it with mem := e.mem, next := e.next }
  if f.traits.hasReturn then after.create τ f.traits.returnType e.result else after.hold none

theorem call_eq (c : Call) : it.call τ f c =
    if f.traits.hasReturn then
      (it.called τ f c).2.create τ f.traits.returnType (it.called τ f c).1
    else (it.called τ f c).2.hold none := rfl

def invoke : Reply × Ideal L V :=
  match refusal τ f args obj with
  | some e => (.invoked (.error e) [], it)
  | none => (.invoked (.ok ()) [callOn τ f args obj], it.call τ f (callOn τ f args obj))

/-- The first overload that is not asked, or that no argument is refused to. -/
def invokeFirst (tried : FunctionWrapper L V τ → Bool) (funcs : List (FunctionWrapper L V τ)) :
    Reply × Ideal L V :=
  match funcs.find? fun f => !tried f || fits τ f args with
  | none => (.invoked (.error { type := .noCompatibleFunctionFound }) [], it)
  | some f => it.invoke τ f args obj

end Function

def exec (fields : Nat → FieldWrapper L τ) (funcs : Nat → FunctionWrapper L V τ) :
    Action L V → Reply × Ideal L V
  | .create T data =>
    match makeWrapper τ T with
    | none => (.rejected, it)
    | some _ => (.created (.ok ()), it.create τ T data)
  | .canGet v U => (.granted (canGet τ (it.variant v) U), it)
  | .get v U => (.got (get τ (it.variant v) U), it)
  | .setValue f value instance_ =>
    it.setValue τ (f.wrapper fields) (it.variant value) (it.variant instance_)
  | .getValue f instance_ => it.getValue τ (f.wrapper fields) (it.variant instance_)
  | .getRef f instance_ => it.getRef τ (f.wrapper fields) (it.variant instance_)
  | .invoke func args obj => it.invoke τ (funcs func) (it.variants args) (it.variant obj)
  | .invokeMethod m args =>
    it.invokeFirst τ (it.variants args) none (fun f => !f.traits.isStatic) (m.functions funcs)
  | .invokeMethodOn m obj args =>
    it.invokeFirst τ (it.variants args) (it.variant obj) (fun _ => true) (m.functions funcs)
  | .assign data xs => (.done, it.assign (some data) xs)

/-- The ideal program never crashes. -/
def step (fields : Nat → FieldWrapper L τ) (funcs : Nat → FunctionWrapper L V τ)
    (it : Ideal L V) (a : Action L V) : Except Crash Reply × Ideal L V :=
  (.ok (it.exec τ fields funcs a).1, (it.exec τ fields funcs a).2)

end Steps

end Ideal

end ReflCpp
