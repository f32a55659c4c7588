import ReflCpp.FunctionWrapper

namespace ReflCpp

open Cpp

variable {L V : Type} [DecidableEq L] {τ : Traits L} (P : Program L)

/-- The loop of both `Invoke` members: the first function that `skip` does not
pass over is invoked, and its result returned. -/
def invokeFirst (skip : FunctionWrapper L V τ → RegM L (Except Crash Bool))
    (obj : Variant L) (args : List (Variant L)) :
    List (FunctionWrapper L V τ) → World L V → Outcome L V (Variant L)
  | [], w =>
    { result := .ok (.error { type := .noCompatibleFunctionFound }), world := w, calls := [] }
  | f :: funcs_, w =>
    match skip f w.reg with
    | (.error c, s) => { result := .error c, world := { w with reg := s }, calls := [] }
    | (.ok true, s) => invokeFirst skip obj args funcs_ { w with reg := s }
    | (.ok false, s) => f.invoke P args obj { w with reg := s }

/-- `!func->CanInvokeWithArgs(args)` -/
def skipUnfit (args : List (Variant L)) (f : FunctionWrapper L V τ) :
    RegM L (Except Crash Bool) :=
  RegM.andThen (f.canInvokeWithArgs P args) fun b => RegM.ret !b

/-- `!func->IsStatic() && !func->CanInvokeWithArgs(args)` -/
def skipMemberUnfit (args : List (Variant L)) (f : FunctionWrapper L V τ) :
    RegM L (Except Crash Bool) :=
  if f.traits.isStatic then RegM.ret false else skipUnfit P args f

namespace Method

variable (heap : Nat → FunctionWrapper L V τ) (m : Method) (args : List (Variant L))
  (obj : Variant L)

def functions : List (FunctionWrapper L V τ) := m.funcs_.map heap

/-- `Method::Invoke(args)` -/
def invoke (w : World L V) : Outcome L V (Variant L) :=
  invokeFirst P (skipMemberUnfit P args) .void args (m.functions heap) w

/-- `Method::Invoke(obj, args)` -/
def invokeObj (w : World L V) : Outcome L V (Variant L) :=
  invokeFirst P (skipUnfit P args) obj args (m.functions heap) w

end Method

end ReflCpp
