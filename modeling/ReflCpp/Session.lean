import ReflCpp.FieldWrapper
import ReflCpp.Method
import ReflCpp.MethodFunc

namespace ReflCpp

open Cpp

variable {L V : Type}

/-- What a program asks about types and functions. -/
inductive Lookup (L : Type)
  | reflectID (T : Ty L)
  | reflect (T : Ty L)
  | getType (id : TypeID)
  | getArgTypes (t : FunctionType L)
  | getArgs (w : MethodFuncWrapper L)

/-- What a program does with the variants it has.  A variant is named by its place among
those made so far; where there is none, `Variant::Void()` is meant. -/
inductive Action (L V : Type)
  | create (T : Ty L) (data : Addr)
  | canGet (v : Nat) (U : Ty L)
  | get (v : Nat) (U : Ty L)
  | setValue (f : Field) (value instance_ : Nat)
  | getValue (f : Field) (instance_ : Nat)
  | getRef (f : Field) (instance_ : Nat)
  | invoke (func : Nat) (args : List Nat) (obj : Nat)
  | invokeMethod (m : Method) (args : List Nat)
  | invokeMethodOn (m : Method) (obj : Nat) (args : List Nat)
  | assign (data : Addr) (xs : List V)

/-- One use of the library, with the allocations of the registry that throw during it. -/
inductive Op (L V : Type)
  | look (l : Lookup L) (faults : List Bool)
  | use (a : Action L V) (faults : List Bool)

namespace Op

def faults : Op L V → List Bool
  | look _ fs => fs
  | use _ fs => fs

def action : Op L V → Option (Action L V)
  | look _ _ => none
  | use a _ => some a

end Op

/-- What the program learns from an action; the variants themselves are held. -/
inductive Reply
  | rejected
  | created (r : Except ReflectError Unit)
  | granted (b : Bool)
  | got (r : Except VariantGetError (Option Addr))
  | assigned (r : Except FieldSetError Unit)
  | read (r : Except FieldGetError Unit)
  | invoked (r : Except FunctionWrapperInvokeError Unit) (calls : List Call)
  | done

/-- A program that uses the library: the statics, the memory, and the variants made so
far. -/
structure Session (L V : Type) where
  world : World L V
  args : FunctionType L → List TypeID
  infoArgs : FunctionType L → List ArgumentInfo
  held : List (Variant L)

namespace Session

def start (mem : Addr → V) (next : Addr) : Session L V where
  world := { reg := .init, mem, next }
  args := fun _ => []
  infoArgs := fun _ => []
  held := []

variable (st : Session L V)

def variant (v : Nat) : Variant L := st.held[v]?.getD .void

def variants (vs : List Nat) : List (Variant L) := vs.map st.variant

def statics : MethodStatics L where
  reg := st.world.reg
  args := st.args
  infoArgs := st.infoArgs

def withReg (s : Registry L) : Session L V := { st with world := { st.world with reg := s } }

def withStatics (s : MethodStatics L) : Session L V :=
  { st.withReg s.reg with args := s.args, infoArgs := s.infoArgs }

def armed (faults : List Bool) : Session L V := st.withReg { st.world.reg with faults }

/-- The variant that a call returns, if it returns one, is held. -/
def keep {ε : Type} (reply : Except ε Unit → Reply) :
    Except Crash (Except ε (Variant L)) × World L V → Except Crash Reply × Session L V
  | (.error c, w) => (.error c, { st with world := w })
  | (.ok (.error e), w) => (.ok (reply (.error e)), { st with world := w })
  | (.ok (.ok v), w) => (.ok (reply (.ok ())), { st with world := w, held := st.held ++ [v] })

section Exec

variable [DecidableEq L] (P : Program L)

def look : Lookup L → Except Crash Unit × Session L V
  | .reflectID T => (.ok (), st.withReg (ReflCpp.reflectID P T st.world.reg).2)
  | .reflect T =>
    let r := ReflCpp.reflect P T st.world.reg
    (r.1.map fun _ => (), st.withReg r.2)
  | .getType id => ((ReflCpp.getType id st.world.reg).map fun _ => (), st)
  | .getArgTypes t =>
    (.ok (), st.withStatics
      { st.statics with toStatics := (ReflCpp.getArgs P t st.statics.toStatics).2 })
  | .getArgs w =>
    let r := w.getArgs P st.statics
    (r.1.map fun _ => (), st.withStatics r.2)

variable (τ : Traits L) (fields : Nat → FieldWrapper L τ) (funcs : Nat → FunctionWrapper L V τ)

def use : Action L V → Except Crash Reply × Session L V
  | .create T data =>
    match Variant.create P τ T data st.world with
    | none => (.ok .rejected, st)
    | some (r, w) => st.keep .created (.ok r, w)
  | .canGet v U =>
    let r := (st.variant v).canGet P U st.world.reg
    (.ok (.granted r.1), st.withReg r.2)
  | .get v U =>
    let r := (st.variant v).getImpl P U st.world.reg
    (r.1.map fun g => .got (g.map Got.value), st.withReg r.2)
  | .setValue f value instance_ =>
    let r := f.setValue P fields (st.variant value) (st.variant instance_) st.world
    (r.1.map .assigned, { st with world := r.2 })
  | .getValue f instance_ => st.keep .read (f.getValue P fields (st.variant instance_) st.world)
  | .getRef f instance_ => st.keep .read (f.getRef P fields (st.variant instance_) st.world)
  | .invoke func args obj =>
    let o := (funcs func).invoke P (st.variants args) (st.variant obj) st.world
    st.keep (.invoked · o.calls) (o.result, o.world)
  | .invokeMethod m args =>
    let o := m.invoke P funcs (st.variants args) st.world
    st.keep (.invoked · o.calls) (o.result, o.world)
  | .invokeMethodOn m obj args =>
    let o := m.invokeObj P funcs (st.variants args) (st.variant obj) st.world
    st.keep (.invoked · o.calls) (o.result, o.world)
  | .assign data xs => (.ok .done, { st with world := st.world.assign (some data) xs })

/-- One step of a run: what the program sees of it, if anything, and where it leads. -/
def exec : Op L V → Except Crash (Option Reply) × Session L V
  | .look l faults =>
    let r := (st.armed faults).look P l
    (r.1.map fun _ => none, r.2)
  | .use a faults =>
    let r := (st.armed faults).use P τ fields funcs a
    (r.1.map some, r.2)

end Exec

end Session

end ReflCpp
