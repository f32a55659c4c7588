import ReflCpp.RegistryIndependence

namespace ReflCpp

open Cpp Simulation

variable {L V : Type} [DecidableEq L] {P : Program L} {τ : Traits L}

namespace Ideal

section Failing

variable (τ : Traits L) (it : Ideal L V) (e : ReflectError)

/-- The field has been found when the variant fails to be made, and what was done to find it
stays. -/
def notRead (f : FieldWrapper L τ) (instance_ : Option (Typed L))
    (after : Option Addr → Ideal L V) : Reply × Ideal L V :=
  match access τ f instance_ with
  | .error e => (.read (.error e), it)
  | .ok a => (.read (.error (.ofReflect e)), after a)

/-- The function has been called when the variant of its result fails to be made. -/
def notReturned (f : FunctionWrapper L V τ) (args : List (Option (Typed L)))
    (obj : Option (Typed L)) : Reply × Ideal L V :=
  match refusal τ f args obj with
  | some e => (.invoked (.error e) [], it)
  | none =>
    let c := callOn τ f args obj
    if f.traits.hasReturn then (.invoked (.error (.ofReflect e)) [c], (it.called τ f c).2)
    else (.invoked (.ok ()) [c], it.call τ f c)

def notReturnedFirst (args : List (Option (Typed L))) (obj : Option (Typed L))
    (tried : FunctionWrapper L V τ → Bool) (funcs : List (FunctionWrapper L V τ)) :
    Reply × Ideal L V :=
  match funcs.find? fun f => !tried f || fits τ f args with
  | none => (.invoked (.error { type := .noCompatibleFunctionFound }) [], it)
  | some f => it.notReturned τ e f args obj

/-- The action, if the type of the variant that it would make cannot be registered. -/
def fail (fields : Nat → FieldWrapper L τ) (funcs : Nat → FunctionWrapper L V τ) :
    Action L V → Reply × Ideal L V
  | .create T _ =>
    match makeWrapper τ T with
    | none => (.rejected, it)
    | some _ => (.created (.error e), it)
  | .getValue f instance_ =>
    it.notRead τ e (f.wrapper fields) (it.variant instance_)
      (it.temporary (f.wrapper fields).cells)
  | .getRef f instance_ => it.notRead τ e (f.wrapper fields) (it.variant instance_) fun _ => it
  | .invoke func args obj =>
    it.notReturned τ e (funcs func) (it.variants args) (it.variant obj)
  | .invokeMethod m args =>
    it.notReturnedFirst τ e (it.variants args) none (fun f => !f.traits.isStatic)
      (m.functions funcs)
  | .invokeMethodOn m obj args =>
    it.notReturnedFirst τ e (it.variants args) (it.variant obj) (fun _ => true)
      (m.functions funcs)
  | a => it.exec τ fields funcs a

/-- An action together with what fails in it. -/
def attempt (fields : Nat → FieldWrapper L τ) (funcs : Nat → FunctionWrapper L V τ) :
    Action L V × Option ReflectError → Reply × Ideal L V
  | (a, none) => it.exec τ fields funcs a
  | (a, some e) => it.fail τ e fields funcs a

def attemptStep (fields : Nat → FieldWrapper L τ) (funcs : Nat → FunctionWrapper L V τ)
    (it : Ideal L V) (p : Action L V × Option ReflectError) :
    Except Crash Reply × Ideal L V :=
  (.ok (it.attempt τ fields funcs p).1, (it.attempt τ fields funcs p).2)

end Failing

end Ideal

section Steps

variable {st : Session L V} {it : Ideal L V} {w : World L V} {f : FunctionWrapper L V τ}
  {args : List (Variant L)} {obj instance_ : Variant L} {targs : List (Option (Typed L))}
  {tobj tinstance : Option (Typed L)}

theorem Rel.createWith_error (h : Rel P τ { st with world := w } it) (c : WrapperClass L × Binding)
    (T : Ty L) (data : Addr) {e : ReflectError}
    (he : (Variant.createWith P c T data w).1 = .error e) :
    Rel P τ { st with world := (Variant.createWith P c T data w).2 } it := by
  have hpass := passes_reflectID (P := P) T w.reg
  rw [Variant.createWith] at he ⊢
  rcases hr : reflectID P T w.reg with ⟨e' | i, s⟩ <;> rw [hr] at he hpass <;> cases he
  exact h.goOn hpass h.mem h.next rfl

/-- With `Create` at the end of a field access, the variant is made, or nothing has changed
but the registry. -/
theorem Rel.createField_or (h : Rel P τ { st with world := w } it)
    {T : Ty L} {c : WrapperClass L × Binding} (hmake : makeWrapper τ T = some c) (data : Addr) :
    Agrees P τ (st.keep .read (ReflCpp.createField P c T data w))
      (.read (.ok ()), it.create τ T data) ∨
    ∃ e, Agrees P τ (st.keep .read (ReflCpp.createField P c T data w))
      (.read (.error (.ofReflect e)), it) := by
  rw [createField_eq]
  cases hr : (Variant.createWith P c T data w).1 with
  | ok v => exact .inl (.keep (h.createWith_ok hmake data hr))
  | error e => exact .inr ⟨e, rfl, h.createWith_error c T data hr⟩

theorem Rel.getValue_or (h : Rel P τ st it) (f : FieldWrapper L τ)
    (hinstance : Denotes P τ st.world.reg instance_ tinstance)
    (hlen : (f.getValue P instance_ st.world).2.reg.types_.length < 2 ^ 32) :
    Agrees P τ (st.keep .read (f.getValue P instance_ st.world))
      (it.getValue τ f tinstance) ∨
    ∃ e, Agrees P τ (st.keep .read (f.getValue P instance_ st.world))
      (it.notRead τ e f tinstance (it.temporary f.cells)) := by
  unfold Ideal.getValue Ideal.notRead
  rcases getValue_agrees f hinstance hlen with
    ⟨e, s, hget, hpass, haccess⟩ | ⟨a, s, hget, hpass, _, haccess⟩ <;> rw [hget, haccess]
  · exact .inl ⟨rfl, h.withReg hpass⟩
  · have hrel : Rel P τ { st with world := { st.world with reg := s } } it := h.withReg hpass
    have hcopy : Rel P τ
        { st with world := World.temporary { st.world with reg := s } f.cells a }
        (it.temporary f.cells a) := hrel.temporary f.cells a
    rw [← h.next]
    exact hcopy.createField_or f.value_eq st.world.next

theorem Rel.getRef_or (h : Rel P τ st it) (f : FieldWrapper L τ)
    (hinstance : Denotes P τ st.world.reg instance_ tinstance)
    (hlen : (f.getRef P instance_ st.world).2.reg.types_.length < 2 ^ 32) :
    Agrees P τ (st.keep .read (f.getRef P instance_ st.world)) (it.getRef τ f tinstance) ∨
    ∃ e, Agrees P τ (st.keep .read (f.getRef P instance_ st.world))
      (it.notRead τ e f tinstance fun _ => it) := by
  unfold Ideal.getRef Ideal.notRead
  rcases getRef_agrees f hinstance hlen with
    ⟨e, s, hget, hpass, haccess⟩ | ⟨a, s, hget, hpass, _, haccess⟩ <;> rw [hget, haccess]
  · exact .inl ⟨rfl, h.withReg hpass⟩
  · have hrel : Rel P τ { st with world := { st.world with reg := s } } it := h.withReg hpass
    dsimp only
    rw [← h.place a]
    exact hrel.createField_or f.ref_eq (st.world.place a)

/-- A call that is made has its effect, whether or not there is a variant of its result. -/
theorem Rel.invoke_or (h : Rel P τ { st with world := w } it) (hf : Blind f)
    (hargs : List.Forall₂ (Denotes P τ w.reg) args targs) (hobj : Denotes P τ w.reg obj tobj)
    (hlen : (f.invoke P args obj w).world.reg.types_.length < 2 ^ 32) :
    Agrees P τ (st.keep (.invoked · (f.invoke P args obj w).calls)
        ((f.invoke P args obj w).result, (f.invoke P args obj w).world))
      (it.invoke τ f targs tobj) ∨
    ∃ e, Agrees P τ (st.keep (.invoked · (f.invoke P args obj w).calls)
        ((f.invoke P args obj w).result, (f.invoke P args obj w).world))
      (it.notReturned τ e f targs tobj) := by
  unfold Ideal.invoke Ideal.notReturned
  rcases invoke_agrees f hargs hobj hlen with ⟨e, s, hinvoke, hpass, href⟩ | ⟨hinvoke, href⟩ <;>
    rw [hinvoke, href]
  · exact .inl ⟨rfl, h.goOn hpass h.mem h.next rfl⟩
  · obtain ⟨hafter, hresult⟩ := h.called (P := P) hf (Ideal.callOn τ f targs tobj)
    rw [it.call_eq]
    cases hr : f.traits.hasReturn with
    | false =>
      rw [completed_void hr]
      exact .inl ⟨rfl, hafter.hold .void⟩
    | true =>
      rw [completed_return hr, hresult]
      dsimp only
      cases hc : (Variant.createWith P f.returns f.traits.returnType
          (it.called τ f (Ideal.callOn τ f targs tobj)).1
          (f.afterCall P (Ideal.callOn τ f targs tobj).obj
            (Ideal.callOn τ f targs tobj).args w)).1 with
      | ok v => exact .inl (.keep (hafter.createWith_ok (f.returns_eq hr) _ hc))
      | error e => exact .inr ⟨e, rfl, hafter.createWith_error f.returns _ _ hc⟩

theorem Rel.invokeFirst_or (h : Rel P τ st it) {tried : FunctionWrapper L V τ → Bool}
    {skip : FunctionWrapper L V τ → RegM L (Except Crash Bool)}
    {funcs_ : List (FunctionWrapper L V τ)}
    (hskip : ∀ f s, skip f s = if tried f then skipUnfit P args f s else (.ok false, s))
    (hblind : ∀ f ∈ funcs_, Blind f)
    (hin : ∀ f ∈ funcs_, tried f = true → f.traits.argCount ≤ args.length)
    (hargs : List.Forall₂ (Denotes P τ st.world.reg) args targs)
    (hobj : Denotes P τ st.world.reg obj tobj)
    (hlen : (ReflCpp.invokeFirst P skip obj args funcs_ st.world).world.reg.types_.length <
      2 ^ 32) :
    Agrees P τ
      (st.keep (.invoked · (ReflCpp.invokeFirst P skip obj args funcs_ st.world).calls)
        ((ReflCpp.invokeFirst P skip obj args funcs_ st.world).result,
          (ReflCpp.invokeFirst P skip obj args funcs_ st.world).world))
      (it.invokeFirst τ targs tobj tried funcs_) ∨
    ∃ e, Agrees P τ
      (st.keep (.invoked · (ReflCpp.invokeFirst P skip obj args funcs_ st.world).calls)
        ((ReflCpp.invokeFirst P skip obj args funcs_ st.world).result,
          (ReflCpp.invokeFirst P skip obj args funcs_ st.world).world))
      (it.notReturnedFirst τ e targs tobj tried funcs_) := by
  obtain ⟨s, hpass, _, hfirst⟩ := invokeFirst_agrees hskip hin hargs hlen
  unfold Ideal.invokeFirst Ideal.notReturnedFirst
  cases hfind : funcs_.find? fun f => !tried f || Ideal.fits τ f targs with
  | none =>
    rw [hfind] at hfirst
    rw [hfirst]
    exact .inl ⟨rfl, h.withReg hpass⟩
  | some f =>
    rw [hfind] at hfirst
    obtain ⟨hf, hinvoke⟩ := hfirst
    rw [hinvoke] at hlen ⊢
    exact (h.withReg hpass).invoke_or (hblind f hf)
      (hargs.imp fun _ _ hv => hv.passes hpass) (hobj.passes hpass) hlen

end Steps

section Run

variable {fields : Nat → FieldWrapper L τ} {funcs : Nat → FunctionWrapper L V τ}
  {st : Session L V} {it : Ideal L V}

theorem Rel.create_or (h : Rel P τ st it) (T : Ty L) (data : Addr) :
    Agrees P τ (st.use P τ fields funcs (.create T data))
      (it.exec τ fields funcs (.create T data)) ∨
    ∃ e, Agrees P τ (st.use P τ fields funcs (.create T data))
      (it.fail τ e fields funcs (.create T data)) := by
  rw [Session.use, Variant.create, Ideal.exec]
  cases hmake : makeWrapper τ T with
  | none => exact .inl ⟨rfl, h⟩
  | some c =>
    rw [Option.map_some]
    dsimp only
    rcases hr : Variant.createWith P c T data st.world with ⟨e | v, w⟩
    · have hrel := Rel.createWith_error (P := P) h c T data (congrArg Prod.fst hr)
      rw [hr] at hrel
      refine .inr ⟨e, ?_⟩
      rw [Ideal.fail, hmake]
      exact ⟨rfl, hrel⟩
    · have hrel := Rel.createWith_ok h hmake data (congrArg Prod.fst hr)
      rw [hr] at hrel
      exact .inl (.keep hrel)

/-- Whatever the registry cannot allocate, an action comes to what it comes to in the ideal
program, or to what is left of it there without the variant that it would make. -/
theorem Rel.use_or (h : Rel P τ st it) (hblind : ∀ i, Blind (funcs i)) {a : Action L V}
    (hin : a.InBounds funcs)
    (hlen : (st.use P τ fields funcs a).2.world.reg.types_.length < 2 ^ 32) :
    Agrees P τ (st.use P τ fields funcs a) (it.exec τ fields funcs a) ∨
    ∃ e, Agrees P τ (st.use P τ fields funcs a) (it.fail τ e fields funcs a) := by
  have hfunctions : ∀ m : Method, ∀ f ∈ m.functions funcs, Blind f := by
    intro m f hf
    obtain ⟨i, _, rfl⟩ := List.mem_map.mp hf
    exact hblind i
  cases a with
  | create T data => exact h.create_or T data
  | canGet v U => exact .inl (h.ask rfl hlen)
  | get v U => exact .inl (h.ask rfl hlen)
  | setValue f value instance_ => exact .inl (h.ask rfl hlen)
  | getValue f instance_ =>
    rw [Session.use, keep_world] at hlen
    exact h.getValue_or (f.wrapper fields) (h.variant instance_) hlen
  | getRef f instance_ =>
    rw [Session.use, keep_world] at hlen
    exact h.getRef_or (f.wrapper fields) (h.variant instance_) hlen
  | invoke func args obj =>
    rw [Session.use, keep_world] at hlen
    exact Rel.invoke_or h (hblind func) (h.variants args) (h.variant obj) hlen
  | invokeMethod m args =>
    rw [Session.use, keep_world] at hlen
    refine h.invokeFirst_or skipMemberUnfit_eq (hfunctions m) ?_ (h.variants args) .void hlen
    intro f hf hstatic
    rw [Session.variants, List.length_map]
    exact hin f hf (by simpa using hstatic)
  | invokeMethodOn m obj args =>
    rw [Session.use, keep_world] at hlen
    refine h.invokeFirst_or (skipUnfit_all _) (hfunctions m) ?_ (h.variants args)
      (h.variant obj) hlen
    intro f hf _
    rw [Session.variants, List.length_map]
    exact hin f hf
  | assign data xs => exact .inl (h.ask rfl hlen)

/-- What an operation is in the ideal program: the action, which fails only if an allocation
does or a type cannot be reflected. -/
structure Op.Attempted (P : Program L) (fields : Nat → FieldWrapper L τ)
    (funcs : Nat → FunctionWrapper L V τ) (op : Op L V)
    (attempt : Action L V × Option ReflectError) : Prop where
  action : op.action = some attempt.1
  served : AllReflectable P fields funcs → op.Served P funcs → attempt.2 = none

theorem session_attempts (hblind : ∀ i, Blind (funcs i)) :
    Refines (fun st op => Session.exec st P τ fields funcs op) (Ideal.attemptStep τ fields funcs)
      (fun op => op.action.isSome) (Op.Attempted P fields funcs) seen
      (fun st it => Sound P τ st ∧ Rel P τ st it)
      (fun st op => op.InBounds funcs ∧
        (st.exec P τ fields funcs op).2.world.reg.types_.length < 2 ^ 32) where
  visible := by
    rintro st it op ⟨hsound, hrel⟩ ⟨hin, hlen⟩ hshown
    cases op with
    | look l faults => cases hshown
    | use a faults =>
      have hleads := exec_leads fields funcs hsound (.use a faults)
      have harmed := hrel.withReg (.single (.faults st.world.reg faults))
      have hseen : ∀ {q : Reply × Ideal L V},
          Agrees P τ ((st.armed faults).use P τ fields funcs a) q →
          seen ((st.exec P τ fields funcs (.use a faults)).1) = some (.ok q.1) := by
        intro q hq
        change seen (((st.armed faults).use P τ fields funcs a).1.map some) = _
        rw [hq.reply]
        rfl
      by_cases hserved : AllReflectable P fields funcs ∧ (Op.use a faults).Served P funcs
      · obtain ⟨hall, hserved⟩ := hserved
        have hfaults : faults = [] := hserved.faults a rfl
        have hagrees := harmed.use hall hin (hserved.reflects a rfl) hfaults hlen
        exact ⟨(a, none), ⟨rfl, fun _ _ => rfl⟩, hseen hagrees, hleads.sound, hagrees.rel⟩
      · have hfails : AllReflectable P fields funcs → ¬ (Op.use a faults).Served P funcs :=
          fun hall hs => hserved ⟨hall, hs⟩
        rcases harmed.use_or hblind hin hlen with hagrees | ⟨e, hagrees⟩
        · exact ⟨(a, none), ⟨rfl, fun _ _ => rfl⟩, hseen hagrees, hleads.sound, hagrees.rel⟩
        · exact ⟨(a, some e), ⟨rfl, fun hall hs => absurd hs (hfails hall)⟩, hseen hagrees,
            hleads.sound, hagrees.rel⟩
  hidden := by
    rintro st it op ⟨hsound, hrel⟩ ⟨hin, hlen⟩ hshown
    cases op with
    | use a faults => cases hshown
    | look l faults => exact look_hidden hsound hrel hin hlen

/-- The allocation for `int` fails, then one for `int&`, when `int` has been registered. -/
def intAttempts : List (Op Nat Nat) :=
  .use (.create (.obj int) 0) [true] ::
    .use (.create (.lref int) 0) [false, true] :: intActions

end Run

end ReflCpp
