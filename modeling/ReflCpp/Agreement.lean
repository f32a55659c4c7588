import ReflCpp.Refinement

namespace ReflCpp

open Cpp Simulation

variable {L V : Type} [DecidableEq L] {P : Program L} {τ : Traits L}

section Agrees

variable {st : Session L V} {it : Ideal L V} {w : World L V}

/-- Both take a step, with the same reply. -/
structure Agrees (P : Program L) (τ : Traits L) (r : Except Crash Reply × Session L V)
    (q : Reply × Ideal L V) : Prop where
  reply : r.1 = .ok q.1
  rel : Rel P τ r.2 q.2

theorem Rel.createWith_ok (h : Rel P τ { st with world := w } it) {T : Ty L}
    {c : WrapperClass L × Binding} (hmake : makeWrapper τ T = some c) (data : Addr)
    {v : Variant L} (hv : (Variant.createWith P c T data w).1 = .ok v) :
    Rel P τ { st with world := (Variant.createWith P c T data w).2, held := st.held ++ [v] }
      (it.create τ T data) := by
  have hcreate : Variant.create P τ T data w = some (Variant.createWith P c T data w) := by
    rw [Variant.create, hmake]
    rfl
  rw [Variant.createWith] at hcreate hv ⊢
  have hpass := passes_reflectID (P := P) T w.reg
  rcases hr : reflectID P T w.reg with ⟨e | j, s⟩ <;> rw [hr] at hcreate hv hpass <;> cases hv
  have hcreated : ∀ v w', Variant.create P τ T data w = some (.ok v, w') →
      Created P τ w'.reg T v := fun v w' hv => ⟨V, data, w, w', h.passes, hv, .refl⟩
  have hrel : Rel P τ { st with world := { w with reg := s } } it := h.goOn hpass h.mem h.next rfl
  have hbinding : c.2 = wrapperBinding τ T := by rw [makeWrapper_eq hmake]
  unfold Ideal.create
  rw [← hbinding]
  dsimp only [makeShared] at hcreate ⊢
  cases hc : c.2 with
  | copied cells =>
    rw [hc] at hcreate
    have hcopy := hrel.temporary cells (some data)
    refine hcopy.hold (.created (hcreated _ _ hcreate) ?_)
    exact congrArg some h.next
  | direct =>
    rw [hc] at hcreate
    exact hrel.hold (.created (hcreated _ _ hcreate) rfl)
  | temporary =>
    rw [hc] at hcreate
    exact hrel.hold (.created (hcreated _ _ hcreate) rfl)

/-- `Create` of a type that can be reflected, when no allocation fails. -/
theorem Rel.createWith (h : Rel P τ { st with world := w } it) {T : Ty L}
    (hT : Reflectable P T) {c : WrapperClass L × Binding} (hmake : makeWrapper τ T = some c)
    (data : Addr) (hfaults : w.reg.faults = [])
    (hlen : (Variant.createWith P c T data w).2.reg.types_.length < 2 ^ 32) :
    ∃ v, (Variant.createWith P c T data w).1 = .ok v ∧
      Rel P τ { st with world := (Variant.createWith P c T data w).2, held := st.held ++ [v] }
        (it.create τ T data) := by
  rw [Variant.createWith_reg c T data w] at hlen
  obtain ⟨i, hi⟩ := (reflectID_succeeds hT w.reg hfaults).2 hlen
  have hfst := createWith_fst (P := P) c T data w
  rw [hi] at hfst
  obtain ⟨v, hv⟩ := hfst
  exact ⟨v, hv, h.createWith_ok hmake data hv⟩

theorem Agrees.keep {ε : Type} {reply : Except ε Unit → Reply} {v : Variant L}
    (h : Rel P τ { st with world := w, held := st.held ++ [v] } it) :
    Agrees P τ (st.keep reply (.ok (.ok v), w)) (reply (.ok ()), it) := ⟨rfl, h⟩

end Agrees

section Fields

variable {st : Session L V} {it : Ideal L V} {w : World L V} {s : Registry L}
  {value instance_ : Variant L} {tvalue tinstance : Option (Typed L)}

theorem lvalue_eq (f : FieldWrapper L τ) (h : Denotes P τ s instance_ tinstance)
    (hlen : (f.lvalue P instance_ s).2.types_.length < 2 ^ 32) :
    (f.lvalue P instance_ s).1 = .ok (Ideal.lvalue τ f tinstance) := by
  unfold FieldWrapper.lvalue Ideal.lvalue at *
  split
  · rfl
  next hstatic =>
    rw [if_neg hstatic] at hlen
    have hget := h.get_eq (U := .lref f.traits.classType)
    rcases hr : instance_.getImpl P (.lref f.traits.classType) s with ⟨c | e | g, s'⟩ <;>
      rw [hr] at hget
    · rw [RegM.andThen, hr] at hlen
      cases hget hlen
    · rw [RegM.andThen_of_ok hr] at hlen ⊢
      rw [← Except.ok.inj (hget hlen)]
      rfl
    · rw [RegM.andThen_of_ok hr] at hlen ⊢
      rw [← Except.ok.inj (hget hlen)]
      rfl

theorem lvalue_faultless (f : FieldWrapper L τ) (v : Variant L) (hs : s.faults = []) :
    (f.lvalue P v s).2.faults = [] := by
  unfold FieldWrapper.lvalue
  split
  · exact hs
  · have hget : (v.getImpl P (.lref f.traits.classType) s).2.faults = [] := by
      rw [getImpl_snd]
      exact canGet_faultless v _ hs
    rcases hr : v.getImpl P (.lref f.traits.classType) s with ⟨c | e | g, s'⟩ <;>
      rw [hr] at hget
    · rw [RegM.andThen, hr]
      exact hget
    · rw [RegM.andThen_of_ok hr]
      exact hget
    · rw [RegM.andThen_of_ok hr]
      exact hget

theorem sides_eq (f : FieldWrapper L τ) (hvalue : Denotes P τ s value tvalue)
    (hinstance : Denotes P τ s instance_ tinstance)
    (hlen : (f.sides P value instance_ s).2.types_.length < 2 ^ 32) :
    (f.sides P value instance_ s).1 = .ok (Ideal.sides τ f tvalue tinstance) := by
  have hpass := passes_lvalue (P := P) f instance_ s
  have hlvalue := lvalue_eq f hinstance
  rcases hl : f.lvalue P instance_ s with ⟨c | e | a, s₁⟩ <;> rw [hl] at hlvalue hpass
  · rw [FieldWrapper.sides, RegM.andThen, hl] at hlen
    cases hlvalue hlen
  · rw [FieldWrapper.sides, RegM.andThen_of_ok hl] at hlen ⊢
    rw [Ideal.sides, ← Except.ok.inj (hlvalue hlen)]
    rfl
  · rw [FieldWrapper.sides, RegM.andThen_of_ok hl] at hlen ⊢
    have hget := (hvalue.passes hpass).get_eq (U := .lref f.traits.type.addConst)
    have hpass' := passes_getImpl (P := P) value (.lref f.traits.type.addConst) s₁
    rcases hr : value.getImpl P (.lref f.traits.type.addConst) s₁ with ⟨c | e | g, s₂⟩ <;>
      rw [hr] at hget hpass'
    · dsimp only at hlen
      rw [RegM.andThen, hr] at hlen
      cases hget hlen
    · dsimp only at hlen ⊢
      rw [RegM.andThen_of_ok hr] at hlen ⊢
      rw [Ideal.sides, ← Except.ok.inj (hlvalue (Nat.lt_of_le_of_lt hpass'.length_le hlen)),
        ← Except.ok.inj (hget hlen)]
      rfl
    · dsimp only at hlen ⊢
      rw [RegM.andThen_of_ok hr] at hlen ⊢
      rw [Ideal.sides, ← Except.ok.inj (hlvalue (Nat.lt_of_le_of_lt hpass'.length_le hlen)),
        ← Except.ok.inj (hget hlen)]
      rfl

theorem Rel.setValue (h : Rel P τ st it) (f : FieldWrapper L τ)
    (hvalue : Denotes P τ st.world.reg value tvalue)
    (hinstance : Denotes P τ st.world.reg instance_ tinstance)
    (hlen : (f.setValue P value instance_ st.world).2.reg.types_.length < 2 ^ 32) :
    Agrees P τ ((f.setValue P value instance_ st.world).1.map .assigned,
        { st with world := (f.setValue P value instance_ st.world).2 })
      (it.setValue τ f tvalue tinstance) := by
  unfold FieldWrapper.setValue Ideal.setValue at *
  split
  · exact ⟨rfl, h⟩
  next hconst =>
    split
    · exact ⟨rfl, h⟩
    next hassign =>
      rw [if_neg hconst, if_neg hassign] at hlen
      have hpass := passes_sides (P := P) f instance_ value st.world.reg
      have hsides := sides_eq f hvalue hinstance
      rcases hr : f.sides P value instance_ st.world.reg with ⟨c | e | ⟨a, b⟩, s⟩ <;>
        rw [hr] at hlen hsides hpass
      · cases hsides hlen
      · rw [← Except.ok.inj (hsides hlen)]
        exact ⟨rfl, h.withReg hpass⟩
      · rw [← Except.ok.inj (hsides hlen)]
        refine ⟨rfl, ?_⟩
        dsimp only
        rw [h.read f.cells b]
        exact (h.withReg hpass).assign a (it.read f.cells b)

theorem Rel.createField (h : Rel P τ { st with world := w } it) {T : Ty L}
    (hT : Reflectable P T) {c : WrapperClass L × Binding} (hmake : makeWrapper τ T = some c)
    (data : Addr) (hfaults : w.reg.faults = [])
    (hlen : (createField P c T data w).2.reg.types_.length < 2 ^ 32) :
    Agrees P τ (st.keep .read (createField P c T data w))
      (.read (.ok ()), it.create τ T data) := by
  rw [createField_eq] at hlen ⊢
  obtain ⟨v, hv, hrel⟩ := h.createWith hT hmake data hfaults hlen
  rw [hv]
  exact .keep hrel

/-- The checks on the instance come out the same, and what is done after them is done in
a later registry. -/
theorem access_agrees (f : FieldWrapper L τ) {w : World L V}
    (hinstance : Denotes P τ w.reg instance_ tinstance)
    {k : Option Addr → WorldM L V (Except Crash (Except FieldGetError (Variant L)))}
    (hpass : ∀ a s, Passes s (k a { w with reg := s }).2.reg)
    (hlen : (f.access P instance_ k w).2.reg.types_.length < 2 ^ 32) :
    (∃ e s, f.access P instance_ k w = (.ok (.error e), { w with reg := s }) ∧
      Passes w.reg s ∧ Ideal.access τ f tinstance = .error e) ∨
    ∃ a s, f.access P instance_ k w = k a { w with reg := s } ∧ Passes w.reg s ∧
      (w.reg.faults = [] → s.faults = []) ∧ Ideal.access τ f tinstance = .ok a := by
  unfold FieldWrapper.access Ideal.access at *
  rw [hinstance.isVoid] at hlen ⊢
  split
  next hvoid =>
    exact .inl ⟨_, w.reg, rfl, .refl, rfl⟩
  next hvoid =>
    rw [if_neg hvoid] at hlen
    have hlvalue := lvalue_eq f hinstance
    have hpassl := passes_lvalue (P := P) f instance_ w.reg
    have hfaultsl := lvalue_faultless (P := P) (s := w.reg) f instance_
    rcases hr : f.lvalue P instance_ w.reg with ⟨c | e | a, s⟩ <;>
      rw [hr] at hlen hlvalue hpassl hfaultsl
    · cases hlvalue hlen
    · rw [← Except.ok.inj (hlvalue hlen)]
      exact .inl ⟨_, s, rfl, hpassl, rfl⟩
    · have hlen' := Nat.lt_of_le_of_lt (hpass a s).length_le hlen
      rw [← Except.ok.inj (hlvalue hlen')]
      exact .inr ⟨a, s, rfl, hpassl, hfaultsl, rfl⟩

theorem passes_createField (c : WrapperClass L × Binding) (T : Ty L) (data : Addr)
    (w : World L V) : Passes w.reg (createField P c T data w).2.reg := by
  rw [createField_eq, Variant.createWith_reg]
  exact passes_reflectID T w.reg

theorem getValue_agrees (f : FieldWrapper L τ) {w : World L V}
    (hinstance : Denotes P τ w.reg instance_ tinstance)
    (hlen : (f.getValue P instance_ w).2.reg.types_.length < 2 ^ 32) :
    (∃ e s, f.getValue P instance_ w = (.ok (.error e), { w with reg := s }) ∧
      Passes w.reg s ∧ Ideal.access τ f tinstance = .error e) ∨
    ∃ a s, f.getValue P instance_ w = createField P f.value (.obj f.traits.type) w.next
        (World.temporary { w with reg := s } f.cells a) ∧
      Passes w.reg s ∧ (w.reg.faults = [] → s.faults = []) ∧
        Ideal.access τ f tinstance = .ok a := by
  rw [FieldWrapper.getValue] at hlen ⊢
  refine access_agrees f hinstance (fun a s => ?_) hlen
  exact passes_createField f.value _ _ (World.temporary { w with reg := s } f.cells a)

theorem getRef_agrees (f : FieldWrapper L τ) {w : World L V}
    (hinstance : Denotes P τ w.reg instance_ tinstance)
    (hlen : (f.getRef P instance_ w).2.reg.types_.length < 2 ^ 32) :
    (∃ e s, f.getRef P instance_ w = (.ok (.error e), { w with reg := s }) ∧
      Passes w.reg s ∧ Ideal.access τ f tinstance = .error e) ∨
    ∃ a s, f.getRef P instance_ w =
        createField P f.ref f.traits.refType (w.place a) { w with reg := s } ∧
      Passes w.reg s ∧ (w.reg.faults = [] → s.faults = []) ∧
        Ideal.access τ f tinstance = .ok a := by
  rw [FieldWrapper.getRef] at hlen ⊢
  refine access_agrees f hinstance (fun a s => ?_) hlen
  exact passes_createField f.ref _ _ { w with reg := s }

theorem Rel.getValue (h : Rel P τ st it) (f : FieldWrapper L τ)
    (hT : Reflectable P (.obj f.traits.type))
    (hinstance : Denotes P τ st.world.reg instance_ tinstance)
    (hfaults : st.world.reg.faults = [])
    (hlen : (f.getValue P instance_ st.world).2.reg.types_.length < 2 ^ 32) :
    Agrees P τ (st.keep .read (f.getValue P instance_ st.world))
      (it.getValue τ f tinstance) := by
  rw [Ideal.getValue]
  rcases getValue_agrees f hinstance hlen with
    ⟨e, s, hget, hpass, haccess⟩ | ⟨a, s, hget, hpass, hs, haccess⟩ <;>
    rw [hget] at hlen <;> rw [hget, haccess]
  · exact ⟨rfl, h.withReg hpass⟩
  · have hrel : Rel P τ { st with world := { st.world with reg := s } } it := h.withReg hpass
    have hcopy : Rel P τ
        { st with world := World.temporary { st.world with reg := s } f.cells a }
        (it.temporary f.cells a) := hrel.temporary f.cells a
    rw [← h.next]
    exact hcopy.createField hT f.value_eq st.world.next (hs hfaults) hlen

theorem Rel.getRef (h : Rel P τ st it) (f : FieldWrapper L τ)
    (hT : Reflectable P f.traits.refType)
    (hinstance : Denotes P τ st.world.reg instance_ tinstance)
    (hfaults : st.world.reg.faults = [])
    (hlen : (f.getRef P instance_ st.world).2.reg.types_.length < 2 ^ 32) :
    Agrees P τ (st.keep .read (f.getRef P instance_ st.world)) (it.getRef τ f tinstance) := by
  rw [Ideal.getRef]
  rcases getRef_agrees f hinstance hlen with
    ⟨e, s, hget, hpass, haccess⟩ | ⟨a, s, hget, hpass, hs, haccess⟩ <;>
    rw [hget] at hlen <;> rw [hget, haccess]
  · exact ⟨rfl, h.withReg hpass⟩
  · have hrel : Rel P τ { st with world := { st.world with reg := s } } it := h.withReg hpass
    dsimp only
    rw [← h.place a]
    exact hrel.createField hT f.ref_eq (st.world.place a) (hs hfaults) hlen

end Fields

section Invoke

variable {st : Session L V} {it : Ideal L V} {w : World L V} {f : FunctionWrapper L V τ}
  {args : List (Variant L)} {obj : Variant L} {targs : List (Option (Typed L))}
  {tobj : Option (Typed L)}

/-- The function looks at objects only, not at what is registered. -/
structure Blind (f : FunctionWrapper L V τ) : Prop where
  mem : ∀ a as w s, (f.body a as { w with reg := s }).mem = (f.body a as w).mem
  next : ∀ a as w s, (f.body a as { w with reg := s }).next = (f.body a as w).next
  result : ∀ a as w s, (f.body a as { w with reg := s }).result = (f.body a as w).result

/-- What the function returns can be reflected, and what it reflects itself is reflected
without an allocation failing. -/
structure Calm (P : Program L) (f : FunctionWrapper L V τ) : Prop extends Blind f where
  returns : f.traits.hasReturn = true → Reflectable P f.traits.returnType
  faultless : ∀ a as w, ∀ r ∈ (f.body a as w).reflects, r.faults = []

theorem Rel.called (h : Rel P τ { st with world := w } it) (hf : Blind f) (c : Call) :
    Rel P τ { st with world := f.afterCall P c.obj c.args w } (it.called τ f c).2 ∧
      (f.body c.obj c.args w).result = (it.called τ f c).1 := by
  let w₀ : World L V := { reg := .init, mem := it.mem, next := it.next }
  have hw : w = { w₀ with reg := w.reg } := by
    rcases w with ⟨s, mem, next⟩
    obtain rfl : mem = it.mem := h.mem
    obtain rfl : next = it.next := h.next
    rfl
  have hmem : (f.body c.obj c.args w).mem = (f.body c.obj c.args w₀).mem := by
    rw [hw]
    exact hf.mem _ _ w₀ w.reg
  have hnext : (f.body c.obj c.args w).next = (f.body c.obj c.args w₀).next := by
    rw [hw]
    exact hf.next _ _ w₀ w.reg
  have hresult : (f.body c.obj c.args w).result = (f.body c.obj c.args w₀).result := by
    rw [hw]
    exact hf.result _ _ w₀ w.reg
  exact ⟨h.goOn (run_steps _ w.reg) hmem hnext rfl, hresult⟩

theorem completed_void (hr : f.traits.hasReturn = false) (c : Call) (w : World L V) :
    f.completed P c.obj c.args w =
      { result := .ok (.ok .void), world := f.afterCall P c.obj c.args w,
        calls := [{ ptr_ := f.ptr_, obj := c.obj, args := c.args }] } := by
  rw [FunctionWrapper.completed, FunctionWrapper.call, hr]
  rfl

theorem completed_return (hr : f.traits.hasReturn = true) (c : Call) (w : World L V) :
    f.completed P c.obj c.args w =
      let r := Variant.createWith P f.returns f.traits.returnType
        (f.body c.obj c.args w).result (f.afterCall P c.obj c.args w)
      { result := .ok (r.1.mapError .ofReflect), world := r.2,
        calls := [{ ptr_ := f.ptr_, obj := c.obj, args := c.args }] } := by
  rw [FunctionWrapper.completed, FunctionWrapper.call, hr, if_pos rfl]
  rcases Variant.createWith P f.returns f.traits.returnType
    (f.body c.obj c.args w).result (f.afterCall P c.obj c.args w) with ⟨e | v, w'⟩ <;> rfl

theorem Rel.call (h : Rel P τ { st with world := w } it) (hf : Calm P f)
    (hfaults : w.reg.faults = []) (c : Call)
    (hlen : (f.completed P c.obj c.args w).world.reg.types_.length < 2 ^ 32) :
    ∃ v, (f.completed P c.obj c.args w).result = .ok (.ok v) ∧
      Rel P τ { st with world := (f.completed P c.obj c.args w).world, held := st.held ++ [v] }
        (it.call τ f c) := by
  obtain ⟨hafter, hresult⟩ := h.called (P := P) hf.toBlind c
  have hafterFaults : (f.afterCall P c.obj c.args w).reg.faults = [] :=
    run_faultless (hf.faultless _ _ w) hfaults
  rw [it.call_eq]
  cases hr : f.traits.hasReturn with
  | false =>
    rw [completed_void hr]
    exact ⟨_, rfl, hafter.hold .void⟩
  | true =>
    rw [completed_return hr] at hlen ⊢
    rw [hresult] at hlen ⊢
    obtain ⟨v, hv, hrel⟩ := hafter.createWith (hf.returns hr) (f.returns_eq hr) _ hafterFaults hlen
    refine ⟨v, ?_, hrel⟩
    dsimp only
    rw [hv]
    rfl

theorem made_operands {s : Registry L} (hargs : List.Forall₂ (Denotes P τ s) args targs)
    (hobj : Denotes P τ s obj tobj) : ∀ v ∈ obj :: args, Made P τ s v := by
  intro v hv
  rcases List.mem_cons.mp hv with rfl | hv
  · exact hobj.made
  · have hboth := hargs.imp fun _ _ ht => And.intro ht.made ht
    exact ((List.forall₂_and_left _ _).mp hboth).1 v hv

/-- The call is refused as the ideal program refuses it, or it is made. -/
theorem invoke_agrees (f : FunctionWrapper L V τ)
    (hargs : List.Forall₂ (Denotes P τ w.reg) args targs) (hobj : Denotes P τ w.reg obj tobj)
    (hlen : (f.invoke P args obj w).world.reg.types_.length < 2 ^ 32) :
    (∃ e s, f.invoke P args obj w =
        { result := .ok (.error e), world := { w with reg := s }, calls := [] } ∧
      Passes w.reg s ∧ Ideal.refusal τ f targs tobj = some e) ∨
    f.invoke P args obj w = f.completed P (Ideal.callOn τ f targs tobj).obj
        (Ideal.callOn τ f targs tobj).args w ∧
      Ideal.refusal τ f targs tobj = none := by
  have hmade : ∀ v ∈ obj :: args, Made P τ w.reg v := made_operands hargs hobj
  have hlen₀ := Nat.lt_of_le_of_lt (passes_invoke (P := P) f args obj w).length_le hlen
  rw [← refusal_eq hargs hobj hlen₀ f]
  cases href : f.refusal w.reg args obj with
  | some e =>
    obtain ⟨hresult, hcalls⟩ := invoke_of_refusal (P := P) hmade .refl hlen href
    have hpass := passes_invoke (P := P) f args obj w
    rcases f.invoke_cases args obj P w with
      ⟨e', s, heq⟩ | ⟨c, s, _, _, heq⟩ | ⟨a, as, s, _, _, _, heq⟩
    · rw [heq] at hresult hpass
      cases hresult
      exact .inl ⟨e, s, heq, hpass, rfl⟩
    · rw [heq] at hresult
      cases hresult
    · rw [heq, f.completed_calls] at hcalls
      cases hcalls
  | none =>
    refine .inr ⟨?_, rfl⟩
    rw [invoke_of_accepts hmade .refl hlen₀ (refusal_eq_none.mp href), callOn_eq hargs hobj f]

theorem Rel.invoke (h : Rel P τ { st with world := w } it) (hf : Calm P f)
    (hfaults : w.reg.faults = [])
    (hargs : List.Forall₂ (Denotes P τ w.reg) args targs) (hobj : Denotes P τ w.reg obj tobj)
    (hlen : (f.invoke P args obj w).world.reg.types_.length < 2 ^ 32) :
    Agrees P τ (st.keep (.invoked · (f.invoke P args obj w).calls)
        ((f.invoke P args obj w).result, (f.invoke P args obj w).world))
      (it.invoke τ f targs tobj) := by
  rw [Ideal.invoke]
  rcases invoke_agrees f hargs hobj hlen with ⟨e, s, hinvoke, hpass, href⟩ | ⟨hinvoke, href⟩ <;>
    rw [hinvoke] at hlen <;> rw [hinvoke, href]
  · exact ⟨rfl, h.goOn hpass h.mem h.next rfl⟩
  · obtain ⟨v, hv, hrel⟩ := h.call hf hfaults (Ideal.callOn τ f targs tobj) hlen
    rw [hv, f.completed_calls]
    exact .keep hrel

/-- Both choose the same overload, or none. -/
theorem invokeFirst_agrees {tried : FunctionWrapper L V τ → Bool}
    {skip : FunctionWrapper L V τ → RegM L (Except Crash Bool)}
    {funcs_ : List (FunctionWrapper L V τ)}
    (hskip : ∀ f s, skip f s = if tried f then skipUnfit P args f s else (.ok false, s))
    (hin : ∀ f ∈ funcs_, tried f = true → f.traits.argCount ≤ args.length)
    (hargs : List.Forall₂ (Denotes P τ w.reg) args targs)
    (hlen : (invokeFirst P skip obj args funcs_ w).world.reg.types_.length < 2 ^ 32) :
    ∃ s, Passes w.reg s ∧ (w.reg.faults = [] → s.faults = []) ∧
      match funcs_.find? fun f => !tried f || Ideal.fits τ f targs with
      | none => invokeFirst P skip obj args funcs_ w =
          { result := .ok (.error { type := .noCompatibleFunctionFound }),
            world := { w with reg := s }, calls := [] }
      | some f => f ∈ funcs_ ∧
          invokeFirst P skip obj args funcs_ w = f.invoke P args obj { w with reg := s } := by
  have hpassAll : Passes w.reg (ReflCpp.invokeFirst P skip obj args funcs_ w).world.reg :=
    passes_invokeFirst (passes_skip hskip) funcs_ w
  have hlen₀ := Nat.lt_of_le_of_lt hpassAll.length_le hlen
  have hmade : ∀ v ∈ args, Made P τ w.reg v := by
    have hboth := hargs.imp fun _ _ ht => And.intro ht.made ht
    exact ((List.forall₂_and_left _ _).mp hboth).1
  have hstops : stops args tried w.reg = fun f => !tried f || Ideal.fits τ f targs :=
    funext fun f => congrArg (!tried f || ·) (fits_eq hargs hlen₀ f)
  have heq := invokeFirst_eq hskip hmade .refl hlen
  rw [← hstops, heq]
  refine ⟨_, passes_asked (P := P) args
    (funcs_.takeWhile fun g => !stops args tried w.reg g) w.reg, asked_faultless args _, ?_⟩
  cases hfind : funcs_.find? (stops args tried w.reg) with
  | none => rfl
  | some f =>
    have hf := List.mem_of_find?_eq_some hfind
    have hwithin : ¬ (tried f = true ∧ args.length < f.traits.argCount) :=
      fun hbeyond => Nat.not_le.mpr hbeyond.2 (hin f hf hbeyond.1)
    exact ⟨hf, if_neg hwithin⟩

theorem Rel.invokeFirst (h : Rel P τ st it) {tried : FunctionWrapper L V τ → Bool}
    {skip : FunctionWrapper L V τ → RegM L (Except Crash Bool)}
    {funcs_ : List (FunctionWrapper L V τ)}
    (hskip : ∀ f s, skip f s = if tried f then skipUnfit P args f s else (.ok false, s))
    (hcalm : ∀ f ∈ funcs_, Calm P f)
    (hin : ∀ f ∈ funcs_, tried f = true → f.traits.argCount ≤ args.length)
    (hfaults : st.world.reg.faults = [])
    (hargs : List.Forall₂ (Denotes P τ st.world.reg) args targs)
    (hobj : Denotes P τ st.world.reg obj tobj)
    (hlen : (invokeFirst P skip obj args funcs_ st.world).world.reg.types_.length < 2 ^ 32) :
    Agrees P τ (st.keep (.invoked · (invokeFirst P skip obj args funcs_ st.world).calls)
        ((invokeFirst P skip obj args funcs_ st.world).result,
          (invokeFirst P skip obj args funcs_ st.world).world))
      (it.invokeFirst τ targs tobj tried funcs_) := by
  obtain ⟨s, hpass, hs, hfirst⟩ := invokeFirst_agrees hskip hin hargs hlen
  rw [Ideal.invokeFirst]
  cases hfind : funcs_.find? fun f => !tried f || Ideal.fits τ f targs with
  | none =>
    rw [hfind] at hfirst
    rw [hfirst]
    exact ⟨rfl, h.withReg hpass⟩
  | some f =>
    rw [hfind] at hfirst
    obtain ⟨hf, hinvoke⟩ := hfirst
    rw [hinvoke] at hlen ⊢
    exact (h.withReg hpass).invoke (hcalm f hf) (hs hfaults)
      (hargs.imp fun _ _ hv => hv.passes hpass) (hobj.passes hpass) hlen

end Invoke

section Step

/-- No value and no result of the program has a type that cannot be reflected. -/
structure AllReflectable (P : Program L) (fields : Nat → FieldWrapper L τ)
    (funcs : Nat → FunctionWrapper L V τ) : Prop where
  value : ∀ i, Reflectable P (.obj (fields i).traits.type)
  ref : ∀ i, Reflectable P (fields i).traits.refType
  calm : ∀ i, Calm P (funcs i)

def Action.Reflects (P : Program L) : Action L V → Prop
  | .create T _ => Reflectable P T
  | _ => True

/-- A use of the library in which no allocation fails; a lookup may fail as it likes. -/
structure Op.Served (P : Program L) (funcs : Nat → FunctionWrapper L V τ) (op : Op L V) :
    Prop where
  inBounds : op.InBounds funcs
  faults : ∀ a, op.action = some a → op.faults = []
  reflects : ∀ a, op.action = some a → a.Reflects P

variable {fields : Nat → FieldWrapper L τ} {funcs : Nat → FunctionWrapper L V τ}
  {st : Session L V} {it : Ideal L V}

/-- The action returns a variant. -/
def Action.makes : Action L V → Bool
  | .canGet _ _ | .get _ _ | .setValue _ _ _ | .assign _ _ => false
  | _ => true

/-- What makes no variant comes out the same whatever the registry cannot allocate: a request
for a type that cannot be registered is one that is refused anyway. -/
theorem Rel.ask (h : Rel P τ st it) {a : Action L V} (ha : a.makes = false)
    (hlen : (st.use P τ fields funcs a).2.world.reg.types_.length < 2 ^ 32) :
    Agrees P τ (st.use P τ fields funcs a) (it.exec τ fields funcs a) := by
  cases a with
  | canGet v U =>
    refine ⟨?_, h.withReg ((st.variant v).passes_canGet U st.world.reg)⟩
    rw [Session.use, (h.variant v).canGet_eq hlen]
    rfl
  | get v U =>
    refine ⟨?_, h.withReg (passes_getImpl (st.variant v) U st.world.reg)⟩
    have hget := (h.variant v).get_eq (U := U) hlen
    rw [Session.use]
    rcases hr : ((st.variant v).getImpl P U st.world.reg).1 with c | r <;> rw [hr] at hget
    · cases hget
    · rw [Ideal.exec, ← Except.ok.inj hget]
      rfl
  | setValue f value instance_ =>
    exact h.setValue (f.wrapper fields) (h.variant value) (h.variant instance_) hlen
  | assign data xs => exact ⟨rfl, h.assign (some data) xs⟩
  | create | getValue | getRef | invoke | invokeMethod | invokeMethodOn => cases ha

theorem Rel.use (h : Rel P τ st it) (hall : AllReflectable P fields funcs) {a : Action L V}
    (hin : a.InBounds funcs) (hreflects : a.Reflects P) (hfaults : st.world.reg.faults = [])
    (hlen : (st.use P τ fields funcs a).2.world.reg.types_.length < 2 ^ 32) :
    Agrees P τ (st.use P τ fields funcs a) (it.exec τ fields funcs a) := by
  have hfunctions : ∀ m : Method, ∀ f ∈ m.functions funcs, Calm P f := by
    intro m f hf
    obtain ⟨i, _, rfl⟩ := List.mem_map.mp hf
    exact hall.calm i
  cases a with
  | create T data =>
    rw [Session.use, Variant.create] at hlen ⊢
    rw [Ideal.exec]
    cases hmake : makeWrapper τ T with
    | none => exact ⟨rfl, h⟩
    | some c =>
      rw [hmake, Option.map_some] at hlen
      dsimp only at hlen
      rw [keep_world] at hlen
      obtain ⟨v, hv, hrel⟩ := h.createWith hreflects hmake data hfaults hlen
      rw [Option.map_some]
      dsimp only
      rw [hv]
      exact .keep hrel
  | canGet v U => exact h.ask rfl hlen
  | get v U => exact h.ask rfl hlen
  | setValue f value instance_ => exact h.ask rfl hlen
  | getValue f instance_ =>
    rw [Session.use, keep_world] at hlen
    exact h.getValue (f.wrapper fields) (hall.value _) (h.variant instance_) hfaults hlen
  | getRef f instance_ =>
    rw [Session.use, keep_world] at hlen
    exact h.getRef (f.wrapper fields) (hall.ref _) (h.variant instance_) hfaults hlen
  | invoke func args obj =>
    rw [Session.use, keep_world] at hlen
    exact Rel.invoke h (hall.calm func) hfaults (h.variants args) (h.variant obj) hlen
  | invokeMethod m args =>
    rw [Session.use, keep_world] at hlen
    refine h.invokeFirst skipMemberUnfit_eq (hfunctions m) ?_ hfaults (h.variants args) .void
      hlen
    intro f hf hstatic
    rw [Session.variants, List.length_map]
    exact hin f hf (by simpa using hstatic)
  | invokeMethodOn m obj args =>
    rw [Session.use, keep_world] at hlen
    refine h.invokeFirst (skipUnfit_all _) (hfunctions m) ?_ hfaults (h.variants args)
      (h.variant obj) hlen
    intro f hf _
    rw [Session.variants, List.length_map]
    exact hin f hf
  | assign data x => exact h.ask rfl hlen

end Step

end ReflCpp
