import ReflCpp.FieldLaws
import ReflCpp.InvokeLaws
import ReflCpp.Metadata
import ReflCpp.Session
import ReflCpp.Simulation

namespace ReflCpp

open Cpp Simulation

variable {L V : Type} [DecidableEq L] {P : Program L} {τ : Traits L}

section Returned

variable {ε : Type} {s s' s'' : Registry L} {w : World L V} {v : Variant L}

theorem Made.passes (h : Made P τ s v) (hpass : Passes s s') : Made P τ s' v :=
  h.imp_right fun ⟨T, hT⟩ => ⟨T, hT.passes hpass⟩

/-- How a call leaves the registry: only additions, and the variant that it returns, if it
returns one, has been made. -/
structure Returned (P : Program L) (τ : Traits L) (s : Registry L)
    (r : Except Crash (Except ε (Variant L))) (s' : Registry L) : Prop where
  passes : Passes s s'
  made : ∀ v, r = .ok (.ok v) → Made P τ s' v

theorem Returned.after {r : Except Crash (Except ε (Variant L))} (hpass : Passes s s')
    (h : Returned P τ s' r s'') : Returned P τ s r s'' := ⟨hpass.trans h.passes, h.made⟩

theorem Returned.error (hpass : Passes s s') (e : ε) :
    Returned P τ s (.ok (.error e)) s' := by
  refine ⟨hpass, fun v hv => ?_⟩
  cases hv

theorem Returned.crash (hpass : Passes s s') (c : Crash) :
    Returned (ε := ε) P τ s (.error c) s' := by
  refine ⟨hpass, fun v hv => ?_⟩
  cases hv

theorem returned_createWith {c : WrapperClass L × Binding} {T : Ty L}
    (hmake : makeWrapper τ T = some c) (hs : Passes .init w.reg) (data : Addr) :
    Returned P τ w.reg (.ok (Variant.createWith P c T data w).1)
      (Variant.createWith P c T data w).2.reg := by
  refine ⟨?_, ?_⟩
  · rw [Variant.createWith_reg]
    exact passes_reflectID T w.reg
  · intro v hv
    have hcreate : Variant.create P τ T data w =
        some (.ok v, (Variant.createWith P c T data w).2) := by
      rw [Variant.create, hmake]
      exact congrArg some (Prod.ext (Except.ok.inj hv) rfl)
    exact .inr ⟨T, V, data, w, _, hs, hcreate, .refl⟩

theorem createField_eq (c : WrapperClass L × Binding) (T : Ty L) (data : Addr) (w : World L V) :
    createField P c T data w =
      (.ok ((Variant.createWith P c T data w).1.mapError .ofReflect),
        (Variant.createWith P c T data w).2) := by
  unfold createField
  rcases Variant.createWith P c T data w with ⟨e | v, w'⟩ <;> rfl

theorem returned_createField {c : WrapperClass L × Binding} {T : Ty L}
    (hmake : makeWrapper τ T = some c) (hs : Passes .init w.reg) (data : Addr) :
    Returned P τ w.reg (createField P c T data w).1 (createField P c T data w).2.reg := by
  have hcreate := returned_createWith (P := P) hmake hs data
  rw [createField_eq]
  refine ⟨hcreate.passes, fun v hv => hcreate.made v ?_⟩
  rcases hr : (Variant.createWith P c T data w).1 with e | u <;> rw [hr] at hv <;> cases hv
  rfl

end Returned

section Fields

variable (f : FieldWrapper L τ) (instance_ value : Variant L) {w : World L V}

theorem passes_lvalue (s : Registry L) : Passes s (f.lvalue P instance_ s).2 := by
  unfold FieldWrapper.lvalue
  split
  · exact .refl
  · apply passes_andThen (passes_getImpl _ _)
    rintro (e | g) s <;> exact .refl

theorem passes_sides (s : Registry L) : Passes s (f.sides P value instance_ s).2 := by
  apply passes_andThen (passes_lvalue f instance_)
  rintro (e | a) s
  · exact .refl
  · apply passes_andThen (passes_getImpl _ _)
    rintro (e | g) s <;> exact .refl

theorem passes_setValue (w : World L V) :
    Passes w.reg (f.setValue P value instance_ w).2.reg := by
  have hpass := passes_sides (P := P) f instance_ value w.reg
  unfold FieldWrapper.setValue
  split
  · exact .refl
  · split
    · exact .refl
    · split <;> next h => rw [h] at hpass; exact hpass

theorem returned_access
    {k : Option Addr → WorldM L V (Except Crash (Except FieldGetError (Variant L)))}
    (hk : ∀ a s, Passes w.reg s →
      Returned P τ s (k a { w with reg := s }).1 (k a { w with reg := s }).2.reg) :
    Returned P τ w.reg (f.access P instance_ k w).1 (f.access P instance_ k w).2.reg := by
  have hpass := passes_lvalue (P := P) f instance_ w.reg
  unfold FieldWrapper.access
  split
  · exact .error .refl _
  · split
    next c _ h =>
      rw [h] at hpass
      exact .crash hpass c
    next h =>
      rw [h] at hpass
      exact .error hpass _
    next h =>
      rw [h] at hpass
      exact .after hpass (hk _ _ hpass)

theorem access_ok
    {k : Option Addr → WorldM L V (Except Crash (Except FieldGetError (Variant L)))}
    (hk : ∀ a w, ∃ r, (k a w).1 = .ok r) (w : World L V) :
    ∃ r, (f.access P instance_ k w).1 = .ok r := by
  rcases f.access_cases (P := P) instance_ w with ⟨e, s, h, _⟩ | h <;> rw [h]
  · exact ⟨_, rfl⟩
  · exact hk _ _

theorem returned_getValue (hs : Passes .init w.reg) :
    Returned P τ w.reg (f.getValue P instance_ w).1 (f.getValue P instance_ w).2.reg :=
  returned_access f instance_ fun a s hpass =>
    returned_createField (w := { w with reg := s }.temporary f.cells a) f.value_eq
      (hs.trans hpass) _

theorem returned_getRef (hs : Passes .init w.reg) :
    Returned P τ w.reg (f.getRef P instance_ w).1 (f.getRef P instance_ w).2.reg :=
  returned_access f instance_ fun _ s hpass =>
    returned_createField (w := { w with reg := s }) f.ref_eq (hs.trans hpass) _

end Fields

section Invoke

variable {s : Registry L} {args : List (Variant L)} {obj : Variant L}
  {f : FunctionWrapper L V τ} {w : World L V}

theorem Returns.made (h : Returns P f s v) : Made P τ s v := by
  unfold Returns at h
  split at h
  · exact .inr ⟨_, h⟩
  · exact .inl h

theorem returned_invoke (hs : Passes .init w.reg) (f : FunctionWrapper L V τ)
    (args : List (Variant L)) (obj : Variant L) :
    Returned P τ w.reg (f.invoke P args obj w).result (f.invoke P args obj w).world.reg := by
  have hpass := passes_invoke (P := P) f args obj w
  refine ⟨hpass, ?_⟩
  intro v hv
  rcases f.invoke_cases args obj P w with
    ⟨e, s, h⟩ | ⟨c, s, _, _, h⟩ | ⟨a, as, s, hops, _, _, h⟩ <;> rw [h] at hv ⊢
  · cases hv
  · cases hv
  · have hpassOps := passes_operands (P := P) f args obj f.receiver w.reg
    rw [hops] at hpassOps
    exact (completed_returns (w := { w with reg := s }) (hs.trans hpassOps) hv).made

/-- An invocation with variants that have been made ends with a result or an error. -/
theorem invoke_ok (hargs : ∀ v ∈ obj :: args, Made P τ s v) (hpass : Passes s w.reg)
    (hlen : (f.invoke P args obj w).world.reg.types_.length < 2 ^ 32) :
    ∃ r, (f.invoke P args obj w).result = .ok r := by
  cases h : f.refusal s args obj with
  | some e => exact ⟨_, (invoke_of_refusal hargs hpass hlen h).1⟩
  | none =>
    have hlen₀ := Nat.lt_of_le_of_lt (passes_invoke (P := P) f args obj w).length_le hlen
    rw [invoke_of_accepts hargs hpass hlen₀ (refusal_eq_none.mp h)]
    exact f.completed_ok _ _ w P

theorem returned_invokeFirst {skip : FunctionWrapper L V τ → RegM L (Except Crash Bool)}
    (hskip : ∀ f s, Passes s (skip f s).2) (funcs_ : List (FunctionWrapper L V τ))
    (w : World L V) (hs : Passes .init w.reg) :
    Returned P τ w.reg (invokeFirst P skip obj args funcs_ w).result
      (invokeFirst P skip obj args funcs_ w).world.reg := by
  induction funcs_ generalizing w with
  | nil => exact .error .refl _
  | cons f funcs_ ih =>
    have hpass := hskip f w.reg
    rw [invokeFirst]
    rcases hf : skip f w.reg with ⟨c | _ | _, s'⟩ <;> rw [hf] at hpass
    · exact .crash hpass c
    · exact .after hpass (returned_invoke (w := { w with reg := s' }) (hs.trans hpass) f args obj)
    · exact .after hpass (ih { w with reg := s' } (hs.trans hpass))

/-- The loop over the overloads can only crash by asking one about more arguments than
there are. -/
theorem invokeFirst_ok {tried : FunctionWrapper L V τ → Bool}
    {skip : FunctionWrapper L V τ → RegM L (Except Crash Bool)}
    {funcs_ : List (FunctionWrapper L V τ)}
    (hskip : ∀ f s, skip f s = if tried f then skipUnfit P args f s else (.ok false, s))
    (hargs : ∀ v ∈ obj :: args, Made P τ w.reg v)
    (hlen : (invokeFirst P skip obj args funcs_ w).world.reg.types_.length < 2 ^ 32)
    {c : Crash} (hc : (invokeFirst P skip obj args funcs_ w).result = .error c) :
    c = .outOfBounds ∧ ∃ f ∈ funcs_, tried f = true ∧ args.length < f.traits.argCount := by
  have hargs' : ∀ v ∈ args, Made P τ w.reg v := fun v hv => hargs v (List.mem_cons_of_mem _ hv)
  have hpass := passes_asked (P := P) args
    (funcs_.takeWhile fun g => !stops args tried w.reg g) w.reg
  have heq := invokeFirst_eq hskip hargs' .refl hlen
  rw [heq] at hlen hc
  cases hfind : funcs_.find? (stops args tried w.reg) with
  | none =>
    rw [hfind] at hc
    cases hc
  | some f =>
    rw [hfind] at hlen hc
    dsimp only at hlen hc
    by_cases hbeyond : tried f = true ∧ args.length < f.traits.argCount
    · rw [if_pos hbeyond] at hc
      cases hc
      exact ⟨rfl, f, List.mem_of_find?_eq_some hfind, hbeyond⟩
    · rw [if_neg hbeyond] at hlen hc
      obtain ⟨r, hr⟩ := invoke_ok hargs hpass hlen
      rw [hr] at hc
      cases hc

theorem skipMemberUnfit_eq (f : FunctionWrapper L V τ) (s : Registry L) :
    skipMemberUnfit P args f s =
      if !f.traits.isStatic then skipUnfit P args f s else (.ok false, s) := by
  rw [skipMemberUnfit]
  cases f.traits.isStatic <;> rfl

/-- The loop of `Invoke(obj, args)` asks every overload. -/
theorem skipUnfit_all (args : List (Variant L)) (f : FunctionWrapper L V τ) (s : Registry L) :
    skipUnfit P args f s =
      if (fun _ => true : FunctionWrapper L V τ → Bool) f then skipUnfit P args f s
      else (.ok false, s) := rfl

theorem returned_invokeMethod (hs : Passes .init w.reg) (heap : Nat → FunctionWrapper L V τ)
    (m : Method) (args : List (Variant L)) :
    Returned P τ w.reg (m.invoke P heap args w).result (m.invoke P heap args w).world.reg :=
  returned_invokeFirst (passes_skip skipMemberUnfit_eq) (m.functions heap) w hs

theorem returned_invokeMethodOn (hs : Passes .init w.reg)
    (heap : Nat → FunctionWrapper L V τ) (m : Method) (args : List (Variant L))
    (obj : Variant L) :
    Returned P τ w.reg (m.invokeObj P heap args obj w).result
      (m.invokeObj P heap args obj w).world.reg :=
  returned_invokeFirst (passes_skip (skipUnfit_all args)) (m.functions heap) w hs

end Invoke

section Lookup

variable {s s' : Statics L} {t : FunctionType L} {ids : List TypeID}

/-- `GetArgs` never gives more ids than there are parameters. -/
theorem Begun.length_le (h : Begun P s) (hok : ReflCpp.getArgs P t s = (.ok ids, s')) :
    ids.length ≤ t.args.length := by
  obtain ⟨Ts, hTs, hissued⟩ := h.lists hok
  rw [← hissued.length_eq]
  exact hTs.length_le

theorem begun_methodGetArgs {st : MethodStatics L} (h : Begun P st.toStatics)
    (w : MethodFuncWrapper L) : Begun P (w.getArgs P st).2.toStatics := by
  have hafter := h.getArgs w.type
  rcases w.getArgs_cases (P := P) st with
    ⟨_, h'⟩ | ⟨_, e, s, hs, h'⟩ | ⟨_, types, s, hs, _, h'⟩ | ⟨_, types, s, infos, hs, _, _, _, h'⟩
  · rw [h']
    exact h
  all_goals
    rw [hs] at hafter
    rw [h']
    exact hafter

theorem methodGetArgs_crash {st : MethodStatics L} (h : Begun P st.toStatics)
    {w : MethodFuncWrapper L} {c : Crash} (hc : (w.getArgs P st).1 = .error c) :
    c = .outOfBounds ∧ w.args_.length < w.type.args.length := by
  rcases w.getArgs_cases (P := P) st with
    ⟨_, h'⟩ | ⟨_, e, s, _, h'⟩ | ⟨_, types, s, hs, hlt, h'⟩ |
    ⟨_, types, s, infos, _, _, _, _, h'⟩ <;>
    rw [h'] at hc <;> cases hc
  exact ⟨rfl, Nat.lt_of_lt_of_le hlt (h.length_le hs)⟩

end Lookup

section Sound

/-- What the library relies on between two steps of a session. -/
structure Sound (P : Program L) (τ : Traits L) (st : Session L V) : Prop where
  begun : Begun P st.statics.toStatics
  made : ∀ v ∈ st.held, Made P τ st.world.reg v

variable {st : Session L V}

theorem sound_start (mem : Addr → V) (next : Addr) : Sound P τ (.start mem next) :=
  ⟨begun_init, by simp [Session.start]⟩

theorem Sound.passes (h : Sound P τ st) : Passes .init st.world.reg := h.begun.passes

theorem Sound.variant (h : Sound P τ st) (v : Nat) : Made P τ st.world.reg (st.variant v) := by
  unfold Session.variant
  cases hv : st.held[v]? with
  | none => exact .inl rfl
  | some u => exact h.made u (List.mem_of_getElem? hv)

theorem Sound.variants (h : Sound P τ st) (vs : List Nat) :
    ∀ v ∈ st.variants vs, Made P τ st.world.reg v := by
  intro v hv
  obtain ⟨j, _, rfl⟩ := List.mem_map.mp hv
  exact h.variant j

theorem Sound.operands (h : Sound P τ st) (obj : Nat) (args : List Nat) :
    ∀ v ∈ st.variant obj :: st.variants args, Made P τ st.world.reg v := by
  intro v hv
  rcases List.mem_cons.mp hv with rfl | hv
  · exact h.variant obj
  · exact h.variants args v hv

/-- A session that goes on with a later world. -/
theorem Sound.world (h : Sound P τ st) {w : World L V} (hpass : Passes st.world.reg w.reg) :
    Sound P τ { st with world := w } :=
  ⟨h.begun.keeps hpass rfl, fun v hv => (h.made v hv).passes hpass⟩

theorem Sound.withReg (h : Sound P τ st) {s : Registry L} (hpass : Passes st.world.reg s) :
    Sound P τ (st.withReg s) := h.world hpass

theorem Sound.withStatics (h : Sound P τ st) {s : MethodStatics L}
    (hpass : Passes st.world.reg s.reg) (hbegun : Begun P s.toStatics) :
    Sound P τ (st.withStatics s) :=
  ⟨hbegun, fun v hv => (h.made v hv).passes hpass⟩

omit [DecidableEq L] in
theorem keep_world {ε : Type} (reply : Except ε Unit → Reply)
    (r : Except Crash (Except ε (Variant L))) (w : World L V) :
    (st.keep reply (r, w)).2.world = w := by
  rcases r with c | e | v <;> rfl

theorem Sound.keep {ε : Type} (h : Sound P τ st) (reply : Except ε Unit → Reply)
    {r : Except Crash (Except ε (Variant L))} {w : World L V}
    (hr : Returned P τ st.world.reg r w.reg) : Sound P τ (st.keep reply (r, w)).2 := by
  have hworld := h.world hr.passes
  rcases r with c | e | v
  · exact hworld
  · exact hworld
  · refine ⟨hworld.begun, fun u hu => ?_⟩
    rcases List.mem_append.mp hu with hu | hu
    · exact hworld.made u hu
    · rw [List.mem_singleton.mp hu]
      exact hr.made v rfl

end Sound

section Step

/-- Where a step of a session leads. -/
structure Leads (P : Program L) (τ : Traits L) (st st' : Session L V) : Prop where
  passes : Passes st.world.reg st'.world.reg
  sound : Sound P τ st'

variable {st : Session L V}

theorem Sound.leads_world (h : Sound P τ st) {w : World L V}
    (hpass : Passes st.world.reg w.reg) : Leads P τ st { st with world := w } :=
  ⟨hpass, h.world hpass⟩

theorem Sound.leads_keep {ε : Type} (h : Sound P τ st) (reply : Except ε Unit → Reply)
    {r : Except Crash (Except ε (Variant L))} {w : World L V}
    (hr : Returned P τ st.world.reg r w.reg) : Leads P τ st (st.keep reply (r, w)).2 :=
  ⟨by rw [keep_world]; exact hr.passes, h.keep reply hr⟩

theorem Leads.after {st' st'' : Session L V} (hpass : Passes st.world.reg st'.world.reg)
    (h : Leads P τ st' st'') : Leads P τ st st'' := ⟨hpass.trans h.passes, h.sound⟩

theorem look_leads (h : Sound P τ st) (l : Lookup L) : Leads P τ st (st.look P l).2 := by
  cases l with
  | reflectID T => exact h.leads_world (w := { st.world with reg := _ }) (passes_reflectID T _)
  | reflect T =>
    refine h.leads_world (w := { st.world with reg := _ }) ?_
    rw [reflect_snd]
    exact passes_reflectID T _
  | getType id => exact ⟨.refl, h⟩
  | getArgTypes t =>
    have hpass := getArgs_passes (P := P) t st.statics.toStatics
    exact ⟨hpass, h.withStatics hpass (h.begun.getArgs t)⟩
  | getArgs w =>
    have hbegun := begun_methodGetArgs h.begun w
    have hpass : Passes st.world.reg (w.getArgs P st.statics).2.reg := by
      have hpass := getArgs_passes (P := P) w.type st.statics.toStatics
      rcases w.getArgs_cases (P := P) st.statics with
        ⟨_, h'⟩ | ⟨_, e, s, hs, h'⟩ | ⟨_, types, s, hs, _, h'⟩ |
        ⟨_, types, s, infos, hs, _, _, _, h'⟩
      · rw [h']
        exact .refl
      all_goals
        rw [hs] at hpass
        rw [h']
        exact hpass
    exact ⟨hpass, h.withStatics hpass hbegun⟩

variable (fields : Nat → FieldWrapper L τ) (funcs : Nat → FunctionWrapper L V τ)

theorem use_leads (h : Sound P τ st) (a : Action L V) :
    Leads P τ st (st.use P τ fields funcs a).2 := by
  cases a with
  | create T data =>
    rw [Session.use, Variant.create]
    cases hmake : makeWrapper τ T with
    | none => exact ⟨.refl, h⟩
    | some c => exact h.leads_keep .created (returned_createWith hmake h.passes data)
  | canGet v U =>
    exact h.leads_world (w := { st.world with reg := _ }) ((st.variant v).passes_canGet U _)
  | get v U =>
    exact h.leads_world (w := { st.world with reg := _ }) (passes_getImpl (st.variant v) U _)
  | setValue f value instance_ =>
    exact h.leads_world (passes_setValue (f.wrapper fields) _ _ st.world)
  | getValue f instance_ =>
    exact h.leads_keep .read (returned_getValue (f.wrapper fields) _ h.passes)
  | getRef f instance_ =>
    exact h.leads_keep .read (returned_getRef (f.wrapper fields) _ h.passes)
  | invoke func args obj => exact h.leads_keep _ (returned_invoke h.passes _ _ _)
  | invokeMethod m args => exact h.leads_keep _ (returned_invokeMethod h.passes funcs m _)
  | invokeMethodOn m obj args =>
    exact h.leads_keep _ (returned_invokeMethodOn h.passes funcs m _ _)
  | assign data xs => exact h.leads_world .refl

theorem exec_leads (h : Sound P τ st) (op : Op L V) :
    Leads P τ st (st.exec P τ fields funcs op).2 := by
  have harmed : ∀ faults, Passes st.world.reg (st.armed faults).world.reg :=
    fun faults => .single (.faults _ faults)
  cases op with
  | look l faults => exact (look_leads (h.withReg (harmed faults)) l).after (harmed faults)
  | use a faults =>
    exact (use_leads fields funcs (h.withReg (harmed faults)) a).after (harmed faults)

end Step

section Crash

/-- The accesses that the library does not check are in bounds: a method has a name for
each of its parameters, and no overload that is asked takes more arguments than there
are. -/
def Lookup.InBounds : Lookup L → Prop
  | .getArgs w => w.type.args.length ≤ w.args_.length
  | _ => True

def Action.InBounds (funcs : Nat → FunctionWrapper L V τ) : Action L V → Prop
  | .invokeMethod m args => ∀ f ∈ m.functions funcs,
    f.traits.isStatic = false → f.traits.argCount ≤ args.length
  | .invokeMethodOn m _ args => ∀ f ∈ m.functions funcs, f.traits.argCount ≤ args.length
  | _ => True

def Op.InBounds (funcs : Nat → FunctionWrapper L V τ) : Op L V → Prop
  | .look l _ => l.InBounds
  | .use a _ => a.InBounds funcs

variable {st : Session L V} {fields : Nat → FieldWrapper L τ}
  {funcs : Nat → FunctionWrapper L V τ} {c : Crash}

theorem look_crash (h : Sound P τ st) {l : Lookup L}
    (hlen : (st.look P l).2.world.reg.types_.length < 2 ^ 32)
    (hc : (st.look P l).1 = .error c) : c = .outOfBounds ∧ ¬ l.InBounds := by
  cases l with
  | reflectID T => cases hc
  | reflect T =>
    obtain ⟨r, hr⟩ := reflect_ok (P := P) (T := T) h.passes hlen
    rw [Session.look, hr] at hc
    cases hc
  | getType id =>
    obtain ⟨r, hr, _⟩ :=
      getType_inBounds (Steps.entryIds h.passes (by simp [EntryIds, Registry.init])) id
    rw [Session.look, hr] at hc
    cases hc
  | getArgTypes t => cases hc
  | getArgs w =>
    rcases hr : (w.getArgs P st.statics).1 with c' | r <;> rw [Session.look, hr] at hc <;>
      cases hc
    obtain ⟨rfl, hlt⟩ := methodGetArgs_crash h.begun hr
    exact ⟨rfl, Nat.not_le.mpr hlt⟩

omit [DecidableEq L] in
theorem keep_crash {ε : Type} {reply : Except ε Unit → Reply}
    {r : Except Crash (Except ε (Variant L))} {w : World L V}
    (hc : (st.keep reply (r, w)).1 = .error c) : r = .error c := by
  rcases r with c' | e | v <;> cases hc
  rfl

theorem use_crash (h : Sound P τ st) {a : Action L V}
    (hlen : (st.use P τ fields funcs a).2.world.reg.types_.length < 2 ^ 32)
    (hc : (st.use P τ fields funcs a).1 = .error c) : c = .outOfBounds ∧ ¬ a.InBounds funcs := by
  cases a with
  | create T data =>
    rw [Session.use] at hc
    split at hc
    · cases hc
    · cases keep_crash hc
  | canGet v U => cases hc
  | get v U =>
    rw [Session.use] at hc
    rcases (st.variant v).getImpl_cases (P := P) U st.world.reg with
      ⟨s, _, himpl⟩ | ⟨D, s, _, _, himpl⟩ <;> rw [himpl] at hc <;> cases hc
  | setValue f value instance_ =>
    have hcases := (f.wrapper fields).setValue_cases (P := P) (st.variant value)
      (st.variant instance_) st.world
    rw [Session.use, Field.setValue] at hc
    rcases hcases with ⟨e, s, h'⟩ | ⟨_, s, h'⟩ <;> rw [h'] at hc <;> cases hc
  | getValue f instance_ =>
    obtain ⟨r, hr⟩ := access_ok (P := P) (V := V) (f.wrapper fields) (st.variant instance_)
      (fun a w => ⟨_, congrArg Prod.fst (createField_eq (f.wrapper fields).value
        (.obj (f.wrapper fields).traits.type) w.next
        (w.temporary (f.wrapper fields).cells a))⟩) st.world
    cases hr.symm.trans (keep_crash hc)
  | getRef f instance_ =>
    obtain ⟨r, hr⟩ := access_ok (P := P) (V := V) (f.wrapper fields) (st.variant instance_)
      (fun a w => ⟨_, congrArg Prod.fst (createField_eq (f.wrapper fields).ref
        (f.wrapper fields).traits.refType (w.place a) w)⟩) st.world
    cases hr.symm.trans (keep_crash hc)
  | invoke func args obj =>
    rw [Session.use, keep_world] at hlen
    obtain ⟨r, hr⟩ := invoke_ok (h.operands obj args) .refl hlen
    cases hr.symm.trans (keep_crash hc)
  | invokeMethod m args =>
    have hmade : ∀ v ∈ Variant.void :: st.variants args, Made P τ st.world.reg v := by
      intro v hv
      rcases List.mem_cons.mp hv with rfl | hv
      · exact .inl rfl
      · exact h.variants args v hv
    rw [Session.use, keep_world] at hlen
    obtain ⟨rfl, f, hf, hstatic, hlt⟩ :=
      invokeFirst_ok skipMemberUnfit_eq hmade hlen (keep_crash hc)
    rw [Session.variants, List.length_map] at hlt
    exact ⟨rfl, fun hin => Nat.not_le.mpr hlt (hin f hf (by simpa using hstatic))⟩
  | invokeMethodOn m obj args =>
    rw [Session.use, keep_world] at hlen
    obtain ⟨rfl, f, hf, _, hlt⟩ :=
      invokeFirst_ok (skipUnfit_all _) (h.operands obj args) hlen (keep_crash hc)
    rw [Session.variants, List.length_map] at hlt
    exact ⟨rfl, fun hin => Nat.not_le.mpr hlt (hin f hf)⟩
  | assign data xs => cases hc

theorem exec_crash (h : Sound P τ st) {op : Op L V}
    (hlen : (st.exec P τ fields funcs op).2.world.reg.types_.length < 2 ^ 32)
    (hc : (st.exec P τ fields funcs op).1 = .error c) :
    c = .outOfBounds ∧ ¬ op.InBounds funcs := by
  have harmed : ∀ faults, Sound P τ (st.armed faults) :=
    fun faults => h.withReg (.single (.faults _ faults))
  cases op with
  | look l faults =>
    rcases hr : ((st.armed faults).look P l).1 with c' | r <;>
      rw [Session.exec, hr] at hc <;> cases hc
    exact look_crash (harmed faults) hlen hr
  | use a faults =>
    rcases hr : ((st.armed faults).use P τ fields funcs a).1 with c' | r <;>
      rw [Session.exec, hr] at hc <;> cases hc
    exact use_crash (harmed faults) hlen hr

end Crash

section Run

variable (P) (fields : Nat → FieldWrapper L τ) (funcs : Nat → FunctionWrapper L V τ)

def Session.run (ops : List (Op L V)) (st : Session L V) : Session L V :=
  final (fun st op => st.exec P τ fields funcs op) st ops

variable {P}

theorem run_leads {st : Session L V} (h : Sound P τ st) (ops : List (Op L V)) :
    Leads P τ st (st.run P fields funcs ops) := by
  induction ops generalizing st with
  | nil => exact ⟨.refl, h⟩
  | cons op ops ih =>
    have hstep := exec_leads fields funcs h op
    exact (ih hstep.sound).after hstep.passes

/-- What has been added in a part of a run is still there at its end. -/
theorem run_prefix_length_le {st : Session L V} (h : Sound P τ st) {ops before : List (Op L V)}
    {op : Op L V} (hop : before ++ [op] <+: ops) :
    (((st.run P fields funcs before).exec P τ fields funcs op).2).world.reg.types_.length ≤
      (st.run P fields funcs ops).world.reg.types_.length := by
  obtain ⟨rest, rfl⟩ := hop
  have hbefore := (run_leads fields funcs h before).sound
  have hrest := run_leads fields funcs (exec_leads fields funcs hbefore op).sound rest
  have heq : st.run P fields funcs (before ++ [op] ++ rest) =
      ((st.run P fields funcs before).exec P τ fields funcs op).2.run P fields funcs rest := by
    rw [Session.run, final_append, final_append]
    rfl
  rw [heq]
  exact hrest.passes.length_le

variable (P)

/-- An overload is asked about an argument that is not there. -/
def intCrash : Op Nat Nat := .use (.invokeMethodOn { name_ := 0, funcs_ := [1] } 0 []) []

end Run

end ReflCpp
