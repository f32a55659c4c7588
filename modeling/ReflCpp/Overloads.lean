import ReflCpp.AcceptedCalls
import ReflCpp.Compatibility
import ReflCpp.Search

namespace ReflCpp

open Cpp Search

variable {L V : Type} [DecidableEq L] {P : Program L} {τ : Traits L}

section Spec

variable (P : Program L) (args : List (Variant L)) (obj : Variant L)
  (funcs_ : List (FunctionWrapper L V τ))

/-- What overload resolution promises, where `f` is the first overload, if any, that
accepts the call: `f` is called, and nothing else. -/
def Resolves (f : Option (FunctionWrapper L V τ)) (o : Outcome L V (Variant L)) : Prop :=
  match f with
  | some f => (∃ v, o.result = .ok (.ok v)) ∧ o.calls = [f.callOn args obj]
  | none => (∃ e, o.result = .ok (.error e)) ∧ o.calls = []

/-- The loop does not pass over `f`: either it does not ask, or none of the arguments
that there are is refused. -/
def stops (tried : FunctionWrapper L V τ → Bool) (s : Registry L)
    (f : FunctionWrapper L V τ) : Bool :=
  !tried f || fits s (args.zip f.traits.args)

/-- The registry after the arguments have been asked for the parameters of each
function. -/
def asked (s : Registry L) : Registry L :=
  funcs_.foldl (fun s f => (canGetAll P (args.zip f.traits.args) s).2) s

/-- The first overload that the loop does not pass over accepts the call and returns
what can be reflected, or no overload accepts the call and that one, if it is asked
at all, takes no more arguments than there are. -/
def CommitsRight (tried : FunctionWrapper L V τ → Bool) (w : World L V) : Prop :=
  match funcs_.find? (stops args tried w.reg) with
  | none => True
  | some f =>
    if f.accepts w.reg args obj then
      f.ReturnReflects args obj P { w with
        reg := asked P args (funcs_.takeWhile fun g => !stops args tried w.reg g) w.reg }
    else
      (∀ g ∈ funcs_, g.accepts w.reg args obj = false) ∧
        (tried f = true → f.traits.argCount ≤ args.length)

end Spec

section Loop

variable {tried : FunctionWrapper L V τ → Bool}
  {skip : FunctionWrapper L V τ → RegM L (Except Crash Bool)} {args : List (Variant L)}
  {obj : Variant L} {funcs_ : List (FunctionWrapper L V τ)} {s : Registry L} {w : World L V}

theorem stops_of_accepts {f : FunctionWrapper L V τ} (h : f.accepts s args obj = true) :
    stops args tried s f = true := by
  rw [stops, (accepts_iff.mp h).2.1, Bool.or_true]

theorem passes_asked (args : List (Variant L)) (funcs_ : List (FunctionWrapper L V τ))
    (s : Registry L) :
    Passes s (asked P args funcs_ s) := by
  induction funcs_ generalizing s with
  | nil => exact .refl
  | cons f funcs_ ih => exact (passes_canGetAll _ s).trans (ih _)

theorem skipUnfit_snd (f : FunctionWrapper L V τ) (s : Registry L) :
    (skipUnfit P args f s).2 = (canGetAll P (args.zip f.traits.args) s).2 := by
  rw [skipUnfit_eq]
  split <;> next h => rw [h]

theorem passes_invokeFirst_cons
    (htail : ∀ w : World L V, Passes w.reg (invokeFirst P skip obj args funcs_ w).world.reg)
    (f : FunctionWrapper L V τ) (w : World L V) :
    Passes (skip f w.reg).2 (invokeFirst P skip obj args (f :: funcs_) w).world.reg := by
  rw [invokeFirst]
  rcases skip f w.reg with ⟨c | _ | _, s'⟩
  · exact .refl
  · exact passes_invoke f args obj { w with reg := s' }
  · exact htail { w with reg := s' }

theorem passes_invokeFirst (hskip : ∀ f s, Passes s (skip f s).2)
    (funcs_ : List (FunctionWrapper L V τ)) (w : World L V) :
    Passes w.reg (invokeFirst P skip obj args funcs_ w).world.reg := by
  induction funcs_ generalizing w with
  | nil => exact .refl
  | cons f funcs_ ih => exact (hskip f w.reg).trans (passes_invokeFirst_cons ih f w)

theorem passes_skip
    (h : ∀ f s, skip f s = if tried f then skipUnfit P args f s else (.ok false, s))
    (f : FunctionWrapper L V τ) (s : Registry L) : Passes s (skip f s).2 := by
  rw [h]
  split
  · rw [skipUnfit_snd]
    exact passes_canGetAll _ s
  · exact .refl

theorem invokeFirst_eq
    (hskip : ∀ f s, skip f s = if tried f then skipUnfit P args f s else (.ok false, s))
    (hargs : ∀ v ∈ args, Made P τ s v) (hpass : Passes s w.reg)
    (hlen : (invokeFirst P skip obj args funcs_ w).world.reg.types_.length < 2 ^ 32) :
    invokeFirst P skip obj args funcs_ w =
      let w' := { w with
        reg := asked P args (funcs_.takeWhile fun g => !stops args tried s g) w.reg }
      match funcs_.find? (stops args tried s) with
      | none =>
        { result := .ok (.error { type := .noCompatibleFunctionFound }), world := w',
          calls := [] }
      | some f =>
        if tried f = true ∧ args.length < f.traits.argCount then
          { result := .error .outOfBounds, world := w', calls := [] }
        else f.invoke P args obj w' := by
  induction funcs_ generalizing w with
  | nil => rfl
  | cons f funcs_ ih =>
    have hmade : ∀ p ∈ args.zip f.traits.args, Made P τ s p.1 :=
      fun p hp => hargs p.1 (List.of_mem_zip hp).1
    have htail : ∀ w : World L V,
        Passes w.reg (invokeFirst P skip obj args funcs_ w).world.reg :=
      passes_invokeFirst (passes_skip hskip) funcs_
    have hlenSkip := Nat.lt_of_le_of_lt (passes_invokeFirst_cons htail f w).length_le hlen
    cases ht : tried f with
    | false =>
      have hstop : stops args tried s f = true := by rw [stops, ht]; rfl
      simp [invokeFirst, hskip, hstop, asked, ht]
    | true =>
      have hstop : stops args tried s f = fits s (args.zip f.traits.args) := by
        rw [stops, ht]
        rfl
      have heq : skip f w.reg = skipUnfit P args f w.reg := by rw [hskip, if_pos ht]
      rw [heq, skipUnfit_snd] at hlenSkip
      have hall := canGetAll_iff (P := P) hmade hpass hlenSkip
      rw [invokeFirst, heq, skipUnfit_eq] at hlen ⊢
      cases hfits : fits s (args.zip f.traits.args) with
      | true =>
        have hlen' := Nat.lt_of_le_of_lt (passes_canGetAll _ w.reg).length_le hlenSkip
        rw [hfits] at hstop
        rw [canGetAll_eq hmade hpass hlen' hfits]
        by_cases harity : f.traits.argCount ≤ args.length
        · simp [hstop, asked, harity, Nat.not_lt.mpr harity]
        · simp [hstop, asked, harity, Nat.not_le.mp harity, ht]
      | false =>
        rw [hfits] at hstop hall
        have hpassAll := passes_canGetAll (P := P) (args.zip f.traits.args) w.reg
        rcases hcan : canGetAll P (args.zip f.traits.args) w.reg with ⟨_ | _, s'⟩ <;>
          rw [hcan] at hlen hall hpassAll
        · simp only [hstop, Bool.not_false, List.takeWhile_cons_of_pos, Bool.false_eq_true,
            not_false_eq_true, List.find?_cons_of_neg, asked, List.foldl_cons, hcan]
          exact ih (w := { w with reg := s' }) (hpass.trans hpassAll) hlen
        · cases hall

theorem find?_accepts {f : FunctionWrapper L V τ}
    (hfind : funcs_.find? (stops args tried s) = some f)
    (h : f.accepts s args obj = true) :
    funcs_.find? (fun g => g.accepts s args obj) = some f := by
  rw [← hfind]
  apply (find?_eq_find?_iff fun _ => stops_of_accepts).mpr
  intro g hg
  rw [hfind, Option.some.injEq] at hg
  rw [← hg]
  exact h

theorem resolves_refused {f? : Option (FunctionWrapper L V τ)} {o : Outcome L V (Variant L)}
    (h : (∃ e, o.result = .ok (.error e)) ∧ o.calls = []) :
    Resolves args obj f? o ↔ f? = none := by
  cases f? with
  | none => exact iff_of_true h rfl
  | some f =>
    rw [Resolves, h.2]
    simp

theorem invokeFirst_resolves_iff
    (hskip : ∀ f s, skip f s = if tried f then skipUnfit P args f s else (.ok false, s))
    (hargs : ∀ v ∈ obj :: args, Made P τ w.reg v)
    (hlen : (invokeFirst P skip obj args funcs_ w).world.reg.types_.length < 2 ^ 32) :
    Resolves args obj (funcs_.find? fun f => f.accepts w.reg args obj)
        (invokeFirst P skip obj args funcs_ w) ↔
      CommitsRight P args obj funcs_ tried w := by
  have hargs' : ∀ v ∈ args, Made P τ w.reg v := fun v hv => hargs v (List.mem_cons_of_mem _ hv)
  have heq := invokeFirst_eq hskip hargs' .refl hlen
  have hpass := passes_asked (P := P) args
    (funcs_.takeWhile fun g => !stops args tried w.reg g) w.reg
  rw [heq] at hlen ⊢
  unfold CommitsRight
  cases hfind : funcs_.find? (stops args tried w.reg) with
  | none =>
    have hnone : funcs_.find? (fun f => f.accepts w.reg args obj) = none := by
      rw [List.find?_eq_none] at hfind ⊢
      intro f hf haccepts
      exact hfind f hf (stops_of_accepts haccepts)
    rw [hnone]
    exact iff_of_true ⟨⟨_, rfl⟩, rfl⟩ trivial
  | some f =>
    rw [hfind] at hlen
    dsimp only at hlen ⊢
    cases haccepts : f.accepts w.reg args obj with
    | true =>
      have harity : ¬ (tried f = true ∧ args.length < f.traits.argCount) := by
        rw [(accepts_iff.mp haccepts).1]
        simp
      rw [if_neg harity] at hlen ⊢
      rw [find?_accepts hfind haccepts, if_pos rfl]
      have hlen' := Nat.lt_of_le_of_lt (passes_invoke f args obj _).length_le hlen
      obtain ⟨hcalls, hresult⟩ := invoke_accepted hargs hpass hlen' haccepts
      rw [← hresult, Resolves, hcalls, and_iff_left rfl]
    | false =>
      have hnone : (funcs_.find? fun g => g.accepts w.reg args obj) = none ↔
          ∀ g ∈ funcs_, g.accepts w.reg args obj = false := by
        simp
      rw [if_neg Bool.false_ne_true, ← hnone]
      by_cases hbeyond : tried f = true ∧ args.length < f.traits.argCount
      · rw [if_pos hbeyond]
        have hnot : ¬ (tried f = true → f.traits.argCount ≤ args.length) :=
          fun h => Nat.not_le.mpr hbeyond.2 (h hbeyond.1)
        refine iff_of_false ?_ fun h => hnot h.2
        cases funcs_.find? fun g => g.accepts w.reg args obj <;> simp [Resolves]
      · have hwithin : tried f = true → f.traits.argCount ≤ args.length :=
          fun ht => Nat.not_lt.mp fun hlt => hbeyond ⟨ht, hlt⟩
        rw [if_neg hbeyond] at hlen ⊢
        rw [resolves_refused (invoke_refused hargs hpass hlen haccepts), and_iff_left hwithin]

end Loop

section Int

def intOverloads : Nat → FunctionWrapper Nat Nat .plain
  | 0 => intFunction none 10 [] (by decide)
  | _ => intFunction none 11 [.obj int] (by decide)

theorem intVariant_made :
    ∀ v ∈ [Variant.void, intVariant], Made .plain .plain intRegistry v := by
  intro v hv
  simp only [List.mem_cons, List.not_mem_nil, or_false] at hv
  rcases hv with rfl | rfl
  · exact .inl rfl
  · exact .inr ⟨.obj int, intVariant_created⟩

end Int

section Method

variable {args : List (Variant L)} {obj : Variant L} {w : World L V}

theorem invokeObj_resolves_iff (P : Program L) (heap : Nat → FunctionWrapper L V τ)
    (m : Method) (hargs : ∀ v ∈ obj :: args, Made P τ w.reg v)
    (hlen : (m.invokeObj P heap args obj w).world.reg.types_.length < 2 ^ 32) :
    Resolves args obj ((m.functions heap).find? fun f => f.accepts w.reg args obj)
        (m.invokeObj P heap args obj w) ↔
      CommitsRight P args obj (m.functions heap) (fun _ => true) w := by
  apply invokeFirst_resolves_iff _ hargs hlen
  intro f s
  rfl

theorem invokeObj_resolves_int :
    Resolves [intVariant] .void
      ((Method.functions intOverloads { name_ := 0, funcs_ := [1, 0] }).find? fun f =>
        f.accepts intWorld.reg [intVariant] .void)
      (Method.invokeObj .plain intOverloads { name_ := 0, funcs_ := [1, 0] } [intVariant] .void
        intWorld) := by
  refine (invokeObj_resolves_iff .plain intOverloads { name_ := 0, funcs_ := [1, 0] }
    intVariant_made ?_).mpr ?_
  · show 1 < 2 ^ 32
    decide
  · intro _
    exact ⟨⟨1⟩, rfl⟩

/-- `f()` is not asked about the argument it does not take, and then refuses it. -/
theorem not_invokeObj_resolves_shorter :
    ¬ Resolves [intVariant] .void
      ((Method.functions intOverloads { name_ := 0, funcs_ := [0, 1] }).find? fun f =>
        f.accepts intWorld.reg [intVariant] .void)
      (Method.invokeObj .plain intOverloads { name_ := 0, funcs_ := [0, 1] } [intVariant] .void
        intWorld) := by
  rintro ⟨⟨v, hv⟩, _⟩
  cases hv

/-- `f` is static and accepts the arguments. -/
def FunctionWrapper.acceptsStatic (f : FunctionWrapper L V τ) (s : Registry L)
    (args : List (Variant L)) : Bool :=
  f.traits.isStatic && args.length = f.traits.argCount && fits s (args.zip f.traits.args)

theorem accepts_void (f : FunctionWrapper L V τ) (s : Registry L)
    (args : List (Variant L)) : f.accepts s args .void = f.acceptsStatic s args := by
  unfold FunctionWrapper.accepts FunctionWrapper.acceptsStatic
  cases hrec : f.receiver with
  | none =>
    rw [isStatic_iff_receiver.mpr hrec]
    simp
  | some C =>
    have hstatic : f.traits.isStatic = false := by
      rw [Bool.eq_false_iff, ne_eq, isStatic_iff_receiver, hrec]
      simp
    simp [hstatic, gets_void]

theorem invoke_resolves_iff (P : Program L) (heap : Nat → FunctionWrapper L V τ)
    (m : Method) (hargs : ∀ v ∈ args, Made P τ w.reg v)
    (hlen : (m.invoke P heap args w).world.reg.types_.length < 2 ^ 32) :
    Resolves args .void ((m.functions heap).find? fun f => f.acceptsStatic w.reg args)
        (m.invoke P heap args w) ↔
      CommitsRight P args .void (m.functions heap) (fun f => !f.traits.isStatic) w := by
  have hargs' : ∀ v ∈ Variant.void :: args, Made P τ w.reg v := by
    simpa [Made] using hargs
  simp only [← accepts_void]
  apply invokeFirst_resolves_iff _ hargs' hlen
  intro f s
  rw [skipMemberUnfit]
  cases f.traits.isStatic <;> rfl

theorem invoke_resolves_int :
    Resolves [intVariant] .void
      ((Method.functions intOverloads { name_ := 0, funcs_ := [1, 0] }).find? fun f =>
        f.acceptsStatic intWorld.reg [intVariant])
      (Method.invoke .plain intOverloads { name_ := 0, funcs_ := [1, 0] } [intVariant]
        intWorld) := by
  refine (invoke_resolves_iff .plain intOverloads { name_ := 0, funcs_ := [1, 0] }
    (fun v hv => intVariant_made v (List.mem_cons_of_mem _ hv)) ?_).mpr ?_
  · show 1 < 2 ^ 32
    decide
  · intro _
    exact ⟨⟨1⟩, rfl⟩

theorem not_invoke_resolves_shorter :
    ¬ Resolves [intVariant] .void
      ((Method.functions intOverloads { name_ := 0, funcs_ := [0, 1] }).find? fun f =>
        f.acceptsStatic intWorld.reg [intVariant])
      (Method.invoke .plain intOverloads { name_ := 0, funcs_ := [0, 1] } [intVariant]
        intWorld) := by
  rintro ⟨⟨v, hv⟩, _⟩
  cases hv

end Method

end ReflCpp
