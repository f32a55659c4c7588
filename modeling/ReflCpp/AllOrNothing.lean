import ReflCpp.Overloads

namespace ReflCpp

open Cpp

variable {L V : Type} [DecidableEq L] {P : Program L} {τ : Traits L}

/-- An error means that nothing was called, a result that one call was made. -/
def AllOrNothing {α : Type} (o : Outcome L V α) : Prop :=
  (∀ e, o.result = .ok (.error e) → o.calls = []) ∧
  (∀ v, o.result = .ok (.ok v) → ∃ c, o.calls = [c])

/-- If the first overload that the loop does not pass over accepts the call, what it returns,
if anything, can be reflected after the call. -/
def CommitsReflecting (P : Program L) (args : List (Variant L)) (obj : Variant L)
    (funcs_ : List (FunctionWrapper L V τ)) (tried : FunctionWrapper L V τ → Bool)
    (w : World L V) : Prop :=
  ∀ f, funcs_.find? (stops args tried w.reg) = some f → f.accepts w.reg args obj = true →
    f.ReturnReflects args obj P { w with
      reg := asked P args (funcs_.takeWhile fun g => !stops args tried w.reg g) w.reg }

section Invoke

variable {s : Registry L} {args : List (Variant L)} {obj : Variant L} {w : World L V}

omit [DecidableEq L] in
theorem allOrNothing_of_noCalls {α : Type} {o : Outcome L V α} (hcalls : o.calls = [])
    (hresult : ∀ v, o.result ≠ .ok (.ok v)) : AllOrNothing o :=
  ⟨fun _ _ => hcalls, fun v hv => absurd hv (hresult v)⟩

theorem invoke_allOrNothing_iff {f : FunctionWrapper L V τ}
    (hargs : ∀ v ∈ obj :: args, Made P τ s v) (hpass : Passes s w.reg)
    (hlen : (f.invoke P args obj w).world.reg.types_.length < 2 ^ 32) :
    AllOrNothing (f.invoke P args obj w) ↔
      (f.accepts s args obj = true → f.ReturnReflects args obj P w) := by
  cases haccepts : f.accepts s args obj with
  | false =>
    obtain ⟨⟨e, he⟩, hcalls⟩ := invoke_refused hargs hpass hlen haccepts
    refine iff_of_true (allOrNothing_of_noCalls hcalls fun v hv => ?_) fun h => ?_
    · rw [he] at hv
      cases hv
    · cases h
  | true =>
    have hlen' := Nat.lt_of_le_of_lt (passes_invoke (P := P) f args obj w).length_le hlen
    obtain ⟨hcalls, hresult⟩ := invoke_accepted hargs hpass hlen' haccepts
    rw [eq_self, true_implies, ← hresult]
    constructor
    · intro h
      obtain ⟨r, hr⟩ : ∃ r, (f.invoke P args obj w).result = .ok r := by
        rw [invoke_of_accepts hargs hpass hlen' haccepts]
        exact f.completed_ok _ _ w P
      cases r with
      | error e =>
        have hnone := h.1 e hr
        rw [hcalls] at hnone
        cases hnone
      | ok v => exact ⟨v, hr⟩
    · rintro ⟨v, hv⟩
      refine ⟨fun e he => ?_, fun _ _ => ⟨_, hcalls⟩⟩
      rw [hv] at he
      cases he

theorem invokeFirst_allOrNothing_iff {tried : FunctionWrapper L V τ → Bool}
    {skip : FunctionWrapper L V τ → RegM L (Except Crash Bool)}
    {funcs_ : List (FunctionWrapper L V τ)}
    (hskip : ∀ f s, skip f s = if tried f then skipUnfit P args f s else (.ok false, s))
    (hargs : ∀ v ∈ obj :: args, Made P τ w.reg v)
    (hlen : (invokeFirst P skip obj args funcs_ w).world.reg.types_.length < 2 ^ 32) :
    AllOrNothing (invokeFirst P skip obj args funcs_ w) ↔
      CommitsReflecting P args obj funcs_ tried w := by
  have hargs' : ∀ v ∈ args, Made P τ w.reg v := fun v hv => hargs v (List.mem_cons_of_mem _ hv)
  have hpass := passes_asked (P := P) args
    (funcs_.takeWhile fun g => !stops args tried w.reg g) w.reg
  have heq := invokeFirst_eq hskip hargs' .refl hlen
  rw [heq] at hlen ⊢
  unfold CommitsReflecting
  cases hfind : funcs_.find? (stops args tried w.reg) with
  | none =>
    refine iff_of_true (allOrNothing_of_noCalls rfl fun v hv => ?_) fun f hf => ?_
    · cases hv
    · cases hf
  | some f =>
    rw [hfind] at hlen
    dsimp only at hlen ⊢
    by_cases hbeyond : tried f = true ∧ args.length < f.traits.argCount
    · -- The arguments are read past the end before anything is called.
      rw [if_pos hbeyond]
      refine iff_of_true (allOrNothing_of_noCalls rfl fun v hv => ?_) ?_
      · cases hv
      · rintro g hg haccepts
        cases hg
        exact absurd (accepts_iff.mp haccepts).1 (Nat.ne_of_lt hbeyond.2)
    · rw [if_neg hbeyond] at hlen ⊢
      rw [invoke_allOrNothing_iff hargs hpass hlen]
      constructor
      · rintro h g hg
        cases hg
        exact h
      · exact fun h => h f rfl

theorem allOrNothing_iff (P : Program L) (hargs : ∀ v ∈ obj :: args, Made P τ w.reg v) :
    (∀ f : FunctionWrapper L V τ,
      (f.invoke P args obj w).world.reg.types_.length < 2 ^ 32 →
      (AllOrNothing (f.invoke P args obj w) ↔
        (f.accepts w.reg args obj = true → f.ReturnReflects args obj P w))) ∧
    (∀ (heap : Nat → FunctionWrapper L V τ) (m : Method),
      (m.invokeObj P heap args obj w).world.reg.types_.length < 2 ^ 32 →
      (AllOrNothing (m.invokeObj P heap args obj w) ↔
        CommitsReflecting P args obj (m.functions heap) (fun _ => true) w)) ∧
    (∀ (heap : Nat → FunctionWrapper L V τ) (m : Method),
      (m.invoke P heap args w).world.reg.types_.length < 2 ^ 32 →
      (AllOrNothing (m.invoke P heap args w) ↔
        CommitsReflecting P args .void (m.functions heap) (fun f => !f.traits.isStatic) w)) := by
  refine ⟨fun f hlen => invoke_allOrNothing_iff hargs .refl hlen, ?_, ?_⟩
  · intro heap m hlen
    apply invokeFirst_allOrNothing_iff _ hargs hlen
    intro f s
    rfl
  · intro heap m hlen
    have hvoid : ∀ v ∈ Variant.void :: args, Made P τ w.reg v := by
      intro v hv
      rcases List.mem_cons.mp hv with rfl | hv
      · exact .inl rfl
      · exact hargs v (List.mem_cons_of_mem _ hv)
    apply invokeFirst_allOrNothing_iff _ hvoid hlen
    intro f s
    rw [skipMemberUnfit]
    cases f.traits.isStatic <;> rfl

theorem allOrNothing_int :
    AllOrNothing (Method.invokeObj .plain intOverloads { name_ := 0, funcs_ := [1, 0] }
      [intVariant] .void intWorld) := by
  refine ((allOrNothing_iff .plain intVariant_made).2.1 intOverloads
    { name_ := 0, funcs_ := [1, 0] } ?_).mpr ?_
  · show 1 < 2 ^ 32
    decide
  · rintro f (hf : some (intOverloads 1) = some f) _ _
    cases hf
    exact ⟨⟨1⟩, rfl⟩

/-- The allocation of the entry for `int` throws after the function has run. -/
theorem not_allOrNothing_int :
    ¬ AllOrNothing ((intFunction none 1 [] (by decide)).invoke .plain [] .void
      { freshWorld with reg := { freshWorld.reg with faults := [true] } }) := by
  intro h
  have hcalls := h.1 { type := .outOfMemory } rfl
  cases hcalls

end Invoke

end ReflCpp
