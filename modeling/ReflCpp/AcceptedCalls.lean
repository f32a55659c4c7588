import ReflCpp.Acceptance
import ReflCpp.MethodLaws

namespace ReflCpp

open Cpp

variable {L V : Type} [DecidableEq L] {P : Program L} {τ : Traits L}

namespace FunctionWrapper

variable (f : FunctionWrapper L V τ) (s : Registry L) (args : List (Variant L))
  (obj : Variant L)

/-- The arity is right, every argument can be got as its parameter type, and the
object as the receiver type, if there is one. -/
def accepts : Bool :=
  args.length = f.traits.argCount && fits s (args.zip f.traits.args) &&
    match f.receiver with
    | none => true
    | some C => gets s obj C

/-- Why the call is not made: the first of the checks of `Invoke` that fails, if any. -/
def refusal : Option FunctionWrapperInvokeError :=
  if args.length ≠ f.traits.argCount then some { type := .incorrectNumberOfArguments }
  else if !f.traits.isStatic && obj.isVoid then some { type := .objectIsVoid }
  else
    match firstRefused s (args.zip f.traits.args) with
    | some i => some (.ofArgument { error := .canNotGet, index := i })
    | none =>
      match f.receiver with
      | none => none
      | some C => if gets s obj C then none else some { type := .objectIsInvalid }

def callOn : Call where
  ptr_ := f.ptr_
  obj := f.receiver.bind fun _ => obj.base_.value_
  args := args.map fun v => v.base_.value_

/-- The type of what the call returns can be reflected after it. -/
def ReturnReflects (P : Program L) (w : World L V) : Prop :=
  f.traits.hasReturn = true →
    ∃ i, (reflectID P f.traits.returnType
      (f.afterCall P (f.callOn args obj).obj (f.callOn args obj).args w).reg).1 = .ok i

end FunctionWrapper

section Operands

variable {s s' : Registry L} {args : List (Variant L)} {obj : Variant L}
  {f : FunctionWrapper L V τ}

theorem accepts_iff : f.accepts s args obj = true ↔
    args.length = f.traits.argCount ∧ fits s (args.zip f.traits.args) = true ∧
      ∀ C, f.receiver = some C → gets s obj C = true := by
  rw [FunctionWrapper.accepts]
  cases f.receiver <;> simp [and_assoc]

theorem isStatic_iff_receiver : f.traits.isStatic = true ↔ f.receiver = none := by
  unfold FunctionWrapper.receiver
  cases f.traits.isStatic <;> cases f.traits.hasRReferenceObject <;> simp

omit [DecidableEq L] in
theorem isVoid_of_gets {v : Variant L} {U : Ty L} (hg : gets s v U = true) :
    v.isVoid = false := by
  rw [Variant.isVoid, decide_eq_false_iff_not]
  intro hk
  rw [gets, hk, Bool.and_eq_true] at hg
  cases hg.2

theorem checkArgs_of_fits (hargs : ∀ v ∈ args, Made P τ s v) (hpass : Passes s s')
    (hlen : s'.types_.length < 2 ^ 32) (harity : args.length = f.traits.argCount)
    (hfits : fits s (args.zip f.traits.args) = true) :
    f.checkArgs P args s' = (.ok (.ok ()), s') := by
  have hmade : ∀ p ∈ args.zip f.traits.args, Made P τ s p.1 :=
    fun p hp => hargs p.1 (List.of_mem_zip hp).1
  have hall := canGetAll_eq hmade hpass hlen hfits
  have hcases := checkArgs_cases (P := P) args f s'
  rw [hall] at hcases
  dsimp only at hcases
  rw [hcases, if_pos (Nat.le_of_eq harity.symm)]

theorem checkArgs_first (hargs : ∀ v ∈ args, Made P τ s v) (hpass : Passes s s')
    (hlen : (f.checkArgs P args s').2.types_.length < 2 ^ 32)
    (harity : args.length = f.traits.argCount) {i : Nat}
    (hi : firstRefused s (args.zip f.traits.args) = some i) :
    ∃ s'', f.checkArgs P args s' = (.ok (.error { error := .canNotGet, index := i }), s'') := by
  have hfirst := checkArgsImpl_first hargs hpass 0 f.traits.args harity.symm hlen
  rw [List.drop_zero, hi] at hfirst
  dsimp only at hfirst
  rw [Nat.zero_add] at hfirst
  exact ⟨_, Prod.ext hfirst rfl⟩

theorem object_of_gets (hobj : Made P τ s obj) (hpass : Passes s s')
    (hlen : s'.types_.length < 2 ^ 32) (classT : Option (Ty L))
    (hgets : ∀ C, classT = some C → gets s obj C = true) :
    FunctionWrapper.object P obj classT s' =
      (.ok (.ok (classT.bind fun _ => obj.base_.value_)), s') := by
  cases classT with
  | none => rfl
  | some C =>
    have hg := hgets C rfl
    rw [FunctionWrapper.object]
    dsimp only
    rw [hobj.canGet_eq hpass hlen hg]
    exact RegM.andThen_of_ok (hobj.getValue_eq hpass hlen hg)

theorem object_of_not_gets {C : Ty L} (hobj : Made P τ s obj) (hpass : Passes s s')
    (hlen : (FunctionWrapper.object P obj (some C) s').2.types_.length < 2 ^ 32)
    (hg : gets s obj C = false) :
    ∃ s'', FunctionWrapper.object P obj (some C) s' =
      (.ok (.error { type := .objectIsInvalid }), s'') := by
  have hiff := hobj.canGet_iff (P := P) (U := C) hpass
  rw [FunctionWrapper.object] at hlen ⊢
  rcases hcan : obj.canGet P C s' with ⟨_ | _, s''⟩
  · dsimp only
    rw [hcan]
    exact ⟨s'', rfl⟩
  · dsimp only at hlen
    rw [hcan] at hlen hiff
    have hpass' : Passes s'' (RegM.andThen (obj.getValue P C) (fun a => RegM.ret
        (.ok a : Except FunctionWrapperInvokeError (Option Addr))) s'').2 := by
      apply passes_andThen (passes_getValue obj C)
      intro a s
      exact .refl
    have hlen' := Nat.lt_of_le_of_lt hpass'.length_le hlen
    rw [hg] at hiff
    cases (hiff hlen').mp rfl

theorem operands_of_accepts (hargs : ∀ v ∈ obj :: args, Made P τ s v) (hpass : Passes s s')
    (hlen : s'.types_.length < 2 ^ 32) (h : f.accepts s args obj = true) :
    f.operands P args obj f.receiver s' =
      (.ok (.ok ((f.callOn args obj).obj, (f.callOn args obj).args)), s') := by
  obtain ⟨harity, hfits, hgets⟩ := accepts_iff.mp h
  have hargs' : ∀ v ∈ args, Made P τ s v := fun v hv => hargs v (List.mem_cons_of_mem _ hv)
  have hcheck := checkArgs_of_fits hargs' hpass hlen harity hfits
  have hobject := object_of_gets (hargs obj List.mem_cons_self) hpass hlen f.receiver hgets
  have hget := getArgs_eq hargs' hpass hlen f.traits.args harity.symm hfits
  calc f.operands P args obj f.receiver s'
      = f.objectAndArgs P args obj f.receiver s' := RegM.andThen_of_ok hcheck
    _ = _ := RegM.andThen_of_ok hobject
    _ = _ := RegM.andThen_of_ok hget

theorem operands_of_refused_arg (hargs : ∀ v ∈ obj :: args, Made P τ s v)
    (hpass : Passes s s')
    (hlen : (f.operands P args obj f.receiver s').2.types_.length < 2 ^ 32)
    (harity : args.length = f.traits.argCount) {i : Nat}
    (hi : firstRefused s (args.zip f.traits.args) = some i) :
    ∃ s'', f.operands P args obj f.receiver s' =
      (.ok (.error (.ofArgument { error := .canNotGet, index := i })), s'') := by
  have hargs' : ∀ v ∈ args, Made P τ s v := fun v hv => hargs v (List.mem_cons_of_mem _ hv)
  have hcheck := passes_checkArgs_operands (P := P) f args obj f.receiver s'
  obtain ⟨s'', hs⟩ := checkArgs_first hargs' hpass
    (Nat.lt_of_le_of_lt hcheck.length_le hlen) harity hi
  exact ⟨s'', RegM.andThen_of_ok hs⟩

theorem operands_of_refused_object (hargs : ∀ v ∈ obj :: args, Made P τ s v)
    (hpass : Passes s s')
    (hlen : (f.operands P args obj f.receiver s').2.types_.length < 2 ^ 32)
    (harity : args.length = f.traits.argCount)
    (hfits : fits s (args.zip f.traits.args) = true) {C : Ty L} (hC : f.receiver = some C)
    (hg : gets s obj C = false) :
    ∃ s'', f.operands P args obj f.receiver s' =
      (.ok (.error { type := .objectIsInvalid }), s'') := by
  have hargs' : ∀ v ∈ args, Made P τ s v := fun v hv => hargs v (List.mem_cons_of_mem _ hv)
  have hpassOps := passes_operands (P := P) f args obj f.receiver s'
  have hcheck := checkArgs_of_fits hargs' hpass (Nat.lt_of_le_of_lt hpassOps.length_le hlen)
    harity hfits
  have heq : f.operands P args obj f.receiver s' = f.objectAndArgs P args obj f.receiver s' :=
    RegM.andThen_of_ok hcheck
  rw [heq, hC] at hlen ⊢
  have hlenObj := Nat.lt_of_le_of_lt
    (passes_object_objectAndArgs (P := P) f args obj (some C) s').length_le hlen
  obtain ⟨s'', hobject⟩ := object_of_not_gets (hargs obj List.mem_cons_self) hpass hlenObj hg
  exact ⟨s'', RegM.andThen_of_ok hobject⟩

end Operands

section Invoke

variable {s s' : Registry L} {args : List (Variant L)} {obj : Variant L}
  {f : FunctionWrapper L V τ} {w : World L V}

theorem invoke_of_accepts (hargs : ∀ v ∈ obj :: args, Made P τ s v) (hpass : Passes s w.reg)
    (hlen : w.reg.types_.length < 2 ^ 32) (h : f.accepts s args obj = true) :
    f.invoke P args obj w =
      f.completed P (f.callOn args obj).obj (f.callOn args obj).args w := by
  obtain ⟨harity, _, hgets⟩ := accepts_iff.mp h
  apply f.invoke_of_operands args obj (operands_of_accepts hargs hpass hlen h) harity.symm
  cases hstatic : f.traits.isStatic with
  | true => rfl
  | false =>
    cases hrec : f.receiver with
    | none =>
      rw [isStatic_iff_receiver.mpr hrec] at hstatic
      cases hstatic
    | some C => rw [isVoid_of_gets (hgets C hrec)]; rfl

theorem invoke_accepted (hargs : ∀ v ∈ obj :: args, Made P τ s v) (hpass : Passes s w.reg)
    (hlen : w.reg.types_.length < 2 ^ 32) (h : f.accepts s args obj = true) :
    (f.invoke P args obj w).calls = [f.callOn args obj] ∧
      ((∃ v, (f.invoke P args obj w).result = .ok (.ok v)) ↔
        f.ReturnReflects args obj P w) := by
  rw [invoke_of_accepts hargs hpass hlen h]
  exact ⟨f.completed_calls _ _ w P, completed_result f _ _ w⟩

theorem refusal_eq_none : f.refusal s args obj = none ↔ f.accepts s args obj = true := by
  rw [accepts_iff, ← firstRefused_eq_none]
  unfold FunctionWrapper.refusal
  by_cases harity : args.length = f.traits.argCount
  · rw [if_neg (not_not_intro harity)]
    cases hrec : f.receiver with
    | none =>
      rw [isStatic_iff_receiver.mpr hrec]
      cases firstRefused s (args.zip f.traits.args) <;> simp [harity]
    | some C =>
      have hstatic : f.traits.isStatic = false := by
        rw [Bool.eq_false_iff, ne_eq, isStatic_iff_receiver, hrec]
        simp
      cases hg : gets s obj C with
      | true =>
        have hvoid := isVoid_of_gets hg
        cases firstRefused s (args.zip f.traits.args) <;> simp [harity, hstatic, hvoid, hg]
      | false =>
        cases obj.isVoid <;> cases firstRefused s (args.zip f.traits.args) <;>
          simp [hstatic, hg]
  · simp [harity]

theorem operands_of_refusal (hargs : ∀ v ∈ obj :: args, Made P τ s v) (hpass : Passes s s')
    (hlen : (f.operands P args obj f.receiver s').2.types_.length < 2 ^ 32)
    (harity : args.length = f.traits.argCount)
    (hvoid : ¬ (!f.traits.isStatic && obj.isVoid) = true) {e : FunctionWrapperInvokeError}
    (h : f.refusal s args obj = some e) :
    ∃ s'', f.operands P args obj f.receiver s' = (.ok (.error e), s'') := by
  rw [FunctionWrapper.refusal, if_neg (not_not_intro harity), if_neg hvoid] at h
  cases hfirst : firstRefused s (args.zip f.traits.args) with
  | some i =>
    rw [hfirst] at h
    cases h
    exact operands_of_refused_arg hargs hpass hlen harity hfirst
  | none =>
    rw [hfirst] at h
    have hfits := firstRefused_eq_none.mp hfirst
    cases hC : f.receiver with
    | none =>
      rw [hC] at h
      cases h
    | some C =>
      rw [hC] at h
      simp only [Option.ite_none_left_eq_some, Option.some.injEq, Bool.not_eq_true] at h
      obtain ⟨hg, rfl⟩ := h
      rw [← hC]
      exact operands_of_refused_object hargs hpass hlen harity hfits hC hg

theorem invoke_of_refusal (hargs : ∀ v ∈ obj :: args, Made P τ s v) (hpass : Passes s w.reg)
    (hlen : (f.invoke P args obj w).world.reg.types_.length < 2 ^ 32)
    {e : FunctionWrapperInvokeError} (h : f.refusal s args obj = some e) :
    (f.invoke P args obj w).result = .ok (.error e) ∧ (f.invoke P args obj w).calls = [] := by
  by_cases harity : args.length = f.traits.argCount
  · by_cases hvoid : (!f.traits.isStatic && obj.isVoid) = true
    · rw [FunctionWrapper.refusal, if_neg (not_not_intro harity), if_pos hvoid] at h
      cases h
      rw [FunctionWrapper.invoke, if_neg (not_not_intro harity), if_pos hvoid]
      exact ⟨rfl, rfl⟩
    · rw [FunctionWrapper.invoke, if_neg (not_not_intro harity), if_neg hvoid,
        FunctionWrapper.invokeImpl_eq] at hlen ⊢
      have hpassOps := passes_operands_invokeImplWith (P := P) f args obj f.receiver
        f.traits.hasReturn w
      obtain ⟨s', hops⟩ := operands_of_refusal hargs hpass
        (Nat.lt_of_le_of_lt hpassOps.length_le hlen) harity hvoid h
      rw [FunctionWrapper.invokeImplWith, hops]
      exact ⟨rfl, rfl⟩
  · rw [FunctionWrapper.refusal, if_pos harity] at h
    cases h
    rw [FunctionWrapper.invoke, if_pos harity]
    exact ⟨rfl, rfl⟩

theorem invoke_refused (hargs : ∀ v ∈ obj :: args, Made P τ s v) (hpass : Passes s w.reg)
    (hlen : (f.invoke P args obj w).world.reg.types_.length < 2 ^ 32)
    (h : f.accepts s args obj = false) :
    (∃ e, (f.invoke P args obj w).result = .ok (.error e)) ∧
      (f.invoke P args obj w).calls = [] := by
  obtain ⟨e, he⟩ := Option.ne_none_iff_exists'.mp
    (mt refusal_eq_none.mp (Bool.eq_false_iff.mp h))
  obtain ⟨hresult, hcalls⟩ := invoke_of_refusal hargs hpass hlen he
  exact ⟨⟨e, hresult⟩, hcalls⟩

end Invoke

end ReflCpp
