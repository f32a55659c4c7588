import ReflCpp.Method

namespace ReflCpp

open Cpp

variable {L V : Type} [DecidableEq L] {P : Program L} {τ : Traits L}

/-- Ask each variant in turn for the type beside it, up to the first refusal. -/
def canGetAll (P : Program L) : List (Variant L × Ty L) → RegM L Bool
  | [], s => (true, s)
  | (v, U) :: ps, s =>
    match v.canGet P U s with
    | (true, s) => canGetAll P ps s
    | (false, s) => (false, s)

section CheckArgs

variable (args : List (Variant L))

theorem checkArgsImpl_cases (First : Nat) (Us : List (Ty L)) (s : Registry L) :
    match canGetAll P ((args.drop First).zip Us) s with
    | (false, s') => ∃ i < args.length, FunctionWrapper.checkArgsImpl P args First Us s =
        (.ok (.error { error := .canNotGet, index := i }), s')
    | (true, s') => FunctionWrapper.checkArgsImpl P args First Us s =
        (if Us.length ≤ args.length - First then .ok (.ok ()) else .error .outOfBounds, s') := by
  induction Us generalizing First s with
  | nil => simp [canGetAll, FunctionWrapper.checkArgsImpl, RegM.ret]
  | cons U Us ih =>
    by_cases hlt : First < args.length
    · have hdrop := List.drop_eq_getElem_cons hlt
      have harg := List.getElem?_eq_getElem hlt
      rw [hdrop, List.zip_cons_cons, canGetAll, FunctionWrapper.checkArgsImpl, harg]
      simp only [Variant.checkGet]
      rcases hget : (args[First]).canGet P U s with ⟨_ | _, s'⟩
      · exact ⟨First, hlt, rfl⟩
      · have hlen : (U :: Us).length ≤ args.length - First ↔
            Us.length ≤ args.length - (First + 1) := by
          rw [List.length_cons]
          omega
        simp only [hlen]
        exact ih (First + 1) s'
    · have hdrop : args.drop First = [] := List.drop_eq_nil_of_le (by omega)
      have harg : args[First]? = none := List.getElem?_eq_none (by omega)
      rw [hdrop, List.zip_nil_left, canGetAll, FunctionWrapper.checkArgsImpl, harg]
      have hlen : ¬ (U :: Us).length ≤ args.length - First := by
        rw [List.length_cons]
        omega
      simp only [hlen, if_false]
      rfl

variable (f : FunctionWrapper L V τ)

theorem checkArgs_cases (s : Registry L) :
    match canGetAll P (args.zip f.traits.args) s with
    | (false, s') => ∃ i < args.length, f.checkArgs P args s =
        (.ok (.error { error := .canNotGet, index := i }), s')
    | (true, s') => f.checkArgs P args s =
        (if f.traits.argCount ≤ args.length then .ok (.ok ()) else .error .outOfBounds, s') :=
  checkArgsImpl_cases args 0 f.traits.args s

theorem canInvokeWithArgs_eq (s : Registry L) :
    f.canInvokeWithArgs P args s =
      match canGetAll P (args.zip f.traits.args) s with
      | (false, s') => (.ok false, s')
      | (true, s') =>
        (if f.traits.argCount ≤ args.length then .ok true else .error .outOfBounds, s') := by
  have hcases := checkArgs_cases (P := P) args f s
  rw [FunctionWrapper.canInvokeWithArgs, RegM.andThen]
  rcases hall : canGetAll P (args.zip f.traits.args) s with ⟨_ | _, s'⟩ <;> rw [hall] at hcases
  · obtain ⟨i, _, hi⟩ := hcases
    rw [hi]
    rfl
  · simp only at hcases ⊢
    rw [hcases]
    by_cases hlen : f.traits.argCount ≤ args.length
    · simp only [hlen, if_true]
      rfl
    · simp only [hlen, if_false]

end CheckArgs

section InBounds

variable {args : List (Variant L)} {obj : Variant L} (f : FunctionWrapper L V τ)

omit [DecidableEq L] in
theorem andThen_inBounds {α β : Type} {m : RegM L (Except Crash α)}
    {k : α → RegM L (Except Crash β)} {s : Registry L} (hm : (m s).1 ≠ .error .outOfBounds)
    (hk : ∀ a s, (k a s).1 ≠ .error .outOfBounds) :
    (RegM.andThen m k s).1 ≠ .error .outOfBounds := by
  rw [RegM.andThen]
  split
  next h =>
    rw [h] at hm
    simpa using hm
  next a s' _ => exact hk a s'

omit [DecidableEq L] in
theorem ret_inBounds {α : Type} (a : α) (s : Registry L) :
    (RegM.ret a s).1 ≠ .error .outOfBounds := by
  simp [RegM.ret]

theorem getValue_inBounds (v : Variant L) (U : Ty L) (s : Registry L) :
    (v.getValue P U s).1 ≠ .error .outOfBounds := by
  apply andThen_inBounds
  · unfold Variant.getImpl
    repeat' split
    all_goals simp
  · rintro (e | g) s
    · simp [RegM.crash]
    · exact ret_inBounds _ s

theorem getArgs_inBounds (First : Nat) (Us : List (Ty L)) (s : Registry L)
    (hlen : First + Us.length ≤ args.length) :
    (FunctionWrapper.getArgs P args First Us s).1 ≠ .error .outOfBounds := by
  induction Us generalizing First s with
  | nil => exact ret_inBounds _ s
  | cons U Us ih =>
    rw [List.length_cons] at hlen
    rw [FunctionWrapper.getArgs, List.getElem?_eq_getElem (show First < args.length by omega)]
    apply andThen_inBounds (getValue_inBounds _ _ s)
    intro a s
    apply andThen_inBounds (ih (First + 1) s (by omega))
    intro as s
    exact ret_inBounds _ s

theorem object_inBounds (classT : Option (Ty L)) (s : Registry L) :
    (FunctionWrapper.object P obj classT s).1 ≠ .error .outOfBounds := by
  cases classT with
  | none => exact ret_inBounds _ s
  | some C =>
    rw [FunctionWrapper.object]
    dsimp only
    split
    · simp
    next s' _ =>
      apply andThen_inBounds (getValue_inBounds obj C s')
      intro a s
      exact ret_inBounds _ s

theorem objectAndArgs_inBounds (hlen : f.traits.argCount ≤ args.length)
    (classT : Option (Ty L)) (s : Registry L) :
    (f.objectAndArgs P args obj classT s).1 ≠ .error .outOfBounds := by
  apply andThen_inBounds (object_inBounds classT s)
  rintro (e | a) s
  · exact ret_inBounds _ s
  · apply andThen_inBounds
      (getArgs_inBounds 0 f.traits.args s (by rw [Nat.zero_add]; exact hlen))
    intro as s
    exact ret_inBounds _ s

theorem operands_inBounds (hlen : f.traits.argCount ≤ args.length) (classT : Option (Ty L))
    (s : Registry L) : (f.operands P args obj classT s).1 ≠ .error .outOfBounds := by
  apply andThen_inBounds
  · have hcases := checkArgs_cases (P := P) args f s
    split at hcases
    next h =>
      obtain ⟨i, _, hi⟩ := hcases
      rw [hi]
      simp
    next h =>
      rw [hcases, if_pos hlen]
      simp
  · rintro (e | _) s
    · exact ret_inBounds _ s
    · exact objectAndArgs_inBounds f hlen classT s

end InBounds

namespace FunctionWrapper

variable (f : FunctionWrapper L V τ) (args : List (Variant L)) (obj : Variant L)

def receiver : Option (Ty L) :=
  if f.traits.isStatic then none
  else if f.traits.hasRReferenceObject then some f.traits.classRRef
  else some f.traits.classRef

theorem invokeImpl_eq (w : World L V) :
    f.invokeImpl P args obj w =
      f.invokeImplWith P args obj f.receiver f.traits.hasReturn w := by
  unfold invokeImpl receiver
  cases f.traits.isStatic <;> cases f.traits.hasRReferenceObject <;>
    cases f.traits.hasReturn <;> rfl

def completed (P : Program L) (a : Option Addr) (as : List (Option Addr)) (w : World L V) :
    Outcome L V (Variant L) := (f.call P f.traits.hasReturn a as w).orVoid

theorem completed_calls (a : Option Addr) (as : List (Option Addr)) (w : World L V)
    (P : Program L) :
    (f.completed P a as w).calls = [{ ptr_ := f.ptr_, obj := a, args := as }] := by
  unfold completed call
  dsimp only
  split
  · split <;> rfl
  · rfl

theorem completed_ok (a : Option Addr) (as : List (Option Addr)) (w : World L V)
    (P : Program L) : ∃ r, (f.completed P a as w).result = .ok r := by
  unfold completed call
  dsimp only
  split
  · split <;> exact ⟨_, rfl⟩
  · exact ⟨_, rfl⟩

theorem invoke_eq (P : Program L) (w : World L V) :
    f.invoke P args obj w =
      if args.length ≠ f.traits.argCount then
        { result := .ok (.error { type := .incorrectNumberOfArguments }), world := w,
          calls := [] }
      else if f.traits.isStatic || !obj.isVoid then
        (f.invokeImplWith P args obj f.receiver f.traits.hasReturn w).orVoid
      else { result := .ok (.error { type := .objectIsVoid }), world := w, calls := [] } := by
  rw [invoke, invokeImpl_eq]
  cases f.traits.isStatic <;> cases obj.isVoid <;> rfl

theorem invoke_of_operands {P : Program L} {w : World L V} {a : Option Addr}
    {as : List (Option Addr)} {s : Registry L}
    (hops : f.operands P args obj f.receiver w.reg = (.ok (.ok (a, as)), s))
    (hlen : f.traits.argCount = args.length)
    (hobj : (f.traits.isStatic || !obj.isVoid) = true) :
    f.invoke P args obj w = f.completed P a as { w with reg := s } := by
  rw [invoke_eq, if_neg (not_not_intro hlen.symm), if_pos hobj, invokeImplWith, hops]
  rfl

theorem invoke_cases (P : Program L) (w : World L V) :
    (∃ e s, f.invoke P args obj w =
      { result := .ok (.error e), world := { w with reg := s }, calls := [] }) ∨
    (∃ c s, f.operands P args obj f.receiver w.reg = (.error c, s) ∧
      f.traits.argCount = args.length ∧ f.invoke P args obj w =
        { result := .error c, world := { w with reg := s }, calls := [] }) ∨
    (∃ a as s, f.operands P args obj f.receiver w.reg = (.ok (.ok (a, as)), s) ∧
      f.traits.argCount = args.length ∧ (f.traits.isStatic || !obj.isVoid) = true ∧
      f.invoke P args obj w = f.completed P a as { w with reg := s }) := by
  have heq := f.invoke_eq args obj P w
  split at heq
  next => exact .inl ⟨_, w.reg, heq⟩
  next hlen =>
    have hlen' : f.traits.argCount = args.length := by simpa [eq_comm] using hlen
    split at heq
    next hobj =>
      rw [invokeImplWith] at heq
      rcases hops : f.operands P args obj f.receiver w.reg with ⟨c | e | ⟨a, as⟩, s⟩
      · rw [hops] at heq
        exact .inr (.inl ⟨c, s, rfl, hlen', heq⟩)
      · rw [hops] at heq
        exact .inl ⟨e, s, heq⟩
      · exact .inr (.inr ⟨a, as, s, rfl, hlen', hobj,
          f.invoke_of_operands args obj hops hlen' hobj⟩)
    next => exact .inl ⟨_, w.reg, heq⟩

end FunctionWrapper

end ReflCpp
