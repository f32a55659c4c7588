import ReflCpp.ArgumentLaws

namespace ReflCpp

open Cpp

variable {L V : Type} [DecidableEq L] {P : Program L} {τ : Traits L}

section InBounds

variable {args : List (Variant L)}

/-- `CanInvokeWithArgs` reads no argument past the end, and holds exactly of
argument lists of the right length that can all be got. -/
def InBoundsAndExact (P : Program L) (f : FunctionWrapper L V τ) (args : List (Variant L))
    (s : Registry L) : Prop :=
  ∃ b s', f.canInvokeWithArgs P args s = (.ok b, s') ∧
    (b = true ↔ args.length = f.traits.argCount ∧
      (canGetAll P (args.zip f.traits.args) s).1 = true)

/-- Among the functions that are tried, the first that refuses no argument there
is takes no more than there are. -/
def TriedInBounds (P : Program L) (args : List (Variant L))
    (tried : FunctionWrapper L V τ → Bool) :
    List (FunctionWrapper L V τ) → Registry L → Prop
  | [], _ => True
  | f :: funcs_, s =>
    if tried f then
      match canGetAll P (args.zip f.traits.args) s with
      | (true, _) => f.traits.argCount ≤ args.length
      | (false, s) => TriedInBounds P args tried funcs_ s
    else True

theorem invoke_inBounds (f : FunctionWrapper L V τ) (obj : Variant L) (w : World L V) :
    (f.invoke P args obj w).result ≠ .error .outOfBounds := by
  rcases f.invoke_cases args obj P w with
    ⟨e, s, h⟩ | ⟨c, s, hops, hlen, h⟩ | ⟨a, as, s, _, _, _, h⟩ <;> rw [h]
  · simp
  · have hin : (f.operands P args obj f.receiver w.reg).1 ≠ .error .outOfBounds :=
      operands_inBounds f (Nat.le_of_eq hlen) f.receiver w.reg
    rw [hops] at hin
    simpa using hin
  · obtain ⟨r, hr⟩ := f.completed_ok a as { w with reg := s } P
    simp [hr]

theorem skipUnfit_eq (f : FunctionWrapper L V τ) (s : Registry L) :
    skipUnfit P args f s =
      match canGetAll P (args.zip f.traits.args) s with
      | (false, s') => (.ok true, s')
      | (true, s') =>
        (if f.traits.argCount ≤ args.length then .ok false else .error .outOfBounds, s') := by
  rw [skipUnfit, RegM.andThen, canInvokeWithArgs_eq]
  rcases canGetAll P (args.zip f.traits.args) s with ⟨_ | _, s'⟩
  · rfl
  · by_cases hlen : f.traits.argCount ≤ args.length
    · simp only [hlen, if_true]
      rfl
    · simp only [hlen, if_false]

theorem invokeFirst_inBounds_iff {tried : FunctionWrapper L V τ → Bool}
    {skip : FunctionWrapper L V τ → RegM L (Except Crash Bool)}
    (hskip : ∀ f s, skip f s = if tried f then skipUnfit P args f s else (.ok false, s))
    (obj : Variant L) (funcs_ : List (FunctionWrapper L V τ)) (w : World L V) :
    (invokeFirst P skip obj args funcs_ w).result ≠ .error .outOfBounds ↔
      TriedInBounds P args tried funcs_ w.reg := by
  induction funcs_ generalizing w with
  | nil => simp [invokeFirst, TriedInBounds]
  | cons f funcs_ ih =>
    rw [invokeFirst, TriedInBounds, hskip]
    by_cases ht : tried f = true
    · rw [if_pos ht, if_pos ht, skipUnfit_eq]
      rcases canGetAll P (args.zip f.traits.args) w.reg with ⟨_ | _, s'⟩
      · exact ih { w with reg := s' }
      · by_cases hlen : f.traits.argCount ≤ args.length
        · simp only [hlen, if_true, iff_true]
          exact invoke_inBounds f obj _
        · simp [hlen]
    · rw [if_neg ht, if_neg ht]
      exact iff_of_true (invoke_inBounds f obj _) trivial

theorem inBoundsAndExact_iff (f : FunctionWrapper L V τ) (s : Registry L) :
    InBoundsAndExact P f args s ↔
      args.length = f.traits.argCount ∨
        (canGetAll P (args.zip f.traits.args) s).1 = false := by
  rw [InBoundsAndExact, canInvokeWithArgs_eq]
  rcases canGetAll P (args.zip f.traits.args) s with ⟨_ | _, s'⟩
  · simp
  · by_cases hlen : f.traits.argCount ≤ args.length
    · simp [hlen, eq_comm]
    · have hne : args.length ≠ f.traits.argCount := by omega
      simp [hlen, hne]

end InBounds

theorem inBoundsAndExact_iff_fits (P : Program L) (args : List (Variant L)) :
    (∀ (f : FunctionWrapper L V τ) (s : Registry L),
      InBoundsAndExact P f args s ↔
        args.length = f.traits.argCount ∨
          (canGetAll P (args.zip f.traits.args) s).1 = false) ∧
    (∀ (heap : Nat → FunctionWrapper L V τ) (m : Method) (obj : Variant L) (w : World L V),
      (m.invokeObj P heap args obj w).result ≠ .error .outOfBounds ↔
        TriedInBounds P args (fun _ => true) (m.functions heap) w.reg) ∧
    (∀ (heap : Nat → FunctionWrapper L V τ) (m : Method) (w : World L V),
      (m.invoke P heap args w).result ≠ .error .outOfBounds ↔
        TriedInBounds P args (fun f => !f.traits.isStatic) (m.functions heap) w.reg) := by
  refine ⟨fun f s => inBoundsAndExact_iff f s, ?_, ?_⟩
  · intro heap m obj w
    apply invokeFirst_inBounds_iff _ obj (m.functions heap) w
    intro f s
    rfl
  · intro heap m w
    apply invokeFirst_inBounds_iff _ .void (m.functions heap) w
    intro f s
    rw [skipMemberUnfit]
    cases f.traits.isStatic <;> rfl

theorem not_inBoundsAndExact_nil :
    ¬ InBoundsAndExact .plain (intFunction none 1 [.obj int] (by decide)) [] .init ∧
    (Method.invokeObj .plain (fun _ => intFunction none 1 [.obj int] (by decide))
      { name_ := 0, funcs_ := [0] } [] .void freshWorld).result = .error .outOfBounds := by
  refine ⟨?_, rfl⟩
  rintro ⟨b, s', h, _⟩
  cases h

section Completed

variable (f : FunctionWrapper L V τ)

theorem createWith_fst (c : WrapperClass L × Binding) (T : Ty L) (data : Addr)
    (w : World L V) :
    match (reflectID P T w.reg).1 with
    | .ok _ => ∃ v, (Variant.createWith P c T data w).1 = .ok v
    | .error e => (Variant.createWith P c T data w).1 = .error e := by
  unfold Variant.createWith
  rcases reflectID P T w.reg with ⟨e | i, s⟩
  · rfl
  · exact ⟨_, rfl⟩

theorem completed_result (a : Option Addr) (as : List (Option Addr)) (w : World L V) :
    (∃ v, (f.completed P a as w).result = .ok (.ok v)) ↔
      (f.traits.hasReturn = true →
        ∃ i, (reflectID P f.traits.returnType (f.afterCall P a as w).reg).1 = .ok i) := by
  have hfst := createWith_fst (P := P) f.returns f.traits.returnType (f.body a as w).result
    (f.afterCall P a as w)
  unfold FunctionWrapper.completed FunctionWrapper.call
  cases hr : f.traits.hasReturn with
  | false => simp [Outcome.orVoid, Except.map]
  | true =>
    simp only [if_true, true_implies]
    rcases hid : (reflectID P f.traits.returnType (f.afterCall P a as w).reg).1 with e | i
    · rw [hid] at hfst
      split
      · simp [Outcome.orVoid, Except.map]
      next h =>
        rw [h] at hfst
        cases hfst
    · rw [hid] at hfst
      obtain ⟨v, hv⟩ := hfst
      split
      next h =>
        rw [h] at hv
        cases hv
      · simp [Outcome.orVoid, Except.map]

end Completed

end ReflCpp
