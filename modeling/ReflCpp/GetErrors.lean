import ReflCpp.ArgumentLaws
import ReflCpp.Compatibility

namespace ReflCpp

open Cpp

variable {L V : Type} [DecidableEq L] {P : Program L} {τ : Traits L}

section CheckGet

/-- `CheckGet<U>` and `Get<U>`, asked of `v` in the same registry, end alike. -/
structure Predicts (P : Program L) (v : Variant L) (U : Ty L) (s : Registry L) : Prop where
  ok_iff : (v.checkGet P U s).1 = .ok () ↔ ∃ g, (v.getImpl P U s).1 = .ok (.ok g)
  error_iff : ∀ e, (v.checkGet P U s).1 = .error e ↔ (v.getImpl P U s).1 = .ok (.error e)

variable {v : Variant L} {U : Ty L} {s s' : Registry L}

theorem checkGet_of_canGet (h : v.canGet P U s = (true, s')) :
    v.checkGet P U s = (.ok (), s') := by
  rw [Variant.checkGet, h]

theorem checkGet_of_not_canGet (h : v.canGet P U s = (false, s')) :
    v.checkGet P U s = (.error .canNotGet, s') := by
  rw [Variant.checkGet, h]

theorem predicts_of_not_isVoid (hvoid : v.isVoid = false) : Predicts P v U s := by
  rcases v.getImpl_cases (P := P) U s with ⟨s', hcan, himpl⟩ | ⟨D, s', hcan, _, himpl⟩
  · rw [Variant.fault_of_not_isVoid hvoid] at himpl
    refine ⟨?_, fun e => ?_⟩
    · rw [checkGet_of_not_canGet hcan, himpl]
      exact iff_of_false nofun nofun
    · rw [checkGet_of_not_canGet hcan, himpl]
      simp
  · refine ⟨?_, fun e => ?_⟩
    · rw [checkGet_of_canGet hcan, himpl]
      exact iff_of_true rfl ⟨_, rfl⟩
    · rw [checkGet_of_canGet hcan, himpl]
      exact iff_of_false nofun nofun

/-- Of a void variant `Get` says that it is void, and `CheckGet` that it cannot be got. -/
theorem predicts_iff : Predicts P v U s ↔ v.isVoid = false := by
  constructor
  · intro hpredicts
    by_contra hvoid
    rw [Bool.not_eq_false] at hvoid
    have hcan : v.canGet P U s = (false, s) := Variant.canGet_of_isVoid hvoid
    have himpl := (hpredicts.error_iff .canNotGet).mp
      (congrArg Prod.fst (checkGet_of_not_canGet hcan))
    rw [Variant.getImpl_of_not_canGet hcan, Variant.fault_of_isVoid hvoid] at himpl
    cases himpl
  · exact predicts_of_not_isVoid

end CheckGet

section Invoke

/-- The variants before the `i`-th can be got as the types beside them, which takes the
registry to `s'`, and the `i`-th, `v` for a `U`, is refused. -/
structure FirstBad (P : Program L) (ps : List (Variant L × Ty L)) (s : Registry L) (i : Nat)
    (v : Variant L) (U : Ty L) (s' : Registry L) : Prop where
  pair : ps[i]? = some (v, U)
  before : canGetAll P (ps.take i) s = (true, s')
  refused : (v.canGet P U s').1 = false

/-- `Invoke` reports the `i`-th argument, with what `Get` says of it. -/
def Reports (P : Program L) (f : FunctionWrapper L V τ) (args : List (Variant L))
    (obj : Variant L) (w : World L V) (i : Nat) (v : Variant L) (U : Ty L)
    (s : Registry L) : Prop :=
  ∃ e, (v.getImpl P U s).1 = .ok (.error e) ∧
    (f.invoke P args obj w).result = .ok (.error (.ofArgument { error := e, index := i }))

variable {v : Variant L} {U : Ty L} {s s' : Registry L} {i : Nat} {args : List (Variant L)}
  {obj : Variant L} {f : FunctionWrapper L V τ} {w : World L V}

theorem checkArgsImpl_of_firstBad (args : List (Variant L)) (First : Nat) (Us : List (Ty L))
    (h : FirstBad P ((args.drop First).zip Us) s i v U s') :
    ∃ s'', FunctionWrapper.checkArgsImpl P args First Us s =
      (.ok (.error { error := .canNotGet, index := First + i }), s'') := by
  induction Us generalizing First s i with
  | nil =>
    have hpair := h.pair
    rw [List.zip_nil_right] at hpair
    cases hpair
  | cons U₀ Us ih =>
    by_cases hlt : First < args.length
    · have hdrop := List.drop_eq_getElem_cons hlt
      rw [FunctionWrapper.checkArgsImpl, List.getElem?_eq_getElem hlt]
      rw [hdrop, List.zip_cons_cons] at h
      dsimp only
      cases i with
      | zero =>
        obtain ⟨hpair, hbefore, hrefused⟩ := h
        cases hpair
        cases hbefore
        have hcan : (args[First]).canGet P U s' = (false, _) := Prod.ext hrefused rfl
        rw [checkGet_of_not_canGet hcan]
        exact ⟨_, rfl⟩
      | succ i =>
        obtain ⟨hpair, hbefore, hrefused⟩ := h
        rw [List.take_succ_cons, canGetAll] at hbefore
        rcases hcan : (args[First]).canGet P U₀ s with ⟨_ | _, s₁⟩ <;> rw [hcan] at hbefore
        · cases hbefore
        · rw [checkGet_of_canGet hcan]
          obtain ⟨s'', hrest⟩ := ih (First + 1) ⟨hpair, hbefore, hrefused⟩
          rw [Nat.add_right_comm] at hrest
          exact ⟨s'', hrest⟩
    · have hpair := h.pair
      rw [List.drop_eq_nil_of_le (by omega), List.zip_nil_left] at hpair
      cases hpair

theorem invoke_of_firstBad (harity : args.length = f.traits.argCount)
    (hobj : f.traits.isStatic = false → obj.isVoid = false)
    (hbad : FirstBad P (args.zip f.traits.args) w.reg i v U s) :
    (f.invoke P args obj w).result =
      .ok (.error (.ofArgument { error := .canNotGet, index := i })) := by
  obtain ⟨s', hcheck⟩ := checkArgsImpl_of_firstBad args 0 f.traits.args hbad
  rw [Nat.zero_add] at hcheck
  have hops : f.operands P args obj f.receiver w.reg =
      (.ok (.error (.ofArgument { error := .canNotGet, index := i })), s') :=
    RegM.andThen_of_ok hcheck
  have hreach : (f.traits.isStatic || !obj.isVoid) = true := by
    cases hstatic : f.traits.isStatic with
    | true => rfl
    | false => rw [hobj hstatic]; rfl
  rw [FunctionWrapper.invoke_eq, if_neg (not_not_intro harity), if_pos hreach,
    FunctionWrapper.invokeImplWith, hops]
  rfl

theorem reports_iff (harity : args.length = f.traits.argCount)
    (hobj : f.traits.isStatic = false → obj.isVoid = false)
    (hbad : FirstBad P (args.zip f.traits.args) w.reg i v U s) :
    Reports P f args obj w i v U s ↔ v.isVoid = false := by
  have hresult := invoke_of_firstBad harity hobj hbad
  have hcan : v.canGet P U s = (false, _) := Prod.ext hbad.refused rfl
  have himpl := Variant.getImpl_of_not_canGet hcan
  constructor
  · rintro ⟨e, he, hreport⟩
    rw [hresult] at hreport
    cases hreport
    by_contra hvoid
    rw [Bool.not_eq_false] at hvoid
    rw [himpl, Variant.fault_of_isVoid hvoid] at he
    cases he
  · intro hvoid
    rw [Variant.fault_of_not_isVoid hvoid] at himpl
    exact ⟨.canNotGet, congrArg Prod.fst himpl, hresult⟩

theorem checkGet_predicts_iff (P : Program L) (τ : Traits L) (V : Type) :
    (∀ (v : Variant L) (U : Ty L) (s : Registry L), Predicts P v U s ↔ v.isVoid = false) ∧
    ∀ (f : FunctionWrapper L V τ) (args : List (Variant L)) (obj : Variant L)
      (w : World L V) (i : Nat) (v : Variant L) (U : Ty L) (s : Registry L),
      args.length = f.traits.argCount → (f.traits.isStatic = false → obj.isVoid = false) →
      FirstBad P (args.zip f.traits.args) w.reg i v U s →
      (Reports P f args obj w i v U s ↔ v.isVoid = false) :=
  ⟨fun _ _ _ => predicts_iff, fun _ _ _ _ _ _ _ _ => reports_iff⟩

/-- An `int` for a parameter of class type. -/
def pointFunction : FunctionWrapper Nat Nat .plain :=
  intFunction none 1 [.obj (.leaf false false (.user 0))] (by decide)

theorem checkGet_predicts_point :
    Predicts .plain intVariant (.obj (.leaf false false (.user 0))) intRegistry ∧
      Reports .plain pointFunction [intVariant] .void intWorld 0 intVariant
        (.obj (.leaf false false (.user 0))) intRegistry := by
  obtain ⟨hpredicts, hreports⟩ := checkGet_predicts_iff .plain .plain Nat
  refine ⟨(hpredicts _ _ _).mpr rfl, ?_⟩
  exact (hreports _ _ _ _ _ _ _ _ rfl (fun h => absurd h (by decide)) ⟨rfl, rfl, rfl⟩).mpr rfl

/-- A void argument for an `int` parameter. -/
theorem not_predicts_void :
    ¬ Predicts .plain .void (.obj int) intRegistry ∧
      ¬ Reports .plain (intFunction none 1 [.obj int] (by decide)) [.void] .void intWorld 0
        .void (.obj int) intRegistry := by
  constructor
  · intro hpredicts
    have himpl := (hpredicts.error_iff .canNotGet).mp rfl
    cases himpl
  · rintro ⟨e, he, hreport⟩
    cases he
    cases hreport

end Invoke

end ReflCpp
