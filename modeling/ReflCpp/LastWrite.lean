import ReflCpp.Runs
import Mathlib.Logic.Function.Basic

/-! Cells under actions that each store at most one value in one cell: after any
run a cell holds the last value stored into it. -/

universe u v w x

namespace ReflCpp.LastWrite

variable {ι : Type u} {V : Type v} [DecidableEq ι]

def store (σ : ι → V) : Option (ι × V) → ι → V
  | none => σ
  | some (i, x) => Function.update σ i x

theorem store_of_ne {σ : ι → V} {p : ι × V} {i : ι} (h : i ≠ p.1) : store σ (some p) i = σ i :=
  Function.update_of_ne h ..

def lastStored (log : List (ι × V)) (i : ι) : Option V :=
  (log.filterMap fun p => if p.1 = i then some p.2 else none).getLast?

@[simp] theorem lastStored_nil (i : ι) : lastStored ([] : List (ι × V)) i = none := rfl

theorem lastStored_cons (p : ι × V) (log : List (ι × V)) (i : ι) (y : V) :
    (lastStored (p :: log) i).getD y = (lastStored log i).getD (store (fun _ => y) (some p) i) := by
  unfold lastStored
  by_cases h : p.1 = i
  · subst h
    simp [store, List.getLast?_cons]
  · simp [store_of_ne (Ne.symm h), h]

theorem store_congr {σ σ' : ι → V} {i : ι} (h : σ i = σ' i) (e : Option (ι × V)) :
    store σ e i = store σ' e i := by
  cases e with
  | none => exact h
  | some p =>
    by_cases hi : i = p.1
    · subst hi
      simp [store]
    · simp [store_of_ne hi, h]

section Machine

variable {S : Type w} {A : Type x} (step : S → A → S) (stored : S → A → Option (ι × V))

def log : S → List A → List (ι × V)
  | _, [] => []
  | s, a :: as => (stored s a).toList ++ log (step s a) as

variable {step stored} {inv : S → Prop}

/-- Where each step acts on the view as what it stores, every run does. -/
theorem view_run (view : S → ι → V) (hinv : ∀ s a, inv s → inv (step s a))
    (hview : ∀ s a, inv s → view (step s a) = store (view s) (stored s a))
    (as : List A) (s : S) (hs : inv s) (i : ι) :
    view (as.foldl step s) i = (lastStored (log step stored s as) i).getD (view s i) := by
  induction as generalizing s with
  | nil => rfl
  | cons a as ih =>
    rw [List.foldl_cons, ih (step s a) (hinv s a hs), hview s a hs, log]
    cases h : stored s a with
    | none => rfl
    | some p =>
      rw [Option.toList_some, List.singleton_append, lastStored_cons]
      exact congrArg _ (store_congr rfl (some p))

omit [DecidableEq ι] in
theorem log_forall {Q : ι × V → Prop} (hinv : ∀ s a, inv s → inv (step s a))
    (hstored : ∀ s a p, inv s → stored s a = some p → Q p) (as : List A) (s : S) (hs : inv s) :
    ∀ p ∈ log step stored s as, Q p := by
  induction as generalizing s with
  | nil => simp [log]
  | cons a as ih =>
    intro p hp
    rw [log, List.mem_append, Option.mem_toList] at hp
    rcases hp with hp | hp
    · exact hstored s a p hs hp
    · exact ih (step s a) (hinv s a hs) p hp

omit [DecidableEq ι] in
theorem log_concat (as : List A) (s : S) (a : A) :
    log step stored s (as ++ [a]) =
      log step stored s as ++ (stored (as.foldl step s) a).toList := by
  induction as generalizing s with
  | nil => simp [log]
  | cons b as ih => rw [List.cons_append, log, log, ih, List.append_assoc, List.foldl_cons]

omit [DecidableEq ι] in
/-- An invariant that speaks of what has been stored so far. -/
theorem inv_log_run {inv : List (ι × V) → S → Prop}
    (hinv : ∀ l s a, inv l s → inv (l ++ (stored s a).toList) (step s a)) (as : List A) {s : S}
    (hs : inv [] s) : inv (log step stored s as) (as.foldl step s) := by
  induction as using List.reverseRecOn with
  | nil => exact hs
  | append_singleton as a ih =>
    rw [log_concat, Runs.foldl_concat]
    exact hinv _ _ a ih

end Machine

theorem lastStored_concat (log : List (ι × V)) (e : Option (ι × V)) (i : ι) (y : V) :
    (lastStored (log ++ e.toList) i).getD y =
      store (fun _ => (lastStored log i).getD y) e i := by
  cases e with
  | none => rw [Option.toList_none, List.append_nil, store]
  | some p =>
    unfold lastStored
    rw [Option.toList_some, List.filterMap_append]
    by_cases h : p.1 = i
    · subst h
      simp [store]
    · simp [store_of_ne (Ne.symm h), h]

theorem lastStored_eq_none {log : List (ι × V)} {i : ι} (h : ∀ p ∈ log, p.1 ≠ i) :
    lastStored log i = none := by
  rw [lastStored, List.getLast?_eq_none_iff, List.filterMap_eq_nil_iff]
  intro p hp
  rw [if_neg (h p hp)]

end ReflCpp.LastWrite
