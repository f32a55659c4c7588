import Mathlib.Data.List.Induction

/-! Invariants of the runs of a machine. -/

universe u v

namespace ReflCpp.Runs

variable {S : Type u} {A : Type v} {step : S → A → S} {inv : S → Prop} {ok : S → A → Prop}

theorem inv_run (hinv : ∀ s a, inv s → inv (step s a)) (as : List A) (s : S) (hs : inv s) :
    inv (as.foldl step s) := by
  induction as generalizing s with
  | nil => exact hs
  | cons a as ih => exact ih (step s a) (hinv s a hs)

theorem foldl_concat (step : S → A → S) (s : S) (as : List A) (a : A) :
    (as ++ [a]).foldl step s = step (as.foldl step s) a := by
  rw [List.foldl_append]
  rfl

/-- What every step that is `ok` preserves holds along a run, if each of its steps is as
soon as the invariant has held up to it. -/
theorem inv_of_prefixes {s : S} (hs : inv s) (hinv : ∀ s a, inv s → ok s a → inv (step s a))
    {as : List A} (hok : ∀ before a, before ++ [a] <+: as → inv (before.foldl step s) →
      ok (before.foldl step s) a) {before : List A} (hbefore : before <+: as) :
    inv (before.foldl step s) := by
  induction before using List.reverseRecOn with
  | nil => exact hs
  | append_singleton before a ih =>
    have h := ih ((List.prefix_append before [a]).trans hbefore)
    rw [foldl_concat]
    exact hinv _ a h (hok before a hbefore h)

end ReflCpp.Runs
