import Mathlib.Data.List.Basic

/-! Machines that reply to their inputs, and simulation between two of them, of which the
one may take inputs that the other knows nothing of. -/

universe u v w x y z

namespace ReflCpp.Simulation

variable {S : Type u} {A : Type v} {R : Type w} {T : Type x} {B : Type y} {O : Type z}

section Machine

variable (step : S → A → R × S)

def final (s : S) (as : List A) : S := as.foldl (fun s a => (step s a).2) s

/-- The replies to the inputs of a run, in order. -/
def replies : S → List A → List R
  | _, [] => []
  | s, a :: as => (step s a).1 :: replies (step s a).2 as

theorem final_append (s : S) (as bs : List A) :
    final step s (as ++ bs) = final step (final step s as) bs := List.foldl_append

end Machine

section Refines

variable {step : S → A → R × S} {step' : T → B → O × T} {shown : A → Bool}
  {fits : A → B → Prop} {seen : R → Option O} {rel : S → T → Prop} {ok : S → A → Prop}

/-- To an input that is shown, the abstract machine gives the same reply for one of the inputs
that fit, and the other inputs leave no trace; this much is asked of a step only where it is
`ok`. -/
structure Refines (step : S → A → R × S) (step' : T → B → O × T) (shown : A → Bool)
    (fits : A → B → Prop) (seen : R → Option O) (rel : S → T → Prop) (ok : S → A → Prop) :
    Prop where
  visible : ∀ s t a, rel s t → ok s a → shown a = true → ∃ b, fits a b ∧
    seen (step s a).1 = some (step' t b).1 ∧ rel (step s a).2 (step' t b).2
  hidden : ∀ s t a, rel s t → ok s a → shown a = false →
    seen (step s a).1 = none ∧ rel (step s a).2 t

theorem Refines.run (h : Refines step step' shown fits seen rel ok) {s : S} {t : T}
    (hrel : rel s t) {as : List A}
    (hok : ∀ before a, before ++ [a] <+: as → ok (final step s before) a) :
    ∃ bs, List.Forall₂ fits (as.filter shown) bs ∧
      (replies step s as).filterMap seen = replies step' t bs ∧
      rel (final step s as) (final step' t bs) := by
  induction as generalizing s t with
  | nil => exact ⟨[], .nil, rfl, hrel⟩
  | cons a as ih =>
    have hhead : ok s a := hok [] a ⟨as, rfl⟩
    have htail : ∀ before b, before ++ [b] <+: as →
        ok (final step (step s a).2 before) b := by
      intro before b hprefix
      exact hok (a :: before) b (List.prefix_cons_inj a |>.mpr hprefix)
    cases hshown : shown a with
    | false =>
      obtain ⟨hseen, hrel'⟩ := h.hidden s t a hrel hhead hshown
      obtain ⟨bs, hfits, hreplies, hfinal⟩ := ih hrel' htail
      refine ⟨bs, ?_, ?_, hfinal⟩
      · rwa [List.filter_cons_of_neg (by rw [hshown]; exact Bool.false_ne_true)]
      · rwa [replies, List.filterMap_cons_none hseen]
    | true =>
      obtain ⟨b, hb, hseen, hrel'⟩ := h.visible s t a hrel hhead hshown
      obtain ⟨bs, hfits, hreplies, hfinal⟩ := ih hrel' htail
      refine ⟨b :: bs, ?_, ?_, hfinal⟩
      · rw [List.filter_cons_of_pos hshown]
        exact .cons hb hfits
      · rw [replies, List.filterMap_cons_some hseen, hreplies]
        rfl

end Refines

section Simulates

variable {step : S → A → R × S} {step' : T → B → O × T} {input : A → Option B}
  {seen : R → Option O} {rel : S → T → Prop} {ok : S → A → Prop}

/-- A refinement in which the abstract input is determined. -/
structure Simulates (step : S → A → R × S) (step' : T → B → O × T) (input : A → Option B)
    (seen : R → Option O) (rel : S → T → Prop) (ok : S → A → Prop) : Prop where
  visible : ∀ s t a b, rel s t → ok s a → input a = some b →
    seen (step s a).1 = some (step' t b).1 ∧ rel (step s a).2 (step' t b).2
  hidden : ∀ s t a, rel s t → ok s a → input a = none →
    seen (step s a).1 = none ∧ rel (step s a).2 t

theorem Simulates.refines (h : Simulates step step' input seen rel ok) :
    Refines step step' (fun a => (input a).isSome) (fun a b => input a = some b) seen rel ok where
  visible := by
    intro s t a hrel hok hshown
    obtain ⟨b, hb⟩ := Option.isSome_iff_exists.mp hshown
    exact ⟨b, hb, h.visible s t a b hrel hok hb⟩
  hidden := by
    intro s t a hrel hok hshown
    exact h.hidden s t a hrel hok (Option.isNone_iff_eq_none.mp (by simpa using hshown))

theorem filterMap_of_fits {as : List A} {bs : List B}
    (h : List.Forall₂ (fun a b => input a = some b) (as.filter fun a => (input a).isSome) bs) :
    as.filterMap input = bs := by
  induction as generalizing bs with
  | nil =>
    cases h
    rfl
  | cons a as ih =>
    cases hin : input a with
    | none =>
      rw [List.filter_cons_of_neg (by rw [hin]; exact Bool.false_ne_true)] at h
      rw [List.filterMap_cons_none hin]
      exact ih h
    | some b =>
      rw [List.filter_cons_of_pos (by rw [hin]; rfl)] at h
      cases h with
      | cons hb hrest =>
        rw [List.filterMap_cons_some hb, ih hrest]

theorem Simulates.run (h : Simulates step step' input seen rel ok) {s : S} {t : T}
    (hrel : rel s t) {as : List A}
    (hok : ∀ before a, before ++ [a] <+: as → ok (final step s before) a) :
    (replies step s as).filterMap seen = replies step' t (as.filterMap input) ∧
      rel (final step s as) (final step' t (as.filterMap input)) := by
  obtain ⟨bs, hfits, hreplies, hfinal⟩ := h.refines.run hrel hok
  rw [filterMap_of_fits hfits]
  exact ⟨hreplies, hfinal⟩

end Simulates

end ReflCpp.Simulation
