import Mathlib.Data.List.Forall2

/-! A list that a computation fills in place, one element after the other, and that
the first failure leaves as far as it got. -/

universe u v w x

namespace ReflCpp.Filling

variable {α : Type u} {β : Type v} {ε : Type w} {σ : Type x}

section Fill

variable (f : α → σ → Except ε β × σ)

def fill : List α → List β → σ → (Except ε Unit × List β) × σ
  | [], bs, s => ((.ok (), bs), s)
  | a :: as, bs, s =>
    match f a s with
    | (.error e, s) => ((.error e, bs), s)
    | (.ok b, s) => fill as (bs ++ [b]) s

/-- Every element is computed, each in the state that the one before has left. -/
def AllOk : List α → σ → Prop
  | [], _ => True
  | a :: as, s => (∃ b, (f a s).1 = .ok b) ∧ AllOk as (f a s).2

/-- The first element is computed, and a later one is not. -/
def FailsLate : List α → σ → Prop
  | [], _ => False
  | a :: as, s => (∃ b, (f a s).1 = .ok b) ∧ ¬ AllOk f as (f a s).2

variable {f} {as : List α} {bs : List β} {s : σ}

theorem fill_ok_iff (bs : List β) : (∃ u, (fill f as bs s).1.1 = .ok u) ↔ AllOk f as s := by
  induction as generalizing bs s with
  | nil => exact iff_of_true ⟨(), rfl⟩ trivial
  | cons a as ih =>
    rw [fill, AllOk]
    rcases f a s with ⟨e | b, s'⟩
    · simp
    · simpa using ih (bs ++ [b])

theorem fill_isPrefix (as : List α) (bs : List β) (s : σ) :
    bs <+: (fill f as bs s).1.2 := by
  induction as generalizing bs s with
  | nil => exact List.prefix_rfl
  | cons a as ih =>
    rw [fill]
    rcases f a s with ⟨e | b, s'⟩
    · exact List.prefix_rfl
    · exact (List.prefix_append bs [b]).trans (ih (bs ++ [b]) s')

theorem length_fill_lt (bs : List β) (h : ¬ AllOk f as s) :
    (fill f as bs s).1.2.length < bs.length + as.length := by
  induction as generalizing bs s with
  | nil => exact absurd trivial h
  | cons a as ih =>
    rw [AllOk] at h
    rw [fill]
    rcases hf : f a s with ⟨e | b, s'⟩
    · simp
    · have hrest : ¬ AllOk f as s' := fun hall => h ⟨⟨b, by rw [hf]⟩, by rwa [hf]⟩
      have hlt := ih (bs ++ [b]) hrest
      rw [List.length_append, List.length_singleton] at hlt
      rw [List.length_cons]
      dsimp only
      omega

/-- A late failure leaves a list that is neither empty nor complete. -/
theorem fill_of_failsLate (h : FailsLate f as s) :
    (∃ e, (fill f as [] s).1.1 = .error e) ∧ (fill f as [] s).1.2 ≠ [] ∧
      (fill f as [] s).1.2.length < as.length := by
  cases as with
  | nil => exact h.elim
  | cons a as =>
    obtain ⟨⟨b, hb⟩, hrest⟩ := h
    have hf : f a s = (.ok b, (f a s).2) := Prod.ext hb rfl
    have hfill : fill f (a :: as) [] s = fill f as [b] (f a s).2 := by
      rw [fill, hf]
      rfl
    have herror := (fill_ok_iff [b]).not.mpr hrest
    have hlt := length_fill_lt [b] hrest
    rw [hfill, List.length_cons]
    refine ⟨?_, ?_, ?_⟩
    · rcases hr : (fill f as [b] (f a s).2).1.1 with e | u
      · exact ⟨e, rfl⟩
      · exact absurd ⟨u, hr⟩ herror
    · intro hnil
      have hprefix := fill_isPrefix (f := f) as [b] (f a s).2
      rw [hnil] at hprefix
      simp at hprefix
    · simpa [Nat.add_comm] using hlt

/-- A failure that is not late leaves the list empty. -/
theorem fill_of_not_failsLate (hlate : ¬ FailsLate f as s) (hall : ¬ AllOk f as s) :
    (fill f as [] s).1.2 = [] := by
  cases as with
  | nil => exact absurd trivial hall
  | cons a as =>
    rw [FailsLate] at hlate
    rw [AllOk] at hall
    rw [fill]
    rcases hf : f a s with ⟨e | b, s'⟩
    · rfl
    · rw [hf] at hlate hall
      have hb : ∃ b' : β, (Except.ok b : Except ε β) = .ok b' := ⟨b, rfl⟩
      exact absurd (not_not.mp fun hrest => hlate ⟨hb, hrest⟩) fun hrest => hall ⟨hb, hrest⟩

section Values

variable {inv : σ → Prop} {R : σ → α → β → Prop} (hinv : ∀ a s, inv s → inv (f a s).2)
  (hnew : ∀ a s b, inv s → (f a s).1 = .ok b → R (f a s).2 a b)
  (hkeep : ∀ a s a' b', R s a' b' → R (f a s).2 a' b')

include hinv in
theorem inv_fill (as : List α) (bs : List β) (s : σ) (hs : inv s) : inv (fill f as bs s).2 := by
  induction as generalizing bs s with
  | nil => exact hs
  | cons a as ih =>
    have hs' := hinv a s hs
    rw [fill]
    rcases hf : f a s with ⟨e | b, s'⟩ <;> rw [hf] at hs'
    · exact hs'
    · exact ih (bs ++ [b]) s' hs'

include hinv hnew hkeep in
theorem fill_values {as₀ : List α} (hs : inv s) (hbs : List.Forall₂ (R s) as₀ bs)
    (hall : AllOk f as s) :
    List.Forall₂ (R (fill f as bs s).2) (as₀ ++ as) (fill f as bs s).1.2 := by
  induction as generalizing as₀ bs s with
  | nil => simpa [fill] using hbs
  | cons a as ih =>
    obtain ⟨⟨b, hb⟩, hrest⟩ := hall
    have hf : f a s = (.ok b, (f a s).2) := Prod.ext hb rfl
    have hfill : fill f (a :: as) bs s = fill f as (bs ++ [b]) (f a s).2 := by
      rw [fill, hf]
    have hbs' : List.Forall₂ (R (f a s).2) (as₀ ++ [a]) (bs ++ [b]) :=
      List.rel_append (hbs.imp (hkeep a s)) (.cons (hnew a s b hs hb) .nil)
    have htail := ih (hinv a s hs) hbs' hrest
    rw [List.append_assoc] at htail
    rw [hfill]
    exact htail

include hinv hnew hkeep in
/-- Even after a failure the list holds the values of the elements computed so far. -/
theorem fill_values_isPrefix {as₀ : List α} (hs : inv s) (hbs : List.Forall₂ (R s) as₀ bs) :
    ∃ as', as' <+: as ∧ List.Forall₂ (R (fill f as bs s).2) (as₀ ++ as') (fill f as bs s).1.2 := by
  induction as generalizing as₀ bs s with
  | nil => exact ⟨[], List.prefix_rfl, by simpa [fill] using hbs⟩
  | cons a as ih =>
    have hs' := hinv a s hs
    have hbs' := hbs.imp (hkeep a s)
    rw [fill]
    rcases hf : f a s with ⟨e | b, s'⟩ <;> rw [hf] at hs' hbs'
    · exact ⟨[], List.nil_prefix, by simpa using hbs'⟩
    · have hb := hnew a s b hs (by rw [hf])
      rw [hf] at hb
      have hmore : List.Forall₂ (R s') (as₀ ++ [a]) (bs ++ [b]) :=
        List.rel_append hbs' (.cons hb .nil)
      obtain ⟨as', hprefix, hvalues⟩ := ih hs' hmore
      rw [List.append_assoc] at hvalues
      exact ⟨a :: as', (List.prefix_cons_inj a).mpr hprefix, hvalues⟩

end Values

end Fill

end ReflCpp.Filling
