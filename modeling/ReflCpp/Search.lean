import Mathlib.Data.List.Basic

/-! Searching a list for one condition when another was meant. -/

universe u

namespace ReflCpp.Search

variable {α : Type u} {p q : α → Bool} {xs : List α}

/-- Where `p` is implied by `q`, searching for `p` instead of `q` is right exactly if
what it stops at has `q`. -/
theorem find?_eq_find?_iff (h : ∀ x, q x = true → p x = true) :
    xs.find? q = xs.find? p ↔ ∀ x, xs.find? p = some x → q x = true := by
  constructor
  · intro heq x hx
    rw [← heq] at hx
    exact List.find?_some hx
  · intro hq
    induction xs with
    | nil => rfl
    | cons x xs ih =>
      cases hp : p x with
      | true =>
        have hqx := hq x (List.find?_cons_of_pos hp)
        rw [List.find?_cons_of_pos hp, List.find?_cons_of_pos hqx]
      | false =>
        have hnp : ¬ p x = true := by simp [hp]
        have hnq : ¬ q x = true := fun hqx => hnp (h x hqx)
        rw [List.find?_cons_of_neg hnp] at hq ⊢
        rw [List.find?_cons_of_neg hnq]
        exact ih hq

/-- The result of a search for `p`: the first place that has it, or none. -/
def Finds (p : α → Bool) (xs : List α) : Option (Fin xs.length) → Prop
  | some i => p xs[i] = true ∧ ∀ j < i, p xs[j] = false
  | none => ∀ i : Fin xs.length, p xs[i] = false

theorem finds_findFinIdx? (p : α → Bool) (xs : List α) : Finds p xs (xs.findFinIdx? p) := by
  cases h : xs.findFinIdx? p with
  | none =>
    rw [List.findFinIdx?_eq_none_iff] at h
    intro i
    simpa using h xs[i] (List.getElem_mem i.isLt)
  | some i =>
    obtain ⟨hi, hlt⟩ := List.findFinIdx?_eq_some_iff.mp h
    refine ⟨hi, ?_⟩
    intro j hj
    simpa using hlt j hj

theorem Finds.unique {r r' : Option (Fin xs.length)} (h : Finds p xs r)
    (h' : Finds p xs r') : r = r' := by
  rcases r with _ | i <;> rcases r' with _ | j
  · rfl
  · have hj := h j
    rw [h'.1] at hj
    cases hj
  · have hi := h' i
    rw [h.1] at hi
    cases hi
  · rcases Nat.lt_trichotomy i.val j.val with hij | hij | hij
    · have hi := h'.2 i hij
      rw [h.1] at hi
      cases hi
    · rw [Fin.ext hij]
    · have hj := h.2 j hij
      rw [h'.1] at hj
      cases hj

theorem finds_findFinIdx?_iff (h : ∀ x, q x = true → p x = true) :
    Finds p xs (xs.findFinIdx? q) ↔ ∀ i, Finds p xs (some i) → q xs[i] = true := by
  constructor
  · intro hfinds i hi
    have hq := finds_findFinIdx? q xs
    rw [hfinds.unique hi] at hq
    exact hq.1
  · intro hfirst
    have hp := finds_findFinIdx? p xs
    have heq : xs.findFinIdx? q = xs.findFinIdx? p := by
      apply (finds_findFinIdx? q xs).unique
      cases hr : xs.findFinIdx? p with
      | none =>
        rw [hr] at hp
        intro i
        rw [Bool.eq_false_iff]
        exact fun hqi => Bool.false_ne_true ((hp i).symm.trans (h _ hqi))
      | some i =>
        rw [hr] at hp
        refine ⟨hfirst i hp, ?_⟩
        intro j hj
        rw [Bool.eq_false_iff]
        exact fun hqj => Bool.false_ne_true ((hp.2 j hj).symm.trans (h _ hqj))
    rw [heq]
    exact hp

end ReflCpp.Search
