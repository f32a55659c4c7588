import Mathlib.Data.List.Basic
import Mathlib.Logic.Relation

/-! Interning: a table of keys that only grows, by keys it does not hold yet.
A key's number is its position counted from one, and zero stands for a key that
is not in the table. -/

universe u

namespace ReflCpp.Interning

variable {K : Type u} {ks ls : List K} {k l : K}

section Number

variable [DecidableEq K]

def number (ks : List K) (k : K) : Nat :=
  if k ∈ ks then ks.idxOf k + 1 else 0

theorem number_eq_zero : number ks k = 0 ↔ k ∉ ks := by
  simp [number]

theorem number_pos : 0 < number ks k ↔ k ∈ ks := by
  rw [Nat.pos_iff_ne_zero, ne_eq, number_eq_zero, not_not]

theorem number_le_length (ks : List K) (k : K) : number ks k ≤ ks.length := by
  by_cases hk : k ∈ ks
  · simpa [number, hk] using Nat.succ_le_of_lt (List.idxOf_lt_length_of_mem hk)
  · simp [number, hk]

theorem getElem?_of_number (hk : k ∈ ks) : ks[number ks k - 1]? = some k := by
  have hlt := List.idxOf_lt_length_of_mem hk
  simp only [number, hk, if_true, Nat.add_sub_cancel]
  rw [List.getElem?_eq_getElem hlt, List.getElem_idxOf]

theorem number_inj (hk : k ∈ ks) : number ks k = number ks l ↔ k = l := by
  constructor
  · intro h
    have hl : l ∈ ks := number_pos.mp (h ▸ number_pos.mpr hk)
    have hkl := getElem?_of_number hk
    rw [h, getElem?_of_number hl] at hkl
    exact (Option.some.inj hkl).symm
  · rintro rfl; rfl

theorem number_append_self (hk : k ∉ ks) : number (ks ++ [k]) k = ks.length + 1 := by
  simp [number, List.idxOf_append_of_notMem hk]

theorem number_append_of_ne (h : l ≠ k) : number (ks ++ [k]) l = number ks l := by
  by_cases hl : l ∈ ks
  · simp [number, hl, List.idxOf_append_of_mem hl]
  · simp [number, hl, h]

end Number

inductive Grow : List K → List K → Prop
  | append {ks : List K} {k : K} (h : k ∉ ks) : Grow ks (ks ++ [k])

abbrev Grows : List K → List K → Prop := Relation.ReflTransGen Grow

theorem Grows.nodup (h : Grows ks ls) (hks : ks.Nodup) : ls.Nodup := by
  induction h with
  | refl => exact hks
  | tail _ h ih =>
    cases h with
    | append hk =>
      rw [List.nodup_append]
      refine ⟨ih, by simp, ?_⟩
      intro a ha b hb
      rw [List.mem_singleton.mp hb]
      exact ne_of_mem_of_not_mem ha hk

end ReflCpp.Interning
