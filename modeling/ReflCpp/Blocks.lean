import Mathlib.Data.List.Basic

/-! Objects that span several cells of a memory.  What an object is, is the list of what its
cells hold; storing one changes its cells and no others. -/

universe u

namespace ReflCpp.Blocks

variable {V : Type u}

def load (m : Nat → V) (a n : Nat) : List V := (List.range n).map fun i => m (a + i)

def store (m : Nat → V) (a : Nat) (xs : List V) : Nat → V := fun y =>
  if a ≤ y then xs[y - a]?.getD (m y) else m y

/-- No cell is among both the `n` from `a` on and the `k` from `b` on. -/
def Apart (a n b k : Nat) : Prop := a + n ≤ b ∨ b + k ≤ a

theorem Apart.symm {a n b k : Nat} (h : Apart a n b k) : Apart b k a n := Or.symm h

/-- Parts of what is apart. -/
theorem Apart.of_parts {a n b k x n' y k' : Nat} (h : Apart a n b k) (hx : x + n' ≤ n)
    (hy : y + k' ≤ k) : Apart (a + x) n' (b + y) k' := by
  rcases h with h | h
  · exact .inl (by omega)
  · exact .inr (by omega)

theorem Apart.shift {a n b k : Nat} (h : Apart a n b k) (o : Nat) :
    Apart (o + a) n (o + b) k := by
  rcases h with h | h
  · exact .inl (by omega)
  · exact .inr (by omega)

variable {m m' : Nat → V} {a b n k y : Nat} {xs : List V}

@[simp] theorem length_load : (load m a n).length = n := by simp [load]

theorem getElem?_load (h : k < n) : (load m a n)[k]? = some (m (a + k)) := by
  simp [load, h]

theorem load_congr (h : ∀ i < n, m (a + i) = m' (b + i)) : load m a n = load m' b n := by
  apply List.map_congr_left
  intro i hi
  exact h i (List.mem_range.mp hi)

theorem store_before (h : y < a) : store m a xs y = m y := by
  rw [store, if_neg (Nat.not_le.mpr h)]

theorem store_after (h : a + xs.length ≤ y) : store m a xs y = m y := by
  have hnone : xs[y - a]? = none := List.getElem?_eq_none (by omega)
  rw [store, hnone, Option.getD_none, ite_self]

theorem store_of_outside (h : ¬ (a ≤ y ∧ y < a + xs.length)) : store m a xs y = m y := by
  by_cases hle : a ≤ y
  · exact store_after (Nat.not_lt.mp fun hlt => h ⟨hle, hlt⟩)
  · exact store_before (Nat.not_le.mp hle)

theorem store_at (h : k < xs.length) : some (store m a xs (a + k)) = xs[k]? := by
  have hsub : a + k - a = k := by omega
  rw [store, if_pos (Nat.le_add_right a k), hsub, List.getElem?_eq_getElem h, Option.getD_some]

theorem load_store_apart (h : Apart a xs.length b n) :
    load (store m a xs) b n = load m b n := by
  apply load_congr
  intro i hi
  rcases h with h | h
  · exact store_after (by omega)
  · exact store_before (by omega)

/-- A part of what has been stored. -/
theorem load_store_part (h : k + n ≤ xs.length) :
    load (store m a xs) (a + k) n = (xs.drop k).take n := by
  apply List.ext_getElem?
  intro i
  by_cases hi : i < n
  · have hat : some (store m a xs (a + (k + i))) = xs[k + i]? := store_at (by omega)
    rw [getElem?_load hi, Nat.add_assoc, hat, List.getElem?_take_of_lt hi, List.getElem?_drop]
  · have hnone : (load (store m a xs) (a + k) n)[i]? = none :=
      List.getElem?_eq_none (by rw [length_load]; omega)
    rw [hnone, List.getElem?_eq_none]
    rw [List.length_take]
    omega

@[simp] theorem load_store_self : load (store m a xs) a xs.length = xs := by
  have hpart : load (store m a xs) (a + 0) xs.length = (xs.drop 0).take xs.length :=
    load_store_part (Nat.le_of_eq (Nat.zero_add _))
  rw [Nat.add_zero, List.drop_zero, List.take_length] at hpart
  exact hpart

/-- A copy of an object is what the object was. -/
@[simp] theorem load_store_load : load (store m a (load m' b n)) a n = load m' b n := by
  have hself : load (store m a (load m' b n)) a (load m' b n).length = load m' b n :=
    load_store_self
  rwa [length_load] at hself

/-- A part of an object, by its place in the object. -/
theorem take_drop_load (h : k + n ≤ y) : ((load m a y).drop k).take n = load m (a + k) n := by
  apply List.ext_getElem?
  intro i
  by_cases hi : i < n
  · rw [List.getElem?_take_of_lt hi, List.getElem?_drop, getElem?_load (by omega),
      getElem?_load hi, Nat.add_assoc]
  · rw [List.getElem?_eq_none, List.getElem?_eq_none]
    · rw [length_load]
      omega
    · rw [List.length_take]
      omega

end ReflCpp.Blocks
