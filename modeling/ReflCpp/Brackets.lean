import Mathlib.Data.List.Count
import Mathlib.Data.List.Infix

/-! Words over an alphabet with an opening and a closing bracket: the depth that reading a
word leads to, and balanced words. -/

universe u v

namespace ReflCpp.Brackets

variable {α : Type u} {β : Type v} [DecidableEq α]

/-- The depth after one letter, if it closes no bracket that is not open. -/
def step (op cl : α) (n : Nat) (a : α) : Option Nat :=
  if a = op then some (n + 1)
  else if a = cl then if n = 0 then none else some (n - 1)
  else some n

/-- The depth after a word read from depth `n`. -/
def depth (op cl : α) (n : Nat) (s : List α) : Option Nat := s.foldlM (step op cl) n

/-- No beginning of the word closes more than it has opened, and at the end all that was
opened is closed. -/
structure Balanced (op cl : α) (s : List α) : Prop where
  opened : ∀ p, p <+: s → p.count cl ≤ p.count op
  closed : s.count op = s.count cl

/-- From any depth at or above `a`, the word leads as far up or down as from `a` to `b`. -/
def Leads (op cl : α) (s : List α) (a b : Nat) : Prop :=
  ∀ k, depth op cl (a + k) s = some (b + k)

section Depth

variable {op cl : α} {s t : List α} {a b c n : Nat}

theorem depth_cons (n : Nat) (a : α) (s : List α) :
    depth op cl n (a :: s) = (step op cl n a).bind fun m => depth op cl m s :=
  List.foldlM_cons

theorem depth_append (n : Nat) (s t : List α) :
    depth op cl n (s ++ t) = (depth op cl n s).bind fun m => depth op cl m t :=
  List.foldlM_append

theorem step_add {x : α} (k : Nat) (h : step op cl a x = some b) :
    step op cl (a + k) x = some (b + k) := by
  unfold step at h ⊢
  split at h
  · cases h
    rw [if_pos ‹_›, Nat.add_right_comm]
  · rw [if_neg ‹_›]
    split at h
    · split at h
      · cases h
      · cases h
        rw [if_pos ‹_›, if_neg (by omega), Nat.sub_add_comm (by omega)]
    · cases h
      rw [if_neg ‹_›]

theorem depth_add (k : Nat) (h : depth op cl a s = some b) :
    depth op cl (a + k) s = some (b + k) := by
  induction s generalizing a with
  | nil =>
    cases h
    rfl
  | cons x s ih =>
    rw [depth_cons] at h ⊢
    obtain ⟨c, hc, hrest⟩ := Option.bind_eq_some_iff.mp h
    rw [step_add k hc]
    exact ih hrest

theorem leads_of_depth (h : depth op cl a s = some b) : Leads op cl s a b :=
  fun k => depth_add k h

theorem leads_nil (a : Nat) : Leads op cl ([] : List α) a a := fun _ => rfl

theorem Leads.append (hs : Leads op cl s a b) (ht : Leads op cl t b c) :
    Leads op cl (s ++ t) a c := by
  intro k
  rw [depth_append, hs k]
  exact ht k

theorem leads_of_notMem (hop : op ∉ s) (hcl : cl ∉ s) (a : Nat) : Leads op cl s a a := by
  intro k
  induction s with
  | nil => rfl
  | cons x s ih =>
    rw [List.mem_cons, not_or] at hop hcl
    have hx : step op cl (a + k) x = some (a + k) := by
      rw [step, if_neg (Ne.symm hop.1), if_neg (Ne.symm hcl.1)]
    rw [depth_cons, hx]
    exact ih hop.2 hcl.2

/-- Pieces that each return to the depth they start from do so one after the other. -/
theorem leads_flatMap {f : β → List α} {xs : List β}
    (h : ∀ x ∈ xs, Leads op cl (f x) a a) : Leads op cl (xs.flatMap f) a a := by
  induction xs with
  | nil => exact leads_nil a
  | cons x xs ih =>
    rw [List.flatMap_cons]
    exact (h x List.mem_cons_self).append (ih fun y hy => h y (List.mem_cons_of_mem _ hy))

end Depth

section Balanced

variable {op cl : α} {s : List α} {n m : Nat}

omit [DecidableEq α] in
theorem forall_isPrefix_cons {p : List α → Prop} {x : α} {s : List α} (hnil : p []) :
    (∀ q, q <+: x :: s → p q) ↔ ∀ q, q <+: s → p (x :: q) := by
  constructor
  · intro h q hq
    exact h (x :: q) ((List.prefix_cons_inj x).mpr hq)
  · intro h q hq
    cases q with
    | nil => exact hnil
    | cons y q =>
      obtain ⟨rfl, htail⟩ := List.cons_prefix_cons.mp hq
      exact h q htail

/-- The depth counts the brackets, and exists as long as no beginning closes too many. -/
theorem depth_eq_some_iff (hne : op ≠ cl) :
    depth op cl n s = some m ↔
      (∀ p, p <+: s → p.count cl ≤ n + p.count op) ∧ n + s.count op = m + s.count cl := by
  induction s generalizing n with
  | nil => simp [depth, List.prefix_nil]
  | cons x s ih =>
    rw [depth_cons, step, forall_isPrefix_cons (by simp)]
    by_cases hop : x = op
    · subst hop
      simp only [if_pos, Option.bind_some, ih, List.count_cons_self,
        List.count_cons_of_ne hne, Nat.add_assoc, Nat.add_comm 1]
    · by_cases hcl : x = cl
      · subst hcl
        rw [if_neg hop, if_pos rfl]
        simp only [List.count_cons_self, List.count_cons_of_ne hop]
        cases n with
        | zero =>
          simp only [if_pos, Option.bind_none, reduceCtorEq, false_iff]
          intro h
          have hnil := h.1 [] List.nil_prefix
          simp at hnil
        | succ n =>
          rw [if_neg (Nat.succ_ne_zero n), Nat.add_sub_cancel, Option.bind_some, ih]
          refine and_congr (forall₂_congr fun p hp => ?_) ?_ <;> omega
      · rw [if_neg hop, if_neg hcl, Option.bind_some, ih]
        simp only [List.count_cons_of_ne hop, List.count_cons_of_ne hcl]

theorem balanced_iff (hne : op ≠ cl) : Balanced op cl s ↔ depth op cl 0 s = some 0 := by
  rw [depth_eq_some_iff hne]
  simp only [Nat.zero_add]
  exact ⟨fun h => ⟨h.opened, h.closed⟩, fun h => ⟨h.1, h.2⟩⟩

end Balanced

end ReflCpp.Brackets
