import Mathlib.Data.List.Nodup
import Mathlib.Logic.ExistsUnique
import ReflCpp.Cpp.Types

/-! Class template partial specialisation for templates with one type parameter:
deduction of the parameter from a pattern, the "more specialised" ordering of
patterns, and the choice among the specialisations that match. -/

universe u v

namespace ReflCpp.Cpp

variable {A : Type u} {α : Type v}

/-- Deduce the template parameter of a pattern from an object type.  The
qualifiers written in the pattern must be present and are not part of the
deduced argument; below a pointer the qualifiers must agree exactly. -/
def Obj.deduce : Obj Unit → Obj A → Option (Obj A)
  | .leaf c v (), t =>
    if (!c || t.isConst) && (!v || t.isVolatile) then some (t.strip c v) else none
  | .ptr c v p, .ptr c' v' t => if c = c' ∧ v = v' then p.deduce t else none
  | .ptr _ _ _, .leaf _ _ _ => none

def Ty.deduce : Ty Unit → Ty A → Option (Obj A)
  | .obj p, .obj t => p.deduce t
  | .lref p, .lref t => p.deduce t
  | .rref p, .rref t => p.deduce t
  | _, _ => none

/-- `p` is at least as specialised as `q`: `q` can be deduced from `p`, taking
`p`'s own parameter for a type of its own. -/
def Ty.atLeastAsSpecialized (p q : Ty Unit) : Bool := (q.deduce p).isSome

def Ty.moreSpecialized (p q : Ty Unit) : Bool :=
  p.atLeastAsSpecialized q && !q.atLeastAsSpecialized p

theorem Obj.rank_of_deduce (rk : A → Nat) {p : Obj Unit} {t T : Obj A}
    (h : p.deduce t = some T) : t.rank rk = T.rank rk + p.rank fun _ => 0 := by
  induction p generalizing t with
  | leaf c v a =>
    simp only [Obj.deduce, Option.ite_none_right_eq_some, Option.some.injEq,
      Bool.and_eq_true, Bool.or_eq_true, Bool.not_eq_true'] at h
    obtain ⟨⟨hc, hv⟩, rfl⟩ := h
    have hr := Obj.rank_strip rk (c := c) (v := v) (t := t)
      (by intro h; simpa [h] using hc) (by intro h; simpa [h] using hv)
    simp only [Obj.rank]
    omega
  | ptr c v p ih =>
    cases t with
    | leaf => simp [Obj.deduce] at h
    | ptr c' v' t =>
      simp only [Obj.deduce, Option.ite_none_right_eq_some] at h
      obtain ⟨⟨rfl, rfl⟩, h⟩ := h
      have ht := ih h
      simp only [Obj.rank]
      omega

theorem Ty.rank_of_deduce (rk : A → Nat) {p : Ty Unit} {t : Ty A} {T : Obj A}
    (h : p.deduce t = some T) : t.rank rk = T.rank rk + p.rank fun _ => 0 := by
  cases p <;> cases t <;> simp only [Ty.deduce, reduceCtorEq] at h <;>
    have hr := Obj.rank_of_deduce rk h <;> simp only [Ty.rank] <;> omega

theorem Obj.inst_of_deduce {p : Obj Unit} {t T : Obj A} (h : p.deduce t = some T) :
    p.inst T = t := by
  induction p generalizing t with
  | leaf c v a =>
    simp only [Obj.deduce, Option.ite_none_right_eq_some, Option.some.injEq,
      Bool.and_eq_true, Bool.or_eq_true, Bool.not_eq_true'] at h
    obtain ⟨⟨hc, hv⟩, rfl⟩ := h
    exact Obj.qualify_strip (by rintro rfl; simpa using hc) (by rintro rfl; simpa using hv)
  | ptr c v p ih =>
    cases t with
    | leaf => simp [Obj.deduce] at h
    | ptr c' v' t =>
      simp only [Obj.deduce, Option.ite_none_right_eq_some] at h
      obtain ⟨⟨rfl, rfl⟩, h⟩ := h
      exact congrArg (Obj.ptr c v) (ih h)

theorem Ty.inst_of_deduce {p : Ty Unit} {t : Ty A} {T : Obj A} (h : p.deduce t = some T) :
    p.inst T = t := by
  cases p <;> cases t <;> simp only [Ty.deduce, reduceCtorEq] at h
  · exact congrArg Ty.obj (Obj.inst_of_deduce h)
  · exact congrArg Ty.lref (Obj.inst_of_deduce h)
  · exact congrArg Ty.rref (Obj.inst_of_deduce h)

/-- A partial specialisation: its pattern, its requires clause on the deduced
argument, and what its body defines. -/
structure Specialization (A : Type u) (α : Type v) where
  pat : Ty Unit
  requires : Obj A → Bool
  body : α

def Specialization.deduce (s : Specialization A α) (t : Ty A) : Option (Obj A) :=
  (s.pat.deduce t).filter s.requires

/-- What a template-id names: the primary template when no specialisation
matches, the most specialised match, or nothing when there is none. -/
inductive Selection (A : Type u) (α : Type v) : Type (max u v)
  | primary
  | chosen (body : α) (T : Obj A)
  | ambiguous

def candidates (specs : List (Specialization A α)) (t : Ty A) :
    List (Specialization A α × Obj A) :=
  specs.filterMap fun s => (s.deduce t).map fun T => (s, T)

def select (specs : List (Specialization A α)) (t : Ty A) : Selection A α :=
  match candidates specs t with
  | [] => .primary
  | cs =>
    match cs.find? fun c => cs.all fun d =>
        c.1.pat = d.1.pat || c.1.pat.moreSpecialized d.1.pat with
    | some c => .chosen c.1.body c.2
    | none => .ambiguous

theorem select_chosen {specs : List (Specialization A α)} {t : Ty A} {b : α} {T : Obj A}
    (h : select specs t = .chosen b T) :
    ∃ s ∈ specs, s.body = b ∧ s.requires T = true ∧ s.pat.deduce t = some T := by
  unfold select at h
  split at h
  · cases h
  · split at h
    next c hc =>
      cases h
      obtain ⟨s, hs, hd⟩ := List.mem_filterMap.mp (List.mem_of_find?_eq_some hc)
      obtain ⟨T, hT, rfl⟩ := Option.map_eq_some_iff.mp hd
      obtain ⟨hp, hr⟩ := Option.filter_eq_some_iff.mp hT
      exact ⟨s, hs, rfl, hr, hp⟩
    next => cases h

section MostSpecialized

variable {specs : List (Specialization A α)} {t : Ty A} {c d : Specialization A α × Obj A}

/-- `c` matches, and is more specialised than every other match. -/
structure IsMostSpecialized (specs : List (Specialization A α)) (t : Ty A)
    (c : Specialization A α × Obj A) : Prop where
  mem : c ∈ candidates specs t
  more : ∀ d ∈ candidates specs t, d ≠ c → c.1.pat.moreSpecialized d.1.pat = true

theorem Ty.moreSpecialized_asymm {p q : Ty Unit} (h : p.moreSpecialized q = true) :
    q.moreSpecialized p = false := by
  simp only [moreSpecialized, Bool.and_eq_true, Bool.not_eq_true', Bool.and_eq_false_iff] at h ⊢
  exact .inl h.2

theorem IsMostSpecialized.unique (hc : IsMostSpecialized specs t c)
    (hd : IsMostSpecialized specs t d) : c = d := by
  by_contra hne
  have hcd := hc.more d hd.mem (Ne.symm hne)
  have hdc := hd.more c hc.mem hne
  rw [Ty.moreSpecialized_asymm hcd] at hdc
  cases hdc

theorem mem_candidates :
    c ∈ candidates specs t ↔ c.1 ∈ specs ∧ c.1.deduce t = some c.2 := by
  simp only [candidates, List.mem_filterMap, Option.map_eq_some_iff]
  constructor
  · rintro ⟨s, hs, T, hT, rfl⟩
    exact ⟨hs, hT⟩
  · rintro ⟨hs, hT⟩
    exact ⟨c.1, hs, c.2, hT, rfl⟩

theorem candidate_eq_of_pat (hspecs : (specs.map Specialization.pat).Nodup)
    (hc : c ∈ candidates specs t) (hd : d ∈ candidates specs t) (h : c.1.pat = d.1.pat) :
    c = d := by
  obtain ⟨hcs, hcT⟩ := mem_candidates.mp hc
  obtain ⟨hds, hdT⟩ := mem_candidates.mp hd
  have hbody : c.1 = d.1 := List.inj_on_of_nodup_map hspecs hcs hds h
  rw [hbody, hdT, Option.some.injEq] at hcT
  exact Prod.ext hbody hcT.symm

/-- A template-id names a specialisation exactly if one match is more specialised than all
others. -/
theorem select_chosen_iff (hspecs : (specs.map Specialization.pat).Nodup) :
    (∃ b T, select specs t = .chosen b T) ↔ ∃! c, IsMostSpecialized specs t c := by
  constructor
  · rintro ⟨b, T, h⟩
    unfold select at h
    split at h
    · cases h
    · split at h
      next c hc =>
        have hmem := List.mem_of_find?_eq_some hc
        have hmore := List.find?_some hc
        simp only [List.all_eq_true, Bool.or_eq_true, decide_eq_true_eq] at hmore
        have hmost : IsMostSpecialized specs t c := by
          refine ⟨hmem, fun d hd hne => (hmore d hd).resolve_left fun hpat => ?_⟩
          exact hne (candidate_eq_of_pat hspecs hmem hd hpat).symm
        exact ⟨c, hmost, fun d hd => hd.unique hmost⟩
      next => cases h
  · rintro ⟨c, hc, _⟩
    unfold select
    split
    next hnil =>
      have hmem := hc.mem
      rw [hnil] at hmem
      cases hmem
    next =>
      split
      next => exact ⟨_, _, rfl⟩
      next hnone =>
        have hnot := List.find?_eq_none.mp hnone c hc.mem
        apply absurd _ hnot
        simp only [List.all_eq_true, Bool.or_eq_true, decide_eq_true_eq]
        intro d hd
        by_cases hdc : d = c
        · exact .inl (by rw [hdc])
        · exact .inr (hc.more d hd hdc)

/-- One template applies: a match that is more specialised than all others, or the primary
template if there is no match. -/
def Unambiguous (specs : List (Specialization A α)) (t : Ty A) : Prop :=
  candidates specs t = [] ∨ ∃! c, IsMostSpecialized specs t c

theorem select_eq_primary : select specs t = .primary ↔ candidates specs t = [] := by
  unfold select
  split
  next h => exact iff_of_true rfl h
  next h => split <;> exact iff_of_false nofun h

theorem unambiguous_iff (hspecs : (specs.map Specialization.pat).Nodup) :
    Unambiguous specs t ↔ select specs t ≠ .ambiguous := by
  rw [Unambiguous, ← select_eq_primary, ← select_chosen_iff hspecs]
  cases select specs t <;> simp

end MostSpecialized

end ReflCpp.Cpp
