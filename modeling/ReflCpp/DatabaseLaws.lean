import ReflCpp.DatabaseSteps
import ReflCpp.Interning

namespace ReflCpp

open Cpp Interning

variable {L : Type} [DecidableEq L] {P : Program L}

theorem reflect_snd (T : Ty L) (s : Registry L) :
    (reflect P T s).2 = (reflectID P T s).2 := by
  unfold reflect
  split
  next hv =>
    rw [reflectID_eq, typeInstanceID, if_pos hv]
  next =>
    split
    next e s' h => rw [h]
    next i s' h =>
      split <;> rw [h]

theorem Request.exec_steps (r : Request L) (s : Registry L) :
    Steps (fun _ => True) s (r.exec P s) := by
  cases r with
  | reflectID T fs =>
    exact .head (.faults s fs) ((reflectID_steps T _).mono fun _ _ => trivial)
  | reflect T fs =>
    rw [Request.exec, reflect_snd]
    exact .head (.faults s fs) ((reflectID_steps T _).mono fun _ _ => trivial)

theorem run_steps (rs : List (Request L)) (s : Registry L) :
    Steps (fun _ => True) s (run P rs s) := by
  induction rs generalizing s with
  | nil => exact .refl
  | cons r rs ih => exact (r.exec_steps s).trans (ih _)

theorem Reaches.steps {s s' : Registry L} (h : Reaches P s s') :
    Steps (fun _ => True) s s' := by
  obtain ⟨rs, rfl⟩ := h
  exact run_steps rs s

theorem Reaches.refl (s : Registry L) : Reaches P s s := ⟨[], rfl⟩

abbrev Reachable (P : Program L) (s : Registry L) : Prop := Reaches P .init s

/-- The entries carry their position plus one, taken modulo `2 ^ 32`. -/
def EntryIds (s : Registry L) : Prop :=
  ∀ (i : Nat) (t : TypeEntry L), s.types_[i]? = some t → t.id_ = .ofSize (i + 1)

theorem Step.entryIds {p : Ty L → Prop} {s s' : Registry L} (h : Step p s s')
    (hs : EntryIds s) : EntryIds s' := by
  cases h with
  | faults => exact hs
  | created => exact hs
  | registered T =>
    intro i t ht
    simp only [Registry.registered] at ht
    rcases Nat.lt_trichotomy i s.types_.length with hi | rfl | hi
    · rw [List.getElem?_append_left hi] at ht
      exact hs i t ht
    · simp only [List.getElem?_concat_length, Option.some.injEq] at ht
      rw [← ht]
    · rw [List.getElem?_eq_none (by simpa using Nat.succ_le_of_lt hi)] at ht
      cases ht

theorem Steps.entryIds {p : Ty L → Prop} {s s' : Registry L} (h : Steps p s s')
    (hs : EntryIds s) : EntryIds s' := by
  induction h with
  | refl => exact hs
  | tail _ h ih => exact h.entryIds ih

/-- The statics agree with the entries: each type's id is its number in the
table of registered types. -/
structure WellNumbered (s : Registry L) : Prop where
  void_notMem : Ty.void ∉ s.keys
  nodup : s.keys.Nodup
  id_eq : ∀ T, (s.id T).value = number s.keys T

theorem wellNumbered_init : WellNumbered (.init : Registry L) where
  void_notMem := by simp [Registry.init, Registry.keys]
  nodup := by simp [Registry.init, Registry.keys]
  id_eq := by simp [Registry.init, Registry.keys, number]

theorem WellNumbered.isValid_iff {s : Registry L} (hs : WellNumbered s) {T : Ty L} :
    (s.id T).isValid = true ↔ T ∈ s.keys := by
  rw [TypeID.isValid_iff, hs.id_eq, ne_eq, number_eq_zero, not_not]

theorem WellNumbered.step {p : Ty L → Prop} {s s' : Registry L} (h : Step p s s')
    (hs : WellNumbered s) (hlen : s'.types_.length < 2 ^ 32) :
    WellNumbered s' ∧ Grows s.keys s'.keys := by
  cases h with
  | faults => exact ⟨⟨hs.1, hs.2, hs.3⟩, .refl⟩
  | created => exact ⟨⟨hs.1, hs.2, hs.3⟩, .refl⟩
  | registered T _ hv hid =>
    have hT : T ∉ s.keys := by simp [← hs.isValid_iff, hid]
    have hgrows : Grows s.keys (s.keys ++ [T]) := .single (.append hT)
    rw [Registry.length_registered] at hlen
    refine ⟨⟨?_, ?_, ?_⟩, ?_⟩
    · simpa [eq_comm] using And.intro hs.void_notMem hv
    · simpa using hgrows.nodup hs.nodup
    · intro U
      rw [Registry.keys_registered]
      by_cases hU : U = T
      · rw [hU, Registry.id_registered_self, TypeID.value_ofSize, Nat.mod_eq_of_lt hlen,
          number_append_self hT, s.keys_length]
      · rw [Registry.id_registered_of_ne s hU, number_append_of_ne hU]
        exact hs.id_eq U
    · simpa using hgrows

/-- The registry refines an interning table as long as the ids do not wrap. -/
theorem WellNumbered.steps {p : Ty L → Prop} {s s' : Registry L} (h : Steps p s s')
    (hs : WellNumbered s) (hlen : s'.types_.length < 2 ^ 32) :
    WellNumbered s' ∧ Grows s.keys s'.keys := by
  induction h with
  | refl => exact ⟨hs, .refl⟩
  | tail _ h ih =>
    obtain ⟨hs', hg⟩ := ih (Nat.lt_of_le_of_lt h.length_le hlen)
    obtain ⟨hs'', hg'⟩ := WellNumbered.step h hs' hlen
    exact ⟨hs'', hg.trans hg'⟩

theorem Reachable.entryIds {s : Registry L} (h : Reachable P s) : EntryIds s :=
  h.steps.entryIds (by simp [EntryIds, Registry.init])

end ReflCpp
