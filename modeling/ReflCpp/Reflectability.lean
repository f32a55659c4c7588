import ReflCpp.TypeText

namespace ReflCpp

open Cpp

variable {L : Type} {P : Program L} {T : Ty L} {e : Template L}

section Template

theorem exists_template (hT : T.qualifiedOnce = true)
    (hplain : ∀ a, T ≠ .obj (.leaf false false a)) : ∃ e, template T = some e := by
  cases T with
  | obj t =>
    cases t with
    | leaf c v a =>
      cases c <;> cases v
      · exact absurd rfl (hplain a)
      · exact ⟨_, rfl⟩
      · exact ⟨_, rfl⟩
      · cases hT
    | ptr c v t =>
      cases c <;> cases v
      · exact ⟨_, rfl⟩
      · exact ⟨_, rfl⟩
      · exact ⟨_, rfl⟩
      · cases hT
  | lref t => exact ⟨_, rfl⟩
  | rref t => exact ⟨_, rfl⟩

theorem qualifiedOnce_inner (he : template T = some e) :
    e.inner.qualifiedOnce = T.qualifiedOnce := by
  cases T with
  | obj t =>
    cases t with
    | leaf c v a => cases c <;> cases v <;> cases he <;> rfl
    | ptr c v t => cases c <;> cases v <;> cases he <;> rfl
  | lref t => cases he; rfl
  | rref t => cases he; rfl

theorem unambiguous_of_template (he : template T = some e) : Unambiguous reflectDataSpecs T := by
  have hpats : ((reflectDataSpecs (L := L)).map Specialization.pat).Nodup := by
    change ((reflectDataSpecs (L := Unit)).map Specialization.pat).Nodup
    decide
  have hselect := select_reflectDataSpecs T
  rw [he] at hselect
  rw [unambiguous_iff hpats]
  intro hambiguous
  rw [hambiguous] at hselect
  cases hselect

end Template

section Reflectable

theorem Reflectable.qualifiedOnce (h : Reflectable P T) : T.qualifiedOnce = true := by
  induction h with
  | void => rfl
  | create T c hc _ ih =>
    rcases template_of_reflectData hc with ⟨a, rfl⟩ | ⟨e, _, he, rfl⟩
    · rfl
    · rw [← qualifiedOnce_inner he]
      exact ih _ (.inl rfl)

/-- Where the leaf is reflectable, so is what qualifiers, pointers and references make of
it, unless one level is const and volatile. -/
theorem reflectable_of_qualifiedOnce (hleaf : Reflectable P (.obj (.leaf false false T.root)))
    (hT : T.qualifiedOnce = true) : Reflectable P T := by
  induction hr : T.rank (fun _ => 0) using Nat.strongRecOn generalizing T with
  | _ r ih =>
    by_cases hplain : ∃ a, T = .obj (.leaf false false a)
    · obtain ⟨a, rfl⟩ := hplain
      exact hleaf
    · obtain ⟨e, he⟩ := exists_template hT (not_exists.mp hplain)
      have hrank := rank_inner (fun _ => 0) he
      have hinner : Reflectable P (.obj e.inner) := by
        apply ih _ (hr ▸ hrank) _ _ rfl
        · change Reflectable P (.obj (.leaf false false e.inner.root))
          rw [root_inner he]
          exact hleaf
        · change e.inner.qualifiedOnce = true
          rw [qualifiedOnce_inner he]
          exact hT
      refine .create T _ (reflectData_of_template he) ?_
      rintro U (rfl | ⟨i, hi⟩)
      · exact hinner
      · exact hi.elim

/-- One `ReflectData` fits `T`: a template more specialised than every other that fits, or
the leaf's own where none does; and `ReflectID<T>` compiles.  `void` has no `ReflectData`
but a `TypeInstance`. -/
structure ReflectabilityLaw (P : Program L) (T : Ty L) : Prop where
  one : Unambiguous reflectDataSpecs T
  hasData : T ≠ Ty.void → (reflectData P T).isSome = true
  wellFormed : Reflectable P T

theorem reflectabilityLaw_iff (P : Program L)
    (hleaf : Reflectable P (.obj (.leaf false false T.root))) :
    ReflectabilityLaw P T ↔ T.qualifiedOnce = true := by
  constructor
  · intro h
    exact h.wellFormed.qualifiedOnce
  · intro hT
    have hreflectable := reflectable_of_qualifiedOnce hleaf hT
    refine ⟨?_, ?_, hreflectable⟩
    · by_cases hplain : ∃ a, T = .obj (.leaf false false a)
      · obtain ⟨a, rfl⟩ := hplain
        exact .inl rfl
      · obtain ⟨e, he⟩ := exists_template hT (not_exists.mp hplain)
        exact unambiguous_of_template he
    · intro hvoid
      cases hreflectable with
      | void => exact absurd rfl hvoid
      | create _ c hc _ => rw [hc]; rfl

theorem reflectable_int32 : Reflectable .plain (.obj (.leaf false false (.builtin .int32))) :=
  .create _ (.ret { name := Builtin.int32.name }) rfl fun _ h => h.elim

/-- A pointer to a const pointer to `volatile int32_t`. -/
theorem reflectabilityLaw_int32 :
    ReflectabilityLaw .plain (.obj (.ptr false false (.ptr true false
        (.leaf false true (.builtin .int32))))) ↔ true = true :=
  reflectabilityLaw_iff .plain reflectable_int32

/-- `const volatile int32_t` is as much a `const T` as a `volatile T`. -/
theorem not_reflectabilityLaw_constVolatile :
    Reflectable .plain (.obj (.leaf false false (.builtin .int32))) ∧
      ¬ ReflectabilityLaw .plain (.obj (.leaf true true (.builtin .int32))) := by
  refine ⟨reflectable_int32, fun h => ?_⟩
  cases h.wellFormed.qualifiedOnce

end Reflectable

end ReflCpp
