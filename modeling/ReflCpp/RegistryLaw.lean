import ReflCpp.Registration

namespace ReflCpp

open Cpp Interning

variable {L : Type} [DecidableEq L]

/-- The registry can pass from `s` to `s'`; the states inside a call, between
the updates of nested calls, are among those passed. -/
abbrev Passes : Registry L → Registry L → Prop := Steps fun _ => True

variable {P : Program L} {s s' : Registry L} {T U : Ty L} {i j : TypeID}

theorem passes_reflectID (T : Ty L) (s : Registry L) : Passes s (reflectID P T s).2 :=
  (reflectID_steps T s).mono fun _ _ => trivial

theorem Passes.wellNumbered (h : Passes .init s) (hlen : s.types_.length < 2 ^ 32) :
    WellNumbered s := (wellNumbered_init.steps h hlen).1

/-- Before `s`, at the top level or inside another call, `ReflectID<T>` has
returned `i`. -/
def Issued (P : Program L) (s : Registry L) (T : Ty L) (i : TypeID) : Prop :=
  ∃ s₀ s₁, Passes .init s₀ ∧ reflectID P T s₀ = (.ok i, s₁) ∧ Passes s₁ s

theorem Issued.passes (h : Issued P s T i) (hs : Passes s s') : Issued P s' T i := by
  obtain ⟨s₀, s₁, h₀, h₁, h₂⟩ := h
  exact ⟨s₀, s₁, h₀, h₁, h₂.trans hs⟩

theorem Issued.id_eq (h : Issued P s T i) (hv : T ≠ Ty.void)
    (hlen : s.types_.length < 2 ^ 32) : s.id T = i ∧ i.isValid = true := by
  obtain ⟨s₀, s₁, _, h₁, h₂⟩ := h
  have hlen₁ : s₁.types_.length < 2 ^ 32 := Nat.lt_of_le_of_lt h₂.length_le hlen
  have hid := id_of_reflectID_ok hv h₁
  have hvalid := isValid_of_reflectID_ok hlen₁ hv h₁
  rw [← hid] at hvalid ⊢
  exact ⟨h₂.id_of_isValid hvalid, hvalid⟩

theorem Issued.void_eq (h : Issued P s Ty.void i) : i = ⟨0⟩ := by
  obtain ⟨s₀, s₁, _, h₁, _⟩ := h
  rw [reflectID_void] at h₁
  cases h₁
  rfl

theorem Issued.again (h : Issued P s T i) (hlen : s.types_.length < 2 ^ 32) :
    reflectID P T s = (.ok i, s) := by
  by_cases hv : T = Ty.void
  · subst hv
    rw [reflectID_void, h.void_eq]
  · obtain ⟨hid, hvalid⟩ := h.id_eq hv hlen
    rw [← hid] at hvalid
    rw [reflectID_of_isValid hv hvalid, hid]

theorem Issued.inj (hs : Passes .init s) (hlen : s.types_.length < 2 ^ 32)
    (hT : Issued P s T i) (hU : Issued P s U i) : T = U := by
  have hws := hs.wellNumbered hlen
  by_cases hvT : T = Ty.void <;> by_cases hvU : U = Ty.void
  · rw [hvT, hvU]
  · subst hvT
    have hvalid := (hU.id_eq hvU hlen).2
    rw [hT.void_eq] at hvalid
    cases hvalid
  · subst hvU
    have hvalid := (hT.id_eq hvT hlen).2
    rw [hU.void_eq] at hvalid
    cases hvalid
  · obtain ⟨hidT, hvalid⟩ := hT.id_eq hvT hlen
    obtain ⟨hidU, _⟩ := hU.id_eq hvU hlen
    rw [← hidT] at hvalid
    exact (hws.id_inj hvalid).mp (hidT.trans hidU.symm)

theorem Issued.getType_eq (h : Issued P s T i) (hs : Passes .init s) (hpass : Passes s s')
    (hlen : s'.types_.length < 2 ^ 32) : getType i s' = getType i s := by
  by_cases hv : T = Ty.void
  · subst hv
    rw [h.void_eq]
    rfl
  · have hlen₀ : s.types_.length < 2 ^ 32 := Nat.lt_of_le_of_lt hpass.length_le hlen
    obtain ⟨hid, hvalid⟩ := h.id_eq hv hlen₀
    rw [← hid] at hvalid ⊢
    obtain ⟨h₁, h₂⟩ := (hs.wellNumbered hlen₀).id_mem hvalid
    exact getType_of_steps hpass h₁ h₂

omit [DecidableEq L] in
theorem getType_iff {id : TypeID} :
    (∃ t, getType id s = .ok (.ok t)) ↔ 1 ≤ id.value ∧ id.value ≤ s.types_.length := by
  constructor
  · rintro ⟨t, ht⟩
    by_contra hrange
    obtain ⟨e, he⟩ := getType_of_outOfRange hrange
    rw [ht] at he
    cases he
  · rintro ⟨h₁, h₂⟩
    obtain ⟨t, _, hget⟩ := getType_of_inRange h₁ h₂
    exact ⟨t, hget⟩

omit [DecidableEq L] in
theorem getType_inBounds (hs : EntryIds s) (id : TypeID) :
    ∃ r, getType id s = .ok r ∧ ∀ t, r = .ok t → t.id_ = id ∧ t ∈ s.types_ := by
  by_cases hrange : 1 ≤ id.value ∧ id.value ≤ s.types_.length
  · obtain ⟨t, ht, hget⟩ := getType_of_inRange hrange.1 hrange.2
    refine ⟨.ok t, hget, ?_⟩
    rintro _ ⟨⟩
    refine ⟨?_, List.mem_of_getElem? ht⟩
    apply TypeID.ext_value
    rw [hs _ t ht, TypeID.value_ofSize, Nat.sub_add_cancel hrange.1,
      Nat.mod_eq_of_lt id.value_lt]
  · obtain ⟨e, he⟩ := getType_of_outOfRange hrange
    exact ⟨.error e, he, by rintro _ ⟨⟩⟩

theorem reflect_ok (hs : Passes .init s) (hlen : (reflect P T s).2.types_.length < 2 ^ 32) :
    ∃ r, (reflect P T s).1 = .ok r := by
  rw [reflect_snd] at hlen
  unfold reflect
  split
  · exact ⟨_, rfl⟩
  next hv =>
    split
    next e s' _ => exact ⟨_, rfl⟩
    next i s' h =>
      have hpass := passes_reflectID (P := P) T s
      rw [h] at hlen hpass
      have hissued : Issued P s' T i := ⟨s, s', hs, h, .refl⟩
      obtain ⟨hid, hvalid⟩ := hissued.id_eq hv hlen
      rw [← hid] at hvalid ⊢
      have hs' : WellNumbered s' := Passes.wellNumbered (hs.trans hpass) hlen
      obtain ⟨t, ht, _⟩ := hs'.getType_id hvalid
      rw [ht]
      exact ⟨_, rfl⟩

structure RegistryLaw (P : Program L) (s : Registry L) : Prop where
  entry_id : ∀ i t, s.types_[i]? = some t → t.id_.value = i + 1
  entry_unique : s.keys.Nodup
  issued_again : ∀ T i, Issued P s T i → reflectID P T s = (.ok i, s)
  issued_inj : ∀ T U i, Issued P s T i → Issued P s U i → T = U
  getType_iff : ∀ id,
    (∃ t, getType id s = .ok (.ok t)) ↔ 1 ≤ id.value ∧ id.value ≤ s.types_.length
  getType_inBounds : ∀ id,
    ∃ r, getType id s = .ok r ∧ ∀ t, r = .ok t → t.id_ = id ∧ t ∈ s.types_
  reflect_ok : ∀ T, (reflect P T s).2.types_.length < 2 ^ 32 →
    ∃ r, (reflect P T s).1 = .ok r
  failure_keeps : ∀ T e s', reflectID P T s = (.error e, s') →
    s'.types_.length < 2 ^ 32 → ∀ U i, Issued P s U i →
      reflectID P U s' = (.ok i, s') ∧ getType i s' = getType i s
  failure_retries : ∀ T e s', reflectID P T s = (.error e, s') → Reflectable P T →
    ∀ s'', Passes s' s'' →
      (reflectID P T { s'' with faults := [] }).2.types_.length < 2 ^ 32 →
      ∃ i, (reflectID P T { s'' with faults := [] }).1 = .ok i

theorem registryLaw_of_run (P : Program L) (rs : List (Request L)) (s : Registry L)
    (hs : Passes (run P rs .init) s) (hlen : s.types_.length < 2 ^ 32) :
    RegistryLaw P s := by
  have hinit : Passes .init s := (run_steps rs .init).trans hs
  have hentries : EntryIds s := hinit.entryIds (by simp [EntryIds, Registry.init])
  refine ⟨?_, (hinit.wellNumbered hlen).nodup, ?_, ?_, fun id => getType_iff,
    getType_inBounds hentries, fun T => reflect_ok hinit, ?_, ?_⟩
  · intro i t ht
    have hi : i < s.types_.length := (List.getElem?_eq_some_iff.mp ht).1
    rw [hentries i t ht, TypeID.value_ofSize, Nat.mod_eq_of_lt (by omega)]
  · intro T i hT
    exact hT.again hlen
  · intro T U i hT hU
    exact hT.inj hinit hlen hU
  · intro T e s' h hlen' U i hU
    have hpass := passes_reflectID (P := P) T s
    rw [h] at hpass
    exact ⟨(hU.passes hpass).again hlen', hU.getType_eq hinit hpass hlen'⟩
  · intro T e s' _ hT s'' _ hlen''
    exact (reflectID_succeeds hT { s'' with faults := [] } rfl).2 hlen''

theorem registryLaw_of_pointer :
    RegistryLaw .plain
      (run .plain [.reflectID (.obj (.ptr false false (.leaf false false (.user 0)))) []] .init) :=
  registryLaw_of_run .plain _ _ .refl (show 2 < 2 ^ 32 by decide)

end ReflCpp
