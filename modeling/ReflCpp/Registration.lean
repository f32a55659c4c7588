import ReflCpp.DatabaseLaws

namespace ReflCpp

open Cpp Interning

variable {L : Type}

theorem getType_of_inRange {id : TypeID} {s : Registry L} (h₁ : 1 ≤ id.value)
    (h₂ : id.value ≤ s.types_.length) :
    ∃ t, s.types_[id.value - 1]? = some t ∧ getType id s = .ok (.ok t) := by
  have hlt : id.value - 1 < s.types_.length := by omega
  have hle : 1 ≤ id.id_ := UInt32.le_iff_toNat_le.mpr h₁
  have hsub : (id.id_ - 1).toNat = id.value - 1 := UInt32.toNat_sub_of_le _ _ hle
  have hget := List.getElem?_eq_getElem hlt
  refine ⟨_, hget, ?_⟩
  rw [getType, if_neg, if_neg (by omega), hsub, hget]
  rw [TypeID.isInvalid_iff]
  omega

theorem getType_of_outOfRange {id : TypeID} {s : Registry L}
    (h : ¬ (1 ≤ id.value ∧ id.value ≤ s.types_.length)) :
    ∃ e, getType id s = .ok (.error e) := by
  by_cases hz : id.isInvalid = true
  · exact ⟨_, if_pos hz⟩
  · have hlen : id.value > s.types_.length := by
      rw [TypeID.isInvalid_iff] at hz
      omega
    exact ⟨_, by rw [getType, if_neg hz, if_pos hlen]⟩

variable [DecidableEq L] {P : Program L}

theorem getType_of_steps {p : Ty L → Prop} {s s' : Registry L} (h : Steps p s s')
    {id : TypeID} (h₁ : 1 ≤ id.value) (h₂ : id.value ≤ s.types_.length) :
    getType id s' = getType id s := by
  obtain ⟨t, ht, hget⟩ := getType_of_inRange h₁ h₂
  obtain ⟨t', ht', hget'⟩ := getType_of_inRange h₁ (Nat.le_trans h₂ h.length_le)
  obtain ⟨ts, hts⟩ := h.isPrefix
  have hlt : id.value - 1 < s.types_.length := by omega
  rw [← hts, List.getElem?_append_left hlt, ht] at ht'
  rw [hget', hget, Option.some.inj ht']

section Numbered

variable {s : Registry L} {T U : Ty L}

theorem WellNumbered.id_mem (hs : WellNumbered s) (h : (s.id T).isValid = true) :
    1 ≤ (s.id T).value ∧ (s.id T).value ≤ s.types_.length := by
  rw [hs.isValid_iff, ← number_pos] at h
  rw [hs.id_eq]
  exact ⟨h, s.keys_length ▸ number_le_length s.keys T⟩

theorem WellNumbered.id_inj (hs : WellNumbered s) (h : (s.id T).isValid = true) :
    s.id T = s.id U ↔ T = U := by
  constructor
  · intro e
    have hT := hs.isValid_iff.mp h
    apply (number_inj hT).mp
    rw [← hs.id_eq, ← hs.id_eq, e]
  · rintro rfl; rfl

theorem WellNumbered.getType_id (hs : WellNumbered s) (h : (s.id T).isValid = true) :
    ∃ t, getType (s.id T) s = .ok (.ok t) ∧ t.data_ = T := by
  obtain ⟨h₁, h₂⟩ := hs.id_mem h
  obtain ⟨t, ht, hget⟩ := getType_of_inRange h₁ h₂
  refine ⟨t, hget, ?_⟩
  have hkey : s.keys[(s.id T).value - 1]? = some t.data_ := by
    rw [Registry.keys, List.getElem?_map, ht]; rfl
  rw [hs.id_eq, getElem?_of_number (hs.isValid_iff.mp h)] at hkey
  exact (Option.some.inj hkey).symm

end Numbered

theorem reflectID_of_isValid {T : Ty L} {s : Registry L} (hv : T ≠ Ty.void)
    (h : (s.id T).isValid = true) : reflectID P T s = (.ok (s.id T), s) := by
  rw [reflectID_eq, typeInstanceID, if_neg hv, if_pos h]

theorem reflectID_void (s : Registry L) : reflectID P Ty.void s = (.ok ⟨0⟩, s) := by
  rw [reflectID_eq, typeInstanceID, if_pos rfl]

theorem id_of_reflectID_ok {T : Ty L} {s s' : Registry L} {i : TypeID} (hv : T ≠ Ty.void)
    (h : reflectID P T s = (.ok i, s')) : s'.id T = i := by
  rcases reflectID_cases (P := P) T s with
    ⟨rfl, _⟩ | ⟨_, _, h'⟩ | ⟨_, _, e, s₁, h', _⟩ | ⟨_, _, s₁, h', _⟩
  · exact absurd rfl hv
  all_goals rw [h] at h'; cases h'
  · rfl
  · exact s₁.id_registered_self T

theorem isValid_of_reflectID_ok {T : Ty L} {s s' : Registry L} {i : TypeID}
    (hlen : s'.types_.length < 2 ^ 32) (hv : T ≠ Ty.void)
    (h : reflectID P T s = (.ok i, s')) : i.isValid = true := by
  rcases reflectID_cases (P := P) T s with
    ⟨rfl, _⟩ | ⟨_, hid, h'⟩ | ⟨_, _, e, s₁, h', _⟩ | ⟨_, _, s₁, h', _⟩
  · exact absurd rfl hv
  all_goals rw [h] at h'; cases h'
  · exact hid
  · rw [Registry.length_registered] at hlen
    rw [TypeID.isValid_iff, TypeID.value_ofSize, Nat.mod_eq_of_lt hlen]
    exact Nat.succ_ne_zero _

section NoFaults

/-- A computation that met no throwing allocation, and that succeeded if the
ids did not run out. -/
def Succeeds (ok : Prop) (s : Registry L) : Prop :=
  s.faults = [] ∧ (s.types_.length < 2 ^ 32 → ok)

omit [DecidableEq L] in
theorem throws_of_noFaults {s : Registry L} (h : s.faults = []) : s.throws = false := by
  simp [Registry.throws, h]

omit [DecidableEq L] in
theorem allocated_noFaults {s : Registry L} (h : s.faults = []) :
    s.allocated.faults = [] := by
  simp [Registry.allocated, h]

omit [DecidableEq L] in
theorem Creation.run_succeeds {rk : L → Nat} {r : Nat}
    {rec : (U : Ty L) → U.rank rk < r → RegM L (Except ReflectError TypeID)}
    (c : Creation L rk r)
    (hrec : ∀ U hU s, c.Calls U → s.faults = [] →
      Succeeds (∃ i, (rec U hU s).1 = .ok i) (rec U hU s).2)
    (s : Registry L) (hs : s.faults = []) :
    Succeeds (∃ d, (c.run rec s).1 = some d) (c.run rec s).2 := by
  induction c generalizing s with
  | ret d => exact ⟨hs, fun _ => ⟨d, rfl⟩⟩
  | alloc k ih =>
    rw [Creation.run, throws_of_noFaults hs, if_neg Bool.false_ne_true]
    exact ih hrec s.allocated (allocated_noFaults hs)
  | value U hU k ih =>
    have hU' := hrec U hU s (.inl rfl) hs
    rw [Creation.run]
    split
    next i s' h =>
      rw [h] at hU'
      exact ih i (fun V hV s hc => hrec V hV s (.inr ⟨i, hc⟩)) s' hU'.1
    next e s' h =>
      rw [h] at hU'
      refine ⟨hU'.1, fun hlen => ?_⟩
      obtain ⟨i, hi⟩ := hU'.2 hlen
      cases hi
  | attempt U hU k ih =>
    have hU' := hrec U hU s (.inl rfl) hs
    exact ih _ (fun V hV s hc => hrec V hV s (.inr ⟨_, hc⟩)) _ hU'.1

theorem create_succeeds {T : Ty L} {c : Creation L P.rank (T.rank P.rank)}
    {rec : (U : Ty L) → Below P T U → RegM L (Except ReflectError TypeID)}
    (hc : reflectData P T = some c) (s : Registry L) (hs : s.faults = [])
    (hrun : Succeeds (∃ d, (c.run rec s).1 = some d) (c.run rec s).2) :
    Succeeds (∃ d, (create P T rec s).1 = some d) (create P T rec s).2 := by
  unfold create
  split
  next d _ => exact ⟨hs, fun _ => ⟨d, rfl⟩⟩
  next h =>
    rw [hc] at h
    cases h
  next c' _ h =>
    rw [hc] at h
    cases h
    split
    next d s' h =>
      rw [h] at hrun
      exact ⟨hrun.1, fun _ => ⟨d, rfl⟩⟩
    next s' h =>
      rw [h] at hrun
      exact hrun

theorem registerTypeWith_succeeds {T : Ty L}
    {rec : (U : Ty L) → Below P T U → RegM L (Except ReflectError TypeID)}
    (s : Registry L) (hs : s.faults = [])
    (hcreate : Succeeds (∃ d, (create P T rec s).1 = some d) (create P T rec s).2) :
    Succeeds (∃ i, (registerTypeWith P T rec s).1 = .ok i) (registerTypeWith P T rec s).2 := by
  unfold registerTypeWith
  split
  next hmax =>
    refine ⟨hs, fun hlen => ?_⟩
    simp only [hmax, sizeMax] at hlen
    omega
  next =>
    split
    next s' h =>
      rw [h] at hcreate
      refine ⟨hcreate.1, fun hlen => ?_⟩
      obtain ⟨d, hd⟩ := hcreate.2 hlen
      cases hd
    next d s' h =>
      rw [h] at hcreate
      dsimp only
      rw [throws_of_noFaults hcreate.1]
      exact ⟨allocated_noFaults hcreate.1, fun _ => ⟨_, rfl⟩⟩

theorem reflectID_succeeds {T : Ty L} (hT : Reflectable P T) (s : Registry L)
    (hs : s.faults = []) :
    Succeeds (∃ i, (reflectID P T s).1 = .ok i) (reflectID P T s).2 := by
  induction hT generalizing s with
  | void =>
    rw [reflectID_void]
    exact ⟨hs, fun _ => ⟨_, rfl⟩⟩
  | create T c hc hcalls ih =>
    have hrun : Succeeds (∃ d, (c.run (fun U _ => reflectID P U) s).1 = some d)
        (c.run (fun U _ => reflectID P U) s).2 :=
      c.run_succeeds (fun U _ s hU => ih U hU s) s hs
    have hreg := registerTypeWith_succeeds s hs (create_succeeds hc s hs hrun)
    rw [reflectID_eq, typeInstanceID]
    split
    · exact ⟨hs, fun _ => ⟨_, rfl⟩⟩
    · split
      · exact ⟨hs, fun _ => ⟨_, rfl⟩⟩
      · split
        next i s' h =>
          rw [h] at hreg
          exact ⟨hreg.1, fun _ => ⟨i, rfl⟩⟩
        next e s' h =>
          rw [h] at hreg
          exact hreg

end NoFaults

end ReflCpp
