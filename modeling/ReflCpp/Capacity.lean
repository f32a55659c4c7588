import ReflCpp.DatabaseLaws

namespace ReflCpp

open Cpp

variable {L : Type} [DecidableEq L] {P : Program L} {T : Ty L} {s s' : Registry L}

omit [DecidableEq L] in
theorem ofSize_fresh_iff (hs : EntryIds s) :
    ((TypeID.ofSize (s.types_.length + 1)).isValid = true ∧
      ∀ t ∈ s.types_, t.id_ ≠ .ofSize (s.types_.length + 1)) ↔
    s.types_.length < 2 ^ 32 - 1 := by
  rw [TypeID.isValid_iff, TypeID.value_ofSize]
  constructor
  · rintro ⟨hvalid, hfresh⟩
    by_contra hlen
    -- The entry whose position has the low 32 bits of the new number.
    have hlt : (s.types_.length + 1) % 2 ^ 32 - 1 < s.types_.length := by omega
    have hget := List.getElem?_eq_getElem hlt
    apply hfresh _ (List.mem_of_getElem? hget)
    apply TypeID.ext_value
    rw [hs _ _ hget, TypeID.value_ofSize, TypeID.value_ofSize]
    omega
  · intro hlen
    refine ⟨by omega, fun t ht he => ?_⟩
    obtain ⟨i, hi, rfl⟩ := List.mem_iff_getElem.mp ht
    have hvalue := congrArg TypeID.value
      ((hs i _ (List.getElem?_eq_getElem hi)).symm.trans he)
    rw [TypeID.value_ofSize, TypeID.value_ofSize] at hvalue
    omega

theorem registerType_of_create {d : TypeData} (hmax : s.types_.length ≠ sizeMax)
    (hcreate : create P T (fun U _ => reflectID P U) s = (some d, s'))
    (hthrows : s'.throws = false) :
    registerType P T s = (.ok (.ofSize (s'.types_.length + 1)), { s'.allocated with
      types_ := s'.types_ ++ [{ id_ := .ofSize (s'.types_.length + 1), data_ := T }] }) := by
  rw [registerType, registerTypeWith, if_neg hmax, hcreate]
  simp only [hthrows, Bool.false_eq_true, if_false]

theorem create_entryIds (hs : EntryIds s) {d : Option TypeData}
    (hcreate : create P T (fun U _ => reflectID P U) s = (d, s')) : EntryIds s' := by
  have hsteps := (create_steps (T := T) (fun U hU => reflectID_below (P := P) hU) s).1
  rw [hcreate] at hsteps
  exact hsteps.entryIds hs

/-- The registration gives the type an id of its own, or reports that there is
no room and does nothing. -/
def RegistersFresh (P : Program L) (T : Ty L) (s : Registry L) : Prop :=
  (∃ i s', registerType P T s = (.ok i, s') ∧ i.isValid = true ∧
    ∀ t ∈ s'.types_.dropLast, t.id_ ≠ i) ∨
  registerType P T s = (.error .maxLimitReached, s)

theorem registersFresh_of_create {d : TypeData} (hs : EntryIds s)
    (hmax : s.types_.length ≠ sizeMax)
    (hcreate : create P T (fun U _ => reflectID P U) s = (some d, s'))
    (hthrows : s'.throws = false) :
    RegistersFresh P T s ↔ s'.types_.length < 2 ^ 32 - 1 := by
  have hfresh := ofSize_fresh_iff (create_entryIds hs hcreate)
  rw [RegistersFresh, registerType_of_create hmax hcreate hthrows]
  constructor
  · rintro (⟨i, s'', h, hvalid, hnew⟩ | h)
    · cases h
      exact hfresh.mp ⟨hvalid, by simpa using hnew⟩
    · cases h
  · intro hlen
    obtain ⟨hvalid, hnew⟩ := hfresh.mpr hlen
    exact .inl ⟨_, _, rfl, hvalid, by simpa using hnew⟩

theorem registersFresh_iff (P : Program L) (T : Ty L) (s : Registry L)
    (hs : Reachable P s) :
    RegistersFresh P T s ↔
      s.types_.length = sizeMax ∨
      ∃ d s', create P T (fun U _ => reflectID P U) s = (some d, s') ∧
        s'.throws = false ∧ s'.types_.length < 2 ^ 32 - 1 := by
  by_cases hmax : s.types_.length = sizeMax
  · refine iff_of_true (.inr ?_) (.inl hmax)
    rw [registerType, registerTypeWith, if_pos hmax]
  · rcases hcreate : create P T (fun U _ => reflectID P U) s with ⟨_ | d, s'⟩
    · have hfail : registerType P T s = (.error .creationFailed, s') := by
        rw [registerType, registerTypeWith, if_neg hmax, hcreate]
      simp [RegistersFresh, hfail, hmax]
    · by_cases hthrows : s'.throws = true
      · have hfail : registerType P T s = (.error .outOfMemory, s'.allocated) := by
          rw [registerType, registerTypeWith, if_neg hmax, hcreate]
          simp only [hthrows, if_true]
        simp [RegistersFresh, hfail, hmax, hthrows]
      · rw [Bool.not_eq_true] at hthrows
        rw [registersFresh_of_create hs.entryIds hmax hcreate hthrows]
        simp [hmax, hthrows]

section Full

def plainRun (n : Nat) : Registry Nat :=
  run .plain ((List.range n).map fun l => .reflectID (.obj (.leaf false false (.user l))) [])
    .init

/-- After the run the types from `n` on have never been asked for. -/
structure PlainState (n : Nat) (s : Registry Nat) : Prop where
  length_eq : s.types_.length = n
  faults_eq : s.faults = []
  id_eq : ∀ l, n ≤ l → s.id (.obj (.leaf false false (.user l))) = .invalid
  data_eq : ∀ l, n ≤ l → s.data (.obj (.leaf false false (.user l))) = none

theorem PlainState.create_eq {n : Nat} {s : Registry Nat} (h : PlainState n s)
    (rec : (U : Ty Nat) → Below .plain (.obj (.leaf false false (.user n))) U →
      RegM Nat (Except ReflectError TypeID)) :
    create .plain (.obj (.leaf false false (.user n))) rec s =
      (some { name := "Plain" },
        s.allocated.created (.obj (.leaf false false (.user n))) { name := "Plain" }) := by
  have hdata : reflectData .plain (.obj (.leaf false false (.user n)) : Ty Nat) =
      some (.alloc (.ret { name := "Plain" })) := rfl
  have hthrows : s.throws = false := by rw [Registry.throws, h.faults_eq]; rfl
  rw [create, h.data_eq n (Nat.le_refl n), hdata]
  simp only [Creation.run, hthrows, Bool.false_eq_true, if_false]
  rfl

theorem PlainState.succ {n : Nat} {s : Registry Nat} (h : PlainState n s)
    (hmax : n ≠ sizeMax) :
    PlainState (n + 1)
      (Request.exec .plain s (.reflectID (.obj (.leaf false false (.user n))) [])) := by
  have hs : PlainState n { s with faults := [] } := ⟨h.1, rfl, h.3, h.4⟩
  have hv : (.obj (.leaf false false (.user n)) : Ty Nat) ≠ Ty.void := by
    simp [Ty.void]
  have hreg := registerType_of_create (by rw [hs.length_eq]; exact hmax)
    (hs.create_eq fun U _ => reflectID .plain U) rfl
  have hexec : Request.exec .plain s (.reflectID (.obj (.leaf false false (.user n))) []) =
      (({ s with faults := [] }.allocated.created (.obj (.leaf false false (.user n)))
        { name := "Plain" }).allocated).registered (.obj (.leaf false false (.user n))) := by
    rw [Request.exec, reflectID_eq, typeInstanceID, if_neg hv, hs.id_eq n (Nat.le_refl n)]
    rw [registerType] at hreg
    rw [hreg]
    rfl
  rw [hexec]
  refine ⟨?_, rfl, ?_, ?_⟩
  · rw [Registry.length_registered]
    exact congrArg (· + 1) h.length_eq
  · intro l hl
    have hne : (.obj (.leaf false false (.user l)) : Ty Nat) ≠
        .obj (.leaf false false (.user n)) := by
      simp only [ne_eq, Cpp.Ty.obj.injEq, Cpp.Obj.leaf.injEq, Leaf.user.injEq, true_and]
      omega
    rw [Registry.id_registered_of_ne _ hne]
    exact h.id_eq l (by omega)
  · intro l hl
    have hne : (.obj (.leaf false false (.user l)) : Ty Nat) ≠
        .obj (.leaf false false (.user n)) := by
      simp only [ne_eq, Cpp.Ty.obj.injEq, Cpp.Obj.leaf.injEq, Leaf.user.injEq, true_and]
      omega
    exact (Registry.data_created_of_ne _ _ hne).trans (h.data_eq l (by omega))

theorem plainRun_state (n : Nat) (hmax : n ≤ sizeMax) : PlainState n (plainRun n) := by
  induction n with
  | zero => exact ⟨rfl, rfl, fun _ _ => rfl, fun _ _ => rfl⟩
  | succ n ih =>
    have hrun : plainRun (n + 1) = Request.exec .plain (plainRun n)
        (.reflectID (.obj (.leaf false false (.user n))) []) := by
      rw [plainRun, List.range_succ, List.map_append, run, List.foldl_append]
      rfl
    rw [hrun]
    exact (ih (by omega)).succ (by omega)

theorem plainRun_reachable (n : Nat) : Reachable .plain (plainRun n) := ⟨_, rfl⟩

theorem not_registersFresh_plainRun (n : Nat) (hfull : 2 ^ 32 - 1 ≤ n) (hmax : n < sizeMax) :
    ¬ RegistersFresh .plain (.obj (.leaf false false (.user n))) (plainRun n) := by
  have hs := plainRun_state n (Nat.le_of_lt hmax)
  have hcreate := hs.create_eq fun U _ => reflectID .plain U
  have hlen : (plainRun n).types_.length ≠ sizeMax := by
    rw [hs.length_eq]
    omega
  have hthrows : (plainRun n).allocated.throws = false := by
    simp [Registry.allocated, Registry.throws, hs.faults_eq]
  rw [registersFresh_of_create (plainRun_reachable n).entryIds hlen hcreate hthrows]
  simp only [Registry.created, Registry.allocated, hs.length_eq]
  omega

/-- With `2 ^ 32 - 1` types registered, the next one gets the invalid id. -/
theorem not_registersFresh_of_full :
    Reachable .plain (plainRun (2 ^ 32 - 1)) ∧
    ¬ RegistersFresh .plain (.obj (.leaf false false (.user (2 ^ 32 - 1))))
      (plainRun (2 ^ 32 - 1)) :=
  ⟨plainRun_reachable _, not_registersFresh_plainRun _ (Nat.le_refl _) (by decide)⟩

end Full

theorem registersFresh_init :
    RegistersFresh .plain (.obj (.leaf false false (.user 0))) .init ↔
      ([] : List (TypeEntry Nat)).length = sizeMax ∨
      ∃ d s', create .plain (.obj (.leaf false false (.user 0)))
          (fun U _ => reflectID .plain U) .init = (some d, s') ∧
        s'.throws = false ∧ s'.types_.length < 2 ^ 32 - 1 :=
  registersFresh_iff .plain _ .init (.refl _)

end ReflCpp
