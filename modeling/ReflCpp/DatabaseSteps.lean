import Mathlib.Logic.Relation
import ReflCpp.Database

namespace ReflCpp

open Cpp

variable {L : Type} [DecidableEq L] {P : Program L}

namespace Registry

def registered (s : Registry L) (T : Ty L) : Registry L :=
  { s with
    types_ := s.types_ ++ [{ id_ := .ofSize (s.types_.length + 1), data_ := T }]
    id := Function.update s.id T (.ofSize (s.types_.length + 1)) }

def created (s : Registry L) (T : Ty L) (d : TypeData) : Registry L :=
  { s with data := Function.update s.data T (some d) }

@[simp] theorem keys_registered (s : Registry L) (T : Ty L) :
    (s.registered T).keys = s.keys ++ [T] := by
  simp [registered, keys]

@[simp] theorem length_registered (s : Registry L) (T : Ty L) :
    (s.registered T).types_.length = s.types_.length + 1 := by
  simp [registered]

@[simp] theorem id_registered_self (s : Registry L) (T : Ty L) :
    (s.registered T).id T = .ofSize (s.types_.length + 1) := by
  simp [registered]

theorem id_registered_of_ne (s : Registry L) {T U : Ty L} (h : U ≠ T) :
    (s.registered T).id U = s.id U := by
  simp [registered, Function.update_of_ne h]

theorem data_created_of_ne (s : Registry L) (d : TypeData) {T U : Ty L} (h : U ≠ T) :
    (s.created T d).data U = s.data U := by
  simp [created, Function.update_of_ne h]

end Registry

/-- What can happen to the registry, once and for all: every operation is a
sequence of these updates.  `p` bounds the types they are about. -/
inductive Step (p : Ty L → Prop) : Registry L → Registry L → Prop
  | faults (s : Registry L) (fs : List Bool) : Step p s { s with faults := fs }
  | created (s : Registry L) (T : Ty L) (d : TypeData) (hT : p T)
      (hd : s.data T = none) : Step p s (s.created T d)
  | registered (s : Registry L) (T : Ty L) (hT : p T) (hv : T ≠ Ty.void)
      (hid : (s.id T).isValid = false) : Step p s (s.registered T)

abbrev Steps (p : Ty L → Prop) : Registry L → Registry L → Prop :=
  Relation.ReflTransGen (Step p)

theorem Step.mono {p q : Ty L → Prop} {s s' : Registry L} (hpq : ∀ T, p T → q T)
    (h : Step p s s') : Step q s s' := by
  cases h with
  | faults fs => exact .faults s fs
  | created T d hT hd => exact .created s T d (hpq T hT) hd
  | registered T hT hv hid => exact .registered s T (hpq T hT) hv hid

theorem Steps.mono {p q : Ty L → Prop} {s s' : Registry L} (hpq : ∀ T, p T → q T)
    (h : Steps p s s') : Steps q s s' := by
  induction h with
  | refl => exact .refl
  | tail _ h ih => exact ih.tail (h.mono hpq)

theorem Steps.isPrefix {p : Ty L → Prop} {s s' : Registry L} (h : Steps p s s') :
    s.types_ <+: s'.types_ := by
  induction h with
  | refl => exact List.prefix_rfl
  | tail _ h ih =>
    cases h with
    | faults => exact ih
    | created => exact ih
    | registered => exact ih.trans (List.prefix_append _ _)

theorem Step.length_le {p : Ty L → Prop} {s s' : Registry L} (h : Step p s s') :
    s.types_.length ≤ s'.types_.length :=
  (Steps.isPrefix (.single h)).length_le

theorem Steps.length_le {p : Ty L → Prop} {s s' : Registry L} (h : Steps p s s') :
    s.types_.length ≤ s'.types_.length := h.isPrefix.length_le

theorem Steps.id_eq {p : Ty L → Prop} {s s' : Registry L} (h : Steps p s s') {T : Ty L}
    (hT : ¬ p T) : s'.id T = s.id T := by
  induction h with
  | refl => rfl
  | tail _ h ih =>
    cases h with
    | faults => exact ih
    | created => exact ih
    | registered U hU =>
      have hne : T ≠ U := fun e => hT (e ▸ hU)
      exact (Registry.id_registered_of_ne _ hne).trans ih

theorem Steps.data_eq {p : Ty L → Prop} {s s' : Registry L} (h : Steps p s s') {T : Ty L}
    (hT : ¬ p T) : s'.data T = s.data T := by
  induction h with
  | refl => rfl
  | tail _ h ih =>
    cases h with
    | faults => exact ih
    | created U d hU =>
      have hne : T ≠ U := fun e => hT (e ▸ hU)
      exact (Registry.data_created_of_ne _ d hne).trans ih
    | registered => exact ih

/-- A type that has an id keeps it. -/
theorem Steps.id_of_isValid {p : Ty L → Prop} {s s' : Registry L} (h : Steps p s s')
    {T : Ty L} (hT : (s.id T).isValid = true) : s'.id T = s.id T := by
  induction h with
  | refl => rfl
  | tail _ h ih =>
    cases h with
    | faults => exact ih
    | created => exact ih
    | registered U _ _ hid =>
      have hne : T ≠ U := by
        rintro rfl
        rw [ih, hT] at hid
        cases hid
      exact (Registry.id_registered_of_ne _ hne).trans ih

theorem allocated_step (p : Ty L → Prop) (s : Registry L) : Step p s s.allocated :=
  .faults s s.faults.tail

abbrev UpTo (P : Program L) (T U : Ty L) : Prop := U.rank P.rank ≤ T.rank P.rank
abbrev Below (P : Program L) (T U : Ty L) : Prop := U.rank P.rank < T.rank P.rank

theorem Creation.run_steps {rk : L → Nat} {r : Nat} {p : Ty L → Prop}
    {rec : (U : Ty L) → U.rank rk < r → RegM L (Except ReflectError TypeID)}
    (hrec : ∀ U hU s, Steps p s (rec U hU s).2) (c : Creation L rk r) (s : Registry L) :
    Steps p s (c.run rec s).2 := by
  induction c generalizing s with
  | ret d => exact .refl
  | alloc k ih =>
    rw [Creation.run]
    split
    · exact .single (allocated_step p s)
    · exact .head (allocated_step p s) (ih s.allocated)
  | value U hU k ih =>
    have hstep := hrec U hU s
    rw [Creation.run]
    split
    next i s' h =>
      rw [h] at hstep
      exact hstep.trans (ih i s')
    next e s' h =>
      rw [h] at hstep
      exact hstep
  | attempt U hU k ih => exact (hrec U hU s).trans (ih _ _)

section Calls

variable {T : Ty L}
  {rec : (U : Ty L) → Below P T U → RegM L (Except ReflectError TypeID)}

theorem create_steps (hrec : ∀ U hU s, Steps (Below P T) s (rec U hU s).2) (s : Registry L) :
    Steps (UpTo P T) s (create P T rec s).2 ∧ (create P T rec s).2.id T = s.id T := by
  unfold create
  split
  · exact ⟨.refl, rfl⟩
  · exact ⟨.refl, rfl⟩
  next c hd _ =>
    have hrun := Creation.run_steps hrec c s
    have hle : Steps (UpTo P T) s (c.run rec s).2 := hrun.mono fun _ => Nat.le_of_lt
    have hid := hrun.id_eq (T := T) (Nat.lt_irrefl _)
    have hdata := (hrun.data_eq (T := T) (Nat.lt_irrefl _)).trans hd
    split
    next d s' h =>
      rw [h] at hle hid hdata
      exact ⟨hle.tail (.created s' T d (Nat.le_refl _) hdata), hid⟩
    next s' h =>
      rw [h] at hle hid
      exact ⟨hle, hid⟩

/-- What `RegisterType<T>` leaves behind: the steps of `Create`, and on success
one entry that carries the number of entries before it plus one. -/
theorem registerTypeWith_cases
    (hrec : ∀ U hU s, Steps (Below P T) s (rec U hU s).2) (s : Registry L) :
    (∃ e s', registerTypeWith P T rec s = (.error e, s') ∧ Steps (UpTo P T) s s' ∧
      s'.id T = s.id T) ∨
    (∃ s', registerTypeWith P T rec s =
        (.ok (.ofSize (s'.types_.length + 1)), { s' with
          types_ := s'.types_ ++ [{ id_ := .ofSize (s'.types_.length + 1), data_ := T }] }) ∧
      Steps (UpTo P T) s s' ∧ s'.id T = s.id T) := by
  obtain ⟨hsteps, hid⟩ := create_steps hrec s
  unfold registerTypeWith
  split
  · exact .inl ⟨_, _, rfl, .refl, rfl⟩
  · split
    next s' h =>
      rw [h] at hsteps hid
      exact .inl ⟨_, _, rfl, hsteps, hid⟩
    next d s' h =>
      rw [h] at hsteps hid
      have halloc := hsteps.tail (allocated_step _ s')
      dsimp only
      split
      · exact .inl ⟨_, _, rfl, halloc, hid⟩
      · exact .inr ⟨s'.allocated, rfl, halloc, hid⟩

theorem typeInstanceID_steps (hrec : ∀ U hU s, Steps (Below P T) s (rec U hU s).2)
    (s : Registry L) : Steps (UpTo P T) s (typeInstanceID P T rec s).2 := by
  unfold typeInstanceID
  split
  · exact .refl
  next hv =>
    split
    · exact .refl
    next hid =>
      rcases registerTypeWith_cases hrec s with ⟨e, s', h, hsteps, _⟩ | ⟨s', h, hsteps, hid'⟩
      · rw [h]
        exact hsteps
      · rw [h]
        have hinv : (s'.id T).isValid = false := by simpa [hid'] using hid
        exact hsteps.tail (.registered s' T (Nat.le_refl _) hv hinv)

end Calls

theorem reflectAt_steps (r : Nat) (T : Ty L) (h : T.rank P.rank < r) (s : Registry L) :
    Steps (UpTo P T) s (reflectAt P r T h s).2 := by
  induction r generalizing T s with
  | zero => exact absurd h (Nat.not_lt_zero _)
  | succ r ih =>
    apply typeInstanceID_steps
    intro U hU s
    apply (ih U _ s).mono
    intro V hV
    exact Nat.lt_of_le_of_lt hV hU

theorem reflectAt_eq (r r' : Nat) (T : Ty L) (h : T.rank P.rank < r)
    (h' : T.rank P.rank < r') : reflectAt P r T h = reflectAt P r' T h' := by
  induction r generalizing r' T with
  | zero => exact absurd h (Nat.not_lt_zero _)
  | succ r ih =>
    cases r' with
    | zero => exact absurd h' (Nat.not_lt_zero _)
    | succ r' =>
      simp only [reflectAt]
      congr 1
      funext U hU
      exact ih r' U _ _

theorem reflectID_eq (T : Ty L) :
    reflectID P T = typeInstanceID P T fun U _ => reflectID P U := by
  unfold reflectID
  rw [reflectAt]
  congr 1
  funext U hU
  exact reflectAt_eq _ _ U _ _

theorem reflectID_steps (T : Ty L) (s : Registry L) :
    Steps (UpTo P T) s (reflectID P T s).2 := reflectAt_steps _ T _ s

theorem reflectID_below {T U : Ty L} (hU : Below P T U) (s : Registry L) :
    Steps (Below P T) s (reflectID P U s).2 := by
  apply (reflectID_steps U s).mono
  intro V hV
  exact Nat.lt_of_le_of_lt hV hU

theorem registerType_cases (T : Ty L) (s : Registry L) :
    (∃ e s', registerType P T s = (.error e, s') ∧ Steps (UpTo P T) s s' ∧
      s'.id T = s.id T) ∨
    (∃ s', registerType P T s =
        (.ok (.ofSize (s'.types_.length + 1)), { s' with
          types_ := s'.types_ ++ [{ id_ := .ofSize (s'.types_.length + 1), data_ := T }] }) ∧
      Steps (UpTo P T) s s' ∧ s'.id T = s.id T) :=
  registerTypeWith_cases (fun _ hU s => reflectID_below hU s) s

/-- `ReflectID<T>` in full: `void`, a cached id, a failure, or a new entry. -/
theorem reflectID_cases (T : Ty L) (s : Registry L) :
    (T = Ty.void ∧ reflectID P T s = (.ok ⟨0⟩, s)) ∨
    (T ≠ Ty.void ∧ (s.id T).isValid = true ∧ reflectID P T s = (.ok (s.id T), s)) ∨
    (T ≠ Ty.void ∧ (s.id T).isValid = false ∧
      ∃ e s', reflectID P T s = (.error e, s') ∧ s'.id T = s.id T) ∨
    (T ≠ Ty.void ∧ (s.id T).isValid = false ∧ ∃ s',
      reflectID P T s = (.ok (.ofSize (s'.types_.length + 1)), s'.registered T) ∧
      Steps (UpTo P T) s s' ∧ s'.id T = s.id T) := by
  rw [reflectID_eq]
  unfold typeInstanceID
  split
  next hv => exact .inl ⟨hv, rfl⟩
  next hv =>
    split
    next hid => exact .inr (.inl ⟨hv, hid, rfl⟩)
    next hid =>
      rw [Bool.not_eq_true] at hid
      rcases registerType_cases (P := P) T s with ⟨e, s', h, _, hid'⟩ | ⟨s', h, hsteps, hid'⟩
      · rw [registerType] at h
        exact .inr (.inr (.inl ⟨hv, hid, e, s', by rw [h], hid'⟩))
      · rw [registerType] at h
        exact .inr (.inr (.inr ⟨hv, hid, s', by rw [h]; rfl, hsteps, hid'⟩))

end ReflCpp
