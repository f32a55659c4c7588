import ReflCpp.Filling
import ReflCpp.FunctionTraits
import ReflCpp.RegistryLaw
import ReflCpp.Runs

namespace ReflCpp

open Cpp Filling Runs

variable {L : Type}

deriving instance DecidableEq for FunctionType

/-- The registry, with the static `args` of `GetArgsImpl` for each function type. -/
structure Statics (L : Type) where
  reg : Registry L
  args : FunctionType L → List TypeID

namespace Statics

def init : Statics L where
  reg := .init
  args := fun _ => []

def armed (st : Statics L) (faults : List Bool) : Statics L :=
  { st with reg := { st.reg with faults } }

end Statics

variable [DecidableEq L] (P : Program L)

/-- `GetArgsImplImpl<First, Rest...>`, for the parameter types from `First` on, with the
vector it appends to. -/
def getArgsImplImpl : List (Ty L) → List TypeID →
    RegM L (Except ReflectError Unit × List TypeID) :=
  fill (reflectID P)

def getArgsImpl (t : FunctionType L) (st : Statics L) :
    Except ReflectError (List TypeID) × Statics L :=
  if st.args t ≠ [] then (.ok (st.args t), st)
  else
    match getArgsImplImpl P (functionTraits t).args (st.args t) st.reg with
    | ((.error e, args), s) => (.error e, { reg := s, args := Function.update st.args t args })
    | ((.ok (), args), s) => (.ok args, { reg := s, args := Function.update st.args t args })

/-- `FunctionTraits<T>::GetArgs` -/
def getArgs (t : FunctionType L) (st : Statics L) :
    Except ReflectError (List TypeID) × Statics L :=
  if (functionTraits t).argCount = 0 then (.ok [], st) else getArgsImpl P t st

/-- One call of a run; `faults` says which allocations throw during it. -/
inductive ArgsRequest (L : Type)
  | other (r : Request L) : ArgsRequest L
  | getArgs (t : FunctionType L) (faults : List Bool) : ArgsRequest L

namespace ArgsRequest

def exec (st : Statics L) : ArgsRequest L → Statics L
  | .other r => { st with reg := r.exec P st.reg }
  | .getArgs t faults => (ReflCpp.getArgs P t (st.armed faults)).2

def run (rs : List (ArgsRequest L)) : Statics L := rs.foldl (exec P) .init

end ArgsRequest

section Laws

/-- A call of `GetArgs` made now, whatever is thrown during it, gives the ids of the
parameter types in order if it gives any, and gives them if each can be reflected. -/
structure ArgsLaw (P : Program L) (t : FunctionType L) (st : Statics L) : Prop where
  lists : ∀ faults ids st', getArgs P t (st.armed faults) = (.ok ids, st') →
    List.Forall₂ (Issued P st'.reg) t.args ids
  gives : ∀ faults, AllOk (reflectID P) t.args (st.armed faults).reg →
    ∃ ids st', getArgs P t (st.armed faults) = (.ok ids, st')

/-- The ids are still to be computed, the first parameter type can be reflected, and a
later one cannot. -/
def Poisoned (P : Program L) (t : FunctionType L) (st : Statics L) (faults : List Bool) : Prop :=
  st.args t = [] ∧ FailsLate (reflectID P) t.args (st.armed faults).reg

/-- What holds as long as no call has failed late: the static is empty or complete. -/
structure Kept (P : Program L) (t : FunctionType L) (st : Statics L) : Prop where
  passes : Passes .init st.reg
  args : st.args t = [] ∨ List.Forall₂ (Issued P st.reg) t.args (st.args t)

variable {P} {t u : FunctionType L} {st st' : Statics L} {faults : List Bool}
  {ids : List TypeID}

theorem Issued.of_reflectID {s : Registry L} {T : Ty L} {i : TypeID} (hs : Passes .init s)
    (h : (reflectID P T s).1 = .ok i) : Issued P (reflectID P T s).2 T i :=
  ⟨s, _, hs, Prod.ext h rfl, .refl⟩

theorem getArgsImplImpl_passes (Ts : List (Ty L)) (ids : List TypeID) (s : Registry L) :
    Passes s (getArgsImplImpl P Ts ids s).2 :=
  inv_fill (fun T _ h => h.trans (passes_reflectID T _)) Ts ids s .refl

theorem issued_getArgsImplImpl {s : Registry L} {Ts : List (Ty L)} (hs : Passes .init s)
    (hall : AllOk (reflectID P) Ts s) :
    List.Forall₂ (Issued P (getArgsImplImpl P Ts [] s).2) Ts
      (getArgsImplImpl P Ts [] s).1.2 :=
  fill_values (fun T _ h => h.trans (passes_reflectID T _)) (fun _ _ _ => Issued.of_reflectID)
    (fun T _ _ _ h => h.passes (passes_reflectID T _)) hs .nil hall

theorem passes_armed (st : Statics L) (faults : List Bool) :
    Passes st.reg (st.armed faults).reg := .single (.faults st.reg faults)

/-- `GetArgs` in full: nothing to compute, computed before, computed now, or failed. -/
theorem getArgs_cases (t : FunctionType L) (st : Statics L) :
    (t.args = [] ∧ getArgs P t st = (.ok [], st)) ∨
    (t.args ≠ [] ∧ st.args t ≠ [] ∧ getArgs P t st = (.ok (st.args t), st)) ∨
    (t.args ≠ [] ∧ st.args t = [] ∧ ∃ ids s, getArgsImplImpl P t.args [] st.reg =
        ((.ok (), ids), s) ∧
      getArgs P t st = (.ok ids, { reg := s, args := Function.update st.args t ids })) ∨
    (t.args ≠ [] ∧ st.args t = [] ∧ ∃ e ids s, getArgsImplImpl P t.args [] st.reg =
        ((.error e, ids), s) ∧
      getArgs P t st = (.error e, { reg := s, args := Function.update st.args t ids })) := by
  unfold getArgs getArgsImpl
  rw [FunctionTraits.argCount, functionTraits_args]
  by_cases hargs : t.args = []
  · exact .inl ⟨hargs, by rw [hargs]; rfl⟩
  · rw [if_neg (mt List.length_eq_zero_iff.mp hargs)]
    by_cases hids : st.args t = []
    · rw [if_neg (not_not_intro hids), hids]
      rcases h : getArgsImplImpl P t.args [] st.reg with ⟨⟨e | _, ids⟩, s⟩
      · exact .inr (.inr (.inr ⟨hargs, rfl, e, ids, s, rfl, rfl⟩))
      · exact .inr (.inr (.inl ⟨hargs, rfl, ids, s, rfl, rfl⟩))
    · exact .inr (.inl ⟨hargs, hids, if_pos hids⟩)

theorem getArgs_passes (t : FunctionType L) (st : Statics L) :
    Passes st.reg (getArgs P t st).2.reg := by
  have hpass := getArgsImplImpl_passes (P := P) t.args [] st.reg
  rcases getArgs_cases (P := P) t st with
    ⟨_, h⟩ | ⟨_, _, h⟩ | ⟨_, _, ids, s, hfill, h⟩ | ⟨_, _, e, ids, s, hfill, h⟩
  · rw [h]
  · rw [h]
  · rw [hfill] at hpass
    rw [h]
    exact hpass
  · rw [hfill] at hpass
    rw [h]
    exact hpass

theorem ArgsRequest.exec_passes (r : ArgsRequest L) (st : Statics L) :
    Passes st.reg (r.exec P st).reg := by
  cases r with
  | other r => exact r.exec_steps (P := P) st.reg
  | getArgs t faults => exact (passes_armed st faults).trans (getArgs_passes t (st.armed faults))

theorem getArgs_of_filled (st : Statics L) (hargs : t.args ≠ []) (hids : st.args t ≠ []) :
    getArgs P t st = (.ok (st.args t), st) := by
  rcases getArgs_cases (P := P) t st with ⟨h, _⟩ | ⟨_, _, h⟩ | ⟨_, h, _⟩ | ⟨_, h, _⟩
  · exact absurd h hargs
  · exact h
  · exact absurd h hids
  · exact absurd h hids

theorem getArgs_args_of_empty (st : Statics L) (hargs : t.args ≠ []) (hids : st.args t = []) :
    (getArgs P t st).2.args t = (getArgsImplImpl P t.args [] st.reg).1.2 := by
  rcases getArgs_cases (P := P) t st with
    ⟨h, _⟩ | ⟨_, h, _⟩ | ⟨_, _, ids, s, hfill, h⟩ | ⟨_, _, e, ids, s, hfill, h⟩
  · exact absurd h hargs
  · exact absurd hids h
  · rw [h, hfill]
    exact Function.update_self _ _ _
  · rw [h, hfill]
    exact Function.update_self _ _ _

theorem getArgs_args_of_ne (st : Statics L) (h : t ≠ u) :
    (getArgs P u st).2.args t = st.args t := by
  rcases getArgs_cases (P := P) u st with
    ⟨_, hu⟩ | ⟨_, _, hu⟩ | ⟨_, _, ids, s, _, hu⟩ | ⟨_, _, e, ids, s, _, hu⟩ <;> rw [hu]
  · exact Function.update_of_ne h _ _
  · exact Function.update_of_ne h _ _

theorem kept_init (t : FunctionType L) : Kept P t .init := ⟨.refl, .inl rfl⟩

theorem Kept.keeps (h : Kept P t st) (hpass : Passes st.reg st'.reg)
    (hargs : st'.args t = st.args t) : Kept P t st' where
  passes := h.passes.trans hpass
  args := by
    rw [hargs]
    exact h.args.imp_right fun hids => hids.imp fun _ _ hi => hi.passes hpass

theorem Kept.armed (h : Kept P t st) (faults : List Bool) : Kept P t (st.armed faults) :=
  h.keeps (passes_armed st faults) rfl

theorem Kept.lists (h : Kept P t st) (hok : getArgs P t st = (.ok ids, st')) :
    List.Forall₂ (Issued P st'.reg) t.args ids := by
  rcases getArgs_cases (P := P) t st with
    ⟨hargs, h'⟩ | ⟨_, hids, h'⟩ | ⟨_, _, ids', s, hfill, h'⟩ | ⟨_, _, e, ids', s, _, h'⟩ <;>
    rw [h'] at hok <;> cases hok
  · rw [hargs]
    exact .nil
  · exact h.args.resolve_left hids
  · have hall : AllOk (reflectID P) t.args st.reg := (fill_ok_iff []).mp ⟨(), by
      rw [getArgsImplImpl] at hfill
      rw [hfill]⟩
    have hissued := issued_getArgsImplImpl h.passes hall
    rw [hfill] at hissued
    exact hissued

theorem gives_of_allOk (hall : AllOk (reflectID P) t.args st.reg) :
    ∃ ids st', getArgs P t st = (.ok ids, st') := by
  rcases getArgs_cases (P := P) t st with
    ⟨_, h⟩ | ⟨_, _, h⟩ | ⟨_, _, ids, s, _, h⟩ | ⟨_, _, e, ids, s, hfill, h⟩
  · exact ⟨_, _, h⟩
  · exact ⟨_, _, h⟩
  · exact ⟨_, _, h⟩
  · obtain ⟨u, hu⟩ := (fill_ok_iff []).mpr hall
    rw [getArgsImplImpl] at hfill
    rw [hfill] at hu
    cases hu

theorem Kept.law (h : Kept P t st) : ArgsLaw P t st where
  lists := fun faults _ _ hok => (h.armed faults).lists hok
  gives := fun _ hall => gives_of_allOk hall

/-- A call that does not fail late leaves the static empty or complete. -/
theorem Kept.getArgs (h : Kept P t st) (hlate : ¬ Poisoned P t st faults) :
    Kept P t (getArgs P t (st.armed faults)).2 := by
  have hpass := h.passes.trans ((passes_armed st faults).trans
    (getArgs_passes (P := P) t (st.armed faults)))
  refine ⟨hpass, ?_⟩
  rcases getArgs_cases (P := P) t (st.armed faults) with
    ⟨hargs, h'⟩ | ⟨_, _, h'⟩ | ⟨_, hids, ids, s, hfill, h'⟩ | ⟨_, hids, e, ids, s, hfill, h'⟩
  · rw [h']
    exact (h.armed faults).args
  · rw [h']
    exact (h.armed faults).args
  · have hlists := (h.armed faults).lists h'
    rw [h']
    right
    simpa using hlists
  · left
    have hall : ¬ AllOk (reflectID P) t.args (st.armed faults).reg := by
      rw [← fill_ok_iff [], ← getArgsImplImpl, hfill]
      simp
    have hempty := fill_of_not_failsLate (fun hfails => hlate ⟨hids, hfails⟩) hall
    rw [← getArgsImplImpl, hfill] at hempty
    rw [h']
    simpa using hempty

theorem Kept.exec (h : Kept P t st) (r : ArgsRequest L)
    (hlate : ∀ faults, r = .getArgs t faults → ¬ Poisoned P t st faults) :
    Kept P t (r.exec P st) := by
  have hpass := r.exec_passes (P := P) st
  cases r with
  | other r => exact h.keeps hpass rfl
  | getArgs u faults =>
    by_cases hu : t = u
    · subst hu
      exact h.getArgs (hlate faults rfl)
    · exact h.keeps hpass (getArgs_args_of_ne (st.armed faults) hu)

/-- After a late failure the static holds fewer ids than there are parameters, and the
next call returns it. -/
theorem Poisoned.not_law (h : Poisoned P t st faults) :
    ¬ ArgsLaw P t ((ArgsRequest.getArgs t faults).exec P st) := by
  intro hlaw
  obtain ⟨hids, hlate⟩ := h
  obtain ⟨_, hne, hlt⟩ := fill_of_failsLate hlate
  have hargs : t.args ≠ [] := by
    intro hnil
    rw [hnil] at hlate
    exact hlate
  have hafter := getArgs_args_of_empty (P := P) (st.armed faults) hargs hids
  rw [getArgsImplImpl] at hafter
  rw [← hafter] at hne hlt
  have hnext := getArgs_of_filled (P := P)
    (((ArgsRequest.getArgs t faults).exec P st).armed []) hargs hne
  have hlength := (hlaw.lists [] _ _ hnext).length_eq
  exact Nat.ne_of_gt hlt hlength

end Laws

section Run

variable (P : Program L) (t : FunctionType L)

theorem argsLaw_run_iff (rs : List (ArgsRequest L)) :
    (∀ before, before <+: rs → ArgsLaw P t (ArgsRequest.run P before)) ↔
    ∀ before faults, before ++ [.getArgs t faults] <+: rs →
      ¬ Poisoned P t (ArgsRequest.run P before) faults := by
  constructor
  · intro hlaw before faults hprefix hpoisoned
    have hafter := hlaw _ hprefix
    rw [ArgsRequest.run, foldl_concat] at hafter
    exact hpoisoned.not_law hafter
  · intro hlate before hprefix
    have hkept : Kept P t (ArgsRequest.run P before) := by
      refine inv_of_prefixes (kept_init t) (fun _ r h hlate => h.exec r hlate) ?_ hprefix
      rintro before r hr _ faults rfl
      exact hlate before faults hr
    exact hkept.law

/-- `R(*)(A, B)` for two types `A` and `B` of the program. -/
def plainFunction : FunctionType Nat where
  receiver := none
  ret := Ty.void
  args := [.obj (.leaf false false (.user 0)), .obj (.leaf false false (.user 1))]

def plainRequest : ArgsRequest Nat := .getArgs plainFunction [false, false, true]

/-- The creation for the second parameter throws, and the next call gives one id. -/
theorem not_argsLaw_plain :
    ¬ ∀ before, before <+: [plainRequest] →
      ArgsLaw .plain plainFunction (ArgsRequest.run .plain before) := by
  intro hlaw
  have hlists := (hlaw [plainRequest] List.prefix_rfl).lists [] [⟨1⟩] _ rfl
  exact absurd hlists.length_eq (by decide)

end Run

end ReflCpp
