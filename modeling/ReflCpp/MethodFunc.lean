import ReflCpp.ArgTypes

namespace ReflCpp

open Cpp Filling Runs

variable {L : Type}

structure ArgumentInfo where
  name : CharPtr
  type : TypeID
  deriving DecidableEq

/-- `MethodFuncWrapper<T>` for a function type `T`, with the names given for its
parameters. -/
structure MethodFuncWrapper (L : Type) where
  type : FunctionType L
  args_ : List CharPtr
  argCount_lt : (functionTraits type).argCount < 256

/-- The statics, with the `infoArgs` of `GetArgs` for each function type. -/
structure MethodStatics (L : Type) extends Statics L where
  infoArgs : FunctionType L → List ArgumentInfo

namespace MethodStatics

def init : MethodStatics L where
  toStatics := .init
  infoArgs := fun _ => []

def armed (st : MethodStatics L) (faults : List Bool) : MethodStatics L :=
  { st with toStatics := st.toStatics.armed faults }

end MethodStatics

/-- The loop of `GetArgs` from `i` on; `args_[i]` is not checked. -/
def fillInfo (args_ : List CharPtr) :
    (i : Nat) → List TypeID → List ArgumentInfo → Except Crash (List ArgumentInfo)
  | _, [], infos => .ok infos
  | i, type :: types, infos =>
    match args_[i]? with
    | none => .error .outOfBounds
    | some name => fillInfo args_ (i + 1) types (infos ++ [{ name, type }])

variable [DecidableEq L] (P : Program L)

/-- `MethodFuncWrapper<T>::GetArgs` -/
def MethodFuncWrapper.getArgs (w : MethodFuncWrapper L) (st : MethodStatics L) :
    Except Crash (Except ReflectError (List ArgumentInfo)) × MethodStatics L :=
  if st.infoArgs w.type ≠ [] then (.ok (.ok (st.infoArgs w.type)), st)
  else
    match ReflCpp.getArgs P w.type st.toStatics with
    | (.error e, s) => (.ok (.error e), { st with toStatics := s })
    | (.ok types, s) =>
      match fillInfo w.args_ 0 types (st.infoArgs w.type) with
      -- Nothing is known of the statics after a read past the end.
      | .error c => (.error c, { st with toStatics := s })
      | .ok infos =>
        (.ok (.ok infos),
          { toStatics := s, infoArgs := Function.update st.infoArgs w.type infos })

/-- One call of a run; `faults` says which allocations throw during it. -/
inductive MethodRequest (L : Type)
  | other (r : ArgsRequest L) : MethodRequest L
  | getArgs (w : MethodFuncWrapper L) (faults : List Bool) : MethodRequest L

namespace MethodRequest

def exec (st : MethodStatics L) : MethodRequest L → MethodStatics L
  | .other r => { st with toStatics := r.exec P st.toStatics }
  | .getArgs w faults => (w.getArgs P (st.armed faults)).2

def run (rs : List (MethodRequest L)) : MethodStatics L := rs.foldl (exec P) .init

end MethodRequest

section Laws

/-- A call on `w` made now reads no name past the end, and what it returns if it succeeds
are the names of `w` with the ids of the parameter types, in order. -/
structure InfoLaw (P : Program L) (w : MethodFuncWrapper L) (st : MethodStatics L)
    (faults : List Bool) : Prop where
  inBounds : (w.getArgs P (st.armed faults)).1 ≠ .error .outOfBounds
  names : ∀ infos st', w.getArgs P (st.armed faults) = (.ok (.ok infos), st') →
    infos.map ArgumentInfo.name = w.args_.take w.type.args.length
  types : ∀ infos st', w.getArgs P (st.armed faults) = (.ok (.ok infos), st') →
    List.Forall₂ (Issued P st'.reg) w.type.args (infos.map ArgumentInfo.type)

/-- What the law needs of the state before a call: what another wrapper of the type has
stored are the names of `w` as well; where nothing is stored, `w` has a name for each
parameter if the call gets as far as reading them, and the ids kept for the type are not
part of a list that a failure has cut short. -/
structure Fits (P : Program L) (w : MethodFuncWrapper L) (st : MethodStatics L)
    (faults : List Bool) : Prop where
  shared : st.infoArgs w.type ≠ [] →
    (st.infoArgs w.type).map ArgumentInfo.name = w.args_.take w.type.args.length
  complete : st.infoArgs w.type = [] →
    st.args w.type = [] ∨ (st.args w.type).length = w.type.args.length
  named : st.infoArgs w.type = [] →
    st.args w.type ≠ [] ∨ AllOk (reflectID P) w.type.args (st.armed faults).reg →
    w.type.args.length ≤ w.args_.length

/-- The ids kept for a function type are those of its first parameter types, of all of them
unless a failure has cut the list short. -/
structure Begun (P : Program L) (st : Statics L) : Prop where
  passes : Passes .init st.reg
  args : ∀ t, ∃ Ts, Ts <+: t.args ∧ List.Forall₂ (Issued P st.reg) Ts (st.args t)

/-- Where the statics come from, as long as every call has fitted. -/
structure Stored (P : Program L) (st : MethodStatics L) : Prop where
  begun : Begun P st.toStatics
  infos : ∀ t, st.infoArgs t = [] ∨
    List.Forall₂ (Issued P st.reg) t.args ((st.infoArgs t).map ArgumentInfo.type)

variable {P} {w : MethodFuncWrapper L} {st st' : MethodStatics L} {faults : List Bool}

section Begun

variable {t u : FunctionType L} {s s' : Statics L} {ids : List TypeID}

theorem begun_init : Begun P (.init : Statics L) :=
  ⟨.refl, fun _ => ⟨[], List.nil_prefix, .nil⟩⟩

theorem Begun.keeps (h : Begun P s) (hpass : Passes s.reg s'.reg) (hargs : s'.args = s.args) :
    Begun P s' := by
  refine ⟨h.passes.trans hpass, fun t => ?_⟩
  obtain ⟨Ts, hTs, hids⟩ := h.args t
  rw [hargs]
  exact ⟨Ts, hTs, hids.imp fun _ _ hi => hi.passes hpass⟩

theorem Begun.armed (h : Begun P s) (faults : List Bool) : Begun P (s.armed faults) :=
  h.keeps (passes_armed s faults) rfl

theorem Begun.filled (h : Begun P s) (t : FunctionType L) :
    ∃ Ts, Ts <+: t.args ∧ List.Forall₂ (Issued P (getArgsImplImpl P t.args [] s.reg).2) Ts
      (getArgsImplImpl P t.args [] s.reg).1.2 :=
  fill_values_isPrefix (fun T _ h => h.trans (passes_reflectID T _))
    (fun _ _ _ => Issued.of_reflectID) (fun T _ _ _ h => h.passes (passes_reflectID T _))
    h.passes .nil

theorem getArgs_reg_of_empty (s : Statics L) (hargs : t.args ≠ []) (hids : s.args t = []) :
    (ReflCpp.getArgs P t s).2.reg = (getArgsImplImpl P t.args [] s.reg).2 := by
  rcases getArgs_cases (P := P) t s with
    ⟨h, _⟩ | ⟨_, h, _⟩ | ⟨_, _, ids, s', hfill, h⟩ | ⟨_, _, e, ids, s', hfill, h⟩
  · exact absurd h hargs
  · exact absurd hids h
  · rw [h, hfill]
  · rw [h, hfill]

/-- Only a call that finds the static of its type empty changes a static. -/
theorem getArgs_args_of_not (h : ¬ (t = u ∧ t.args ≠ [] ∧ s.args t = [])) :
    (ReflCpp.getArgs P u s).2.args t = s.args t := by
  by_cases hu : t = u
  · subst hu
    rcases getArgs_cases (P := P) t s with
      ⟨_, h'⟩ | ⟨_, _, h'⟩ | ⟨hargs, hids, _⟩ | ⟨hargs, hids, _⟩
    · rw [h']
    · rw [h']
    · exact absurd ⟨rfl, hargs, hids⟩ h
    · exact absurd ⟨rfl, hargs, hids⟩ h
  · exact getArgs_args_of_ne s hu

theorem Begun.getArgs (h : Begun P s) (u : FunctionType L) :
    Begun P (ReflCpp.getArgs P u s).2 := by
  have hpass := getArgs_passes (P := P) u s
  refine ⟨h.passes.trans hpass, fun t => ?_⟩
  by_cases hnew : t = u ∧ t.args ≠ [] ∧ s.args t = []
  · obtain ⟨rfl, hargs, hids⟩ := hnew
    rw [getArgs_args_of_empty s hargs hids, getArgs_reg_of_empty s hargs hids]
    exact h.filled t
  · obtain ⟨Ts, hTs, hids⟩ := h.args t
    rw [getArgs_args_of_not hnew]
    exact ⟨Ts, hTs, hids.imp fun _ _ hi => hi.passes hpass⟩

theorem Begun.exec (h : Begun P s) (r : ArgsRequest L) : Begun P (r.exec P s) := by
  cases r with
  | other r => exact h.keeps (r.exec_steps (P := P) s.reg) rfl
  | getArgs u faults => exact (h.armed faults).getArgs u

/-- Where the list is not cut short, it can serve a call. -/
theorem Begun.kept (h : Begun P s) (hc : s.args t = [] ∨ (s.args t).length = t.args.length) :
    Kept P t s := by
  refine ⟨h.passes, hc.imp_right fun hlen => ?_⟩
  obtain ⟨Ts, hTs, hids⟩ := h.args t
  rwa [hTs.eq_of_length (hids.length_eq.trans hlen)] at hids

theorem getArgs_ok_iff :
    (∃ ids s', ReflCpp.getArgs P t s = (.ok ids, s')) ↔
      t.args = [] ∨ s.args t ≠ [] ∨ AllOk (reflectID P) t.args s.reg := by
  constructor
  · rintro ⟨ids, s', hok⟩
    rcases getArgs_cases (P := P) t s with
      ⟨hargs, _⟩ | ⟨_, hids, _⟩ | ⟨_, _, ids', s'', hfill, _⟩ | ⟨_, _, e, ids', s'', _, h⟩
    · exact .inl hargs
    · exact .inr (.inl hids)
    · refine .inr (.inr ((fill_ok_iff []).mp ⟨(), ?_⟩))
      rw [getArgsImplImpl] at hfill
      rw [hfill]
    · rw [h] at hok
      cases hok
  · rintro (hargs | hids | hall)
    · rcases getArgs_cases (P := P) t s with ⟨_, h⟩ | ⟨h, _⟩ | ⟨h, _⟩ | ⟨h, _⟩
      · exact ⟨_, _, h⟩
      all_goals exact absurd hargs h
    · by_cases hargs : t.args = []
      · rcases getArgs_cases (P := P) t s with ⟨_, h⟩ | ⟨h, _⟩ | ⟨h, _⟩ | ⟨h, _⟩
        · exact ⟨_, _, h⟩
        all_goals exact absurd hargs h
      · exact ⟨_, _, getArgs_of_filled s hargs hids⟩
    · exact gives_of_allOk hall

end Begun

/-- Each name with the id of its parameter. -/
def paired (args_ : List CharPtr) (types : List TypeID) : List ArgumentInfo :=
  (args_.zip types).map fun p => { name := p.1, type := p.2 }

theorem name_paired {args_ : List CharPtr} {types : List TypeID}
    (h : types.length ≤ args_.length) :
    (paired args_ types).map ArgumentInfo.name = args_.take types.length := by
  rw [paired, List.map_map, List.zip_eq_zip_take_min, Nat.min_eq_right h, List.take_length]
  exact List.map_fst_zip (List.length_take_le _ _)

theorem type_paired {args_ : List CharPtr} {types : List TypeID}
    (h : types.length ≤ args_.length) :
    (paired args_ types).map ArgumentInfo.type = types := by
  rw [paired, List.map_map]
  exact List.map_snd_zip h

omit [DecidableEq L] in
theorem fillInfo_eq (args_ : List CharPtr) (i : Nat) (types : List TypeID)
    (infos : List ArgumentInfo) :
    fillInfo args_ i types infos =
      if types.length ≤ args_.length - i then
        .ok (infos ++ paired (args_.drop i) types)
      else .error .outOfBounds := by
  induction types generalizing i infos with
  | nil => simp [fillInfo, paired]
  | cons type types ih =>
    rw [fillInfo]
    by_cases hlt : i < args_.length
    · have hlen : (type :: types).length ≤ args_.length - i ↔
          types.length ≤ args_.length - (i + 1) := by
        rw [List.length_cons]
        omega
      rw [List.getElem?_eq_getElem hlt, List.drop_eq_getElem_cons hlt]
      simp only [hlen, ih, paired, List.zip_cons_cons, List.map_cons, List.append_assoc,
        List.singleton_append]
    · have hlen : ¬ (type :: types).length ≤ args_.length - i := by
        rw [List.length_cons]
        omega
      rw [List.getElem?_eq_none (by omega), if_neg hlen]

/-- `GetArgs` of a wrapper in full: stored before, failed, read past the end, or stored
now. -/
theorem MethodFuncWrapper.getArgs_cases (w : MethodFuncWrapper L) (st : MethodStatics L) :
    (st.infoArgs w.type ≠ [] ∧ w.getArgs P st = (.ok (.ok (st.infoArgs w.type)), st)) ∨
    (st.infoArgs w.type = [] ∧ ∃ e s, ReflCpp.getArgs P w.type st.toStatics = (.error e, s) ∧
      w.getArgs P st = (.ok (.error e), { st with toStatics := s })) ∨
    (st.infoArgs w.type = [] ∧ ∃ types s,
      ReflCpp.getArgs P w.type st.toStatics = (.ok types, s) ∧
      w.args_.length < types.length ∧
      w.getArgs P st = (.error .outOfBounds, { st with toStatics := s })) ∨
    (st.infoArgs w.type = [] ∧ ∃ types s infos,
      ReflCpp.getArgs P w.type st.toStatics = (.ok types, s) ∧
      types.length ≤ w.args_.length ∧
      infos.map ArgumentInfo.name = w.args_.take types.length ∧
      infos.map ArgumentInfo.type = types ∧
      w.getArgs P st = (.ok (.ok infos),
        { toStatics := s, infoArgs := Function.update st.infoArgs w.type infos })) := by
  unfold MethodFuncWrapper.getArgs
  by_cases hinfos : st.infoArgs w.type = []
  · rw [if_neg (not_not_intro hinfos), hinfos]
    rcases h : ReflCpp.getArgs P w.type st.toStatics with ⟨e | types, s⟩
    · exact .inr (.inl ⟨rfl, e, s, rfl, rfl⟩)
    · right
      right
      by_cases hlen : types.length ≤ w.args_.length
      · right
        have hfill := fillInfo_eq w.args_ 0 types []
        rw [if_pos (by simpa using hlen), List.drop_zero, List.nil_append] at hfill
        refine ⟨rfl, types, s, paired w.args_ types, rfl, hlen, name_paired hlen,
          type_paired hlen, ?_⟩
        simp only [hfill]
      · left
        have hfill := fillInfo_eq w.args_ 0 types []
        rw [if_neg (by simpa using hlen)] at hfill
        refine ⟨rfl, types, s, rfl, Nat.lt_of_not_le hlen, ?_⟩
        simp only [hfill]
  · exact .inl ⟨hinfos, if_pos hinfos⟩

theorem Stored.listed (h : Stored P st) (hf : Fits P w st faults)
    (hinfos : st.infoArgs w.type = []) {types : List TypeID} {s : Statics L}
    (hok : ReflCpp.getArgs P w.type (st.armed faults).toStatics = (.ok types, s)) :
    List.Forall₂ (Issued P s.reg) w.type.args types :=
  ((h.begun.armed faults).kept (hf.complete hinfos)).lists hok

theorem Stored.law (h : Stored P st) (hf : Fits P w st faults) : InfoLaw P w st faults := by
  rcases w.getArgs_cases (P := P) (st.armed faults) with
    ⟨hinfos, h'⟩ | ⟨_, e, s, _, h'⟩ | ⟨hinfos, types, s, hok, hlt, _⟩ |
    ⟨hinfos, types, s, infos, hok, _, hnames, htypes, h'⟩
  · refine ⟨by rw [h']; simp, ?_, ?_⟩ <;> rw [h'] <;> rintro _ _ ⟨⟩
    · exact hf.shared hinfos
    · exact ((h.infos w.type).resolve_left hinfos).imp fun _ _ hi =>
        hi.passes (passes_armed st.toStatics faults)
  · refine ⟨by rw [h']; simp, ?_, ?_⟩ <;> rw [h'] <;> rintro _ _ ⟨⟩
  · have hlen := (h.listed hf hinfos hok).length_eq
    rcases getArgs_ok_iff.mp ⟨_, _, hok⟩ with hargs | hreach
    · rw [hargs, List.length_nil] at hlen
      omega
    · have hle := hf.named hinfos hreach
      omega
  · have hlisted := h.listed hf hinfos hok
    refine ⟨by rw [h']; simp, ?_, ?_⟩ <;> rw [h'] <;> rintro _ _ ⟨⟩
    · rw [hnames, hlisted.length_eq]
    · rw [htypes]
      exact hlisted

theorem Stored.fits (h : Stored P st) (hlaw : InfoLaw P w st faults) : Fits P w st faults := by
  rcases w.getArgs_cases (P := P) (st.armed faults) with
    ⟨hinfos, h'⟩ | ⟨hinfos, e, s, herror, _⟩ | ⟨_, types, s, _, _, h'⟩ |
    ⟨hinfos, types, s, infos, hok, hle, _, htypes, h'⟩
  · exact ⟨fun _ => hlaw.names _ _ h', fun hnil => absurd hnil hinfos,
      fun hnil => absurd hnil hinfos⟩
  · have hfails : ¬ ∃ ids s', ReflCpp.getArgs P w.type (st.armed faults).toStatics =
        (.ok ids, s') := by
      rintro ⟨ids, s', hok⟩
      rw [herror] at hok
      cases hok
    rw [getArgs_ok_iff, not_or] at hfails
    refine ⟨fun hne => absurd hinfos hne, fun _ => .inl ?_, fun _ hreach => ?_⟩
    · by_contra hids
      exact hfails.2 (.inl hids)
    · exact absurd hreach hfails.2
  · exact absurd (by rw [h']) hlaw.inBounds
  · have hlen := (hlaw.types _ _ h').length_eq
    rw [htypes] at hlen
    refine ⟨fun hne => absurd hinfos hne, fun _ => ?_, fun _ _ => by omega⟩
    by_cases hids : st.args w.type = []
    · exact .inl hids
    · right
      obtain ⟨Ts, hTs, hissued⟩ := h.begun.args w.type
      have hargs : w.type.args ≠ [] := by
        intro hnil
        rw [hnil, List.prefix_nil] at hTs
        rw [hTs, List.forall₂_nil_left_iff] at hissued
        exact hids hissued
      rw [getArgs_of_filled (st.armed faults).toStatics hargs hids] at hok
      cases hok
      exact hlen.symm

theorem stored_init : Stored P .init := ⟨begun_init, fun _ => .inl rfl⟩

theorem Stored.keeps (h : Stored P st) (hbegun : Begun P st'.toStatics)
    (hpass : Passes st.reg st'.reg) (hinfos : st'.infoArgs = st.infoArgs) : Stored P st' := by
  refine ⟨hbegun, fun t => ?_⟩
  rw [hinfos]
  exact (h.infos t).imp_right fun hids => hids.imp fun _ _ hi => hi.passes hpass

theorem Stored.getArgs (h : Stored P st) (hf : Fits P w st faults) :
    Stored P ((MethodRequest.getArgs w faults).exec P st) := by
  have hb : Begun P (st.armed faults).toStatics := h.begun.armed faults
  have hpass := (passes_armed st.toStatics faults).trans
    (getArgs_passes (P := P) w.type (st.armed faults).toStatics)
  have hkeeps : Stored P { st with
      toStatics := (ReflCpp.getArgs P w.type (st.armed faults).toStatics).2 } :=
    h.keeps (hb.getArgs w.type) hpass rfl
  rw [MethodRequest.exec]
  rcases w.getArgs_cases (P := P) (st.armed faults) with
    ⟨_, h'⟩ | ⟨_, e, s, hs, h'⟩ | ⟨_, types, s, hs, _, h'⟩ |
    ⟨hinfos, types, s, infos, hs, _, _, htypes, h'⟩
  · rw [h']
    exact h.keeps hb (passes_armed st.toStatics faults) rfl
  · rw [hs] at hkeeps
    rw [h']
    exact hkeeps
  · rw [hs] at hkeeps
    rw [h']
    exact hkeeps
  · have hlisted := h.listed hf hinfos hs
    rw [hs] at hkeeps
    rw [h']
    refine ⟨hkeeps.begun, fun t => ?_⟩
    by_cases ht : t = w.type
    · subst ht
      right
      dsimp only
      rw [Function.update_self, htypes]
      exact hlisted
    · dsimp only
      rw [Function.update_of_ne ht]
      exact hkeeps.infos t

theorem Stored.exec (h : Stored P st) (r : MethodRequest L)
    (hfits : ∀ w faults, r = .getArgs w faults → Fits P w st faults) :
    Stored P (r.exec P st) := by
  cases r with
  | other r => exact h.keeps (h.begun.exec r) (r.exec_passes st.toStatics) rfl
  | getArgs w faults => exact h.getArgs (hfits w faults rfl)

end Laws

section Run

variable (P : Program L)

theorem infoLaw_run_iff (rs : List (MethodRequest L)) :
    (∀ before w faults, before ++ [.getArgs w faults] <+: rs →
      InfoLaw P w (MethodRequest.run P before) faults) ↔
    ∀ before w faults, before ++ [.getArgs w faults] <+: rs →
      Fits P w (MethodRequest.run P before) faults := by
  -- Each step of the run fits, by the law or by assumption, as soon as its state is stored.
  have hstored : (∀ before w faults, before ++ [.getArgs w faults] <+: rs →
      Stored P (MethodRequest.run P before) → Fits P w (MethodRequest.run P before) faults) →
      ∀ before, before <+: rs → Stored P (MethodRequest.run P before) := by
    intro hfits before hprefix
    refine inv_of_prefixes stored_init (fun _ r h hfits => h.exec r hfits) ?_ hprefix
    rintro before r hr h w faults rfl
    exact hfits before w faults hr h
  constructor
  · intro hlaw before w faults hprefix
    have h := hstored (fun before w faults hprefix h => h.fits (hlaw before w faults hprefix))
      before ((List.prefix_append before _).trans hprefix)
    exact h.fits (hlaw before w faults hprefix)
  · intro hfits before w faults hprefix
    have h := hstored (fun before w faults hprefix _ => hfits before w faults hprefix)
      before ((List.prefix_append before _).trans hprefix)
    exact h.law (hfits before w faults hprefix)

/-- `R(*)(A)` with these names for its parameter. -/
def plainMethod (args_ : List CharPtr) : MethodFuncWrapper Nat where
  type := { plainFunction with args := [.obj (.leaf false false (.user 0))] }
  args_ := args_
  argCount_lt := by decide

/-- The second method is given the name of the first. -/
theorem not_infoLaw_plain :
    ¬ ∀ before w faults,
      before ++ [.getArgs w faults] <+:
        [.getArgs (plainMethod [1]) [], .getArgs (plainMethod [2]) []] →
      InfoLaw .plain w (MethodRequest.run .plain before) faults := by
  intro hlaw
  have hnames := (hlaw [.getArgs (plainMethod [1]) []] (plainMethod [2]) []
    List.prefix_rfl).names [⟨1, ⟨1⟩⟩] _ rfl
  exact absurd hnames (by decide)

/-- Without a name, the first call reads past the end. -/
example : ¬ InfoLaw .plain (plainMethod []) .init [] := fun hlaw => hlaw.inBounds rfl

end Run

end ReflCpp
