import ReflCpp.MethodFunc
import ReflCpp.Overloads
import ReflCpp.RoundTrip

namespace ReflCpp

open Cpp

variable {L V : Type} [DecidableEq L] {P : Program L} {τ : Traits L}

/-- A `MethodFuncWrapper<T>` behind the `MethodFunc` that a method holds: the function with
the names given for its parameters. -/
structure MethodFunc (L V : Type) [DecidableEq L] (τ : Traits L) where
  func_ : FunctionWrapper L V τ
  args_ : List CharPtr

namespace MethodFunc

variable (P : Program L) (f : MethodFunc L V τ) (args : List (Variant L)) (obj : Variant L)

def wrapper : MethodFuncWrapper L where
  type := f.func_.type
  args_ := f.args_
  argCount_lt := f.func_.argCount_lt

def isStatic : Bool := f.func_.traits.isStatic

def getArgs (st : MethodStatics L) :
    Except Crash (Except ReflectError (List ArgumentInfo)) × MethodStatics L :=
  f.wrapper.getArgs P st

def canInvokeWithArgs : RegM L (Except Crash Bool) := f.func_.canInvokeWithArgs P args

def invoke (w : World L V) : Outcome L V (Variant L) := f.func_.invoke P args obj w

end MethodFunc

section Listed

variable {s s' : Statics L} {t : FunctionType L} {ids : List TypeID}

/-- What `GetArgs` returns are the ids of the first parameter types, of all of them unless
a failure has cut the list short. -/
theorem Begun.lists (h : Begun P s) (hok : ReflCpp.getArgs P t s = (.ok ids, s')) :
    ∃ Ts, Ts <+: t.args ∧ List.Forall₂ (Issued P s'.reg) Ts ids := by
  have hafter := h.getArgs t
  rw [hok] at hafter
  rcases getArgs_cases (P := P) t s with
    ⟨_, h'⟩ | ⟨_, _, h'⟩ | ⟨_, _, ids', s'', _, h'⟩ | ⟨_, _, e, ids', s'', _, h'⟩ <;>
    rw [h'] at hok <;> cases hok
  · exact ⟨[], List.nil_prefix, .nil⟩
  · exact h.args t
  · have hargs := hafter.args t
    dsimp only at hargs
    rwa [Function.update_self] at hargs

/-- The infos kept for a function type have the ids of its first parameter types. -/
structure Listed (P : Program L) (st : MethodStatics L) : Prop where
  begun : Begun P st.toStatics
  infos : ∀ t, ∃ Ts, Ts <+: t.args ∧
    List.Forall₂ (Issued P st.reg) Ts ((st.infoArgs t).map ArgumentInfo.type)

variable {st st' : MethodStatics L} {w : MethodFuncWrapper L} {infos : List ArgumentInfo}

theorem listed_init : Listed P .init :=
  ⟨begun_init, fun _ => ⟨[], List.nil_prefix, .nil⟩⟩

theorem Listed.keeps (h : Listed P st) (hbegun : Begun P st'.toStatics)
    (hpass : Passes st.reg st'.reg) (hinfos : st'.infoArgs = st.infoArgs) : Listed P st' := by
  refine ⟨hbegun, fun t => ?_⟩
  obtain ⟨Ts, hTs, hids⟩ := h.infos t
  rw [hinfos]
  exact ⟨Ts, hTs, hids.imp fun _ _ hi => hi.passes hpass⟩

theorem Listed.armed (h : Listed P st) (faults : List Bool) : Listed P (st.armed faults) :=
  h.keeps (h.begun.armed faults) (passes_armed st.toStatics faults) rfl

theorem Listed.getArgs (h : Listed P st) (w : MethodFuncWrapper L) :
    Listed P (w.getArgs P st).2 ∧
      ∀ infos, (w.getArgs P st).1 = .ok (.ok infos) → ∃ Ts, Ts <+: w.type.args ∧
        List.Forall₂ (Issued P (w.getArgs P st).2.reg) Ts (infos.map ArgumentInfo.type) := by
  have hbegun := h.begun.getArgs w.type
  have hpass := getArgs_passes (P := P) w.type st.toStatics
  have hkeeps : Listed P { st with toStatics := (ReflCpp.getArgs P w.type st.toStatics).2 } :=
    h.keeps hbegun hpass rfl
  rcases w.getArgs_cases (P := P) st with
    ⟨_, h'⟩ | ⟨_, e, s, hs, h'⟩ | ⟨_, types, s, hs, _, h'⟩ |
    ⟨_, types, s, infos, hs, _, _, htypes, h'⟩
  · rw [h']
    refine ⟨h, ?_⟩
    rintro _ ⟨⟩
    exact h.infos w.type
  · rw [hs] at hkeeps
    rw [h']
    refine ⟨hkeeps, ?_⟩
    rintro _ ⟨⟩
  · rw [hs] at hkeeps
    rw [h']
    refine ⟨hkeeps, ?_⟩
    rintro _ ⟨⟩
  · have hlists := h.begun.lists hs
    rw [hs] at hkeeps
    rw [h']
    refine ⟨⟨hkeeps.begun, fun t => ?_⟩, ?_⟩
    · by_cases ht : t = w.type
      · subst ht
        dsimp only
        rw [Function.update_self, htypes]
        exact hlists
      · dsimp only
        rw [Function.update_of_ne ht]
        exact hkeeps.infos t
    · rintro _ ⟨⟩
      rw [htypes]
      exact hlists

theorem Listed.exec (h : Listed P st) (r : MethodRequest L) : Listed P (r.exec P st) := by
  cases r with
  | other r => exact h.keeps (h.begun.exec r) (r.exec_passes st.toStatics) rfl
  | getArgs w faults => exact ((h.armed faults).getArgs w).1

theorem listed_run (rs : List (MethodRequest L)) : Listed P (MethodRequest.run P rs) :=
  Runs.inv_run (fun _ r h => h.exec r) rs _ listed_init

end Listed

section Matching

variable {s : Registry L} {v : Variant L} {U : Ty L} {args : List (Variant L)}

theorem Created.kind {T : Ty L} (h : Created P τ s T v) :
    v.base_.wrapper.kind = wrapperKind τ T := by
  obtain ⟨_, _, c, hmake, hwrapper⟩ := h.issued
  rw [hwrapper, makeWrapper_eq hmake]

/-- A variant that has the id of `U` can be got as a `U`, if any created as one can. -/
theorem Made.gets_of_issued (h : Made P τ s v) (hs : Passes .init s)
    (hU : Issued P s U v.type_) (hlen : s.types_.length < 2 ^ 32) :
    gets s v U = retrievable τ U := by
  rcases h with rfl | ⟨T, hT⟩
  · have hvoid : U = Ty.void := by
      by_contra hv
      cases (hU.id_eq hv hlen).2
    rw [gets_void, hvoid]
    rfl
  · obtain ⟨_, hissued, _⟩ := hT.issued
    obtain rfl : T = U := Issued.inj hs hlen hissued hU
    rw [Bool.eq_iff_iff, hT.gets_iff hlen, hT.kind]
    exact ⟨retrievable_of_decorated, decorated_self⟩

theorem fits_of_issued (hs : Passes .init s) (hlen : s.types_.length < 2 ^ 32)
    (hmade : ∀ v ∈ args, Made P τ s v) {Us : List (Ty L)}
    (hissued : List.Forall₂ (Issued P s) Us (args.map Variant.type_)) :
    fits s (args.zip Us) = Us.all (retrievable τ) := by
  induction args generalizing Us with
  | nil =>
    cases hissued
    rfl
  | cons v args ih =>
    cases hissued with
    | cons hU hrest =>
      rw [List.zip_cons_cons, fits_cons, List.all_cons,
        (hmade v List.mem_cons_self).gets_of_issued hs hU hlen,
        ih (fun u hu => hmade u (List.mem_cons_of_mem _ hu)) hrest]

theorem passes_canInvokeWithArgs (f : FunctionWrapper L V τ) (args : List (Variant L))
    (s : Registry L) : Passes s (f.canInvokeWithArgs P args s).2 := by
  have hpass := passes_canGetAll (P := P) (args.zip f.traits.args) s
  rw [canInvokeWithArgs_eq]
  split <;> next h => rw [h] at hpass; exact hpass

theorem canInvokeWithArgs_fst {f : FunctionWrapper L V τ} (hmade : ∀ v ∈ args, Made P τ s v)
    (harity : args.length = f.traits.argCount)
    (hlen : (f.canInvokeWithArgs P args s).2.types_.length < 2 ^ 32) :
    (f.canInvokeWithArgs P args s).1 = .ok (fits s (args.zip f.traits.args)) := by
  have hmadeAll : ∀ p ∈ args.zip f.traits.args, Made P τ s p.1 :=
    fun p hp => hmade p.1 (List.of_mem_zip hp).1
  have hall := canGetAll_iff (P := P) hmadeAll .refl
  rw [canInvokeWithArgs_eq] at hlen ⊢
  rcases hcan : canGetAll P (args.zip f.traits.args) s with ⟨_ | _, s'⟩ <;>
    rw [hcan] at hlen hall <;> dsimp only at hlen ⊢
  · rw [← hall hlen]
  · rw [if_pos (Nat.le_of_eq harity.symm), ← hall hlen]

/-- Variants of the types that `GetArgs` lists, one for each parameter, are accepted as the
arguments exactly where a variant of each parameter type can be got as that type. -/
theorem canInvokeWithArgs_of_infos (rs : List (MethodRequest L)) (f : MethodFunc L V τ)
    {faults : List Bool} {infos : List ArgumentInfo} {st' : MethodStatics L}
    (hok : f.getArgs P ((MethodRequest.run P rs).armed faults) = (.ok (.ok infos), st'))
    (hall : infos.length = f.func_.traits.argCount) (hpass : Passes st'.reg s)
    (hmade : ∀ v ∈ args, Made P τ s v)
    (htypes : args.map Variant.type_ = infos.map ArgumentInfo.type)
    (hlen : (f.canInvokeWithArgs P args s).2.types_.length < 2 ^ 32) :
    (f.canInvokeWithArgs P args s).1 = .ok (f.func_.traits.args.all (retrievable τ)) := by
  obtain ⟨hlisted, hinfos⟩ := ((listed_run (P := P) rs).armed faults).getArgs f.wrapper
  rw [MethodFunc.getArgs] at hok
  rw [hok] at hlisted hinfos
  obtain ⟨Ts, hTs, hissued⟩ := hinfos infos rfl
  have hargsTs : Ts = f.func_.traits.args := by
    rw [FunctionWrapper.traits, functionTraits_args]
    apply hTs.eq_of_length
    rw [hissued.length_eq, List.length_map, hall, FunctionTraits.argCount,
      FunctionWrapper.traits, functionTraits_args]
    rfl
  have harity : args.length = f.func_.traits.argCount := by
    have hlengths := congrArg List.length htypes
    rwa [List.length_map, List.length_map, hall] at hlengths
  have hpassAll := passes_canInvokeWithArgs (P := P) f.func_ args s
  have hlen₀ := Nat.lt_of_le_of_lt hpassAll.length_le hlen
  rw [MethodFunc.canInvokeWithArgs, canInvokeWithArgs_fst hmade harity hlen,
    fits_of_issued (hlisted.begun.passes.trans hpass) hlen₀ hmade]
  rw [htypes, ← hargsTs]
  exact hissued.imp fun _ _ hi => hi.passes hpass

def intMethodFunc : MethodFunc Nat Nat .plain where
  func_ := intOverloads 1
  args_ := [1]

theorem canInvokeWithArgs_of_infos_int :
    (intMethodFunc.canInvokeWithArgs .plain [intVariant] intRegistry).1 =
      .ok (intMethodFunc.func_.traits.args.all (retrievable .plain)) := by
  have hok : intMethodFunc.getArgs .plain ((MethodRequest.run .plain []).armed []) =
      (.ok (.ok [⟨1, ⟨1⟩⟩]), _) := rfl
  apply canInvokeWithArgs_of_infos [] intMethodFunc hok rfl .refl _ rfl
  · show 1 < 2 ^ 32
    decide
  · intro v hv
    rw [List.mem_singleton.mp hv]
    exact .inr ⟨.obj int, intVariant_created⟩

end Matching

/-- An `int` is accepted for an `int`, an `int* const` not even for itself. -/
example : [.obj int, .obj (.ptr true false int)].map (retrievable .plain) = [true, false] := rfl

end ReflCpp
