import ReflCpp.Agreement
import ReflCpp.Reflectability

namespace ReflCpp

open Cpp Simulation

variable {L V : Type} [DecidableEq L] {P : Program L} {τ : Traits L}

section Run

variable (P) {fields : Nat → FieldWrapper L τ} {funcs : Nat → FunctionWrapper L V τ}

/-- What a program sees of a step: nothing of a lookup that does not crash. -/
def seen : Except Crash (Option Reply) → Option (Except Crash Reply)
  | .ok none => none
  | .ok (some r) => some (.ok r)
  | .error c => some (.error c)

variable {P}

theorem Rel.look {st : Session L V} {it : Ideal L V} (h : Rel P τ st it) (hsound : Sound P τ st)
    (l : Lookup L) : Rel P τ (st.look P l).2 it := by
  have hpass := (look_leads hsound l).passes
  have hheld : (st.look P l).2.held = st.held := by cases l <;> rfl
  refine ⟨h.passes.trans hpass, ?_, ?_, ?_⟩
  · rw [← h.mem]
    cases l <;> rfl
  · rw [← h.next]
    cases l <;> rfl
  · rw [hheld]
    exact h.held.imp fun _ _ hv => hv.passes hpass

theorem look_hidden {st : Session L V} {it : Ideal L V} (hsound : Sound P τ st)
    (hrel : Rel P τ st it) {l : Lookup L} {faults : List Bool}
    (hin : (Op.look l faults : Op L V).InBounds funcs)
    (hlen : (st.exec P τ fields funcs (.look l faults)).2.world.reg.types_.length < 2 ^ 32) :
    seen (st.exec P τ fields funcs (.look l faults)).1 = none ∧
      Sound P τ (st.exec P τ fields funcs (.look l faults)).2 ∧
      Rel P τ (st.exec P τ fields funcs (.look l faults)).2 it := by
  have hleads := exec_leads fields funcs hsound (.look l faults)
  have hpass : Passes st.world.reg (st.armed faults).world.reg := .single (.faults _ faults)
  have harmed : Sound P τ (st.armed faults) := hsound.withReg hpass
  refine ⟨?_, hleads.sound, (hrel.withReg hpass).look harmed l⟩
  rw [Session.exec]
  rcases hr : ((st.armed faults).look P l).1 with c | r
  · exact absurd hin (look_crash harmed hlen hr).2
  · rfl

theorem session_simulates (hall : AllReflectable P fields funcs) :
    Simulates (fun st op => Session.exec st P τ fields funcs op) (Ideal.step τ fields funcs)
      Op.action seen (fun st it => Sound P τ st ∧ Rel P τ st it)
      (fun st op => op.Served P funcs ∧
        (st.exec P τ fields funcs op).2.world.reg.types_.length < 2 ^ 32) where
  visible := by
    rintro st it op a ⟨hsound, hrel⟩ ⟨hserved, hlen⟩ ha
    have hleads := exec_leads fields funcs hsound op
    cases op with
    | look l faults => cases ha
    | use a' faults =>
      cases ha
      obtain rfl : faults = [] := hserved.faults a rfl
      have harmed := hrel.withReg (.single (.faults st.world.reg []))
      have hagrees := harmed.use hall hserved.inBounds (hserved.reflects a rfl) rfl hlen
      refine ⟨?_, hleads.sound, hagrees.rel⟩
      change seen (((st.armed []).use P τ fields funcs a).1.map some) = _
      have hreply : ((st.armed []).use P τ fields funcs a).1 =
          .ok (it.exec τ fields funcs a).1 := hagrees.reply
      rw [hreply]
      rfl
  hidden := by
    rintro st it op ⟨hsound, hrel⟩ ⟨hserved, hlen⟩ hop
    cases op with
    | use a faults => cases hop
    | look l faults => exact look_hidden hsound hrel hserved.inBounds hlen

theorem session_run (hall : AllReflectable P fields funcs) (mem : Addr → V) (next : Addr)
    {ops : List (Op L V)} (hserved : ∀ op ∈ ops, op.Served P funcs)
    (hlen : ((Session.start mem next).run P fields funcs ops).world.reg.types_.length < 2 ^ 32) :
    (replies (fun st op => Session.exec st P τ fields funcs op) (.start mem next) ops).filterMap
        seen =
      replies (Ideal.step τ fields funcs) (.start mem next) (ops.filterMap Op.action) ∧
    Rel P τ ((Session.start mem next).run P fields funcs ops)
      (final (Ideal.step τ fields funcs) (.start mem next) (ops.filterMap Op.action)) := by
  have hsound : Sound P τ (Session.start mem next) := sound_start mem next
  have hok : ∀ before op, before ++ [op] <+: ops → op.Served P funcs ∧
      (((Session.start mem next).run P fields funcs before).exec P τ fields funcs
        op).2.world.reg.types_.length < 2 ^ 32 := by
    intro before op hop
    have hmem : op ∈ ops := hop.subset (by simp)
    exact ⟨hserved op hmem,
      Nat.lt_of_le_of_lt (run_prefix_length_le fields funcs hsound hop) hlen⟩
  obtain ⟨hreplies, _, hrel⟩ :=
    (session_simulates hall).run ⟨hsound, rel_start mem next⟩ hok
  exact ⟨hreplies, hrel⟩

end Run

section Int

/-- An `int` is created and passed to a function. -/
def intActions : List (Op Nat Nat) :=
  [.use (.create (.obj int) 0) [], .use (.invoke 1 [0] 1) []]

/-- Another type is registered first, and the allocation for a third one fails. -/
def intLookups : List (Op Nat Nat) :=
  .look (.reflectID (.lref int)) [] :: .look (.reflectID (.rref int)) [true] :: intActions

theorem calm_intFunction (receiver : Option (Nat × Qualifier)) (ptr_ : Nat)
    (args : List (Ty Nat)) (h : args.length < 256) :
    Calm .plain (intFunction receiver ptr_ args h) where
  returns := by
    intro _
    rw [FunctionWrapper.traits, functionTraits_returnType]
    exact reflectable_int32
  mem := fun _ _ _ _ => rfl
  next := fun _ _ _ _ => rfl
  result := fun _ _ _ _ => rfl
  faultless := fun _ _ _ _ hr => absurd hr List.not_mem_nil

theorem allReflectable_int : AllReflectable .plain pointFields intOverloads where
  value
    | 0 => reflectable_int32
    | _ + 1 => reflectable_int32
  ref
    | 0 => reflectable_of_qualifiedOnce reflectable_int32 rfl
    | _ + 1 => reflectable_of_qualifiedOnce reflectable_int32 rfl
  calm
    | 0 => calm_intFunction none 10 [] (by decide)
    | _ + 1 => calm_intFunction none 11 [.obj int] (by decide)

theorem served_use {a : Action Nat Nat} (hin : a.InBounds intOverloads)
    (hreflects : a.Reflects .plain) : Op.Served .plain intOverloads (.use a []) where
  inBounds := hin
  faults := fun _ _ => rfl
  reflects := by
    rintro a' ha
    cases ha
    exact hreflects

theorem served_intActions : ∀ op ∈ intActions, op.Served .plain intOverloads := by
  intro op hop
  simp only [intActions, List.mem_cons, List.not_mem_nil, or_false] at hop
  rcases hop with rfl | rfl
  · exact served_use trivial reflectable_int32
  · exact served_use trivial trivial

theorem served_intLookups : ∀ op ∈ intLookups, op.Served .plain intOverloads := by
  intro op hop
  rcases List.mem_cons.mp hop with rfl | hop
  · exact ⟨trivial, nofun, nofun⟩
  · rcases List.mem_cons.mp hop with rfl | hop
    · exact ⟨trivial, nofun, nofun⟩
    · exact served_intActions op hop

example :
    replies (Ideal.step .plain pointFields intOverloads) (.start (fun _ => 42) 8)
      (intActions.filterMap Op.action) =
        [.ok (.created (.ok ())),
          .ok (.invoked (.ok ()) [{ ptr_ := 11, obj := none, args := [some 8] }])] := rfl

end Int

end ReflCpp
