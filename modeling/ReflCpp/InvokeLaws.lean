import ReflCpp.Overloads

namespace ReflCpp

open Cpp

variable {L V : Type} [DecidableEq L] {P : Program L} {τ : Traits L}

/-- What `v` is after a call: created as the return type, or void if there is none. -/
def Returns (P : Program L) (f : FunctionWrapper L V τ) (s : Registry L) (v : Variant L) :
    Prop :=
  if f.traits.hasReturn then Created P τ s f.traits.returnType v else v = .void

section Invoke

variable {s : Registry L} {args : List (Variant L)} {obj : Variant L}
  {f : FunctionWrapper L V τ} {w : World L V}

omit [DecidableEq L] in
theorem firstRefused_eq_some {ps : List (Variant L × Ty L)} {i : Nat} :
    firstRefused s ps = some i ↔
      ∃ h : i < ps.length, gets s ps[i].1 ps[i].2 = false ∧
        ∀ j (hj : j < i), gets s ps[j].1 ps[j].2 = true := by
  rw [firstRefused, List.findIdx?_eq_some_iff_getElem]
  simp

theorem completed_returns (hs : Passes .init w.reg) {a : Option Addr}
    {as : List (Option Addr)} {v : Variant L}
    (h : (f.completed P a as w).result = .ok (.ok v)) :
    Returns P f (f.completed P a as w).world.reg v := by
  have hpass : Passes .init (f.afterCall P a as w).reg := hs.trans (run_steps _ w.reg)
  unfold Returns
  rw [FunctionWrapper.completed, FunctionWrapper.call] at h ⊢
  cases hr : f.traits.hasReturn with
  | false =>
    rw [hr] at h
    cases h
    rfl
  | true =>
    have hcompiles := f.returns_eq hr
    rw [hr] at h
    rcases hcreate : Variant.createWith P f.returns f.traits.returnType (f.body a as w).result
        (f.afterCall P a as w) with ⟨e | u, w'⟩
    · rw [if_pos rfl, hcreate] at h
      cases h
    · rw [if_pos rfl, hcreate] at h
      cases h
      have hcreated : Variant.create P τ f.traits.returnType (f.body a as w).result
          (f.afterCall P a as w) = some (.ok u, w') := by
        rw [Variant.create, FunctionWrapper.traits, hcompiles, ← hcreate]
        rfl
      exact ⟨V, _, _, w', hpass, hcreated, .refl⟩

theorem invoke_static_obj (hstatic : f.traits.isStatic = true) (obj' : Variant L) :
    f.invoke P args obj' w = f.invoke P args obj w := by
  have hrec := isStatic_iff_receiver.mp hstatic
  rw [FunctionWrapper.invoke_eq, FunctionWrapper.invoke_eq, hrec, hstatic]
  rfl

/-- `Invoke` reports the first of its checks that fails, in order: the number of the
arguments, a void object, the first argument that cannot be got, the object.  If none
fails it makes one call on what the object and the arguments hold, whose result and effect
are its own, and returns a variant of the return type if that can be reflected. -/
structure InvokeLaw (P : Program L) (f : FunctionWrapper L V τ) (args : List (Variant L))
    (obj : Variant L) (w : World L V) : Prop where
  refused : ∀ e, f.refusal w.reg args obj = some e →
    (f.invoke P args obj w).result = .ok (.error e) ∧ (f.invoke P args obj w).calls = []
  called : f.refusal w.reg args obj = none →
    (f.invoke P args obj w).calls = [f.callOn args obj] ∧
      f.invoke P args obj w =
        f.completed P (f.callOn args obj).obj (f.callOn args obj).args w ∧
      (f.ReturnReflects args obj P w →
        ∃ v, (f.invoke P args obj w).result = .ok (.ok v) ∧
          Returns P f (f.invoke P args obj w).world.reg v)
  first : ∀ i, firstRefused w.reg (args.zip f.traits.args) = some i ↔
    ∃ h : i < (args.zip f.traits.args).length,
      gets w.reg (args.zip f.traits.args)[i].1 (args.zip f.traits.args)[i].2 = false ∧
      ∀ j (hj : j < i),
        gets w.reg (args.zip f.traits.args)[j].1 (args.zip f.traits.args)[j].2 = true
  static : f.traits.isStatic = true → ∀ obj', f.invoke P args obj' w = f.invoke P args obj w

theorem invokeLaw_of_made (P : Program L) (f : FunctionWrapper L V τ)
    (hs : Passes .init w.reg) (hargs : ∀ v ∈ obj :: args, Made P τ w.reg v)
    (hlen : (f.invoke P args obj w).world.reg.types_.length < 2 ^ 32) :
    InvokeLaw P f args obj w where
  refused := fun e h => invoke_of_refusal hargs .refl hlen h
  called := by
    intro h
    have haccepts := refusal_eq_none.mp h
    have hlen₀ := Nat.lt_of_le_of_lt (passes_invoke (P := P) f args obj w).length_le hlen
    have hinvoke := invoke_of_accepts hargs .refl hlen₀ haccepts
    obtain ⟨hcalls, hresult⟩ := invoke_accepted hargs .refl hlen₀ haccepts
    refine ⟨hcalls, hinvoke, fun hreflects => ?_⟩
    obtain ⟨v, hv⟩ := hresult.mpr hreflects
    rw [hinvoke] at hv ⊢
    exact ⟨v, hv, completed_returns hs hv⟩
  first := fun i => firstRefused_eq_some
  static := invoke_static_obj

theorem invokeLaw_int :
    InvokeLaw .plain (intFunction none 1 [.obj int] (by decide)) [intVariant] .void
      intWorld := by
  apply invokeLaw_of_made .plain _ _ intVariant_made
  · show 1 < 2 ^ 32
    decide
  · exact passes_reflectID (P := .plain) (.obj int) .init

end Invoke

end ReflCpp
