import ReflCpp.Faultless
import ReflCpp.Ideal
import ReflCpp.SessionSafety

namespace ReflCpp

open Cpp Simulation

variable {L V : Type} [DecidableEq L] {P : Program L} {τ : Traits L}

section Faults

variable {s : Registry L}

theorem canGet_faultless (v : Variant L) (U : Ty L) (hs : s.faults = []) :
    (v.canGet P U s).2.faults = [] := by
  rw [Variant.canGet_eq]
  split
  next D _ =>
    rw [TypeID.equals_snd]
    exact reflectID_faultless D hs
  · exact hs

theorem getImpl_snd (v : Variant L) (U : Ty L) (s : Registry L) :
    (v.getImpl P U s).2 = (v.canGet P U s).2 := by
  rcases v.getImpl_cases (P := P) U s with ⟨s', hcan, himpl⟩ | ⟨D, s', hcan, _, himpl⟩ <;>
    rw [hcan, himpl]

theorem asked_faultless (args : List (Variant L)) (funcs_ : List (FunctionWrapper L V τ))
    (hs : s.faults = []) : (asked P args funcs_ s).faults = [] := by
  have hall : ∀ (ps : List (Variant L × Ty L)) (s : Registry L), s.faults = [] →
      (canGetAll P ps s).2.faults = [] := by
    intro ps
    induction ps with
    | nil => exact fun _ hs => hs
    | cons p ps ih =>
      intro s hs
      have hcan := canGet_faultless (P := P) p.1 p.2 hs
      rw [canGetAll]
      split
      next h =>
        rw [h] at hcan
        exact ih _ hcan
      next h =>
        rw [h] at hcan
        exact hcan
  induction funcs_ generalizing s with
  | nil => exact hs
  | cons f funcs_ ih => exact ih (hall _ s hs)

end Faults

section Denotes

variable {s s' : Registry L} {v : Variant L} {t : Option (Typed L)} {U : Ty L}

/-- `t` is what a program thinks of `v`. -/
inductive Denotes (P : Program L) (τ : Traits L) (s : Registry L) :
    Variant L → Option (Typed L) → Prop
  | void : Denotes P τ s .void none
  | created {v : Variant L} {t : Typed L} (h : Created P τ s t.type v)
      (hv : v.base_.value_ = t.value) : Denotes P τ s v (some t)

theorem Denotes.passes (h : Denotes P τ s v t) (hpass : Passes s s') : Denotes P τ s' v t := by
  cases h with
  | void => exact .void
  | created h hv => exact .created (h.passes hpass) hv

theorem Denotes.made (h : Denotes P τ s v t) : Made P τ s v := by
  cases h with
  | void => exact .inl rfl
  | created h => exact .inr ⟨_, h⟩

theorem Denotes.value (h : Denotes P τ s v t) : v.base_.value_ = t.bind Typed.value := by
  cases h with
  | void => rfl
  | created _ hv => exact hv

omit [DecidableEq L] in
theorem wrapperKind_ne_void (T : Ty L) : wrapperKind τ T ≠ .void := by
  unfold wrapperKind
  repeat' split
  all_goals simp

theorem Denotes.isVoid (h : Denotes P τ s v t) : v.isVoid = t.isNone := by
  cases h with
  | void => rfl
  | created h =>
    rw [Variant.isVoid, h.kind, decide_eq_false (wrapperKind_ne_void _)]
    rfl

theorem Denotes.gets_eq (h : Denotes P τ s v t) (hlen : s.types_.length < 2 ^ 32) :
    gets s v U = Ideal.canGet τ t U := by
  cases h with
  | void => exact gets_void
  | created h =>
    rw [Bool.eq_iff_iff, h.gets_iff hlen, h.kind, Ideal.canGet, decide_eq_true_eq]

theorem Denotes.canGet_eq (h : Denotes P τ s v t)
    (hlen : (v.canGet P U s).2.types_.length < 2 ^ 32) :
    (v.canGet P U s).1 = Ideal.canGet τ t U := by
  have hlen₀ := Nat.lt_of_le_of_lt (v.passes_canGet U s).length_le hlen
  rw [← h.gets_eq hlen₀, Bool.eq_iff_iff]
  exact h.made.canGet_iff .refl hlen

theorem Denotes.get_eq (h : Denotes P τ s v t)
    (hlen : (v.getImpl P U s).2.types_.length < 2 ^ 32) :
    (v.getImpl P U s).1.map (fun r => r.map Got.value) = .ok (Ideal.get τ t U) := by
  rw [getImpl_snd] at hlen
  have hcanGet := h.canGet_eq hlen
  rcases v.getImpl_cases (P := P) U s with ⟨s', hcan, himpl⟩ | ⟨D, s', hcan, _, himpl⟩ <;>
    rw [hcan] at hcanGet <;> rw [himpl]
  · cases h with
    | void => rfl
    | created h hv =>
      have hvoid := (Denotes.created h hv).isVoid
      rw [Ideal.get, ← hcanGet, Variant.fault_of_not_isVoid hvoid]
      rfl
  · cases h with
    | void => cases hcanGet
    | created h hv =>
      rw [Ideal.get, ← hcanGet, if_pos rfl, ← hv]
      rfl

end Denotes

section Decisions

variable {s : Registry L} {args : List (Variant L)} {targs : List (Option (Typed L))}
  {obj : Variant L} {tobj : Option (Typed L)} {f : FunctionWrapper L V τ}

theorem gets_zip (h : List.Forall₂ (Denotes P τ s) args targs) (hlen : s.types_.length < 2 ^ 32)
    (Us : List (Ty L)) :
    (args.zip Us).map (fun p => gets s p.1 p.2) =
      (targs.zip Us).map fun p => Ideal.canGet τ p.1 p.2 := by
  induction h generalizing Us with
  | nil => rfl
  | cons hv _ ih =>
    cases Us with
    | nil => rfl
    | cons U Us =>
      rw [List.zip_cons_cons, List.zip_cons_cons, List.map_cons, List.map_cons, ih Us]
      exact congrArg (· :: _) (hv.gets_eq hlen)

theorem fits_eq (h : List.Forall₂ (Denotes P τ s) args targs)
    (hlen : s.types_.length < 2 ^ 32) (f : FunctionWrapper L V τ) :
    fits s (args.zip f.traits.args) = Ideal.fits τ f targs := by
  have hall := congrArg (fun bs => bs.all id) (gets_zip h hlen f.traits.args)
  simp only [List.all_map] at hall
  exact hall

theorem firstRefused_eq (h : List.Forall₂ (Denotes P τ s) args targs)
    (hlen : s.types_.length < 2 ^ 32) (Us : List (Ty L)) :
    firstRefused s (args.zip Us) =
      (targs.zip Us).findIdx? fun p => !Ideal.canGet τ p.1 p.2 := by
  have hfind := congrArg (fun bs => bs.findIdx? not) (gets_zip h hlen Us)
  simp only [List.findIdx?_map] at hfind
  exact hfind

theorem refusal_eq (h : List.Forall₂ (Denotes P τ s) args targs) (hobj : Denotes P τ s obj tobj)
    (hlen : s.types_.length < 2 ^ 32) (f : FunctionWrapper L V τ) :
    f.refusal s args obj = Ideal.refusal τ f targs tobj := by
  unfold FunctionWrapper.refusal Ideal.refusal
  rw [h.length_eq, hobj.isVoid, firstRefused_eq h hlen]
  cases (targs.zip f.traits.args).findIdx? fun p => !Ideal.canGet τ p.1 p.2 with
  | some i => rfl
  | none =>
    cases f.receiver with
    | none => rfl
    | some C =>
      dsimp only
      rw [hobj.gets_eq hlen]

theorem callOn_eq (h : List.Forall₂ (Denotes P τ s) args targs)
    (hobj : Denotes P τ s obj tobj) (f : FunctionWrapper L V τ) :
    f.callOn args obj = Ideal.callOn τ f targs tobj := by
  have hargs : args.map (fun v => v.base_.value_) = targs.map fun t => t.bind Typed.value := by
    induction h with
    | nil => rfl
    | cons hv _ ih => rw [List.map_cons, List.map_cons, hv.value, ih]
  rw [FunctionWrapper.callOn, Ideal.callOn, hobj.value, hargs]

end Decisions

section Rel

/-- The session and the ideal program have the same objects and variants. -/
structure Rel (P : Program L) (τ : Traits L) (st : Session L V) (it : Ideal L V) : Prop where
  passes : Passes .init st.world.reg
  mem : st.world.mem = it.mem
  next : st.world.next = it.next
  held : List.Forall₂ (Denotes P τ st.world.reg) st.held it.held

variable {st : Session L V} {it it' : Ideal L V} {w : World L V}

theorem rel_start (mem : Addr → V) (next : Addr) :
    Rel P τ (.start mem next) (.start mem next) := ⟨.refl, rfl, rfl, .nil⟩

/-- Both go on with the variants they have. -/
theorem Rel.goOn (h : Rel P τ st it) (hpass : Passes st.world.reg w.reg) (hmem : w.mem = it'.mem)
    (hnext : w.next = it'.next) (hheld : it'.held = it.held) :
    Rel P τ { st with world := w } it' := by
  refine ⟨h.passes.trans hpass, hmem, hnext, ?_⟩
  rw [hheld]
  exact h.held.imp fun _ _ hv => hv.passes hpass

theorem Rel.withReg (h : Rel P τ st it) {s : Registry L} (hpass : Passes st.world.reg s) :
    Rel P τ (st.withReg s) it := h.goOn hpass h.mem h.next rfl

theorem Rel.hold (h : Rel P τ st it) {v : Variant L} {t : Option (Typed L)}
    (hv : Denotes P τ st.world.reg v t) :
    Rel P τ { st with held := st.held ++ [v] } (it.hold t) :=
  ⟨h.passes, h.mem, h.next, List.rel_append h.held (.cons hv .nil)⟩

theorem Rel.variant (h : Rel P τ st it) (v : Nat) :
    Denotes P τ st.world.reg (st.variant v) (it.variant v) := by
  have hget := h.held.get
  unfold Session.variant Ideal.variant
  by_cases hv : v < st.held.length
  · have hv' : v < it.held.length := h.held.length_eq ▸ hv
    rw [List.getElem?_eq_getElem hv, List.getElem?_eq_getElem hv']
    exact hget hv hv'
  · have hv' : ¬ v < it.held.length := h.held.length_eq ▸ hv
    rw [List.getElem?_eq_none (Nat.not_lt.mp hv), List.getElem?_eq_none (Nat.not_lt.mp hv')]
    exact .void

theorem Rel.variants (h : Rel P τ st it) (vs : List Nat) :
    List.Forall₂ (Denotes P τ st.world.reg) (st.variants vs) (it.variants vs) := by
  induction vs with
  | nil => exact .nil
  | cons v vs ih => exact .cons (h.variant v) ih

theorem Rel.place (h : Rel P τ st it) (a : Option Addr) : st.world.place a = it.place a := by
  rw [World.place, Ideal.place, h.next]

theorem Rel.read (h : Rel P τ st it) (cells : Nat) (a : Option Addr) :
    st.world.read cells a = it.read cells a := by
  rw [World.read, Ideal.read, h.mem, h.place]

theorem Rel.assign (h : Rel P τ st it) (a : Option Addr) (xs : List V) :
    Rel P τ { st with world := st.world.assign a xs } (it.assign a xs) := by
  refine h.goOn .refl ?_ h.next rfl
  rw [World.assign, h.mem, h.place]
  rfl

theorem Rel.temporary (h : Rel P τ st it) (cells : Nat) (a : Option Addr) :
    Rel P τ { st with world := st.world.temporary cells a } (it.temporary cells a) := by
  refine h.goOn .refl ?_ ?_ rfl
  · rw [World.temporary, h.mem, h.next, h.read]
    rfl
  · rw [World.temporary, h.next]
    rfl

end Rel

end ReflCpp
