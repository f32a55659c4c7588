import Mathlib.Data.Set.Operations
import ReflCpp.Agreement
import ReflCpp.Compatibility

namespace ReflCpp

open Cpp Blocks Simulation

variable {L V : Type}

/-- What may not be changed: objects, known by where they are and what type they have, and
cells of the memory. -/
structure Guard (L : Type) where
  objects : Set (Addr × Obj L)
  cells : Set Addr

/-- Where the member of the object at `o` is. -/
def FieldWrapper.placeIn [DecidableEq L] {τ : Traits L} (f : FieldWrapper L τ) (o : Addr) : Addr :=
  if f.traits.isStatic then f.ptr_ else o + f.ptr_

namespace Guard

variable (G : Guard L)

/-- What is reached through a `T` at `a` is const, or it is not guarded. -/
def Spares (T : Ty L) (a : Option Addr) : Prop :=
  accessConst T = false → ∀ x, a = some x → (x, cleanT T) ∉ G.objects

/-- None of the `n` cells from `a` on is guarded. -/
def Clear (a : Addr) (n : Nat) : Prop := ∀ x ∈ G.cells, ¬ (a ≤ x ∧ x < a + n)

/-- All that is guarded is in memory that has been given out. -/
structure Below (next : Addr) : Prop where
  object : ∀ p ∈ G.objects, p.1 < next
  cell : ∀ x ∈ G.cells, x < next

variable [DecidableEq L] {τ : Traits L}

/-- Among the cells of a field that is not const, something guarded is only as a member of
an object that is guarded too.  The field is not a pointer: what a pointer in the memory
points to is not followed. -/
structure Encloses (f : FieldWrapper L τ) : Prop where
  cell : ∀ o, f.traits.isConst = false → ¬ G.Clear (f.placeIn o) f.cells →
    f.traits.isStatic = false ∧ (o, f.traits.classType) ∈ G.objects
  object : ∀ o, f.traits.isConst = false → (f.placeIn o, f.traits.type) ∈ G.objects →
    f.traits.isStatic = false ∧ (o, f.traits.classType) ∈ G.objects
  plain : f.type.member.isPointer = false

/-- Nothing guarded is among the operands of the call, unless as const. -/
structure Handed (f : FunctionWrapper L V τ) (a : Option Addr) (as : List (Option Addr)) :
    Prop where
  object : ∀ C, f.receiver = some C → G.Spares C a
  args : List.Forall₂ G.Spares f.traits.args as

/-- What a function does that is called with such operands. -/
structure Respects (f : FunctionWrapper L V τ) : Prop where
  next : ∀ a as w, G.Below w.next → G.Handed f a as → w.next ≤ (f.body a as w).next
  cells : ∀ a as w, G.Below w.next → G.Handed f a as →
    ∀ x ∈ G.cells, (f.body a as w).mem x = w.mem x
  result : ∀ a as w, G.Below w.next → G.Handed f a as → f.traits.hasReturn = true →
    G.Spares f.traits.returnType (some (f.body a as w).result)

end Guard

/-- The program itself does not change what is guarded, nor make a variant that could. -/
def Action.Honest (τ : Traits L) (G : Guard L) : Action L V → Prop
  | .create T data => wrapperBinding τ T = .direct → G.Spares T (some data)
  | .assign data xs => G.Clear data xs.length
  | _ => True

section Access

variable {G : Guard L} {τ : Traits L} {T U : Ty L} {kind : VariantWrapperType}

/-- A request for something that can be changed is granted for the type itself, between
an object and the reference to it, and for no other. -/
theorem decorated_of_access (h : decorated kind U = some T) (hU : accessConst U = false) :
    T = U ∨ ∃ A, A.isConst = false ∧ (kind = .value ∧ U = .lref A ∧ T = .obj A ∨
      A.isPointer = false ∧ U = .obj A ∧ T = .lref A) := by
  cases U with
  | obj A =>
    cases A with
    | leaf c v a =>
      obtain rfl : c = false := hU
      cases kind <;> cases h
      · exact .inl rfl
      · exact .inr ⟨_, rfl, .inr ⟨rfl, rfl, rfl⟩⟩
    | ptr c v A =>
      have hA : A.isConst = false := hU
      cases c <;> cases v <;> cases kind <;> simp only [decorated, hA] at h <;> cases h
      rw [Cpp.Obj.removeConst_of_not_isConst hA]
      exact .inl rfl
  | lref A =>
    have hA : A.isConst = false := hU
    have hremove := Cpp.Obj.removeConst_of_not_isConst hA
    cases kind <;> simp only [decorated, hA, hremove] at h <;> cases h
    · exact .inr ⟨A, hA, .inl ⟨rfl, rfl, rfl⟩⟩
    · exact .inl rfl
  | rref A =>
    have hA : A.isConst = false := hU
    have hremove := Cpp.Obj.removeConst_of_not_isConst hA
    cases kind <;> simp only [decorated, hA, hremove] at h <;> cases h
    exact .inl rfl

theorem not_isPointer_of_value {A : Obj L} (h : wrapperKind τ (.obj A) = .value) :
    A.isPointer = false := by
  cases hA : A.isPointer with
  | false => rfl
  | true =>
    rw [wrapperKind, hA, if_pos rfl] at h
    split at h <;> cases h

/-- A granted request is for the object that the variant gives, and never for more access
to it. -/
theorem access_of_decorated (h : decorated (wrapperKind τ T) U = some T)
    (hU : accessConst U = false) : accessConst T = false ∧ cleanT T = cleanT U := by
  rcases decorated_of_access h hU with rfl | ⟨A, hA, ⟨hkind, rfl, rfl⟩ | ⟨hp, rfl, rfl⟩⟩
  · exact ⟨hU, rfl⟩
  · have hp := not_isPointer_of_value hkind
    refine ⟨?_, rfl⟩
    rw [accessConst, if_neg (by rw [hp]; exact Bool.false_ne_true)]
    exact hA
  · exact ⟨hA, rfl⟩

theorem Guard.Spares.of_decorated {a : Option Addr} (h : G.Spares T a)
    (hdec : decorated (wrapperKind τ T) U = some T) : G.Spares U a := by
  intro hU x hx
  obtain ⟨hT, hclean⟩ := access_of_decorated hdec hU
  rw [← hclean]
  exact h hT x hx

end Access

variable [DecidableEq L] {P : Program L} {τ : Traits L} {G : Guard L}

section Spared

variable {s s' : Registry L} {v : Variant L} {U : Ty L}

/-- `v` gives nothing guarded, unless as const. -/
def Spared (P : Program L) (τ : Traits L) (G : Guard L) (s : Registry L) (v : Variant L) : Prop :=
  v = .void ∨ ∃ T, Created P τ s T v ∧ G.Spares T v.base_.value_

theorem Spared.passes (h : Spared P τ G s v) (hpass : Passes s s') : Spared P τ G s' v :=
  h.imp_right fun ⟨T, hT, hspares⟩ => ⟨T, hT.passes hpass, hspares⟩

theorem Spared.made (h : Spared P τ G s v) : Made P τ s v :=
  h.imp_right fun ⟨T, hT, _⟩ => ⟨T, hT⟩

theorem Spared.of_gets (h : Spared P τ G s v) (hlen : s.types_.length < 2 ^ 32)
    (hgets : gets s v U = true) : G.Spares U v.base_.value_ := by
  rcases h with rfl | ⟨T, hT, hspares⟩
  · rw [gets_void] at hgets
    cases hgets
  · have hdec := (hT.gets_iff hlen).mp hgets
    obtain ⟨_, _, c, hmake, hwrapper⟩ := hT.issued
    rw [hwrapper, makeWrapper_eq hmake] at hdec
    exact hspares.of_decorated hdec

theorem Spared.of_canGet (h : Spared P τ G s v)
    (hlen : (v.canGet P U s).2.types_.length < 2 ^ 32) (hcan : (v.canGet P U s).1 = true) :
    G.Spares U v.base_.value_ :=
  h.of_gets (Nat.lt_of_le_of_lt (v.passes_canGet U s).length_le hlen)
    ((h.made.canGet_iff .refl hlen).mp hcan)

end Spared

section Intact

variable {ε : Type} {mem : Addr → V} {w w' : World L V}

/-- The guarded cells hold what they held in `mem`. -/
structure Intact (G : Guard L) (mem : Addr → V) (w : World L V) : Prop where
  below : G.Below w.next
  cells : ∀ x ∈ G.cells, w.mem x = mem x

omit [DecidableEq L] in
theorem Guard.Below.mono {next next' : Addr} (h : G.Below next) (hle : next ≤ next') :
    G.Below next' :=
  ⟨fun p hp => Nat.lt_of_lt_of_le (h.object p hp) hle,
    fun x hx => Nat.lt_of_lt_of_le (h.cell x hx) hle⟩

omit [DecidableEq L] in
theorem Intact.withReg (h : Intact G mem w) (s : Registry L) : Intact G mem { w with reg := s } :=
  ⟨h.below, h.cells⟩

omit [DecidableEq L] in
theorem Guard.Below.clear {next : Addr} (h : G.Below next) (n : Nat) : G.Clear next n :=
  fun x hx hin => Nat.not_le.mpr (h.cell x hx) hin.1

omit [DecidableEq L] in
theorem Intact.assign (h : Intact G mem w) {a : Option Addr} {xs : List V}
    (ha : G.Clear (w.place a) xs.length) : Intact G mem (w.assign a xs) :=
  ⟨h.below, fun y hy => (store_of_outside (ha y hy)).trans (h.cells y hy)⟩

omit [DecidableEq L] in
theorem Intact.temporary (h : Intact G mem w) (cells : Nat) (a : Option Addr) :
    Intact G mem (w.temporary cells a) :=
  ⟨h.below.mono (Nat.le_add_right ..),
    fun y hy => (store_before (h.below.cell y hy)).trans (h.cells y hy)⟩

omit [DecidableEq L] in
theorem Guard.Below.spares {next : Addr} (h : G.Below next) (T : Ty L) :
    G.Spares T (some next) := by
  rintro _ x ⟨⟩ hx
  exact Nat.lt_irrefl _ (h.object _ hx)

/-- How a call leaves what is guarded, and what it returns. -/
structure Gives (P : Program L) (τ : Traits L) (G : Guard L) (mem : Addr → V)
    (r : Except Crash (Except ε (Variant L))) (w : World L V) : Prop where
  kept : Intact G mem w
  spared : ∀ v, r = .ok (.ok v) → Spared P τ G w.reg v

theorem Gives.error (h : Intact G mem w) (e : ε) : Gives P τ G mem (.ok (.error e)) w := by
  refine ⟨h, fun v hv => ?_⟩
  cases hv

theorem Gives.crash (h : Intact G mem w) (c : Crash) :
    Gives (ε := ε) P τ G mem (.error c) w := by
  refine ⟨h, fun v hv => ?_⟩
  cases hv

theorem gives_createWith {c : WrapperClass L × Binding} {T : Ty L}
    (hmake : makeWrapper τ T = some c) (hs : Passes .init w.reg) (h : Intact G mem w) {data : Addr}
    (hdata : wrapperBinding τ T = .direct → G.Spares T (some data)) :
    Gives P τ G mem (.ok (Variant.createWith P c T data w).1)
      (Variant.createWith P c T data w).2 := by
  have hcreate : Variant.create P τ T data w = some (Variant.createWith P c T data w) := by
    rw [Variant.create, hmake]
    rfl
  have hbinding : c.2 = wrapperBinding τ T := by rw [makeWrapper_eq hmake]
  rw [Variant.createWith] at hcreate ⊢
  rcases hr : reflectID P T w.reg with ⟨e | i, s⟩ <;> rw [hr] at hcreate
  · exact .error (h.withReg s) e
  · have hcreated : ∀ v w', Variant.create P τ T data w = some (.ok v, w') →
        Created P τ w'.reg T v := fun v w' hv => ⟨V, data, w, w', hs, hv, .refl⟩
    dsimp only [makeShared] at hcreate ⊢
    cases hc : c.2 with
    | copied cells =>
      rw [hc] at hcreate
      refine ⟨(h.withReg s).temporary cells (some data), fun v hv => .inr ⟨T, ?_⟩⟩
      cases hv
      exact ⟨hcreated _ _ hcreate, h.below.spares T⟩
    | direct =>
      rw [hc] at hcreate
      refine ⟨h.withReg s, fun v hv => .inr ⟨T, ?_⟩⟩
      cases hv
      exact ⟨hcreated _ _ hcreate, hdata (hbinding ▸ hc)⟩
    | temporary =>
      rw [hc] at hcreate
      refine ⟨h.withReg s, fun v hv => .inr ⟨T, ?_⟩⟩
      cases hv
      refine ⟨hcreated _ _ hcreate, fun _ x hx => ?_⟩
      cases hx

theorem gives_createField {c : WrapperClass L × Binding} {T : Ty L}
    (hmake : makeWrapper τ T = some c) (hs : Passes .init w.reg) (h : Intact G mem w) {data : Addr}
    (hdata : wrapperBinding τ T = .direct → G.Spares T (some data)) :
    Gives P τ G mem (createField P c T data w).1 (createField P c T data w).2 := by
  have hgives := gives_createWith (P := P) hmake hs h hdata
  rw [createField_eq]
  refine ⟨hgives.kept, fun v hv => hgives.spared v ?_⟩
  rcases hr : (Variant.createWith P c T data w).1 with e | u <;> rw [hr] at hv <;> cases hv
  rfl

end Intact

section Fields

variable {mem : Addr → V} {w : World L V} {s s' : Registry L} {f : FieldWrapper L τ}
  {value instance_ : Variant L}

omit [DecidableEq L] in
theorem fieldTraits_classType (t : FieldType L) :
    ∃ a, (fieldTraits t).classType = .leaf false false a := by
  rcases t with ⟨_ | C, T⟩ <;> rw [fieldTraits] <;> split <;> exact ⟨_, rfl⟩

omit [DecidableEq L] in
theorem accessConst_refType (t : FieldType L) :
    accessConst (fieldTraits t).refType = t.member.isConst := by
  rw [FieldTraits.refType, fieldTraits_isConst, fieldTraits_type]
  cases hconst : t.member.isConst with
  | true => exact Cpp.Obj.isConst_addConst _
  | false => exact Cpp.Obj.isConst_removeConst _

omit [DecidableEq L] in
theorem cleanT_refType {t : FieldType L} (hp : t.member.isPointer = false)
    (hconst : t.member.isConst = false) :
    cleanT (fieldTraits t).refType = (fieldTraits t).type := by
  rw [FieldTraits.refType, fieldTraits_isConst, hconst, fieldTraits_type]
  have hremove := Cpp.Obj.removeConst_of_not_isConst hconst
  rw [hremove]
  change t.member.removePointer.removeConst = t.member
  rw [removePointer_of_not_isPointer hp, hremove]

/-- What an instance must not give for a field of it not to be guarded. -/
theorem lvalue_spares {a : Option Addr} (hv : Spared P τ G s instance_)
    (h : f.lvalue P instance_ s = (.ok (.ok a), s')) (hlen : s'.types_.length < 2 ^ 32) :
    a = f.target instance_ ∧ (f.traits.isStatic = false →
      G.Spares (.lref f.traits.classType) instance_.base_.value_) := by
  unfold FieldWrapper.lvalue at h
  unfold FieldWrapper.target
  cases hstatic : f.traits.isStatic with
  | true =>
    rw [hstatic, if_pos rfl] at h
    cases h
    exact ⟨rfl, fun hf => Bool.noConfusion hf⟩
  | false =>
    rw [hstatic, if_neg Bool.false_ne_true] at h
    rcases instance_.getImpl_cases (P := P) (.lref f.traits.classType) s with
      ⟨s₁, hcan, himpl⟩ | ⟨D, s₁, hcan, _, himpl⟩ <;> rw [RegM.andThen_of_ok himpl] at h <;>
      cases h
    refine ⟨rfl, fun _ => hv.of_canGet (P := P) ?_ ?_⟩
    · rw [hcan]
      exact hlen
    · rw [hcan]

/-- A field that can be changed is not guarded, nor where it is. -/
theorem place_unguarded (hf : G.Encloses f) (hw : G.Below w.next)
    (hspares : f.traits.isStatic = false →
      G.Spares (.lref f.traits.classType) instance_.base_.value_)
    (hconst : f.traits.isConst = false) :
    G.Clear (w.place (f.target instance_)) f.cells ∧
      (w.place (f.target instance_), f.traits.type) ∉ G.objects := by
  have hmember : ∀ o, w.place (f.target instance_) = f.placeIn o →
      (f.traits.isStatic = false → (o, f.traits.classType) ∉ G.objects) →
      G.Clear (w.place (f.target instance_)) f.cells ∧
        (w.place (f.target instance_), f.traits.type) ∉ G.objects := by
    intro o hplace ho
    rw [hplace]
    constructor
    · by_contra hcell
      obtain ⟨hstatic, hobject⟩ := hf.cell o hconst hcell
      exact ho hstatic hobject
    · intro hmem
      obtain ⟨hstatic, hobject⟩ := hf.object o hconst hmem
      exact ho hstatic hobject
  cases hstatic : f.traits.isStatic with
  | true =>
    refine hmember 0 ?_ ?_
    · rw [FieldWrapper.target, FieldWrapper.placeIn, hstatic]
      rfl
    · rw [hstatic]
      exact fun hf => Bool.noConfusion hf
  | false =>
    cases hvalue : instance_.base_.value_ with
    | none =>
      have hnext : w.place (f.target instance_) = w.next := by
        rw [FieldWrapper.target, hstatic, hvalue]
        rfl
      rw [hnext]
      exact ⟨hw.clear _, fun hobject => Nat.lt_irrefl _ (hw.object _ hobject)⟩
    | some o =>
      refine hmember o ?_ fun _ => ?_
      · rw [FieldWrapper.target, FieldWrapper.placeIn, hstatic, hvalue]
        rfl
      · obtain ⟨a, ha⟩ := fieldTraits_classType f.type
        have hclass : f.traits.classType = .leaf false false a := ha
        have hspares' := hspares hstatic
        rw [hclass] at hspares' ⊢
        exact hspares' rfl o hvalue

/-- The left side of the assignment in `SetValue` is what the instance gives. -/
theorem sides_ok {a b : Option Addr}
    (h : f.sides P value instance_ s = (.ok (.ok (a, b)), s')) :
    ∃ s₁, f.lvalue P instance_ s = (.ok (.ok a), s₁) ∧ Passes s₁ s' := by
  rcases hl : f.lvalue P instance_ s with ⟨c | e | a', s₁⟩
  · rw [FieldWrapper.sides, RegM.andThen, hl] at h
    cases h
  · rw [FieldWrapper.sides, RegM.andThen_of_ok hl] at h
    cases h
  · rw [FieldWrapper.sides, RegM.andThen_of_ok hl] at h
    have hpass := passes_getImpl (P := P) value (.lref f.traits.type.addConst) s₁
    rcases hr : value.getImpl P (.lref f.traits.type.addConst) s₁ with ⟨c | e | g, s₂⟩ <;>
      rw [hr] at hpass
    · dsimp only at h
      rw [RegM.andThen, hr] at h
      cases h
    · dsimp only at h
      rw [RegM.andThen_of_ok hr] at h
      cases h
    · dsimp only at h
      rw [RegM.andThen_of_ok hr] at h
      cases h
      exact ⟨s₁, rfl, hpass⟩

theorem intact_setValue (hf : G.Encloses f) (h : Intact G mem w)
    (hv : Spared P τ G w.reg instance_)
    (hlen : (f.setValue P value instance_ w).2.reg.types_.length < 2 ^ 32) :
    Intact G mem (f.setValue P value instance_ w).2 := by
  unfold FieldWrapper.setValue at *
  split
  · exact h
  next hconst =>
    rw [if_neg hconst] at hlen
    split
    · exact h
    next hassign =>
      rw [if_neg hassign] at hlen
      rcases hsides : f.sides P value instance_ w.reg with ⟨c | e | ⟨a, b⟩, s⟩ <;>
        rw [hsides] at hlen
      · exact h.withReg s
      · exact h.withReg s
      · obtain ⟨s₁, hl, hpass⟩ := sides_ok hsides
        obtain ⟨rfl, hspares⟩ :=
          lvalue_spares hv hl (Nat.lt_of_le_of_lt hpass.length_le hlen)
        have hplace := place_unguarded hf h.below hspares (by simpa using hconst)
        refine (h.withReg s).assign ?_
        rw [World.read, length_load]
        exact hplace.1

theorem gives_access
    {k : Option Addr → WorldM L V (Except Crash (Except FieldGetError (Variant L)))}
    (h : Intact G mem w)
    (hk : ∀ a s, f.lvalue P instance_ w.reg = (.ok (.ok a), s) →
      (k a { w with reg := s }).2.reg.types_.length < 2 ^ 32 →
      Gives P τ G mem (k a { w with reg := s }).1 (k a { w with reg := s }).2)
    (hlen : (f.access P instance_ k w).2.reg.types_.length < 2 ^ 32) :
    Gives P τ G mem (f.access P instance_ k w).1 (f.access P instance_ k w).2 := by
  unfold FieldWrapper.access at *
  split
  · exact .error h _
  next hvoid =>
    rw [if_neg hvoid] at hlen
    rcases hl : f.lvalue P instance_ w.reg with ⟨c | e | a, s⟩ <;> rw [hl] at hlen
    · exact .crash (h.withReg s) c
    · exact .error (h.withReg s) _
    · exact hk a s hl hlen

theorem gives_getValue (h : Intact G mem w) (hs : Passes .init w.reg)
    (hlen : (f.getValue P instance_ w).2.reg.types_.length < 2 ^ 32) :
    Gives P τ G mem (f.getValue P instance_ w).1 (f.getValue P instance_ w).2 := by
  refine gives_access h (fun a s hl _ => ?_) hlen
  have hpass := passes_lvalue (P := P) f instance_ w.reg
  rw [hl] at hpass
  exact gives_createField (w := World.temporary { w with reg := s } f.cells a) f.value_eq
    (hs.trans hpass) ((h.withReg s).temporary f.cells a) fun _ => h.below.spares _

theorem gives_getRef (hf : G.Encloses f) (h : Intact G mem w) (hs : Passes .init w.reg)
    (hv : Spared P τ G w.reg instance_)
    (hlen : (f.getRef P instance_ w).2.reg.types_.length < 2 ^ 32) :
    Gives P τ G mem (f.getRef P instance_ w).1 (f.getRef P instance_ w).2 := by
  refine gives_access h (fun a s hl hlen' => ?_) hlen
  have hpass := passes_lvalue (P := P) f instance_ w.reg
  rw [hl] at hpass
  have hpass' := passes_createField (P := P) f.ref f.traits.refType (w.place a)
    { w with reg := s }
  obtain ⟨rfl, hspares⟩ :=
    lvalue_spares hv hl (Nat.lt_of_le_of_lt hpass'.length_le hlen')
  refine gives_createField (w := { w with reg := s }) f.ref_eq (hs.trans hpass) (h.withReg s)
    fun _ => ?_
  intro haccess x hx
  cases hx
  have hconst : f.type.member.isConst = false := (accessConst_refType f.type).symm.trans haccess
  have hclean : cleanT (fieldTraits f.type).refType = f.traits.type :=
    cleanT_refType hf.plain hconst
  rw [hclean]
  exact (place_unguarded hf h.below hspares ((fieldTraits_isConst f.type).trans hconst)).2

end Fields

section Invoke

variable {mem : Addr → V} {w : World L V} {s : Registry L} {args : List (Variant L)}
  {obj : Variant L} {f : FunctionWrapper L V τ}

theorem spares_of_fits (hargs : ∀ v ∈ args, Spared P τ G s v) (hlen : s.types_.length < 2 ^ 32)
    {Us : List (Ty L)} (harity : args.length = Us.length) (hfits : fits s (args.zip Us) = true) :
    List.Forall₂ G.Spares Us (args.map fun v => v.base_.value_) := by
  induction args generalizing Us with
  | nil =>
    obtain rfl := List.length_eq_zero_iff.mp harity.symm
    exact .nil
  | cons v args ih =>
    cases Us with
    | nil => cases harity
    | cons U Us =>
      rw [List.zip_cons_cons, fits_cons, Bool.and_eq_true] at hfits
      refine .cons ((hargs v List.mem_cons_self).of_gets hlen hfits.1) ?_
      exact ih (fun u hu => hargs u (List.mem_cons_of_mem _ hu)) (Nat.succ.inj harity) hfits.2

/-- What an accepted call is handed. -/
theorem handed_callOn (hargs : ∀ v ∈ obj :: args, Spared P τ G s v)
    (hlen : s.types_.length < 2 ^ 32) (h : f.accepts s args obj = true) :
    G.Handed f (f.callOn args obj).obj (f.callOn args obj).args := by
  obtain ⟨harity, hfits, hgets⟩ := accepts_iff.mp h
  refine ⟨fun C hC => ?_, ?_⟩
  · rw [FunctionWrapper.callOn, hC]
    exact (hargs obj List.mem_cons_self).of_gets hlen (hgets C hC)
  · exact spares_of_fits (fun v hv => hargs v (List.mem_cons_of_mem _ hv)) hlen harity hfits

theorem intact_afterCall (hf : G.Respects f) (h : Intact G mem w) {a : Option Addr}
    {as : List (Option Addr)} (hhanded : G.Handed f a as) :
    Intact G mem (f.afterCall P a as w) :=
  ⟨h.below.mono (hf.next a as w h.below hhanded),
    fun x hx => (hf.cells a as w h.below hhanded x hx).trans (h.cells x hx)⟩

theorem gives_completed (hf : G.Respects f) (hs : Passes .init w.reg) (h : Intact G mem w)
    {a : Option Addr} {as : List (Option Addr)} (hhanded : G.Handed f a as) :
    Gives P τ G mem (f.completed P a as w).result (f.completed P a as w).world := by
  have hafter := intact_afterCall (P := P) hf h hhanded
  have hpass : Passes .init (f.afterCall P a as w).reg := hs.trans (run_steps _ w.reg)
  unfold FunctionWrapper.completed FunctionWrapper.call
  cases hr : f.traits.hasReturn with
  | false =>
    refine ⟨hafter, fun v hv => ?_⟩
    cases hv
    exact .inl rfl
  | true =>
    have hcreate := gives_createWith (P := P) (f.returns_eq hr) hpass hafter
      fun _ => hf.result a as w h.below hhanded hr
    rw [if_pos rfl]
    rcases hc : Variant.createWith P f.returns f.traits.returnType (f.body a as w).result
        (f.afterCall P a as w) with ⟨e | v, w'⟩
    · have hc' : Variant.createWith P f.returns (functionTraits f.type).returnType
          (f.body a as w).result (f.afterCall P a as w) = (.error e, w') := hc
      rw [hc'] at hcreate
      exact .error hcreate.kept _
    · have hc' : Variant.createWith P f.returns (functionTraits f.type).returnType
          (f.body a as w).result (f.afterCall P a as w) = (.ok v, w') := hc
      rw [hc'] at hcreate
      refine ⟨hcreate.kept, fun u hu => hcreate.spared u ?_⟩
      cases hu
      rfl

theorem gives_invoke (hf : G.Respects f) (hs : Passes .init w.reg) (h : Intact G mem w)
    (hargs : ∀ v ∈ obj :: args, Spared P τ G w.reg v)
    (hlen : (f.invoke P args obj w).world.reg.types_.length < 2 ^ 32) :
    Gives P τ G mem (f.invoke P args obj w).result (f.invoke P args obj w).world := by
  have hmade : ∀ v ∈ obj :: args, Made P τ w.reg v := fun v hv => (hargs v hv).made
  have hlen₀ := Nat.lt_of_le_of_lt (passes_invoke (P := P) f args obj w).length_le hlen
  cases href : f.refusal w.reg args obj with
  | some e =>
    obtain ⟨hresult, hcalls⟩ := invoke_of_refusal (P := P) hmade .refl hlen href
    rcases f.invoke_cases args obj P w with
      ⟨e', s, heq⟩ | ⟨c, s, _, _, heq⟩ | ⟨a, as, s, _, _, _, heq⟩
    · rw [heq]
      exact .error (h.withReg s) e'
    · rw [heq]
      exact .crash (h.withReg s) c
    · rw [heq, f.completed_calls] at hcalls
      cases hcalls
  | none =>
    have haccepts := refusal_eq_none.mp href
    rw [invoke_of_accepts hmade .refl hlen₀ haccepts]
    exact gives_completed hf hs h (handed_callOn hargs hlen₀ haccepts)

theorem gives_invokeFirst {skip : FunctionWrapper L V τ → RegM L (Except Crash Bool)}
    (hskip : ∀ f s, Passes s (skip f s).2) {funcs_ : List (FunctionWrapper L V τ)}
    (hfuncs : ∀ f ∈ funcs_, G.Respects f) (hs : Passes .init w.reg) (h : Intact G mem w)
    (hargs : ∀ v ∈ obj :: args, Spared P τ G w.reg v)
    (hlen : (invokeFirst P skip obj args funcs_ w).world.reg.types_.length < 2 ^ 32) :
    Gives P τ G mem (invokeFirst P skip obj args funcs_ w).result
      (invokeFirst P skip obj args funcs_ w).world := by
  induction funcs_ generalizing w with
  | nil => exact .error h _
  | cons f funcs_ ih =>
    have hpass := hskip f w.reg
    rw [invokeFirst] at hlen ⊢
    rcases hf : skip f w.reg with ⟨c | _ | _, s'⟩ <;> rw [hf] at hpass hlen
    · exact .crash (h.withReg s') c
    · exact gives_invoke (hfuncs f List.mem_cons_self) (hs.trans hpass) (h.withReg s')
        (fun v hv => (hargs v hv).passes hpass) hlen
    · exact ih (fun g hg => hfuncs g (List.mem_cons_of_mem _ hg)) (hs.trans hpass)
        (h.withReg s') (fun v hv => (hargs v hv).passes hpass) hlen

end Invoke

section Run

variable {mem : Addr → V} {st : Session L V} {fields : Nat → FieldWrapper L τ}
  {funcs : Nat → FunctionWrapper L V τ}

/-- What is guarded is as it was, and no variant of the session can change it. -/
structure Safe (P : Program L) (τ : Traits L) (G : Guard L) (mem : Addr → V)
    (st : Session L V) : Prop where
  kept : Intact G mem st.world
  spared : ∀ v ∈ st.held, Spared P τ G st.world.reg v

theorem Safe.variant (h : Safe P τ G mem st) (v : Nat) :
    Spared P τ G st.world.reg (st.variant v) := by
  unfold Session.variant
  cases hv : st.held[v]? with
  | none => exact .inl rfl
  | some u => exact h.spared u (List.mem_of_getElem? hv)

theorem Safe.operands (h : Safe P τ G mem st) (obj : Nat) (args : List Nat) :
    ∀ v ∈ st.variant obj :: st.variants args, Spared P τ G st.world.reg v := by
  intro v hv
  rcases List.mem_cons.mp hv with rfl | hv
  · exact h.variant obj
  · obtain ⟨j, _, rfl⟩ := List.mem_map.mp hv
    exact h.variant j

theorem Safe.world (h : Safe P τ G mem st) {w : World L V}
    (hpass : Passes st.world.reg w.reg) (hw : Intact G mem w) :
    Safe P τ G mem { st with world := w } :=
  ⟨hw, fun v hv => (h.spared v hv).passes hpass⟩

theorem Safe.keep {ε : Type} (h : Safe P τ G mem st) (reply : Except ε Unit → Reply)
    {r : Except Crash (Except ε (Variant L))} {w : World L V}
    (hpass : Passes st.world.reg w.reg) (hr : Gives P τ G mem r w) :
    Safe P τ G mem (st.keep reply (r, w)).2 := by
  have hworld := h.world hpass hr.kept
  rcases r with c | e | v
  · exact hworld
  · exact hworld
  · refine ⟨hworld.kept, fun u hu => ?_⟩
    rcases List.mem_append.mp hu with hu | hu
    · exact hworld.spared u hu
    · rw [List.mem_singleton.mp hu]
      exact hr.spared v rfl

theorem safe_use (hfields : ∀ i, G.Encloses (fields i)) (hfuncs : ∀ i, G.Respects (funcs i))
    (hsound : Sound P τ st) (h : Safe P τ G mem st) {a : Action L V} (ha : a.Honest τ G)
    (hlen : (st.use P τ fields funcs a).2.world.reg.types_.length < 2 ^ 32) :
    Safe P τ G mem (st.use P τ fields funcs a).2 := by
  have hpass := (use_leads fields funcs hsound a).passes
  have hfunctions : ∀ m : Method, ∀ f ∈ m.functions funcs, G.Respects f := by
    intro m f hf
    obtain ⟨i, _, rfl⟩ := List.mem_map.mp hf
    exact hfuncs i
  cases a with
  | create T data =>
    rw [Session.use, Variant.create] at hpass ⊢
    cases hmake : makeWrapper τ T with
    | none => exact h
    | some c =>
      rw [hmake, Option.map_some] at hpass
      dsimp only at hpass
      rw [keep_world] at hpass
      exact h.keep .created hpass (gives_createWith hmake hsound.passes h.kept ha)
  | canGet v U => exact h.world (w := { st.world with reg := _ }) hpass (h.kept.withReg _)
  | get v U => exact h.world (w := { st.world with reg := _ }) hpass (h.kept.withReg _)
  | setValue f value instance_ =>
    exact h.world hpass (intact_setValue (hfields f.base_) h.kept (h.variant instance_) hlen)
  | getValue f instance_ =>
    rw [Session.use, keep_world] at hpass hlen
    exact h.keep .read hpass (gives_getValue h.kept hsound.passes hlen)
  | getRef f instance_ =>
    rw [Session.use, keep_world] at hpass hlen
    exact h.keep .read hpass
      (gives_getRef (hfields f.base_) h.kept hsound.passes (h.variant instance_) hlen)
  | invoke func args obj =>
    rw [Session.use, keep_world] at hpass hlen
    exact h.keep _ hpass
      (gives_invoke (hfuncs func) hsound.passes h.kept (h.operands obj args) hlen)
  | invokeMethod m args =>
    rw [Session.use, keep_world] at hpass hlen
    have hvoid : ∀ v ∈ Variant.void :: st.variants args, Spared P τ G st.world.reg v := by
      intro v hv
      rcases List.mem_cons.mp hv with rfl | hv
      · exact .inl rfl
      · exact h.operands 0 args v (List.mem_cons_of_mem _ hv)
    exact h.keep _ hpass (gives_invokeFirst (passes_skip skipMemberUnfit_eq) (hfunctions m)
      hsound.passes h.kept hvoid hlen)
  | invokeMethodOn m obj args =>
    rw [Session.use, keep_world] at hpass hlen
    exact h.keep _ hpass (gives_invokeFirst (passes_skip (skipUnfit_all _)) (hfunctions m)
      hsound.passes h.kept (h.operands obj args) hlen)
  | assign data xs => exact h.world .refl (h.kept.assign (a := some data) ha)

theorem safe_look (hsound : Sound P τ st) (h : Safe P τ G mem st) (l : Lookup L) :
    Safe P τ G mem (st.look P l).2 := by
  have hpass := (look_leads hsound l).passes
  have hkept := h.kept
  cases l <;> exact ⟨⟨hkept.below, hkept.cells⟩, fun v hv => (h.spared v hv).passes hpass⟩

theorem safe_exec (hfields : ∀ i, G.Encloses (fields i)) (hfuncs : ∀ i, G.Respects (funcs i))
    (hsound : Sound P τ st) (h : Safe P τ G mem st) {op : Op L V}
    (hop : ∀ a, op.action = some a → a.Honest τ G)
    (hlen : (st.exec P τ fields funcs op).2.world.reg.types_.length < 2 ^ 32) :
    Safe P τ G mem (st.exec P τ fields funcs op).2 := by
  have harmed : ∀ faults, Passes st.world.reg (st.armed faults).world.reg :=
    fun faults => .single (.faults _ faults)
  have hsafe : ∀ faults, Safe P τ G mem (st.armed faults) :=
    fun faults => h.world (harmed faults) (h.kept.withReg _)
  cases op with
  | look l faults => exact safe_look (hsound.withReg (harmed faults)) (hsafe faults) l
  | use a faults =>
    exact safe_use hfields hfuncs (hsound.withReg (harmed faults)) (hsafe faults)
      (hop a rfl) hlen

theorem safe_run (hfields : ∀ i, G.Encloses (fields i)) (hfuncs : ∀ i, G.Respects (funcs i))
    (hsound : Sound P τ st) (h : Safe P τ G mem st) {ops : List (Op L V)}
    (hops : ∀ op ∈ ops, ∀ a, op.action = some a → a.Honest τ G)
    (hlen : (st.run P fields funcs ops).world.reg.types_.length < 2 ^ 32) :
    Safe P τ G mem (st.run P fields funcs ops) := by
  induction ops generalizing st with
  | nil => exact h
  | cons op ops ih =>
    have hleads := exec_leads fields funcs hsound op
    have hrest := run_leads fields funcs hleads.sound ops
    have hstep := safe_exec hfields hfuncs hsound h (hops op List.mem_cons_self)
      (Nat.lt_of_le_of_lt hrest.passes.length_le hlen)
    exact ih hleads.sound hstep (fun op' hop' => hops op' (List.mem_cons_of_mem _ hop')) hlen

/-- Whatever a program does with the library, what it has given away only as const stays as
it was, and no variant that it holds in the end grants access to change it. -/
theorem guarded_of_run (hfields : ∀ i, G.Encloses (fields i))
    (hfuncs : ∀ i, G.Respects (funcs i)) (mem : Addr → V) {next : Addr} (hnext : G.Below next)
    {ops : List (Op L V)} (hops : ∀ op ∈ ops, ∀ a, op.action = some a → a.Honest τ G)
    (hlen : ((Session.start mem next).run P fields funcs ops).world.reg.types_.length < 2 ^ 32) :
    (∀ x ∈ G.cells, ((Session.start mem next).run P fields funcs ops).world.mem x = mem x) ∧
    ∀ v ∈ ((Session.start mem next).run P fields funcs ops).held, ∀ U,
      (v.canGet P U
        ((Session.start mem next).run P fields funcs ops).world.reg).2.types_.length < 2 ^ 32 →
      (v.canGet P U ((Session.start mem next).run P fields funcs ops).world.reg).1 = true →
      G.Spares U v.base_.value_ := by
  have hstart : Safe P τ G mem (Session.start mem next) :=
    ⟨⟨hnext, fun _ _ => rfl⟩, fun v hv => absurd hv List.not_mem_nil⟩
  have hsafe := safe_run hfields hfuncs (sound_start mem next) hstart hops hlen
  exact ⟨hsafe.kept.cells, fun v hv U hlen' hcan => (hsafe.spared v hv).of_canGet hlen' hcan⟩

end Run

section Line

/-- `Point start` at offset 2 of a `Line`. -/
def lineStart : FieldWrapper Nat .plain :=
  ⟨⟨some 1, point⟩, 2, by rintro _ ⟨⟩; decide, true, _, rfl, _, rfl⟩

def lineFields : Nat → FieldWrapper Nat .plain
  | 0 => lineStart
  | _ => pointFields 0

/-- The last cell of the `Line` at 4 is not to be changed: it is in its `start`, and in the
`x` of that.  A `Line` at 5 would have it too. -/
def lineGuard : Guard Nat where
  objects := {(4, line), (5, line), (6, point), (7, int)}
  cells := {7}

theorem mem_lineGuard {p : Addr × Obj Nat} : p ∈ lineGuard.objects ↔
    p = (4, line) ∨ p = (5, line) ∨ p = (6, point) ∨ p = (7, int) := Iff.rfl

theorem not_clear_lineGuard {a n : Nat} (h : ¬ lineGuard.Clear a n) : a ≤ 7 ∧ 7 < a + n := by
  by_contra hout
  apply h
  rintro x (rfl : x = 7)
  exact hout

theorem lineGuard_encloses : ∀ i, lineGuard.Encloses (lineFields i)
  | 0 =>
    { cell := by
        intro (o : Nat) _ ho
        obtain ⟨hle, hlt⟩ : o + 2 ≤ 7 ∧ 7 < o + 2 + 2 := not_clear_lineGuard ho
        refine ⟨rfl, mem_lineGuard.mpr ?_⟩
        obtain rfl | rfl : o = 4 ∨ o = 5 := by omega
        · exact .inl rfl
        · exact .inr (.inl rfl)
      object := by
        intro o _ (ho : (o + 2, point) ∈ lineGuard.objects)
        have ho : o = 4 := by simpa [mem_lineGuard] using ho
        exact ⟨rfl, mem_lineGuard.mpr (.inl (by rw [ho]; rfl))⟩
      plain := rfl }
  | _ + 1 =>
    { cell := by
        intro (o : Nat) _ ho
        obtain ⟨hle, hlt⟩ : o + 1 ≤ 7 ∧ 7 < o + 1 + 1 := not_clear_lineGuard ho
        obtain rfl : o = 6 := by omega
        exact ⟨rfl, mem_lineGuard.mpr (.inr (.inr (.inl rfl)))⟩
      object := by
        intro o _ (ho : (o + 1, int) ∈ lineGuard.objects)
        have ho : o = 6 := by simpa [mem_lineGuard] using ho
        exact ⟨rfl, mem_lineGuard.mpr (.inr (.inr (.inl (by rw [ho]; rfl))))⟩
      plain := rfl }

theorem respects_intFunction (receiver : Option (Nat × Qualifier)) (ptr_ : Nat)
    (args : List (Ty Nat)) (h : args.length < 256) :
    lineGuard.Respects (intFunction receiver ptr_ args h) where
  next := fun _ _ _ _ _ => Nat.le_refl _
  cells := fun _ _ _ _ _ _ _ => rfl
  result := by
    rintro a as w _ _ _ _ x ⟨⟩ (hx : (0, _) ∈ lineGuard.objects)
    simp [mem_lineGuard] at hx

theorem lineGuard_respects : ∀ i, lineGuard.Respects (intOverloads i)
  | 0 => respects_intFunction none 10 [] (by decide)
  | _ + 1 => respects_intFunction none 11 [.obj int] (by decide)

/-- A `const Line&` and a `Line&`, and a `Point` that is stored into the `start` of both. -/
def lineActions : List (Op Nat Nat) :=
  [ .use (.create (.lref line.addConst) 4) [],
    .use (.create (.lref line) 0) [],
    .use (.create (.obj point) 0) [],
    .use (.setValue { name_ := 1, base_ := 0 } 2 0) [],
    .use (.setValue { name_ := 1, base_ := 0 } 2 1) [] ]

theorem lineActions_honest :
    ∀ op ∈ lineActions, ∀ a, op.action = some a → a.Honest .plain lineGuard := by
  intro op hop a ha
  simp only [lineActions, List.mem_cons, List.not_mem_nil, or_false] at hop
  rcases hop with rfl | rfl | rfl | rfl | rfl <;> cases ha
  · exact fun _ haccess => Bool.noConfusion haccess
  · rintro _ _ x ⟨⟩ (hx : (0, _) ∈ lineGuard.objects)
    simp [mem_lineGuard] at hx
  · exact fun hbinding => Binding.noConfusion hbinding
  · trivial
  · trivial

/-- The session after them. -/
def lineSession : Session Nat Nat :=
  (Session.start id 8).run .plain lineFields intOverloads lineActions

theorem guarded_of_run_line :
    (∀ x ∈ lineGuard.cells, lineSession.world.mem x = x) ∧
    ∀ v ∈ lineSession.held, ∀ U,
      (v.canGet .plain U lineSession.world.reg).2.types_.length < 2 ^ 32 →
      (v.canGet .plain U lineSession.world.reg).1 = true →
      lineGuard.Spares U v.base_.value_ := by
  refine guarded_of_run lineGuard_encloses lineGuard_respects id ?_ lineActions_honest
    (show 5 < 2 ^ 32 by decide)
  constructor
  · intro p hp
    rcases mem_lineGuard.mp hp with rfl | rfl | rfl | rfl <;> decide
  · rintro x (rfl : x = 7)
    decide

example : lineSession.world.mem 7 = 7 ∧ lineSession.world.mem 2 = 0 ∧
    lineSession.world.mem 3 = 1 := ⟨rfl, rfl, rfl⟩

end Line

end ReflCpp
