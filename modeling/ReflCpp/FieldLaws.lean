import ReflCpp.FieldWrapper
import ReflCpp.LastWrite
import ReflCpp.RoundTrip

namespace ReflCpp

open Cpp Blocks LastWrite Runs

variable {L V : Type}

section Traits

variable (t : FieldType L)

@[simp] theorem fieldTraits_isConst : (fieldTraits t).isConst = t.member.isConst := by
  rcases t with ⟨_ | C, T⟩ <;> rw [fieldTraits] <;> split <;> simp_all

@[simp] theorem fieldTraits_type : (fieldTraits t).type = t.member.removeConst := by
  rcases t with ⟨_ | C, T⟩ <;> rw [fieldTraits] <;> split <;> next h =>
    first
    | rfl
    | exact (Cpp.Obj.removeConst_of_not_isConst (by simpa using h)).symm

theorem fieldTraits_class {C : L} (h : t.class_ = some C) :
    (fieldTraits t).isStatic = false ∧
      (fieldTraits t).classType = .leaf false false (.user C) := by
  rcases t with ⟨_ | C', T⟩ <;> cases h
  rw [fieldTraits]
  split <;> exact ⟨rfl, rfl⟩

theorem fieldTraits_static (h : t.class_ = none) : (fieldTraits t).isStatic = true := by
  rcases t with ⟨_ | C', T⟩ <;> cases h
  rw [fieldTraits]
  split <;> rfl

end Traits

variable [DecidableEq L] {P : Program L} {τ : Traits L}

namespace World

variable {w w' w'' : World L V}

/-- The objects of `w` are still there in `w'`, as they were. -/
def Keeps (w w' : World L V) : Prop := w.next ≤ w'.next ∧ ∀ a < w.next, w'.mem a = w.mem a

omit [DecidableEq L] in
theorem keeps_reg (w : World L V) (s : Registry L) : w.Keeps { w with reg := s } :=
  ⟨Nat.le_refl _, fun _ _ => rfl⟩

omit [DecidableEq L] in
theorem Keeps.trans (h : w.Keeps w') (h' : w'.Keeps w'') : w.Keeps w'' := by
  refine ⟨Nat.le_trans h.1 h'.1, fun a ha => ?_⟩
  rw [h'.2 a (Nat.lt_of_lt_of_le ha h.1), h.2 a ha]

omit [DecidableEq L] in
theorem keeps_temporary (w : World L V) (cells : Nat) (a : Option Addr) :
    w.Keeps (w.temporary cells a) :=
  ⟨Nat.le_add_right .., fun _ ha => store_before ha⟩

omit [DecidableEq L] in
theorem Keeps.load (h : w.Keeps w') {a n : Nat} (ha : a + n ≤ w.next) :
    load w'.mem a n = load w.mem a n := by
  apply load_congr
  intro i hi
  exact h.2 _ (Nat.lt_of_lt_of_le (Nat.add_lt_add_left hi a) ha)

end World

section Create

variable {c : WrapperClass L × Binding}

/-- `Create` fails without a trace in memory, or makes a variant of the data, or of a
copy of its cells in fresh memory. -/
theorem createField_cases (T : Ty L) (data : Addr) (w : World L V) (hc : c.2 ≠ .temporary) :
    (∃ e s, createField P c T data w = (.ok (.error e), { w with reg := s }) ∧
      ∀ i, (reflectID P T w.reg).1 ≠ .ok i) ∨
    ∃ v w', createField P c T data w = (.ok (.ok v), w') ∧ w.Keeps w' ∧
      v.base_.wrapper = c.1 ∧
      ∃ a, v.base_.value_ = some a ∧ (c.2 = .direct → a = data) ∧
        ∀ n, c.2 = .copied n → load w'.mem a n = load w.mem data n := by
  unfold createField Variant.createWith
  rcases reflectID P T w.reg with ⟨e | i, s⟩
  · exact .inl ⟨_, s, rfl, nofun⟩
  · refine .inr ?_
    rcases c with ⟨c, n | _ | _⟩
    · refine ⟨_, _, rfl, ⟨Nat.le_add_right .., fun _ ha => store_before ha⟩, rfl, _, rfl,
        nofun, ?_⟩
      intro n hn
      cases hn
      exact load_store_load
    · exact ⟨_, _, rfl, World.keeps_reg w s, rfl, _, rfl, fun _ => rfl, nofun⟩
    · exact absurd rfl hc

end Create

namespace FieldWrapper

variable (f : FieldWrapper L τ) (value instance_ : Variant L)

/-- `CanGet<ClassType&>()` of the instance, where the field has one. -/
def reachable (P : Program L) (s : Registry L) : Bool :=
  f.traits.isStatic || (instance_.canGet P (.lref f.traits.classType) s).1

def target : Option Addr :=
  if f.traits.isStatic then some f.ptr_ else instance_.base_.value_.map (· + f.ptr_)

theorem lvalue_cases (s : Registry L) :
    (∃ s', f.lvalue P instance_ s = (.ok (.error instance_.fault), s') ∧
      f.reachable instance_ P s = false) ∨
    ∃ s', f.lvalue P instance_ s = (.ok (.ok (f.target instance_)), s') ∧
      f.reachable instance_ P s = true ∧
      (f.traits.isStatic = false → instance_.isVoid = false) := by
  unfold lvalue reachable target
  cases f.traits.isStatic with
  | true => exact .inr ⟨s, rfl, rfl, nofun⟩
  | false =>
    rcases instance_.getImpl_cases (P := P) (.lref f.traits.classType) s with
      ⟨s', hcan, himpl⟩ | ⟨D, s', hcan, hD, himpl⟩
    · exact .inl ⟨s', RegM.andThen_of_ok himpl, by rw [hcan]; rfl⟩
    · refine .inr ⟨s', RegM.andThen_of_ok himpl, by rw [hcan]; rfl, fun _ => ?_⟩
      rw [Variant.isVoid, decide_eq_false_iff_not]
      intro hk
      rw [hk] at hD
      cases hD

/-- `CanGet<const FieldType&>()` of the new value, asked after the instance. -/
def settable (P : Program L) (s : Registry L) : Bool :=
  (value.canGet P (.lref f.traits.type.addConst) (f.lvalue P instance_ s).2).1

/-- The instance fails, the new value fails, or there are two sides. -/
theorem sides_cases (s : Registry L) :
    (∃ s', f.sides P value instance_ s = (.ok (.error (.ofVariant instance_.fault)), s') ∧
      f.reachable instance_ P s = false) ∨
    (∃ s', f.sides P value instance_ s = (.ok (.error (.ofVariant value.fault)), s') ∧
      f.reachable instance_ P s = true ∧ f.settable value instance_ P s = false) ∨
    ∃ s', f.sides P value instance_ s =
        (.ok (.ok (f.target instance_, value.base_.value_)), s') ∧
      f.reachable instance_ P s = true ∧ f.settable value instance_ P s = true := by
  rcases f.lvalue_cases (P := P) instance_ s with ⟨s₁, hl, hreach⟩ | ⟨s₁, hl, hreach, _⟩
  · exact .inl ⟨s₁, RegM.andThen_of_ok hl, hreach⟩
  · right
    rw [settable, hl]
    rcases value.getImpl_cases (P := P) (.lref f.traits.type.addConst) s₁ with
      ⟨s', hcan, himpl⟩ | ⟨D, s', hcan, _, himpl⟩
    · refine .inl ⟨s', ?_, hreach, by rw [hcan]⟩
      exact (RegM.andThen_of_ok hl).trans (RegM.andThen_of_ok himpl)
    · refine .inr ⟨s', ?_, hreach, by rw [hcan]⟩
      exact (RegM.andThen_of_ok hl).trans (RegM.andThen_of_ok himpl)

theorem access_cases
    {k : Option Addr → WorldM L V (Except Crash (Except FieldGetError (Variant L)))}
    (w : World L V) :
    (∃ e s, f.access P instance_ k w = (.ok (.error e), { w with reg := s }) ∧
      f.reachable instance_ P w.reg = false) ∨
    f.access P instance_ k w =
      k (f.target instance_) { w with reg := (f.lvalue P instance_ w.reg).2 } := by
  unfold access
  rcases f.lvalue_cases (P := P) instance_ w.reg with
    ⟨s, hl, hreach⟩ | ⟨s, hl, _, hvoid⟩ <;> rw [hl]
  · refine .inl ?_
    split
    · exact ⟨_, w.reg, rfl, hreach⟩
    · exact ⟨_, s, rfl, hreach⟩
  · refine .inr ?_
    rw [if_neg]
    cases hstatic : f.traits.isStatic with
    | true => simp
    | false => simp [hvoid hstatic]

theorem setValue_cases (w : World L V) :
    (∃ e s, f.setValue P value instance_ w = (.ok (.error e), { w with reg := s })) ∨
    (f.traits.isConst = false ∧ ∃ s, f.setValue P value instance_ w =
      (.ok (.ok ()), { w with reg := s }.assign (f.target instance_)
        (w.read f.cells value.base_.value_))) := by
  unfold setValue
  split
  · exact .inl ⟨_, w.reg, rfl⟩
  next hconst =>
    split
    · exact .inl ⟨_, w.reg, rfl⟩
    next =>
      rw [Bool.not_eq_true] at hconst
      rcases f.sides_cases (P := P) value instance_ w.reg with
        ⟨s, hsides, _⟩ | ⟨s, hsides, _⟩ | ⟨s, hsides, _⟩ <;> rw [hsides]
      · exact .inl ⟨_, s, rfl⟩
      · exact .inl ⟨_, s, rfl⟩
      · exact .inr ⟨hconst, s, rfl⟩

/-- What `SetValue` returns where the type of the field allows it. -/
theorem setValue_fst (w : World L V) (hconst : f.traits.isConst = false)
    (hassign : f.isCopyAssignable = true) :
    (f.setValue P value instance_ w).1 =
      if f.reachable instance_ P w.reg then
        if f.settable value instance_ P w.reg then .ok (.ok ())
        else .ok (.error (.ofVariant value.fault))
      else .ok (.error (.ofVariant instance_.fault)) := by
  rw [setValue, hconst, hassign]
  rcases f.sides_cases (P := P) value instance_ w.reg with
    ⟨s, hsides, hreach⟩ | ⟨s, hsides, hreach, hset⟩ | ⟨s, hsides, hreach, hset⟩
  · rw [hsides, hreach]
    rfl
  · rw [hsides, hreach, hset]
    rfl
  · rw [hsides, hreach, hset]
    rfl

theorem setValue_ok_iff (w : World L V) (hconst : f.traits.isConst = false)
    (hassign : f.isCopyAssignable = true) (hreach : f.reachable instance_ P w.reg = true) :
    (f.setValue P value instance_ w).1 = .ok (.ok ()) ↔
      f.settable value instance_ P w.reg = true := by
  rw [f.setValue_fst value instance_ w hconst hassign, hreach, if_pos rfl]
  split
  next hset => exact iff_of_true rfl hset
  next hset => exact iff_of_false nofun hset

section Wrappers

theorem value_binding (hcopy : τ.isCopyConstructible f.type.member = true)
    (hp : f.type.member.isPointer = false) : f.value.2 = .copied f.cells := by
  rw [makeWrapper_eq f.value_eq, cells, traits, fieldTraits_type]
  simp [wrapperBinding, hp, isCopyConstructible_removeConst, hcopy]

theorem ref_binding (hp : f.type.member.isPointer = false) : f.ref.2 = .direct := by
  rw [makeWrapper_eq f.ref_eq, FieldTraits.refType, fieldTraits_isConst, fieldTraits_type]
  split <;> simp [wrapperBinding, hp]

theorem ref_kind : f.ref.1.kind =
    if f.type.member.isConst then .constLvalueRef else .lvalueRef := by
  rw [makeWrapper_eq f.ref_eq, FieldTraits.refType, fieldTraits_isConst, fieldTraits_type]
  split <;> simp [wrapperKind]

end Wrappers

variable (w : World L V)

theorem getValue_cases (hcopy : τ.isCopyConstructible f.type.member = true)
    (hp : f.type.member.isPointer = false) :
    (∃ e w', f.getValue P instance_ w = (.ok (.error e), w') ∧ w.Keeps w' ∧
      ¬ (f.reachable instance_ P w.reg = true ∧
        ∃ i, (reflectID P (.obj f.traits.type) (f.lvalue P instance_ w.reg).2).1 = .ok i)) ∨
    ∃ v w', f.getValue P instance_ w = (.ok (.ok v), w') ∧ w.Keeps w' ∧
      ∃ a, v.base_.value_ = some a ∧
        load w'.mem a f.cells = w.read f.cells (f.target instance_) := by
  have hbinding := f.value_binding hcopy hp
  unfold getValue
  rcases f.access_cases (P := P) instance_ w with ⟨e, s, h, hreach⟩ | h <;> rw [h]
  · exact .inl ⟨e, _, rfl, World.keeps_reg w s, by simp [hreach]⟩
  · have hkeeps := World.keeps_temporary
      { w with reg := (f.lvalue P instance_ w.reg).2 } f.cells (f.target instance_)
    rcases createField_cases (P := P) (.obj f.traits.type) w.next
        (World.temporary { w with reg := (f.lvalue P instance_ w.reg).2 } f.cells
          (f.target instance_)) (by rw [hbinding]; simp) with
      ⟨e, s, hcreate, hreflect⟩ | ⟨v, w', hcreate, hw', _, a, ha, _, hval⟩
    · refine .inl ⟨e, _, hcreate,
        (World.keeps_reg w _).trans (hkeeps.trans (World.keeps_reg _ s)), ?_⟩
      rintro ⟨_, i, hi⟩
      exact hreflect i hi
    · refine .inr ⟨v, w', hcreate, (World.keeps_reg w _).trans (hkeeps.trans hw'), a, ha, ?_⟩
      rw [hval _ hbinding]
      exact load_store_load

theorem getRef_cases (hp : f.type.member.isPointer = false) :
    (∃ e s, f.getRef P instance_ w = (.ok (.error e), { w with reg := s }) ∧
      ¬ (f.reachable instance_ P w.reg = true ∧
        ∃ i, (reflectID P f.traits.refType (f.lvalue P instance_ w.reg).2).1 = .ok i)) ∨
    ∃ v w', f.getRef P instance_ w = (.ok (.ok v), w') ∧ w.Keeps w' ∧
      v.base_.value_ = some (w.place (f.target instance_)) ∧
      v.base_.wrapper.kind =
        if f.type.member.isConst then .constLvalueRef else .lvalueRef := by
  have hbinding := f.ref_binding hp
  unfold getRef
  rcases f.access_cases (P := P) instance_ w with ⟨e, s, h, hreach⟩ | h <;> rw [h]
  · exact .inl ⟨e, s, rfl, by simp [hreach]⟩
  · rcases createField_cases (P := P) f.traits.refType (w.place (f.target instance_))
        { w with reg := (f.lvalue P instance_ w.reg).2 }
        (by rw [hbinding]; simp) with
      ⟨e, s, hcreate, hreflect⟩ | ⟨v, w', hcreate, hw', hwrapper, a, ha, hdirect, _⟩
    · refine .inl ⟨e, s, hcreate, ?_⟩
      rintro ⟨_, i, hi⟩
      exact hreflect i hi
    · refine .inr ⟨v, w', hcreate, (World.keeps_reg w _).trans hw', ?_, ?_⟩
      · rw [ha, hdirect hbinding]
      · rw [hwrapper, ref_kind]

end FieldWrapper

section Runs

variable (P : Program L) (heap : Nat → FieldWrapper L τ) (data_ : TypeData) (obj : Variant L)

abbrev FieldIndex (data_ : TypeData) := Fin data_.fields.length

def fieldAt (i : FieldIndex data_) : FieldWrapper L τ := data_.fields[i].wrapper heap

/-- Where the `i`th field is, for an object at `o`. -/
def fieldAddr (o : Addr) (i : FieldIndex data_) : Addr :=
  if (fieldAt heap data_ i).traits.isStatic then (fieldAt heap data_ i).ptr_
  else o + (fieldAt heap data_ i).ptr_

/-- What the `i`th field holds, cell by cell. -/
def fieldValue (o : Addr) (mem : Addr → V) (i : FieldIndex data_) : List V :=
  load mem (fieldAddr heap data_ o i) (fieldAt heap data_ i).cells

/-- One step of a program that uses the fields of an object.  `write` stores an object
with the cells `x` through what `Get<U>()` gives of the `k`th variant that `GetRef` has
returned. -/
inductive FieldAction (L V : Type) (data_ : TypeData)
  | setValue (i : FieldIndex data_) (value : Variant L)
  | getValue (i : FieldIndex data_)
  | getRef (i : FieldIndex data_)
  | write (k : Nat) (U : Ty L) (x : Nat → V)

structure FieldState (L V : Type) (data_ : TypeData) where
  world : World L V
  refs : List (FieldIndex data_ × Variant L) := []

/-- The type of a reference to what is not const. -/
def isMutableReference : Ty L → Bool
  | .obj _ => false
  | .lref t => !t.isConst
  | .rref t => !t.isConst

namespace FieldState

variable {data_} (st : FieldState L V data_)

/-- The mutable reference that `Get<U>()` gives, if it gives one. -/
def mutableRef (v : Variant L) (U : Ty L) : Option (Option Addr) :=
  match (v.getImpl P U st.world.reg).1 with
  | .ok (.ok g) => if isMutableReference g.result then some g.value else none
  | _ => none

def step : FieldAction L V data_ → FieldState L V data_
  | .setValue i value =>
    { st with world := ((data_.fields[i]).setValue P heap value obj st.world).2 }
  | .getValue i => { st with world := ((data_.fields[i]).getValue P heap obj st.world).2 }
  | .getRef i =>
    match (data_.fields[i]).getRef P heap obj st.world with
    | (.ok (.ok v), w) => { world := w, refs := st.refs ++ [(i, v)] }
    | (_, w) => { st with world := w }
  | .write k U x =>
    match st.refs[k]? with
    | none => st
    | some (i, v) =>
      let w := { st.world with reg := (v.getImpl P U st.world.reg).2 }
      match st.mutableRef P v U with
      | none => { st with world := w }
      | some a => { st with world := w.assign a (load x 0 (fieldAt heap data_ i).cells) }

/-- The field that a step names. -/
def named : FieldAction L V data_ → Option (FieldIndex data_)
  | .setValue i _ => some i
  | .getValue i => some i
  | .getRef i => some i
  | .write k _ _ => st.refs[k]?.map Prod.fst

/-- What a successful `SetValue`, or a write through a mutable reference, stores. -/
def stored : FieldAction L V data_ → Option (FieldIndex data_ × List V)
  | .setValue i value =>
    match ((data_.fields[i]).setValue P heap value obj st.world).1 with
    | .ok (.ok ()) => some (i, st.world.read (fieldAt heap data_ i).cells value.base_.value_)
    | _ => none
  | .getValue _ => none
  | .getRef _ => none
  | .write k U x =>
    match st.refs[k]? with
    | none => none
    | some (i, v) =>
      (st.mutableRef P v U).map fun _ => (i, load x 0 (fieldAt heap data_ i).cells)

def fields (o : Addr) : FieldIndex data_ → List V := fieldValue heap data_ o st.world.mem

end FieldState

/-- The fields are distinct members of `C`, of copyable types that are no pointers, for
an object at `o`. -/
structure DistinctFields (C : L) (o : Addr) : Prop where
  class_eq : ∀ i, (fieldAt heap data_ i).type.class_ = none ∨
    (fieldAt heap data_ i).type.class_ = some C
  copyable : ∀ i, τ.isCopyConstructible (fieldAt heap data_ i).type.member = true
  assignable : ∀ i, (fieldAt heap data_ i).isCopyAssignable = true
  notPointer : ∀ i, (fieldAt heap data_ i).type.member.isPointer = false
  distinct : ∀ i j, i ≠ j → Apart (fieldAddr heap data_ o i) (fieldAt heap data_ i).cells
    (fieldAddr heap data_ o j) (fieldAt heap data_ j).cells

/-- The fields are allocated, and what `GetRef` has returned refers to them, to the
const ones as const. -/
structure FieldInv (o : Addr) (st : FieldState L V data_) : Prop where
  allocated : ∀ i, fieldAddr heap data_ o i + (fieldAt heap data_ i).cells ≤ st.world.next
  refs : ∀ p ∈ st.refs, p.2.base_.value_ = some (fieldAddr heap data_ o p.1) ∧
    p.2.base_.wrapper.kind =
      if (fieldAt heap data_ p.1).type.member.isConst then .constLvalueRef else .lvalueRef

section Step

variable {P heap data_ obj} {C : L} {o : Addr} {st : FieldState L V data_}

theorem target_fieldAt (i : FieldIndex data_) (hobj : obj.base_.value_ = some o) :
    (fieldAt heap data_ i).target obj = some (fieldAddr heap data_ o i) := by
  unfold FieldWrapper.target fieldAddr
  rw [hobj]
  split <;> rfl

omit [DecidableEq L] in
theorem not_isMutableReference {U D : Ty L} (h : decorated .constLvalueRef U = some D) :
    isMutableReference (Variant.getResult U) = false := by
  rcases U with A | A | A
  · rcases A with ⟨c, v, a⟩ | ⟨c, v, A⟩
    · cases c with
      | true => rfl
      | false => cases h
    · cases h
  · cases hc : A.isConst with
    | true => simp [Variant.getResult, isMutableReference, hc]
    | false => simp [decorated, hc] at h
  · cases h

theorem mutableRef_eq_some {v : Variant L} {U : Ty L} {a : Option Addr}
    (h : st.mutableRef P v U = some a) :
    a = v.base_.value_ ∧ v.base_.wrapper.kind ≠ .constLvalueRef := by
  unfold FieldState.mutableRef at h
  rcases v.getImpl_cases (P := P) U st.world.reg with
    ⟨s, _, himpl⟩ | ⟨D, s, _, hD, himpl⟩ <;> rw [himpl] at h
  · cases h
  · simp only [Option.ite_none_right_eq_some, Option.some.injEq] at h
    refine ⟨h.2.symm, fun hk => ?_⟩
    rw [hk] at hD
    rw [not_isMutableReference hD] at h
    cases h.1

theorem fields_assign (hfields : DistinctFields heap data_ C o) (i : FieldIndex data_)
    {xs : List V} (hlen : xs.length = (fieldAt heap data_ i).cells) (s : Registry L) :
    FieldState.fields heap { st with
        world := { st.world with reg := s }.assign (some (fieldAddr heap data_ o i)) xs } o =
      LastWrite.store (st.fields heap o) (some (i, xs)) := by
  funext j
  by_cases h : j = i
  · subst h
    rw [LastWrite.store, Function.update_self, FieldState.fields, fieldValue, ← hlen]
    exact load_store_self
  · have hapart := hfields.distinct i j (Ne.symm h)
    rw [← hlen] at hapart
    rw [LastWrite.store_of_ne h]
    exact load_store_apart hapart

theorem FieldInv.keeps (hinv : FieldInv heap data_ o st) {w : World L V}
    (hw : st.world.Keeps w) :
    FieldInv heap data_ o { st with world := w } ∧
      FieldState.fields heap { st with world := w } o = st.fields heap o := by
  refine ⟨⟨fun i => Nat.le_trans (hinv.allocated i) hw.1, hinv.refs⟩, ?_⟩
  funext i
  exact hw.load (hinv.allocated i)

theorem FieldInv.assign (hinv : FieldInv heap data_ o st) (s : Registry L)
    (a : Option Addr) (xs : List V) :
    FieldInv heap data_ o
      { st with world := { st.world with reg := s }.assign a xs } :=
  ⟨hinv.allocated, hinv.refs⟩

/-- Each step acts on the fields as what it stores. -/
theorem FieldInv.step (hfields : DistinctFields heap data_ C o)
    (hobj : obj.base_.value_ = some o) (hinv : FieldInv heap data_ o st)
    (a : FieldAction L V data_) :
    FieldInv heap data_ o (st.step P heap obj a) ∧
      (st.step P heap obj a).fields heap o =
        LastWrite.store (st.fields heap o) (st.stored P heap obj a) := by
  cases a with
  | setValue i value =>
    have hcases := (fieldAt heap data_ i).setValue_cases (P := P) value obj st.world
    rw [target_fieldAt i hobj] at hcases
    rcases hcases with ⟨e, s, h⟩ | ⟨_, s, h⟩ <;>
      change (data_.fields[i]).setValue P heap value obj st.world = _ at h <;>
      simp only [FieldState.step, FieldState.stored, h]
    · exact hinv.keeps (World.keeps_reg _ s)
    · exact ⟨hinv.assign s _ _, fields_assign hfields i length_load s⟩
  | getValue i =>
    rcases (fieldAt heap data_ i).getValue_cases (P := P) obj st.world (hfields.copyable i)
        (hfields.notPointer i) with ⟨e, w, h, hw, _⟩ | ⟨v, w, h, hw, _⟩ <;>
      change (data_.fields[i]).getValue P heap obj st.world = _ at h <;>
      simp only [FieldState.step, FieldState.stored, h] <;>
      exact hinv.keeps hw
  | getRef i =>
    have hcases := (fieldAt heap data_ i).getRef_cases (P := P) obj st.world
      (hfields.notPointer i)
    rw [target_fieldAt i hobj] at hcases
    rcases hcases with ⟨e, s, h, _⟩ | ⟨v, w, h, hw, hv, hkind⟩ <;>
      change (data_.fields[i]).getRef P heap obj st.world = _ at h <;>
      simp only [FieldState.step, FieldState.stored, h]
    · exact hinv.keeps (World.keeps_reg _ s)
    · obtain ⟨hinv', heq⟩ := hinv.keeps hw
      refine ⟨⟨hinv'.allocated, ?_⟩, heq⟩
      intro p hp
      rw [List.mem_append, List.mem_singleton] at hp
      rcases hp with hp | rfl
      · exact hinv.refs p hp
      · exact ⟨hv, hkind⟩
  | write k U x =>
    simp only [FieldState.step, FieldState.stored]
    cases hk : st.refs[k]? with
    | none => exact ⟨hinv, rfl⟩
    | some p =>
      obtain ⟨i, v⟩ := p
      dsimp only
      cases hm : st.mutableRef P v U with
      | none => exact hinv.keeps (World.keeps_reg _ _)
      | some a =>
        obtain ⟨rfl, _⟩ := mutableRef_eq_some hm
        have hv : v.base_.value_ = some (fieldAddr heap data_ o i) :=
          (hinv.refs (i, v) (List.mem_of_getElem? hk)).1
        rw [hv]
        exact ⟨hinv.assign _ _ _, fields_assign hfields i length_load _⟩

theorem stored_not_const (hinv : FieldInv heap data_ o st) {a : FieldAction L V data_}
    {p : FieldIndex data_ × List V} (h : st.stored P heap obj a = some p) :
    (fieldAt heap data_ p.1).type.member.isConst = false ∧ st.named a = some p.1 := by
  cases a with
  | setValue i value =>
    rcases (fieldAt heap data_ i).setValue_cases (P := P) value obj st.world with
      ⟨e, s, hset⟩ | ⟨hconst, s, hset⟩ <;>
      change (data_.fields[i]).setValue P heap value obj st.world = _ at hset <;>
      simp only [FieldState.stored, hset] at h
    · cases h
    · cases h
      rw [FieldWrapper.traits, fieldTraits_isConst] at hconst
      exact ⟨hconst, rfl⟩
  | getValue i => cases h
  | getRef i => cases h
  | write k U x =>
    simp only [FieldState.stored] at h
    cases hk : st.refs[k]? with
    | none => rw [hk] at h; cases h
    | some q =>
      obtain ⟨i, v⟩ := q
      rw [hk] at h
      obtain ⟨a, hm, rfl⟩ := Option.map_eq_some_iff.mp h
      have hkind := (hinv.refs (i, v) (List.mem_of_getElem? hk)).2
      refine ⟨?_, by rw [FieldState.named, hk]; rfl⟩
      cases hc : (fieldAt heap data_ i).type.member.isConst with
      | false => rfl
      | true =>
        dsimp only at hkind
        rw [hc, if_pos rfl] at hkind
        exact absurd hkind (mutableRef_eq_some hm).2

/-- The fields of an object that `Create` copies are in the memory of the copy. -/
theorem allocated_of_create {w w' : World L V} {data : Addr}
    (hfields : ∀ i, (fieldAt heap data_ i).type.class_ = some C ∨
      (fieldAt heap data_ i).type.class_ = none ∧
        (fieldAt heap data_ i).ptr_ + (fieldAt heap data_ i).cells ≤ w.next)
    (hcopy : τ.isCopyConstructible (.leaf false false (.user C)) = true)
    (hcreate : Variant.create P τ (.obj (.leaf false false (.user C))) data w =
      some (.ok obj, w')) :
    obj.base_.value_ = some w.next ∧
      ∀ i, fieldAddr heap data_ w.next i + (fieldAt heap data_ i).cells ≤ w'.next := by
  have hvalue := value_of_create hcreate
  simp only [wrapperBinding, Cpp.Obj.isPointer_leaf, hcopy, Bool.not_false, Bool.and_self,
    if_true, Traits.cells, Prod.mk.injEq] at hvalue
  refine ⟨hvalue.1, fun i => ?_⟩
  rw [hvalue.2.2, fieldAddr]
  rcases hfields i with hclass | ⟨hstatic, hle⟩
  · have hinside := (fieldAt heap data_ i).inside C hclass
    rw [FieldWrapper.cells, FieldWrapper.traits, fieldTraits_type, Traits.cells_removeConst,
      (fieldTraits_class _ hclass).1, if_neg Bool.false_ne_true, Nat.add_assoc]
    exact Nat.add_le_add_left hinside _
  · rw [FieldWrapper.traits, fieldTraits_static _ hstatic, if_pos rfl]
    exact Nat.le_trans hle (Nat.le_add_right ..)

theorem DistinctFields.reachable (hfields : DistinctFields heap data_ C o)
    (i : FieldIndex data_) {s : Registry L}
    (hget : (obj.canGet P (.lref (.leaf false false (.user C))) s).1 = true) :
    (fieldAt heap data_ i).reachable obj P s = true := by
  unfold FieldWrapper.reachable FieldWrapper.traits
  rcases hfields.class_eq i with h | h
  · rw [fieldTraits_static _ h, Bool.true_or]
  · rw [(fieldTraits_class _ h).2, hget, Bool.or_true]

end Step

section Law

variable (w : World L V) (as : List (FieldAction L V data_))

def runFields : FieldState L V data_ := as.foldl (FieldState.step P heap obj) { world := w }

/-- The last value stored into a field in a run, or else the initial one. -/
def lastValue (o : Addr) (i : FieldIndex data_) : List V :=
  (lastStored (log (FieldState.step P heap obj) (FieldState.stored P heap obj)
    { world := w } as) i).getD (fieldValue heap data_ o w.mem i)

/-- What holds in a state `st` of a program that uses the fields of an object of class
`C` at `o`.  The registry in which a value is asked for, or a type reflected, is the one
that `Get<C&>()` leaves. -/
structure FieldLaw (C : L) (o : Addr) (initial last : FieldIndex data_ → List V)
    (st : FieldState L V data_) : Prop where
  getValue_last : ∀ i : FieldIndex data_,
    (obj.canGet P (.lref (.leaf false false (.user C))) st.world.reg).1 = true →
    (∃ id, (reflectID P (.obj (fieldAt heap data_ i).traits.type)
      ((fieldAt heap data_ i).lvalue P obj st.world.reg).2).1 = .ok id) →
    ∃ v w a, (data_.fields[i]).getValue P heap obj st.world = (.ok (.ok v), w) ∧
      v.base_.value_ = some a ∧ load w.mem a (fieldAt heap data_ i).cells = last i
  getRef_field : ∀ i : FieldIndex data_,
    (obj.canGet P (.lref (.leaf false false (.user C))) st.world.reg).1 = true →
    (∃ id, (reflectID P (fieldAt heap data_ i).traits.refType
      ((fieldAt heap data_ i).lvalue P obj st.world.reg).2).1 = .ok id) →
    ∃ v w, (data_.fields[i]).getRef P heap obj st.world = (.ok (.ok v), w) ∧
      v.base_.value_ = some (fieldAddr heap data_ o i) ∧
      v.base_.wrapper.kind =
        (if (fieldAt heap data_ i).traits.isConst then .constLvalueRef else .lvalueRef) ∧
      fieldValue heap data_ o w.mem i = last i
  setValue_error : ∀ (i : FieldIndex data_) value e,
    ((data_.fields[i]).setValue P heap value obj st.world).1 = .ok (.error e) →
    ((data_.fields[i]).setValue P heap value obj st.world).2.mem = st.world.mem
  step_frame : ∀ a j, st.named a ≠ some j →
    (st.step P heap obj a).fields heap o j = st.fields heap o j
  const_initial : ∀ i, (fieldAt heap data_ i).traits.isConst = true →
    st.fields heap o i = initial i
  setValue_iff : ∀ (i : FieldIndex data_) value,
    (fieldAt heap data_ i).traits.isConst = false →
    (obj.canGet P (.lref (.leaf false false (.user C))) st.world.reg).1 = true →
    (((data_.fields[i]).setValue P heap value obj st.world).1 = .ok (.ok ()) ↔
      (value.canGet P (.lref (fieldAt heap data_ i).traits.type.addConst)
        ((fieldAt heap data_ i).lvalue P obj st.world.reg).2).1 = true)

end Law

section Clauses

variable {P heap data_ obj} {C : L} {o : Addr} {st : FieldState L V data_}

theorem getValue_field (hfields : DistinctFields heap data_ C o)
    (hobj : obj.base_.value_ = some o) (i : FieldIndex data_)
    (hget : (obj.canGet P (.lref (.leaf false false (.user C))) st.world.reg).1 = true)
    (hreflect : ∃ id, (reflectID P (.obj (fieldAt heap data_ i).traits.type)
      ((fieldAt heap data_ i).lvalue P obj st.world.reg).2).1 = .ok id) :
    ∃ v w a, (data_.fields[i]).getValue P heap obj st.world = (.ok (.ok v), w) ∧
      v.base_.value_ = some a ∧
      load w.mem a (fieldAt heap data_ i).cells = st.fields heap o i := by
  rcases (fieldAt heap data_ i).getValue_cases (P := P) obj st.world (hfields.copyable i)
      (hfields.notPointer i) with ⟨e, w', _, _, hnot⟩ | ⟨v, w', h, _, a, ha, hval⟩
  · exact absurd ⟨hfields.reachable i hget, hreflect⟩ hnot
  · rw [target_fieldAt i hobj] at hval
    exact ⟨v, w', a, h, ha, hval⟩

theorem FieldInv.getRef_field (hinv : FieldInv heap data_ o st)
    (hfields : DistinctFields heap data_ C o)
    (hobj : obj.base_.value_ = some o) (i : FieldIndex data_)
    (hget : (obj.canGet P (.lref (.leaf false false (.user C))) st.world.reg).1 = true)
    (hreflect : ∃ id, (reflectID P (fieldAt heap data_ i).traits.refType
      ((fieldAt heap data_ i).lvalue P obj st.world.reg).2).1 = .ok id) :
    ∃ v w, (data_.fields[i]).getRef P heap obj st.world = (.ok (.ok v), w) ∧
      v.base_.value_ = some (fieldAddr heap data_ o i) ∧
      v.base_.wrapper.kind =
        (if (fieldAt heap data_ i).traits.isConst then .constLvalueRef else .lvalueRef) ∧
      fieldValue heap data_ o w.mem i = st.fields heap o i := by
  rcases (fieldAt heap data_ i).getRef_cases (P := P) obj st.world
      (hfields.notPointer i) with ⟨e, s, _, hnot⟩ | ⟨v, w', h, hw', hv, hkind⟩
  · exact absurd ⟨hfields.reachable i hget, hreflect⟩ hnot
  · rw [target_fieldAt i hobj] at hv
    rw [← fieldTraits_isConst] at hkind
    exact ⟨v, w', h, hv, hkind, hw'.load (hinv.allocated i)⟩

theorem mem_of_setValue_error {i : FieldIndex data_} {value : Variant L} {w : World L V}
    {e : FieldSetError}
    (he : ((data_.fields[i]).setValue P heap value obj w).1 = .ok (.error e)) :
    ((data_.fields[i]).setValue P heap value obj w).2.mem = w.mem := by
  rcases (fieldAt heap data_ i).setValue_cases (P := P) value obj w with
    ⟨e', s, h⟩ | ⟨_, s, h⟩ <;>
    change (data_.fields[i]).setValue P heap value obj _ = _ at h <;> rw [h] at he ⊢
  cases he

theorem FieldInv.frame (hinv : FieldInv heap data_ o st)
    (hfields : DistinctFields heap data_ C o) (hobj : obj.base_.value_ = some o)
    {a : FieldAction L V data_} {j : FieldIndex data_} (hj : st.named a ≠ some j) :
    (st.step P heap obj a).fields heap o j = st.fields heap o j := by
  rw [(hinv.step (P := P) hfields hobj a).2]
  cases hstored : st.stored P heap obj a with
  | none => rfl
  | some p =>
    have hne : j ≠ p.1 := by
      rintro rfl
      exact hj (stored_not_const hinv hstored).2
    exact LastWrite.store_of_ne hne

/-- Nothing in a run stores into a const field. -/
theorem lastValue_const {w : World L V}
    (hstep : ∀ (st : FieldState L V data_) a, FieldInv heap data_ o st →
      FieldInv heap data_ o (st.step P heap obj a))
    (hinit : FieldInv heap data_ o ({ world := w } : FieldState L V data_))
    (as : List (FieldAction L V data_)) {i : FieldIndex data_}
    (hconst : (fieldAt heap data_ i).traits.isConst = true) :
    lastValue P heap data_ obj w as o i = fieldValue heap data_ o w.mem i := by
  rw [FieldWrapper.traits, fieldTraits_isConst] at hconst
  rw [lastValue, lastStored_eq_none, Option.getD_none]
  refine log_forall (Q := fun p => p.1 ≠ i) hstep ?_ as _ hinit
  rintro st a p hinv hstored rfl
  rw [(stored_not_const hinv hstored).1] at hconst
  cases hconst

end Clauses

theorem fieldLaw_of_run {C : L} {o : Addr} {w : World L V}
    (hfields : DistinctFields heap data_ C o) (hobj : obj.base_.value_ = some o)
    (halloc : ∀ i, fieldAddr heap data_ o i + (fieldAt heap data_ i).cells ≤ w.next)
    (as : List (FieldAction L V data_)) :
    FieldLaw P heap data_ obj C o (fieldValue heap data_ o w.mem)
      (lastValue P heap data_ obj w as o) (runFields P heap data_ obj w as) := by
  have hstep : ∀ (st : FieldState L V data_) a, FieldInv heap data_ o st →
      FieldInv heap data_ o (st.step P heap obj a) :=
    fun st a hinv => (hinv.step hfields hobj a).1
  have hinit : FieldInv heap data_ o ({ world := w } : FieldState L V data_) :=
    ⟨halloc, by simp⟩
  have hinv : FieldInv heap data_ o (runFields P heap data_ obj w as) :=
    inv_run hstep as _ hinit
  have hlast : (runFields P heap data_ obj w as).fields heap o =
      lastValue P heap data_ obj w as o := by
    funext i
    exact view_run (fun st => st.fields heap o) hstep
      (fun st a hinv => (hinv.step hfields hobj a).2) as _ hinit i
  exact {
    getValue_last := fun i hget hreflect =>
      hlast ▸ getValue_field hfields hobj i hget hreflect
    getRef_field := fun i hget hreflect =>
      hlast ▸ hinv.getRef_field hfields hobj i hget hreflect
    setValue_error := fun _ _ _ he => mem_of_setValue_error he
    step_frame := fun _ _ hj => hinv.frame hfields hobj hj
    const_initial := fun i hconst =>
      (congrFun hlast i).trans (lastValue_const hstep hinit as hconst)
    setValue_iff := fun i value hconst hget =>
      (fieldAt heap data_ i).setValue_ok_iff value obj _ hconst (hfields.assignable i)
        (hfields.reachable i hget) }

end Runs

section Point

/-- A class of two cells. -/
abbrev point : Obj Nat := .leaf false false (.user 0)

/-- A class of four cells. -/
abbrev line : Obj Nat := .leaf false false (.user 1)

/-- `int x` at offset 1 and `static const int origin` at address 5. -/
def pointFields : Nat → FieldWrapper Nat .plain
  | 0 => ⟨⟨some 0, int⟩, 1, by rintro _ ⟨⟩; decide, true, _, rfl, _, rfl⟩
  | _ => ⟨⟨none, int.addConst⟩, 5, nofun, true, _, rfl, _, rfl⟩

def pointData : TypeData where
  name := "Point"
  fields := [{ name_ := 1, base_ := 0 }, { name_ := 2, base_ := 1 }]

def pointVariant : Variant Nat where
  base_ := { wrapper := ⟨.value, point⟩, value_ := some 8 }
  type_ := ⟨1⟩

def pointWorld : World Nat Nat where
  reg := (reflectID .plain (.obj point) .init).2
  mem := Blocks.store freshWorld.mem 8 [42, 42]
  next := 10

theorem forall_pointIndex {p : FieldIndex pointData → Prop} (h₀ : p (0 : Fin 2))
    (h₁ : p (1 : Fin 2)) : ∀ i, p i
  | ⟨0, _⟩ => h₀
  | ⟨1, _⟩ => h₁

theorem pointVariant_create : Variant.create .plain .plain (.obj point) 0 freshWorld =
    some (.ok pointVariant, pointWorld) := rfl

theorem pointFields_distinct : DistinctFields pointFields pointData 0 8 where
  class_eq := forall_pointIndex (.inr rfl) (.inl rfl)
  copyable := forall_pointIndex rfl rfl
  assignable := forall_pointIndex rfl rfl
  notPointer := forall_pointIndex rfl rfl
  distinct := forall_pointIndex
    (forall_pointIndex (fun h => absurd rfl h) fun _ => .inr (show 5 + 1 ≤ 9 by decide))
    (forall_pointIndex (fun _ => .inl (show 5 + 1 ≤ 9 by decide)) fun h => absurd rfl h)

def pointRun : List (FieldAction Nat Nat pointData) :=
  [.getRef (0 : Fin 2), .write 0 (.lref int) fun _ => 7]

theorem fieldLaw_point :
    FieldLaw .plain pointFields pointData pointVariant 0 8
      (fieldValue pointFields pointData 8 pointWorld.mem)
      (lastValue .plain pointFields pointData pointVariant pointWorld pointRun 8)
      (runFields .plain pointFields pointData pointVariant pointWorld pointRun) := by
  have hobj : pointVariant.base_.value_ = some 8 ∧ ∀ i,
      fieldAddr pointFields pointData 8 i + (fieldAt pointFields pointData i).cells ≤ 10 := by
    refine allocated_of_create (w := freshWorld) ?_ rfl pointVariant_create
    exact forall_pointIndex (.inl rfl) (.inr ⟨rfl, show 5 + 1 ≤ 8 by decide⟩)
  exact fieldLaw_of_run .plain pointFields pointData pointVariant pointFields_distinct
    hobj.1 hobj.2 pointRun

example : lastValue .plain pointFields pointData pointVariant pointWorld pointRun 8
    (0 : Fin 2) = [7] := rfl

end Point

end ReflCpp
