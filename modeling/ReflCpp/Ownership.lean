import ReflCpp.Acceptance
import ReflCpp.Compatibility
import ReflCpp.FieldLaws

namespace ReflCpp

open Cpp Blocks
open LastWrite hiding store

variable {L V : Type}

/-- What `Variant::Create` is asked to make of an object of type `C`. -/
inductive CreateForm
  | value | ref | constRef | pointer | constPointer
  deriving DecidableEq

def CreateForm.type (C : Obj L) : CreateForm → Ty L
  | .value => .obj C
  | .ref => .lref C
  | .constRef => .lref C.addConst
  | .pointer => .obj (.ptr false false C)
  | .constPointer => .obj (.ptr false false C.addConst)

/-- A step of a program that uses `n` objects and variants of them; `j` is the place of
a variant in the list of those made so far, and `x` gives the cells of what is stored. -/
inductive StoreAction (L V : Type) (n : Nat)
  | create (form : CreateForm) (o : Fin n) : StoreAction L V n
  | copy (j : Nat) : StoreAction L V n
  | write (j : Nat) (U : Ty L) (x : Nat → V) : StoreAction L V n
  | assign (o : Fin n) (x : Nat → V) : StoreAction L V n

/-- A variant of a run, and how it, or the one that it is a copy of, was created: from
which object, what the object held then, and how many variants there were before. -/
structure HeldVariant (L V : Type) (n : Nat) where
  variant : Variant L
  form : CreateForm
  original : Fin n
  initial : List V
  family : Nat

/-- What a variant denotes: the object itself, or what its family owns. -/
def HeldVariant.denotes {n : Nat} (h : HeldVariant L V n) : Fin n ⊕ Nat :=
  if h.form = .value then .inr h.family else .inl h.original

structure StoreState (L V : Type) (n : Nat) where
  world : World L V
  held : List (HeldVariant L V n) := []

variable [DecidableEq L] (P : Program L) (τ : Traits L) (C : Obj L) {n : Nat}

/-- The objects are at the beginning of the memory, one after the other. -/
def objectAt (o : Fin n) : Addr := o * τ.cells C

/-- The `C` at `a`. -/
def World.objectOf (w : World L V) (a : Addr) : List V := load w.mem a (τ.cells C)

/-- Where a write through what `Get<U>()` gives goes, if it gives a reference or pointer
that can be written through. -/
def Variant.mutableGet (v : Variant L) (U : Ty L) (s : Registry L) : Option (Option Addr) :=
  match (v.getImpl P U s).1 with
  | .ok (.ok g) => if accessConst g.result then none else some g.value
  | _ => none

namespace StoreState

variable (st : StoreState L V n)

def step : StoreAction L V n → StoreState L V n
  | .create form o =>
    match Variant.create P τ (form.type C) (objectAt τ C o) st.world with
    | none => st
    | some (.error _, w) => { st with world := w }
    | some (.ok v, w) =>
      { world := w, held := st.held ++
          [{ variant := v, form := form, original := o,
             initial := st.world.objectOf τ C (objectAt τ C o),
             family := st.held.length }] }
  | .copy j =>
    match st.held[j]? with
    | none => st
    | some h => { st with held := st.held ++ [h] }
  | .write j U x =>
    match st.held[j]? with
    | none => st
    | some h =>
      let w := { st.world with reg := (h.variant.getImpl P U st.world.reg).2 }
      match h.variant.mutableGet P U st.world.reg with
      | none => { st with world := w }
      | some a => { st with world := w.assign a (load x 0 (τ.cells C)) }
  | .assign o x =>
    { st with world := st.world.assign (some (objectAt τ C o)) (load x 0 (τ.cells C)) }

/-- What a write stores in the object, or in what the family owns. -/
def stored : StoreAction L V n → Option ((Fin n ⊕ Nat) × List V)
  | .create _ _ => none
  | .copy _ => none
  | .write j U x =>
    match st.held[j]? with
    | none => none
    | some h =>
      (h.variant.mutableGet P U st.world.reg).map fun _ =>
        (h.denotes, load x 0 (τ.cells C))
  | .assign o x => some (.inl o, load x 0 (τ.cells C))

end StoreState

section Law

/-- What holds after a run that has stored what `last` says, beginning with `w`: a variant
made by reference or pointer gives the object as it is now, and one made by value what was
last written through it or through one of its copies, or else what the object held when it
was created; and writes through the one kind do not change what the other gives. -/
structure OwnershipLaw (w : World L V) (last : Fin n ⊕ Nat → Option (List V))
    (st : StoreState L V n) : Prop where
  made : ∀ form (o : Fin n),
    (form = .value → τ.constructibleFrom C false C.isVolatile true = true) →
    (∃ id, (reflectID P (form.type C) st.world.reg).1 = .ok id) →
    ∃ h, (st.step P τ C (.create form o)).held = st.held ++ [h] ∧ h.form = form ∧
      h.original = o ∧ h.initial = st.world.objectOf τ C (objectAt τ C o)
  readable : Passes .init w.reg → st.world.reg.types_.length < 2 ^ 32 → ∀ h ∈ st.held,
    ∃ g, (h.variant.getImpl P (h.form.type C) st.world.reg).1 = .ok (.ok g)
  reference : ∀ h ∈ st.held, h.form ≠ .value → ∀ U g,
    (h.variant.getImpl P U st.world.reg).1 = .ok (.ok g) →
    st.world.read (τ.cells C) g.value = st.world.objectOf τ C (objectAt τ C h.original)
  value : ∀ h ∈ st.held, h.form = .value → ∀ U g,
    (h.variant.getImpl P U st.world.reg).1 = .ok (.ok g) →
    st.world.read (τ.cells C) g.value = (last (.inr h.family)).getD h.initial
  original : ∀ o : Fin n, st.world.objectOf τ C (objectAt τ C o) =
    (last (.inl o)).getD (w.objectOf τ C (objectAt τ C o))
  write_value : ∀ j h, st.held[j]? = some h → h.form = .value → ∀ U x (o : Fin n),
    (st.step P τ C (.write j U x)).world.objectOf τ C (objectAt τ C o) =
      st.world.objectOf τ C (objectAt τ C o)
  write_original : ∀ a (o : Fin n) xs, st.stored P τ C a = some (.inl o, xs) →
    ∀ h ∈ st.held, h.form = .value → ∀ U g,
    (h.variant.getImpl P U st.world.reg).1 = .ok (.ok g) →
    (st.step P τ C a).world.read (τ.cells C) g.value = st.world.read (τ.cells C) g.value

end Law

section Create

variable {P τ C} (hC : C.isPointer = false) (hcopy : τ.isCopyConstructible C = true)

include hC hcopy in
omit [DecidableEq L] in
theorem form_binding (form : CreateForm) :
    wrapperBinding τ (form.type C) =
      if form = .value then .copied (τ.cells C) else .direct := by
  cases form <;> simp [CreateForm.type, wrapperBinding, hC, hcopy]

include hC hcopy in
/-- `Create` compiles, where by value a copy can be made of an lvalue that is not const. -/
theorem isSome_makeWrapper_form (hc : C.isConst = false) {form : CreateForm}
    (hvalue : form = .value → τ.constructibleFrom C false C.isVolatile true = true) :
    (makeWrapper τ (form.type C)).isSome := by
  have hvoid : Obj.isVoid C = false ∧ Obj.isVoid C.addConst = false := by
    rcases C with ⟨c, v, a⟩ | ⟨c, v, t⟩
    · cases a <;> first | exact ⟨rfl, rfl⟩ | cases hcopy
    · exact ⟨rfl, rfl⟩
  have hpointer : C.addConst.isPointer = false := by rw [Cpp.Obj.isPointer_addConst, hC]
  have hclean := Cpp.Obj.removeConst_of_not_isConst hc
  cases form with
  | value =>
    simp [CreateForm.type, makeWrapper, makeValueWrapper, Cpp.Ty.removeReference, hvoid.1, hC,
      hcopy, hc, hclean, removePointer_of_not_isPointer hC, hvalue rfl]
  | ref =>
    simp [CreateForm.type, makeWrapper, makeLValueRefWrapper, Cpp.Ty.removeReference, hvoid.1, hc,
      hclean, removePointer_of_not_isPointer hC, bindLValue_self]
  | constRef =>
    have hself : C.addConst.removeConst.addConst = C.addConst :=
      Cpp.Obj.addConst_removeConst (by simp)
    simp [CreateForm.type, makeWrapper, makeLValueRefWrapper, Cpp.Ty.removeReference, hvoid.2,
      removePointer_of_not_isPointer hpointer, hself, bindLValue_self]
  | pointer => simp [CreateForm.type, makeWrapper, Cpp.Ty.removeReference, Obj.isVoid]
  | constPointer => simp [CreateForm.type, makeWrapper, Cpp.Ty.removeReference, Obj.isVoid]

include hC hcopy in
/-- A variant by value holds a copy in fresh memory; the others hold where the object is. -/
theorem create_cases (form : CreateForm) (data : Addr) (w : World L V) :
    (Variant.create P τ (form.type C) data w = none ∧
      makeWrapper τ (form.type C) = none) ∨
    (∃ e s, Variant.create P τ (form.type C) data w = some (.error e, { w with reg := s }) ∧
      Passes w.reg s ∧ ∀ i, (reflectID P (form.type C) w.reg).1 ≠ .ok i) ∨
    ∃ v w', Variant.create P τ (form.type C) data w = some (.ok v, w') ∧
      Passes w.reg w'.reg ∧
      (form = .value → v.base_.value_ = some w.next ∧ w'.next = w.next + τ.cells C ∧
        w'.mem = store w.mem w.next (w.objectOf τ C data)) ∧
      (form ≠ .value → v.base_.value_ = some data ∧ w'.next = w.next ∧ w'.mem = w.mem) := by
  unfold Variant.create
  cases hmake : makeWrapper τ (form.type C) with
  | none => exact .inl ⟨rfl, rfl⟩
  | some c =>
    right
    have hpass := passes_reflectID (P := P) (form.type C) w.reg
    have hbinding : c.2 = if form = .value then .copied (τ.cells C) else .direct := by
      rw [makeWrapper_eq hmake]
      exact form_binding hC hcopy form
    rw [Option.map_some]
    unfold Variant.createWith
    rcases hreflect : reflectID P (form.type C) w.reg with ⟨e | i, s⟩ <;>
      rw [hreflect] at hpass
    · exact .inl ⟨e, s, rfl, hpass, nofun⟩
    · right
      obtain ⟨c, b⟩ := c
      dsimp only at hbinding
      subst hbinding
      by_cases hform : form = .value
      · rw [if_pos hform]
        exact ⟨_, _, rfl, hpass, fun _ => ⟨rfl, rfl, rfl⟩, fun h => absurd hform h⟩
      · rw [if_neg hform]
        exact ⟨_, _, rfl, hpass, fun h => absurd h hform, fun _ => ⟨rfl, rfl, rfl⟩⟩

end Create

section Invariant

omit [DecidableEq L] in
theorem objectAt_le (o : Fin n) : objectAt τ C o + τ.cells C ≤ n * τ.cells C := by
  rw [objectAt, ← Nat.succ_mul]
  exact Nat.mul_le_mul_right _ o.isLt

omit [DecidableEq L] in
theorem apart_objectAt {o o' : Fin n} (h : o ≠ o') :
    Apart (objectAt τ C o) (τ.cells C) (objectAt τ C o') (τ.cells C) := by
  rw [Apart, objectAt, objectAt, ← Nat.succ_mul, ← Nat.succ_mul]
  rcases Nat.lt_or_gt_of_ne (Fin.val_ne_of_ne h) with hlt | hlt
  · exact .inl (Nat.mul_le_mul_right _ hlt)
  · exact .inr (Nat.mul_le_mul_right _ hlt)

/-- Two variants by value share what they hold, or what they hold is apart. -/
structure SameOrApart (h h' : HeldVariant L V n) : Prop where
  same : h.family = h'.family → h.variant.base_.value_ = h'.variant.base_.value_
  apart : h.family ≠ h'.family → ∀ a a', h.variant.base_.value_ = some a →
    h'.variant.base_.value_ = some a' → Apart a (τ.cells C) a' (τ.cells C)

/-- The variants by value of one family hold one block of cells, beyond the objects, and
those of different families blocks that are apart; the others hold an object. -/
structure Owns (w : World L V) (log : List ((Fin n ⊕ Nat) × List V))
    (st : StoreState L V n) : Prop where
  allocated : n * τ.cells C ≤ st.world.next
  passes : Passes w.reg st.world.reg
  created : Passes .init w.reg → ∀ h ∈ st.held,
    Created P τ st.world.reg (h.form.type C) h.variant
  original : ∀ o : Fin n, st.world.objectOf τ C (objectAt τ C o) =
    (lastStored log (.inl o)).getD (w.objectOf τ C (objectAt τ C o))
  reference : ∀ h ∈ st.held, h.form ≠ .value →
    h.variant.base_.value_ = some (objectAt τ C h.original)
  value : ∀ h ∈ st.held, h.form = .value → ∃ a, h.variant.base_.value_ = some a ∧
    n * τ.cells C ≤ a ∧ a + τ.cells C ≤ st.world.next ∧
    st.world.objectOf τ C a = (lastStored log (.inr h.family)).getD h.initial
  family : ∀ h ∈ st.held, ∀ h' ∈ st.held, h.form = .value → h'.form = .value →
    SameOrApart τ C h h'
  family_lt : ∀ h ∈ st.held, h.family < st.held.length
  log_lt : ∀ p ∈ log, ∀ r, p.1 = .inr r → r < st.held.length

variable {P τ C} {w : World L V} {log : List ((Fin n ⊕ Nat) × List V)}
  {st : StoreState L V n}

omit [DecidableEq L] in
theorem SameOrApart.symm {h h' : HeldVariant L V n} (hs : SameOrApart τ C h h') :
    SameOrApart τ C h' h where
  same := fun hf => (hs.same hf.symm).symm
  apart := fun hf a a' ha ha' => (hs.apart (Ne.symm hf) a' a ha' ha).symm

theorem owns_init (hn : n * τ.cells C ≤ w.next) :
    Owns P τ C w [] ({ world := w } : StoreState L V n) where
  allocated := hn
  passes := .refl
  created := by simp
  original := fun _ => rfl
  reference := by simp
  value := by simp
  family := by simp
  family_lt := by simp
  log_lt := by simp

theorem Owns.keeps (hinv : Owns P τ C w log st) {w' : World L V}
    (hpass : Passes st.world.reg w'.reg) (hkeeps : st.world.Keeps w') :
    Owns P τ C w log { st with world := w' } :=
  { hinv with
    allocated := Nat.le_trans hinv.allocated hkeeps.1
    passes := hinv.passes.trans hpass
    created := fun hw h hh => (hinv.created hw h hh).passes hpass
    original := fun o =>
      (hkeeps.load (Nat.le_trans (objectAt_le τ C o) hinv.allocated)).trans (hinv.original o)
    value := by
      intro h hh hform
      obtain ⟨a, ha, hle, hlt, hmem⟩ := hinv.value h hh hform
      exact ⟨a, ha, hle, Nat.le_trans hlt hkeeps.1, (hkeeps.load hlt).trans hmem⟩ }

/-- One more variant. -/
theorem Owns.hold (hinv : Owns P τ C w log st) {h : HeldVariant L V n}
    (hcreated : Passes .init w.reg → Created P τ st.world.reg (h.form.type C) h.variant)
    (href : h.form ≠ .value → h.variant.base_.value_ = some (objectAt τ C h.original))
    (hvalue : h.form = .value → ∃ a, h.variant.base_.value_ = some a ∧
      n * τ.cells C ≤ a ∧ a + τ.cells C ≤ st.world.next ∧
      st.world.objectOf τ C a = (lastStored log (.inr h.family)).getD h.initial)
    (hfamily : ∀ h' ∈ st.held, h.form = .value → h'.form = .value → SameOrApart τ C h h')
    (hle : h.family ≤ st.held.length) :
    Owns P τ C w log { st with held := st.held ++ [h] } where
  allocated := hinv.allocated
  passes := hinv.passes
  created := by
    intro hw h' hh
    rw [List.mem_append, List.mem_singleton] at hh
    rcases hh with hh | rfl
    · exact hinv.created hw h' hh
    · exact hcreated hw
  original := hinv.original
  reference := by
    intro h' hh
    rw [List.mem_append, List.mem_singleton] at hh
    rcases hh with hh | rfl
    · exact hinv.reference h' hh
    · exact href
  value := by
    intro h' hh
    rw [List.mem_append, List.mem_singleton] at hh
    rcases hh with hh | rfl
    · exact hinv.value h' hh
    · exact hvalue
  family := by
    intro h₁ hh₁ h₂ hh₂ hform₁ hform₂
    rw [List.mem_append, List.mem_singleton] at hh₁ hh₂
    rcases hh₁ with hh₁ | rfl <;> rcases hh₂ with hh₂ | rfl
    · exact hinv.family h₁ hh₁ h₂ hh₂ hform₁ hform₂
    · exact (hfamily h₁ hh₁ hform₂ hform₁).symm
    · exact hfamily h₂ hh₂ hform₁ hform₂
    · exact ⟨fun _ => rfl, fun hne => absurd rfl hne⟩
  family_lt := by
    intro h' hh
    rw [List.mem_append, List.mem_singleton] at hh
    rw [List.length_append, List.length_singleton]
    rcases hh with hh | rfl
    · exact Nat.lt_succ_of_lt (hinv.family_lt h' hh)
    · exact Nat.lt_succ_of_le hle
  log_lt := by
    intro p hp r hr
    rw [List.length_append, List.length_singleton]
    exact Nat.lt_succ_of_lt (hinv.log_lt p hp r hr)

omit [DecidableEq L] in
theorem objectOf_assign_self (w : World L V) (a : Addr) {xs : List V}
    (hlen : xs.length = τ.cells C) : (w.assign (some a) xs).objectOf τ C a = xs := by
  rw [World.objectOf, ← hlen]
  exact load_store_self

omit [DecidableEq L] in
theorem objectOf_assign_apart (w : World L V) {a b : Addr} {xs : List V}
    (hlen : xs.length = τ.cells C) (h : Apart a (τ.cells C) b (τ.cells C)) :
    (w.assign (some a) xs).objectOf τ C b = w.objectOf τ C b :=
  load_store_apart (by rwa [hlen])

/-- A write at the address of a denotation. -/
theorem Owns.assign (hinv : Owns P τ C w log st) {k : Fin n ⊕ Nat} {a : Addr} {xs : List V}
    (hlen : xs.length = τ.cells C)
    (hk : (∃ o : Fin n, k = .inl o ∧ a = objectAt τ C o) ∨
      ∃ h ∈ st.held, h.form = .value ∧ k = .inr h.family ∧
        h.variant.base_.value_ = some a) :
    Owns P τ C w (log ++ (some (k, xs)).toList)
      { st with world := st.world.assign (some a) xs } where
  allocated := hinv.allocated
  passes := hinv.passes
  created := hinv.created
  original := by
    intro o
    rw [lastStored_concat, ← hinv.original o]
    rcases hk with ⟨o', rfl, rfl⟩ | ⟨h, hh, hform, rfl, ha⟩
    · by_cases ho : o = o'
      · subst ho
        rw [LastWrite.store, Function.update_self]
        exact objectOf_assign_self st.world _ hlen
      · rw [store_of_ne fun h => ho (Sum.inl.inj h)]
        exact objectOf_assign_apart st.world hlen (apart_objectAt τ C (Ne.symm ho))
    · obtain ⟨a', ha', hle, _⟩ := hinv.value h hh hform
      rw [ha] at ha'
      cases ha'
      rw [store_of_ne Sum.inl_ne_inr]
      exact objectOf_assign_apart st.world hlen (.inr (Nat.le_trans (objectAt_le τ C o) hle))
  reference := hinv.reference
  value := by
    intro h' hh' hform'
    obtain ⟨a', ha', hle, hlt, hmem⟩ := hinv.value h' hh' hform'
    refine ⟨a', ha', hle, hlt, ?_⟩
    rw [lastStored_concat, ← hmem]
    rcases hk with ⟨o, rfl, rfl⟩ | ⟨h, hh, hform, rfl, ha⟩
    · rw [store_of_ne Sum.inr_ne_inl]
      exact objectOf_assign_apart st.world hlen (.inl (Nat.le_trans (objectAt_le τ C o) hle))
    · have hsame := hinv.family h hh h' hh' hform hform'
      by_cases hf : h.family = h'.family
      · rw [hsame.same hf, ha'] at ha
        cases ha
        rw [hf, LastWrite.store, Function.update_self]
        exact objectOf_assign_self st.world _ hlen
      · rw [store_of_ne fun h => hf (Sum.inr.inj h).symm]
        exact objectOf_assign_apart st.world hlen (hsame.apart hf a a' ha ha')
  family := hinv.family
  family_lt := hinv.family_lt
  log_lt := by
    intro p hp r hr
    rw [List.mem_append, Option.mem_toList] at hp
    rcases hp with hp | hp
    · exact hinv.log_lt p hp r hr
    · cases hp
      rcases hk with ⟨o, rfl, _⟩ | ⟨h, hh, _, rfl, _⟩
      · cases hr
      · cases hr
        exact hinv.family_lt h hh

/-- A new variant by value is the first of its family, and holds a copy in fresh memory. -/
theorem Owns.create (hC : C.isPointer = false) (hcopy : τ.isCopyConstructible C = true)
    (hinv : Owns P τ C w log st) (form : CreateForm) (o : Fin n) :
    Owns P τ C w log (st.step P τ C (.create form o)) := by
  rw [StoreState.step]
  rcases create_cases (P := P) hC hcopy form (objectAt τ C o) st.world with
    ⟨hnone, _⟩ | ⟨e, s, herror, hpass, _⟩ | ⟨v, w', hok, hpass, hvalue, href⟩
  · rw [hnone]
    exact hinv
  · rw [herror]
    exact hinv.keeps hpass (World.keeps_reg st.world s)
  · rw [hok]
    have hcreated : Passes .init w.reg → Created P τ w'.reg (form.type C) v :=
      fun hw => ⟨V, objectAt τ C o, st.world, w', hw.trans hinv.passes, hok, .refl⟩
    have hkeeps : st.world.Keeps w' := by
      by_cases hform : form = .value
      · obtain ⟨_, hnext, hmem⟩ := hvalue hform
        refine ⟨by rw [hnext]; exact Nat.le_add_right .., fun a ha => ?_⟩
        rw [hmem]
        exact store_before ha
      · obtain ⟨_, hnext, hmem⟩ := href hform
        exact ⟨Nat.le_of_eq hnext.symm, fun a _ => by rw [hmem]⟩
    refine (hinv.keeps hpass hkeeps).hold hcreated (fun hform => (href hform).1) ?_ ?_
      (Nat.le_refl _)
    · intro hform
      obtain ⟨hv, hnext, hmem⟩ := hvalue hform
      refine ⟨st.world.next, hv, hinv.allocated, Nat.le_of_eq hnext.symm, ?_⟩
      have hnone : lastStored log (.inr st.held.length) = none :=
        lastStored_eq_none fun p hp hr => Nat.lt_irrefl _ (hinv.log_lt p hp _ hr)
      dsimp only
      rw [hnone, Option.getD_none, World.objectOf, hmem]
      exact load_store_load
    · intro h' hh' hform hform'
      obtain ⟨b, hb, _, hlt, _⟩ := hinv.value h' hh' hform'
      refine ⟨fun hf => absurd hf (Nat.ne_of_gt (hinv.family_lt h' hh')), ?_⟩
      intro _ a a' ha ha'
      dsimp only at ha
      rw [(hvalue hform).1] at ha
      rw [hb] at ha'
      cases ha
      cases ha'
      exact .inr hlt

theorem Owns.copy (hinv : Owns P τ C w log st) {h : HeldVariant L V n} (hh : h ∈ st.held) :
    Owns P τ C w log { st with held := st.held ++ [h] } :=
  hinv.hold (fun hw => hinv.created hw h hh) (hinv.reference h hh) (hinv.value h hh)
    (fun h' hh' => hinv.family h hh h' hh') (Nat.le_of_lt (hinv.family_lt h hh))

/-- Where a variant holds what it denotes. -/
theorem Owns.place (hinv : Owns P τ C w log st) {h : HeldVariant L V n} (hh : h ∈ st.held) :
    ∃ a, h.variant.base_.value_ = some a ∧
      ((∃ o : Fin n, h.denotes = .inl o ∧ a = objectAt τ C o) ∨
        ∃ h' ∈ st.held, h'.form = .value ∧ h.denotes = .inr h'.family ∧
          h'.variant.base_.value_ = some a) := by
  unfold HeldVariant.denotes
  by_cases hform : h.form = .value
  · obtain ⟨a, ha, _⟩ := hinv.value h hh hform
    exact ⟨a, ha, .inr ⟨h, hh, hform, if_pos hform, ha⟩⟩
  · exact ⟨objectAt τ C h.original, hinv.reference h hh hform,
      .inl ⟨h.original, if_neg hform, rfl⟩⟩

theorem mutableGet_eq_some {v : Variant L} {U : Ty L} {s : Registry L} {a : Option Addr}
    (h : v.mutableGet P U s = some a) : a = v.base_.value_ := by
  unfold Variant.mutableGet at h
  rcases v.getImpl_cases (P := P) U s with ⟨s', _, himpl⟩ | ⟨D, s', _, _, himpl⟩ <;>
    rw [himpl] at h
  · cases h
  · simp only [Option.ite_none_left_eq_some, Option.some.injEq] at h
    exact h.2.symm

theorem Owns.step (hC : C.isPointer = false) (hcopy : τ.isCopyConstructible C = true)
    (hinv : Owns P τ C w log st) (a : StoreAction L V n) :
    Owns P τ C w (log ++ (st.stored P τ C a).toList) (st.step P τ C a) := by
  cases a with
  | create form o =>
    rw [StoreState.stored, Option.toList_none, List.append_nil]
    exact hinv.create hC hcopy form o
  | copy j =>
    rw [StoreState.stored, StoreState.step, Option.toList_none, List.append_nil]
    cases hj : st.held[j]? with
    | none => exact hinv
    | some h => exact hinv.copy (List.mem_of_getElem? hj)
  | write j U x =>
    rw [StoreState.stored, StoreState.step]
    cases hj : st.held[j]? with
    | none =>
      dsimp only
      rw [Option.toList_none, List.append_nil]
      exact hinv
    | some h =>
      have hpass := passes_getImpl (P := P) h.variant U st.world.reg
      have hinv' := hinv.keeps hpass (World.keeps_reg st.world _)
      dsimp only
      cases hget : h.variant.mutableGet P U st.world.reg with
      | none =>
        rw [Option.map_none, Option.toList_none, List.append_nil]
        exact hinv'
      | some a =>
        obtain ⟨b, hb, hplace⟩ := hinv.place (List.mem_of_getElem? hj)
        rw [mutableGet_eq_some hget, hb]
        exact hinv'.assign length_load hplace
  | assign o x => exact hinv.assign length_load (.inl ⟨o, rfl, rfl⟩)

theorem held_step (a : StoreAction L V n) : ∀ h ∈ st.held, h ∈ (st.step P τ C a).held := by
  intro h hh
  cases a with
  | create form o =>
    rw [StoreState.step]
    split
    · exact hh
    · exact hh
    · exact List.mem_append_left _ hh
  | copy j =>
    rw [StoreState.step]
    split
    · exact hh
    · exact List.mem_append_left _ hh
  | write j U x =>
    rw [StoreState.step]
    split
    · exact hh
    · dsimp only
      split <;> exact hh
  | assign o x => exact hh

section Frame

variable (hC : C.isPointer = false) (hcopy : τ.isCopyConstructible C = true)
  (hinv : Owns P τ C w log st)

include hC hcopy hinv

theorem Owns.step_original (a : StoreAction L V n) (o : Fin n) :
    (st.step P τ C a).world.objectOf τ C (objectAt τ C o) =
      LastWrite.store (fun _ => st.world.objectOf τ C (objectAt τ C o)) (st.stored P τ C a)
        (.inl o) := by
  rw [(hinv.step hC hcopy a).original o, lastStored_concat, ← hinv.original o]

theorem Owns.step_value (a : StoreAction L V n) {h : HeldVariant L V n} (hh : h ∈ st.held)
    (hform : h.form = .value) :
    (st.step P τ C a).world.read (τ.cells C) h.variant.base_.value_ =
      LastWrite.store (fun _ => st.world.read (τ.cells C) h.variant.base_.value_)
        (st.stored P τ C a) (.inr h.family) := by
  obtain ⟨b, hb, _, _, hmem⟩ := hinv.value h hh hform
  obtain ⟨b', hb', _, _, hmem'⟩ := (hinv.step hC hcopy a).value h (held_step a h hh) hform
  rw [hb] at hb'
  cases hb'
  rw [lastStored_concat, ← hmem] at hmem'
  rw [hb]
  exact hmem'

end Frame

theorem getImpl_value {v : Variant L} {U : Ty L} {s : Registry L} {g : Got L}
    (h : (v.getImpl P U s).1 = .ok (.ok g)) : g.value = v.base_.value_ := by
  rcases v.getImpl_cases (P := P) U s with ⟨s', _, himpl⟩ | ⟨D, s', _, _, himpl⟩ <;>
    rw [himpl] at h <;> cases h
  rfl

/-- What a variant was created as can be got from it. -/
theorem getImpl_created (hC : C.isPointer = false) (hc : C.isConst = false)
    (hcopy : τ.isCopyConstructible C = true) {form : CreateForm} {v : Variant L}
    {s : Registry L} (hv : Created P τ s (form.type C) v) (hlen : s.types_.length < 2 ^ 32) :
    ∃ g, (v.getImpl P (form.type C) s).1 = .ok (.ok g) := by
  have hforms : ∃ allowed, (form.type C, allowed) ∈ createForms C C ∧
      form.type C ∈ allowed := by
    cases form with
    | value => exact ⟨_, .head _, .head _⟩
    | ref => exact ⟨_, .tail _ (.head _), .tail _ (.tail _ (.head _))⟩
    | constRef => exact ⟨_, .tail _ (.tail _ (.tail _ (.head _))), .tail _ (.head _)⟩
    | pointer =>
      exact ⟨_, .tail _ (.tail _ (.tail _ (.tail _ (.tail _ (.tail _ (.head _)))))), .head _⟩
    | constPointer =>
      exact ⟨_, .tail _ (.tail _ (.tail _ (.tail _ (.tail _ (.tail _ (.tail _ (.head _))))))),
        .head _⟩
  obtain ⟨allowed, hT, hU⟩ := hforms
  obtain ⟨_, _, c, hmake, hwrapper⟩ := hv.issued
  have hdecorated : decorated v.base_.wrapper.kind (form.type C) = some (form.type C) := by
    rw [hwrapper, makeWrapper_eq hmake]
    exact (decorated_wrapperKind_iff τ hC hc hcopy hc hT (form.type C)).mpr hU
  have hmade : Made P τ s v := .inr ⟨_, hv⟩
  have hcan := hmade.canGet_eq (P := P) .refl hlen ((hv.gets_iff hlen).mpr hdecorated)
  obtain ⟨D, _, himpl⟩ := Variant.getImpl_of_canGet hcan
  exact ⟨_, congrArg Prod.fst himpl⟩

theorem Owns.law (hC : C.isPointer = false) (hc : C.isConst = false)
    (hcopy : τ.isCopyConstructible C = true) (hinv : Owns P τ C w log st) :
    OwnershipLaw P τ C w (lastStored log) st where
  made := by
    intro form o hvalue hreflect
    have hmake := isSome_makeWrapper_form hC hcopy hc hvalue
    rw [StoreState.step]
    rcases create_cases (P := P) hC hcopy form (objectAt τ C o) st.world with
      ⟨_, hnone⟩ | ⟨e, s, _, _, hnot⟩ | ⟨v, w', hok, _⟩
    · rw [hnone] at hmake
      cases hmake
    · obtain ⟨i, hi⟩ := hreflect
      exact absurd hi (hnot i)
    · rw [hok]
      exact ⟨_, rfl, rfl, rfl, rfl⟩
  readable := fun hw hlen h hh => getImpl_created hC hc hcopy (hinv.created hw h hh) hlen
  reference := by
    intro h hh hform U g hget
    rw [getImpl_value hget, hinv.reference h hh hform]
    rfl
  value := by
    intro h hh hform U g hget
    obtain ⟨a, ha, _, _, hmem⟩ := hinv.value h hh hform
    rw [getImpl_value hget, ha]
    exact hmem
  original := hinv.original
  write_value := by
    intro j h hj hform U x o
    rw [hinv.step_original hC hcopy, StoreState.stored, hj]
    dsimp only
    rw [HeldVariant.denotes, if_pos hform]
    cases h.variant.mutableGet P U st.world.reg with
    | none => rfl
    | some a => exact store_of_ne Sum.inl_ne_inr
  write_original := by
    intro a o xs hstored h hh hform U g hget
    rw [getImpl_value hget, hinv.step_value hC hcopy a hh hform, hstored]
    exact store_of_ne Sum.inr_ne_inl

end Invariant

theorem ownershipLaw_of_run {w : World L V} (hC : C.isPointer = false)
    (hc : C.isConst = false) (hcopy : τ.isCopyConstructible C = true)
    (hn : n * τ.cells C ≤ w.next) (as : List (StoreAction L V n)) :
    OwnershipLaw P τ C w
      (lastStored (log (StoreState.step P τ C) (StoreState.stored P τ C) { world := w } as))
      (as.foldl (StoreState.step P τ C) { world := w }) :=
  Owns.law hC hc hcopy
    (inv_log_run (fun _ _ a hinv => hinv.step hC hcopy a) as (owns_init hn))

/-- Two variants of one `Line` of four cells, by value and by reference, and a copy of
the first. -/
def lineRun : List (StoreAction Nat Nat 1) :=
  [.create .value 0, .create .ref 0, .copy 0, .write 2 (.lref line) fun _ => 7,
    .assign 0 id]

theorem ownershipLaw_line :
    OwnershipLaw .plain .plain line freshWorld
      (lastStored (log (StoreState.step .plain .plain line)
        (StoreState.stored .plain .plain line) { world := freshWorld } lineRun))
      (lineRun.foldl (StoreState.step .plain .plain line) { world := freshWorld }) :=
  ownershipLaw_of_run .plain .plain line rfl rfl rfl (show 1 * 4 ≤ 8 by decide) lineRun

example : log (StoreState.step .plain .plain line)
    (StoreState.stored .plain .plain line) { world := freshWorld } lineRun =
    [(.inr 0, [7, 7, 7, 7]), (.inl 0, [0, 1, 2, 3])] := rfl

end ReflCpp
