import ReflCpp.Compatibility

namespace ReflCpp

open Cpp Blocks

variable {L V : Type}

/-- `T` is neither a pointer to const nor a reference to a pointer. -/
def castSafe : Ty L → Bool
  | .obj (.leaf _ _ _) => true
  | .obj (.ptr _ _ X) => !X.isConst
  | .lref D => !D.isPointer
  | .rref D => !D.isPointer

section CastTarget

variable {τ : Traits L} {T U : Ty L} {D X : Obj L}

theorem target_eq_iff :
    (if D.isConst then D.removePointer.removeConst.addConst
      else D.removePointer.removeConst) = D ↔ D.isPointer = false := by
  constructor
  · intro h
    have hdepth : D.removePointer.depth = D.depth := by
      rw [← depth_target, h]
    cases D with
    | leaf => rfl
    | ptr c v t => simp [Cpp.Obj.depth] at hdepth
  · exact target_eq

theorem castTarget_lref :
    castTarget (wrapperKind τ (.lref D)) (.lref D) =
      WrapperClass.base ⟨wrapperKind τ (.lref D), cleanT (.lref D)⟩ ↔
    D.isPointer = false := by
  rw [← target_eq_iff]
  cases hc : D.isConst <;>
    simp [castTarget, wrapperKind, hc, WrapperClass.base, cleanT, Cpp.Ty.removeReference,
      eq_comm]

theorem castTarget_rref :
    castTarget (wrapperKind τ (.rref D)) (.rref D) =
      WrapperClass.base ⟨wrapperKind τ (.rref D), cleanT (.rref D)⟩ ↔
    D.isPointer = false := by
  rw [← target_eq_iff]
  cases hc : D.isConst <;>
    simp [castTarget, wrapperKind, hc, WrapperClass.base, cleanT, Cpp.Ty.removeReference,
      eq_comm]

/-- `ConstPointerVariantWrapper` derives from `VariantWrapper<const T*>`, but its
matcher casts to `VariantWrapper<T*>`. -/
theorem castTarget_pointer :
    castTarget (wrapperKind τ (.obj (.ptr false false X))) (.obj (.ptr false false X)) =
      WrapperClass.base ⟨wrapperKind τ (.obj (.ptr false false X)),
        cleanT (.obj (.ptr false false X))⟩ ↔
    X.isConst = false := by
  cases hX : X.isConst with
  | false =>
    simp [castTarget, wrapperKind, hX, WrapperClass.base, cleanT, Cpp.Ty.removeReference,
      Cpp.Obj.removeConst_of_not_isConst hX]
  | true =>
    have hne : X.removeConst ≠ X := by
      intro h
      have hc := Cpp.Obj.isConst_removeConst X
      rw [h, hX] at hc
      cases hc
    simp [castTarget, wrapperKind, hX, WrapperClass.base, cleanT, Cpp.Ty.removeReference,
      Cpp.Obj.addConst_removeConst hX, hne]

theorem castTarget_value {c v : Bool} {a : Leaf L}
    (hcopy : τ.isCopyConstructible (.leaf c v a) = true) :
    castTarget (wrapperKind τ (.obj (.leaf c v a))) (.obj (.leaf c v a)) =
      WrapperClass.base ⟨wrapperKind τ (.obj (.leaf c v a)),
        cleanT (.obj (.leaf c v a))⟩ := by
  have htarget := target_eq (D := .leaf c v a) rfl
  cases c <;>
    simpa [castTarget, wrapperKind, hcopy, WrapperClass.base, cleanT, Cpp.Ty.removeReference,
      eq_comm] using htarget

end CastTarget

section Retrievable

variable {τ : Traits L} {T U : Ty L}

/-- Some request is granted by a variant created as `T`. -/
def retrievable (τ : Traits L) : Ty L → Bool
  | .obj (.leaf c v a) => τ.isCopyConstructible (.leaf c v a)
  | .obj (.ptr c v _) => !c && !v
  | .lref _ => true
  | .rref _ => true

theorem decorated_self (h : retrievable τ T = true) :
    decorated (wrapperKind τ T) T = some T := by
  cases T with
  | obj D =>
    cases D with
    | leaf c v a =>
      simp only [retrievable] at h
      cases c <;> simp [wrapperKind, h, decorated, Cpp.Obj.removeConst, Cpp.Obj.strip]
    | ptr c v X =>
      simp only [retrievable, Bool.and_eq_true, Bool.not_eq_true'] at h
      obtain ⟨rfl, rfl⟩ := h
      cases hX : X.isConst <;>
        simp [wrapperKind, hX, decorated, Cpp.Obj.removeConst_of_not_isConst]
  | lref D =>
    cases hD : D.isConst <;>
      simp [wrapperKind, hD, decorated, Cpp.Obj.removeConst_of_not_isConst]
  | rref D =>
    cases hD : D.isConst <;>
      simp [wrapperKind, hD, decorated, Cpp.Obj.removeConst_of_not_isConst]

theorem retrievable_of_decorated (h : decorated (wrapperKind τ T) U = some T) :
    retrievable τ T = true := by
  cases T with
  | obj D =>
    cases D with
    | leaf c v a =>
      cases hcopy : τ.isCopyConstructible (.leaf c v a) with
      | true => exact hcopy
      | false =>
        -- Stored as a reference, so `Match` compares with a reference type.
        cases c <;> cases U <;> simp [wrapperKind, hcopy, decorated] at h
    | ptr c v X =>
      cases hX : X.isConst <;>
        simp only [wrapperKind, Cpp.Obj.isPointer_ptr, Cpp.Obj.removePointer_ptr, hX, if_true,
          Bool.false_eq_true, if_false] at h <;>
        unfold decorated at h <;> split at h <;> simp_all [retrievable]
  | lref D => rfl
  | rref D => rfl

theorem castTarget_eq_base_iff (h : retrievable τ T = true) :
    castTarget (wrapperKind τ T) T = WrapperClass.base ⟨wrapperKind τ T, cleanT T⟩ ↔
      castSafe T = true := by
  cases T with
  | obj D =>
    cases D with
    | leaf c v a => exact iff_of_true (castTarget_value h) rfl
    | ptr c v X =>
      simp only [retrievable, Bool.and_eq_true, Bool.not_eq_true'] at h
      obtain ⟨rfl, rfl⟩ := h
      rw [castTarget_pointer, castSafe, Bool.not_eq_true']
  | lref D => rw [castTarget_lref, castSafe, Bool.not_eq_true']
  | rref D => rw [castTarget_rref, castSafe, Bool.not_eq_true']

end Retrievable

section Compiles

variable {U D : Ty L} {kind : VariantWrapperType}

def accessVolatile : Ty L → Bool
  | .obj (.leaf _ v _) => v
  | .obj (.ptr _ _ X) => X.isVolatile
  | .lref D => D.isVolatile
  | .rref D => D.isVolatile

theorem getCompiles_iff [DecidableEq L] (hkind : kind ∈ Variant.getKinds)
    (h : decorated kind U = some D) :
    getCompiles U = true ↔ handedOut U = Variant.getResult U := by
  rw [getCompiles, List.all_eq_true]
  constructor
  · intro hall
    obtain ⟨m, R, hm, _, hresult, _⟩ := matcher_of_decorated h
    have hk := hall kind hkind
    rw [hm] at hk
    rw [← hresult]
    exact of_decide_eq_true hk
  · intro heq k _
    cases hd : decorated k U with
    | none => rw [matcher_of_not_decorated hd]
    | some D' =>
      obtain ⟨m, R, hm, _, hresult, _⟩ := matcher_of_decorated hd
      rw [hm]
      exact decide_eq_true (hresult.trans heq)

theorem handedOut_eq_getResult_iff {τ : Traits L} (h : retrievable τ U = true) :
    handedOut U = Variant.getResult U ↔ accessVolatile U = false := by
  cases U with
  | obj D =>
    cases D with
    | leaf c v a => simp [handedOut, Variant.getResult, accessVolatile]
    | ptr c v X =>
      simp only [retrievable, Bool.and_eq_true, Bool.not_eq_true'] at h
      obtain ⟨rfl, rfl⟩ := h
      rw [accessVolatile, ← Cpp.Obj.strip_volatile_eq_iff]
      simp [handedOut, Variant.getResult, eq_comm]
  | lref D =>
    rw [accessVolatile, ← Cpp.Obj.strip_volatile_eq_iff]
    simp [handedOut, Variant.getResult, eq_comm]
  | rref D =>
    rw [accessVolatile, ← Cpp.Obj.strip_volatile_eq_iff]
    simp [handedOut, Variant.getResult, eq_comm]

end Compiles

/-- `T` is copy-constructible, a pointer without qualifiers of its own, or a
reference to something that is no pointer, and nothing volatile is reached. -/
def roundTripSafe (τ : Traits L) (T : Ty L) : Bool :=
  retrievable τ T && !(T.isReference && T.removeReference.isPointer) && !accessVolatile T

/-- Where the object that `Create<T>` stores is found: a copy of its own, or the
object that was passed. -/
def storedAt (T : Ty L) (data : Addr) (w : World L V) : Addr :=
  if T.isReference || T.isPointer then data else w.next

variable [DecidableEq L]

/-- A variant of `T` gives back as a `T` what was stored, all cells of it. -/
def RoundTrips (P : Program L) (τ : Traits L) (T : Ty L) (data : Addr) (w w' : World L V)
    (s : Registry L) (v : Variant L) : Prop :=
  (v.canGet P T s).1 = true ∧ getCompiles T = true ∧
    ∃ g, (v.getImpl P T s).1 = .ok (.ok g) ∧ g.value = some (storedAt T data w) ∧
      load w'.mem (storedAt T data w) (τ.cells T.removeReference) =
        load w.mem data (τ.cells T.removeReference)

section Stored

variable {P : Program L} {τ : Traits L} {T : Ty L} {data : Addr} {w w' : World L V}
  {v : Variant L}

omit [DecidableEq L] in
theorem wrapperKind_mem_getKinds (τ : Traits L) (T : Ty L) :
    wrapperKind τ T ∈ Variant.getKinds := by
  unfold wrapperKind
  repeat' split
  all_goals decide

theorem value_of_create (hcreate : Variant.create P τ T data w = some (.ok v, w')) :
    (v.base_.value_, w'.mem, w'.next) = match wrapperBinding τ T with
      | .copied n => (some w.next, store w.mem w.next (load w.mem data n), w.next + n)
      | .direct => (some data, w.mem, w.next)
      | .temporary => (none, w.mem, w.next) := by
  obtain ⟨c, hmake, hc⟩ := Option.map_eq_some_iff.mp hcreate
  obtain ⟨s, _, hbase⟩ := Variant.createWith_ok hc
  have hb : c.2 = wrapperBinding τ T := congrArg Prod.snd (makeWrapper_eq hmake)
  rw [← hb]
  obtain ⟨c, b⟩ := c
  cases b <;>
    simp only [makeShared, Prod.mk.injEq] at hbase <;>
    obtain ⟨hv, rfl⟩ := hbase <;>
    rw [← hv]

theorem stored_iff (hr : retrievable τ T = true)
    (hcreate : Variant.create P τ T data w = some (.ok v, w')) :
    (v.base_.value_ = some (storedAt T data w) ∧
      load w'.mem (storedAt T data w) (τ.cells T.removeReference) =
        load w.mem data (τ.cells T.removeReference)) ↔
    (T.isReference && T.removeReference.isPointer) = false := by
  have hvalue := value_of_create hcreate
  cases T with
  | obj D =>
    cases D with
    | leaf c v a =>
      simp only [retrievable] at hr
      simp only [wrapperBinding, Cpp.Obj.isPointer_leaf, hr, Bool.not_false, Bool.and_self,
        if_true, Prod.mk.injEq] at hvalue
      simp [hvalue, storedAt, Cpp.Ty.isReference, Cpp.Ty.isPointer, Cpp.Ty.removeReference]
    | ptr c v X =>
      simp only [wrapperBinding, Cpp.Obj.isPointer_ptr, Bool.not_true, Bool.false_and,
        Bool.false_eq_true, if_false, Prod.mk.injEq] at hvalue
      simp [hvalue, storedAt, Cpp.Ty.isReference, Cpp.Ty.isPointer]
  | lref D =>
    cases hD : D.isPointer <;>
      simp only [wrapperBinding, hD, if_true, Bool.false_eq_true, if_false,
        Prod.mk.injEq] at hvalue <;>
      simp [hvalue, storedAt, Cpp.Ty.isReference, Cpp.Ty.removeReference, hD]
  | rref D =>
    cases hD : D.isPointer <;>
      simp only [wrapperBinding, hD, if_true, Bool.false_eq_true, if_false,
        Prod.mk.injEq] at hvalue <;>
      simp [hvalue, storedAt, Cpp.Ty.isReference, Cpp.Ty.removeReference, hD]

end Stored

section Get

variable {P : Program L} {τ : Traits L} {T U : Ty L} {s : Registry L} {v : Variant L}

theorem Created.get_eq (hv : Created P τ s T v)
    (hlen : (v.canGet P U s).2.types_.length < 2 ^ 32) (hget : (v.canGet P U s).1 = true) :
    retrievable τ T = true ∧
    (v.getImpl P U s).1 = .ok (.ok ⟨castTarget (wrapperKind τ T) T, Variant.getResult U,
      v.base_.value_⟩) ∧
    v.base_.wrapper.base = WrapperClass.base ⟨wrapperKind τ T, cleanT T⟩ := by
  obtain ⟨_, _, c, hmake, hwrapper⟩ := hv.issued
  rw [makeWrapper_eq hmake] at hwrapper
  have hT := (hv.canGet_iff hlen).mp hget
  have hcan : v.canGet P U s = (true, (v.canGet P U s).2) := Prod.ext hget rfl
  obtain ⟨D, hD, himpl⟩ := Variant.getImpl_of_canGet hcan
  rw [hT, Option.some.injEq] at hD
  subst hD
  rw [hwrapper] at hT himpl ⊢
  exact ⟨retrievable_of_decorated hT, congrArg Prod.fst himpl, rfl⟩

theorem Created.canGet_self_iff (hv : Created P τ s T v)
    (hlen : (v.canGet P T s).2.types_.length < 2 ^ 32) :
    (v.canGet P T s).1 = true ↔ retrievable τ T = true := by
  constructor
  · exact fun hget => (hv.get_eq hlen hget).1
  · intro hr
    obtain ⟨_, _, c, hmake, hwrapper⟩ := hv.issued
    rw [hv.canGet_iff hlen, hwrapper, makeWrapper_eq hmake]
    exact decorated_self hr

end Get

theorem get_cast_iff (P : Program L) (τ : Traits L) {T : Ty L} {s : Registry L}
    {v : Variant L} (hv : Created P τ s T v) (U : Ty L)
    (hlen : (v.canGet P U s).2.types_.length < 2 ^ 32)
    (hget : (v.canGet P U s).1 = true) :
    ∃ g, (v.getImpl P U s).1 = .ok (.ok g) ∧
      (g.cast = v.base_.wrapper.base ↔ castSafe T = true) := by
  obtain ⟨hr, himpl, hbase⟩ := hv.get_eq hlen hget
  refine ⟨_, himpl, ?_⟩
  rw [hbase]
  exact castTarget_eq_base_iff hr

theorem get_cast_iff_int :
    ∃ g, (intVariant.getImpl .plain (.lref int.addConst) intRegistry).1 = .ok (.ok g) ∧
      (g.cast = intVariant.base_.wrapper.base ↔ castSafe (.obj int : Ty Nat) = true) :=
  get_cast_iff .plain .plain intVariant_created _ (show 1 < 2 ^ 32 by decide) rfl

section ConstPointer

def constIntPointer : Ty Nat := .obj (.ptr false false int.addConst)

def constIntPointerRegistry : Registry Nat := (reflectID .plain constIntPointer .init).2

def constIntPointerVariant : Variant Nat where
  base_ := { wrapper := ⟨.constPointer, int⟩, value_ := some 0 }
  type_ := ⟨3⟩

/-- `Get<const int*>` casts to `VariantWrapper<int*>`, which the wrapper is not. -/
theorem constIntPointer_cast :
    Created .plain .plain constIntPointerRegistry constIntPointer constIntPointerVariant ∧
    (constIntPointerVariant.canGet .plain constIntPointer constIntPointerRegistry).1 = true ∧
    ∃ g, (constIntPointerVariant.getImpl .plain constIntPointer
        constIntPointerRegistry).1 = .ok (.ok g) ∧
      g.cast ≠ constIntPointerVariant.base_.wrapper.base :=
  ⟨⟨Nat, 0, freshWorld, _, .refl, rfl, .refl⟩, rfl, _, rfl, by decide⟩

end ConstPointer

theorem roundTrips_iff (P : Program L) (τ : Traits L) {T : Ty L} {data : Addr}
    {w w' : World L V} {v : Variant L} (hw : Passes .init w.reg)
    (hcreate : Variant.create P τ T data w = some (.ok v, w')) {s : Registry L}
    (hs : Passes w'.reg s) (hlen : (v.canGet P T s).2.types_.length < 2 ^ 32) :
    (RoundTrips P τ T data w w' s v ↔ roundTripSafe τ T = true) ∧
    (RoundTrips P τ T data w w' s v ∧
      (∀ g, (v.getImpl P T s).1 = .ok (.ok g) → g.cast = v.base_.wrapper.base) ↔
      roundTripSafe τ T = true ∧ castSafe T = true) := by
  have hv : Created P τ s T v := ⟨V, data, w, w', hw, hcreate, hs⟩
  have hself := hv.canGet_self_iff hlen
  cases hr : retrievable τ T with
  | false =>
    have hnot : ¬ RoundTrips P τ T data w w' s v := by
      intro h
      rw [hself.mp h.1] at hr
      cases hr
    simp [hnot, roundTripSafe, hr]
  | true =>
    have hget := hself.mpr hr
    obtain ⟨_, himpl, hbase⟩ := hv.get_eq hlen hget
    have hcompiles := (getCompiles_iff (wrapperKind_mem_getKinds τ T) (decorated_self hr)).trans
      (handedOut_eq_getResult_iff hr)
    have hstored := stored_iff hr hcreate
    have hcast := castTarget_eq_base_iff hr
    have hiff : RoundTrips P τ T data w w' s v ↔ roundTripSafe τ T = true := by
      rw [RoundTrips, himpl, roundTripSafe, hr, hcompiles]
      simp only [hget, Except.ok.injEq, true_and, exists_eq_left', Bool.true_and,
        Bool.and_eq_true, Bool.not_eq_true']
      rw [hstored]
      exact and_comm
    refine ⟨hiff, ?_⟩
    rw [hiff, himpl, hbase]
    simp only [Except.ok.injEq, forall_eq']
    rw [hcast]

theorem roundTrips_int :
    (RoundTrips .plain .plain (.obj int) 0 freshWorld intWorld intRegistry intVariant ↔
      roundTripSafe .plain (.obj int) = true) ∧
    (RoundTrips .plain .plain (.obj int) 0 freshWorld intWorld intRegistry intVariant ∧
      (∀ g, (intVariant.getImpl .plain (.obj int) intRegistry).1 = .ok (.ok g) →
        g.cast = intVariant.base_.wrapper.base) ↔
      roundTripSafe .plain (.obj int) = true ∧ castSafe (.obj int : Ty Nat) = true) :=
  have hcreate : Variant.create .plain .plain (.obj int) 0 freshWorld =
    some (.ok intVariant, intWorld) := rfl
  roundTrips_iff .plain .plain .refl hcreate .refl (show 1 < 2 ^ 32 by decide)

section PointerConst

def intPointerConst : Ty Nat := .obj (.ptr true false int)

def intPointerConstWorld : World Nat Nat :=
  { freshWorld with reg := (reflectID .plain intPointerConst .init).2 }

def intPointerConstVariant : Variant Nat where
  base_ := { wrapper := ⟨.pointer, int⟩, value_ := some 0 }
  type_ := ⟨2⟩

/-- A variant created as `int* const` cannot be got as one. -/
theorem intPointerConst_not_roundTrips :
    Variant.create .plain .plain intPointerConst 0 freshWorld =
      some (.ok intPointerConstVariant, intPointerConstWorld) ∧
    ¬ RoundTrips .plain .plain intPointerConst 0 freshWorld intPointerConstWorld
      intPointerConstWorld.reg intPointerConstVariant := by
  refine ⟨rfl, fun h => ?_⟩
  have hget : (intPointerConstVariant.canGet .plain intPointerConst
    intPointerConstWorld.reg).1 = false := rfl
  rw [h.1] at hget
  cases hget

end PointerConst

end ReflCpp
