import ReflCpp.ArgumentLaws
import ReflCpp.VariantLaws

namespace ReflCpp

open Cpp

variable {L V : Type} [DecidableEq L] {P : Program L} {τ : Traits L}

section Passes

theorem passes_checkGet (v : Variant L) (U : Ty L) (s : Registry L) :
    Passes s (v.checkGet P U s).2 := by
  have hpass := v.passes_canGet (P := P) U s
  unfold Variant.checkGet
  split <;> next h => rw [h] at hpass; exact hpass

theorem passes_getImpl (v : Variant L) (U : Ty L) (s : Registry L) :
    Passes s (v.getImpl P U s).2 := by
  have hpass := passes_checkGet (P := P) v U s
  unfold Variant.getImpl
  split
  · exact .refl
  · split
    next h =>
      rw [h] at hpass
      exact hpass
    next h =>
      rw [h] at hpass
      split <;> exact hpass

section AndThen

variable {α β : Type} {m : RegM L (Except Crash α)} {k : α → RegM L (Except Crash β)}

theorem passes_andThen_right (hk : ∀ a s, Passes s (k a s).2) (s : Registry L) :
    Passes (m s).2 (RegM.andThen m k s).2 := by
  rw [RegM.andThen]
  rcases m s with ⟨c | a, s'⟩
  · exact .refl
  · exact hk a s'

theorem passes_andThen (hm : ∀ s, Passes s (m s).2) (hk : ∀ a s, Passes s (k a s).2)
    (s : Registry L) : Passes s (RegM.andThen m k s).2 :=
  (hm s).trans (passes_andThen_right hk s)

end AndThen

theorem passes_getValue (v : Variant L) (U : Ty L) (s : Registry L) :
    Passes s (v.getValue P U s).2 := by
  apply passes_andThen (passes_getImpl v U)
  rintro (e | g) s <;> exact .refl

theorem passes_checkArgsImpl (args : List (Variant L)) (First : Nat) (Us : List (Ty L))
    (s : Registry L) : Passes s (FunctionWrapper.checkArgsImpl P args First Us s).2 := by
  induction Us generalizing First s with
  | nil => exact .refl
  | cons U Us ih =>
    rw [FunctionWrapper.checkArgsImpl]
    cases args[First]? with
    | none => exact .refl
    | some v =>
      have hpass := passes_checkGet (P := P) v U s
      dsimp only
      split
      next h =>
        rw [h] at hpass
        exact hpass
      next s' h =>
        rw [h] at hpass
        exact hpass.trans (ih (First + 1) s')

theorem passes_getArgs (args : List (Variant L)) (First : Nat) (Us : List (Ty L))
    (s : Registry L) : Passes s (FunctionWrapper.getArgs P args First Us s).2 := by
  induction Us generalizing First s with
  | nil => exact .refl
  | cons U Us ih =>
    rw [FunctionWrapper.getArgs]
    cases args[First]? with
    | none => exact .refl
    | some v =>
      apply passes_andThen (passes_getValue v _)
      intro a s
      apply passes_andThen (ih (First + 1))
      intro as s
      exact .refl

theorem passes_object (obj : Variant L) (classT : Option (Ty L)) (s : Registry L) :
    Passes s (FunctionWrapper.object P obj classT s).2 := by
  cases classT with
  | none => exact .refl
  | some C =>
    have hpass := obj.passes_canGet (P := P) C s
    rw [FunctionWrapper.object]
    dsimp only
    split
    next h =>
      rw [h] at hpass
      exact hpass
    next s' h =>
      rw [h] at hpass
      apply hpass.trans
      apply passes_andThen (passes_getValue obj C)
      intro a s
      exact .refl

variable (f : FunctionWrapper L V τ) (args : List (Variant L)) (obj : Variant L)

theorem passes_object_objectAndArgs (classT : Option (Ty L)) (s : Registry L) :
    Passes (FunctionWrapper.object P obj classT s).2
      (f.objectAndArgs P args obj classT s).2 := by
  apply passes_andThen_right
  rintro (e | a) s
  · exact .refl
  · apply passes_andThen (passes_getArgs args 0 _)
    intro as s
    exact .refl

theorem passes_objectAndArgs (classT : Option (Ty L)) (s : Registry L) :
    Passes s (f.objectAndArgs P args obj classT s).2 :=
  (passes_object obj classT s).trans (passes_object_objectAndArgs f args obj classT s)

theorem passes_checkArgs_operands (classT : Option (Ty L)) (s : Registry L) :
    Passes (f.checkArgs P args s).2 (f.operands P args obj classT s).2 := by
  apply passes_andThen_right
  rintro (e | _) s
  · exact .refl
  · exact passes_objectAndArgs f args obj classT s

theorem passes_operands (classT : Option (Ty L)) (s : Registry L) :
    Passes s (f.operands P args obj classT s).2 :=
  (passes_checkArgsImpl args 0 _ s).trans (passes_checkArgs_operands f args obj classT s)

theorem passes_call (hasReturn : Bool) (a : Option Addr) (as : List (Option Addr))
    (w : World L V) : Passes w.reg (f.call P hasReturn a as w).world.reg := by
  have hrun : Passes w.reg (f.afterCall P a as w).reg := run_steps _ w.reg
  unfold FunctionWrapper.call
  split
  · have hcreate := Variant.createWith_reg (P := P) f.returns f.traits.returnType
      (f.body a as w).result (f.afterCall P a as w)
    have hpass := passes_reflectID (P := P) f.traits.returnType (f.afterCall P a as w).reg
    rw [← hcreate] at hpass
    split <;> next h => rw [h] at hpass; exact hrun.trans hpass
  · exact hrun

theorem passes_operands_invokeImplWith (classT : Option (Ty L)) (hasReturn : Bool)
    (w : World L V) :
    Passes (f.operands P args obj classT w.reg).2
      (f.invokeImplWith P args obj classT hasReturn w).world.reg := by
  rw [FunctionWrapper.invokeImplWith]
  rcases f.operands P args obj classT w.reg with ⟨c | e | ⟨a, as⟩, s⟩
  · exact .refl
  · exact .refl
  · exact passes_call f hasReturn a as { w with reg := s }

theorem passes_invoke (w : World L V) : Passes w.reg (f.invoke P args obj w).world.reg := by
  rw [FunctionWrapper.invoke_eq]
  split
  · exact .refl
  · split
    · exact (passes_operands f args obj f.receiver w.reg).trans
        (passes_operands_invokeImplWith f args obj f.receiver f.traits.hasReturn w)
    · exact .refl

end Passes

section Gets

variable {s s' : Registry L} {v : Variant L} {U : Ty L}

/-- `v` can be got as a `U`: the type that the kind of `v` compares the request
with is the one whose id `v` carries.  This is what `CanGet` answers in `s` and in
every later registry, by `Made.canGet_iff`. -/
def gets (s : Registry L) (v : Variant L) (U : Ty L) : Bool :=
  v.type_.isValid &&
    match decorated v.base_.wrapper.kind U with
    | some T => s.id T = v.type_
    | none => false

/-- The variants there are in `s`: the void one and those that `Create` returned. -/
def Made (P : Program L) (τ : Traits L) (s : Registry L) (v : Variant L) : Prop :=
  v = .void ∨ ∃ T, Created P τ s T v

theorem Created.gets_iff {T : Ty L} (h : Created P τ s T v)
    (hlen : s.types_.length < 2 ^ 32) :
    gets s v U = true ↔ decorated v.base_.wrapper.kind U = some T := by
  obtain ⟨hs, hissued, c, hmake, _⟩ := h.issued
  obtain ⟨hid, hvalid⟩ := hissued.id_eq (ne_void_of_makeWrapper hmake) hlen
  have hvalid' : (s.id T).isValid = true := by rwa [hid]
  rw [gets, hvalid, Bool.true_and]
  cases hd : decorated v.base_.wrapper.kind U with
  | none => simp
  | some D =>
    rw [decide_eq_true_eq, ← hid, eq_comm, (hs.wellNumbered hlen).id_inj hvalid',
      Option.some.injEq]
    exact eq_comm

omit [DecidableEq L] in
theorem gets_void : gets s .void U = false := rfl

/-- From `s` on, `CanGet` agrees with `gets`. -/
theorem Made.canGet_iff (h : Made P τ s v) (hpass : Passes s s')
    (hlen : (v.canGet P U s').2.types_.length < 2 ^ 32) :
    (v.canGet P U s').1 = true ↔ gets s v U = true := by
  rcases h with rfl | ⟨T, hT⟩
  · have hnone : decorated (Variant.void : Variant L).base_.wrapper.kind U = none := rfl
    rw [Variant.canGet_eq, hnone, gets_void]
  · have hlen' := Nat.lt_of_le_of_lt (v.passes_canGet U s').length_le hlen
    rw [hT.gets_iff (Nat.lt_of_le_of_lt hpass.length_le hlen')]
    exact (hT.passes hpass).canGet_iff hlen

theorem Made.canGet_eq (h : Made P τ s v) (hpass : Passes s s')
    (hlen : s'.types_.length < 2 ^ 32) (hg : gets s v U = true) :
    v.canGet P U s' = (true, s') := by
  rcases h with rfl | ⟨T, hT⟩
  · rw [gets_void] at hg
    cases hg
  · rw [hT.gets_iff (Nat.lt_of_le_of_lt hpass.length_le hlen)] at hg
    exact (hT.passes hpass).canGet_eq hlen hg

theorem getValue_of_canGet (h : v.canGet P U s = (true, s')) :
    v.getValue P U s = (.ok v.base_.value_, s') := by
  obtain ⟨D, _, himpl⟩ := Variant.getImpl_of_canGet h
  exact RegM.andThen_of_ok himpl

theorem Made.getValue_eq (h : Made P τ s v) (hpass : Passes s s')
    (hlen : s'.types_.length < 2 ^ 32) (hg : gets s v U = true) :
    v.getValue P U s' = (.ok v.base_.value_, s') :=
  getValue_of_canGet (h.canGet_eq hpass hlen hg)

omit [DecidableEq L] in
/-- A by-value parameter is checked as `A` and extracted as `A&`, which comes to
the same. -/
theorem decorated_getArgType (kind : VariantWrapperType) (U : Ty L) :
    decorated kind (FunctionWrapper.getArgType U) = decorated kind U := by
  cases U with
  | obj A =>
    cases A with
    | leaf c v' a => cases kind <;> cases c <;> rfl
    | ptr c v' t => rfl
  | lref A => rfl
  | rref A => rfl

omit [DecidableEq L] in
theorem gets_getArgType (v : Variant L) (U : Ty L) :
    gets s v (FunctionWrapper.getArgType U) = gets s v U := by
  rw [gets, gets, decorated_getArgType]

end Gets

section Fits

variable {s s' : Registry L} {args : List (Variant L)} {ps : List (Variant L × Ty L)}

/-- None of the variants is refused. -/
def fits (s : Registry L) (ps : List (Variant L × Ty L)) : Bool :=
  ps.all fun p => gets s p.1 p.2

omit [DecidableEq L] in
theorem fits_cons (v : Variant L) (U : Ty L) :
    fits s ((v, U) :: ps) = (gets s v U && fits s ps) := List.all_cons

theorem passes_canGetAll (ps : List (Variant L × Ty L)) (s : Registry L) :
    Passes s (canGetAll P ps s).2 := by
  induction ps generalizing s with
  | nil => exact .refl
  | cons p ps ih =>
    obtain ⟨v, U⟩ := p
    have hpass := v.passes_canGet (P := P) U s
    rw [canGetAll]
    split
    next s' h =>
      rw [h] at hpass
      exact hpass.trans (ih s')
    next h =>
      rw [h] at hpass
      exact hpass

theorem canGetAll_eq (hps : ∀ p ∈ ps, Made P τ s p.1) (hpass : Passes s s')
    (hlen : s'.types_.length < 2 ^ 32) (hfits : fits s ps = true) :
    canGetAll P ps s' = (true, s') := by
  induction ps with
  | nil => rfl
  | cons p ps ih =>
    obtain ⟨v, U⟩ := p
    rw [fits_cons, Bool.and_eq_true] at hfits
    rw [canGetAll, (hps (v, U) List.mem_cons_self).canGet_eq hpass hlen hfits.1]
    exact ih (fun q hq => hps q (List.mem_cons_of_mem _ hq)) hfits.2

theorem canGetAll_iff (hps : ∀ p ∈ ps, Made P τ s p.1) (hpass : Passes s s')
    (hlen : (canGetAll P ps s').2.types_.length < 2 ^ 32) :
    (canGetAll P ps s').1 = fits s ps := by
  induction ps with
  | nil => rfl
  | cons p ps ih =>
    obtain ⟨v, U⟩ := p
    have hmade : Made P τ s v := hps (v, U) List.mem_cons_self
    rw [fits_cons]
    cases hg : gets s v U with
    | true =>
      have hlen' := Nat.lt_of_le_of_lt (passes_canGetAll _ s').length_le hlen
      have hcan := hmade.canGet_eq hpass hlen' hg
      rw [canGetAll, hcan] at hlen ⊢
      exact ih (fun q hq => hps q (List.mem_cons_of_mem _ hq)) hlen
    | false =>
      have hiff := hmade.canGet_iff (P := P) (U := U) hpass
      rw [hg] at hiff
      rw [canGetAll] at hlen ⊢
      rcases hcan : v.canGet P U s' with ⟨_ | _, s₁⟩
      · rfl
      · rw [hcan] at hlen hiff
        have hlen₁ := Nat.lt_of_le_of_lt (passes_canGetAll ps s₁).length_le hlen
        cases (hiff hlen₁).mp rfl

theorem getArgs_of_canGet {args : List (Variant L)} {s : Registry L} (First : Nat)
    (Us : List (Ty L)) (harity : Us.length = (args.drop First).length)
    (hget : ∀ p ∈ (args.drop First).zip Us,
      p.1.canGet P (FunctionWrapper.getArgType p.2) s = (true, s)) :
    FunctionWrapper.getArgs P args First Us s =
      (.ok ((args.drop First).map fun v => v.base_.value_), s) := by
  induction Us generalizing First with
  | nil =>
    rw [List.length_nil, eq_comm, List.length_eq_zero_iff] at harity
    rw [harity]
    rfl
  | cons U Us ih =>
    have hlt : First < args.length := by
      rw [List.length_cons, List.length_drop] at harity
      omega
    have hdrop := List.drop_eq_getElem_cons hlt
    rw [hdrop, List.zip_cons_cons] at hget
    rw [hdrop, List.length_cons, List.length_cons, Nat.add_right_cancel_iff] at harity
    have hvalue := getValue_of_canGet (hget (args[First], U) List.mem_cons_self)
    have htail := ih (First + 1) harity fun p hp => hget p (List.mem_cons_of_mem _ hp)
    rw [FunctionWrapper.getArgs, List.getElem?_eq_getElem hlt, hdrop, List.map_cons]
    exact (RegM.andThen_of_ok hvalue).trans (RegM.andThen_of_ok htail)

theorem getArgs_eq (hargs : ∀ v ∈ args, Made P τ s v) (hpass : Passes s s')
    (hlen : s'.types_.length < 2 ^ 32) (Us : List (Ty L)) (harity : Us.length = args.length)
    (hfits : fits s (args.zip Us) = true) :
    FunctionWrapper.getArgs P args 0 Us s' = (.ok (args.map fun v => v.base_.value_), s') := by
  refine getArgs_of_canGet 0 Us harity fun p hp => ?_
  apply (hargs p.1 (List.of_mem_zip hp).1).canGet_eq hpass hlen
  rw [gets_getArgType]
  exact List.all_eq_true.mp hfits p hp

/-- The place of the first variant that is refused. -/
def firstRefused (s : Registry L) (ps : List (Variant L × Ty L)) : Option Nat :=
  ps.findIdx? fun p => !gets s p.1 p.2

omit [DecidableEq L] in
theorem firstRefused_eq_none : firstRefused s ps = none ↔ fits s ps = true := by
  simp [firstRefused, fits]

/-- `CheckArgs` reports the first argument that cannot be got as its parameter type. -/
theorem checkArgsImpl_first (hargs : ∀ v ∈ args, Made P τ s v) (hpass : Passes s s')
    (First : Nat) (Us : List (Ty L)) (harity : Us.length = (args.drop First).length)
    (hlen : (FunctionWrapper.checkArgsImpl P args First Us s').2.types_.length < 2 ^ 32) :
    (FunctionWrapper.checkArgsImpl P args First Us s').1 =
      match firstRefused s ((args.drop First).zip Us) with
      | none => .ok (.ok ())
      | some i => .ok (.error { error := .canNotGet, index := First + i }) := by
  induction Us generalizing First s' with
  | nil =>
    rw [List.zip_nil_right]
    rfl
  | cons U Us ih =>
    have hlt : First < args.length := by
      rw [List.length_cons, List.length_drop] at harity
      omega
    have hdrop := List.drop_eq_getElem_cons hlt
    have hiff := (hargs args[First] (List.getElem_mem hlt)).canGet_iff (P := P) (U := U) hpass
    have hpass₁ := (args[First]).passes_canGet (P := P) U s'
    rw [hdrop, List.length_cons, List.length_cons, Nat.add_right_cancel_iff] at harity
    rw [FunctionWrapper.checkArgsImpl, List.getElem?_eq_getElem hlt] at hlen ⊢
    rw [hdrop, List.zip_cons_cons, firstRefused, List.findIdx?_cons]
    dsimp only [Variant.checkGet] at hlen ⊢
    rcases hcan : (args[First]).canGet P U s' with ⟨_ | _, s₁⟩ <;>
      rw [hcan] at hlen hiff hpass₁ <;> dsimp only at hlen ⊢
    · have hg : gets s args[First] U = false := by simpa using hiff hlen
      rw [hg]
      rfl
    · have hlen₁ := Nat.lt_of_le_of_lt
        (passes_checkArgsImpl (P := P) args (First + 1) Us s₁).length_le hlen
      rw [(hiff hlen₁).mp rfl, ih (hpass.trans hpass₁) (First + 1) harity hlen, firstRefused]
      cases ((args.drop (First + 1)).zip Us).findIdx? fun p => !gets s p.1 p.2 with
      | none => rfl
      | some i =>
        have hindex : First + 1 + i = First + (i + 1) := by omega
        simp [hindex]

end Fits

end ReflCpp
