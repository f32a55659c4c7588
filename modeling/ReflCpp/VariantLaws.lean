import ReflCpp.RegistryLaw
import ReflCpp.Variant

namespace ReflCpp

open Cpp

variable {L V : Type}

/-- What a kind compares a request with: the type it must have been created as
for the request to be granted. -/
def decorated : VariantWrapperType → Ty L → Option (Ty L)
  | .value, .obj A => if A.isPointer then none else some (.obj A.removeConst)
  | .value, .lref A => some (.obj A.removeConst)
  | .constValue, .obj A => if !A.isPointer && A.isConst then some (.obj A) else none
  | .constValue, .lref A => if A.isConst then some (.obj A) else none
  | .lvalueRef, .obj A => if A.isPointer then none else some (.lref A.removeConst)
  | .lvalueRef, .lref A => some (.lref A.removeConst)
  | .constLvalueRef, .obj A => if !A.isPointer && A.isConst then some (.lref A) else none
  | .constLvalueRef, .lref A => if A.isConst then some (.lref A) else none
  | .rvalueRef, .rref A => some (.rref A.removeConst)
  | .constRvalueRef, .rref A => if A.isConst then some (.rref A) else none
  | .pointer, .obj (.ptr false false A) => some (.obj (.ptr false false A.removeConst))
  | .constPointer, .obj (.ptr false false A) =>
    if A.isConst then some (.obj (.ptr false false A)) else none
  | _, _ => none

/-- The class a granted request casts the wrapper to. -/
def castTarget : VariantWrapperType → Ty L → Ty L
  | .value, .obj A => .lref A
  | .constValue, .obj A => .lref A
  | .constPointer, .obj (.ptr c v A) => .obj (.ptr c v A.removeConst)
  | _, D => D

def handedOut : Ty L → Ty L
  | .obj (.leaf c v a) => .lref (.leaf c v a)
  | U => U

def Matcher.instances (m : Matcher × Obj L) : Ty L × Ty L × Ty L :=
  (m.1.equals.inst m.2, m.1.result.inst m.2, m.1.cast.inst m.2)

/-- The tables of `VariantMatcher`, read off: partial ordering always decides,
and the chosen body follows from the kind and the request. -/
theorem matcher_instances (kind : VariantWrapperType) (U : Ty L) :
    (matcher kind U).map Matcher.instances =
      (decorated kind U).map fun D => (D, handedOut U, castTarget kind D) := by
  cases U with
  | obj A =>
    cases A with
    | leaf c v a => cases kind <;> cases c <;> cases v <;> rfl
    | ptr c v A =>
      cases A <;> rename_i c' v' _ <;>
        cases kind <;> cases c <;> cases v <;> cases c' <;> cases v' <;> rfl
  | lref A => cases A <;> rename_i c v _ <;> cases kind <;> cases c <;> cases v <;> rfl
  | rref A => cases A <;> rename_i c v _ <;> cases kind <;> cases c <;> cases v <;> rfl

theorem matcher_of_decorated {kind : VariantWrapperType} {U D : Ty L}
    (h : decorated kind U = some D) :
    ∃ m R, matcher kind U = some (m, R) ∧ m.equals.inst R = D ∧
      m.result.inst R = handedOut U ∧ m.cast.inst R = castTarget kind D := by
  have hm := matcher_instances kind U
  rw [h] at hm
  obtain ⟨⟨m, R⟩, hmR, hinst⟩ := Option.map_eq_some_iff.mp hm
  simp only [Matcher.instances, Prod.mk.injEq] at hinst
  exact ⟨m, R, hmR, hinst⟩

theorem matcher_of_not_decorated {kind : VariantWrapperType} {U : Ty L}
    (h : decorated kind U = none) : matcher kind U = none := by
  have hm := matcher_instances kind U
  rw [h] at hm
  exact Option.map_eq_none_iff.mp hm

variable [DecidableEq L] {P : Program L}

section Equals

variable {s s' s'' : Registry L} {D : Ty L} {i : TypeID}

theorem TypeID.equals_snd (i : TypeID) (D : Ty L) (s : Registry L) :
    (i.equals P D s).2 = (reflectID P D s).2 := by
  rw [TypeID.equals]
  split <;> next h => rw [h]

theorem TypeID.equals_iff (hs : Passes .init s) (hi : 1 ≤ i.value)
    (hi' : i.value ≤ s.types_.length) (hlen : (i.equals P D s).2.types_.length < 2 ^ 32) :
    (i.equals P D s).1 = true ↔ s.id D = i := by
  have hws : WellNumbered s := by
    apply hs.wellNumbered
    apply Nat.lt_of_le_of_lt _ hlen
    rw [TypeID.equals_snd]
    exact (passes_reflectID D s).length_le
  have hinvalid : ∀ U, (s.id U).isValid = false → s.id U ≠ i := by
    rintro U hU rfl
    rw [Bool.eq_false_iff, ne_eq, TypeID.isValid_iff] at hU
    omega
  unfold TypeID.equals at hlen ⊢
  rcases reflectID_cases (P := P) D s with
    ⟨rfl, h⟩ | ⟨_, hid, h⟩ | ⟨_, hid, e, s', h, _⟩ | ⟨_, hid, s', h, hsteps, _⟩ <;>
    rw [h] at hlen ⊢ <;> simp only [decide_eq_true_eq]
  · have hvoid : (s.id Ty.void).isValid = false := by
      rw [← Bool.not_eq_true, hws.isValid_iff]
      exact hws.void_notMem
    refine iff_of_false ?_ (hinvalid _ hvoid)
    rintro rfl
    exact absurd hi (by decide)
  · exact eq_comm
  · simpa using hinvalid _ hid
  · refine iff_of_false ?_ (hinvalid _ hid)
    rintro rfl
    have hle := hsteps.length_le
    rw [Registry.length_registered] at hlen
    rw [TypeID.value_ofSize, Nat.mod_eq_of_lt hlen] at hi'
    omega

theorem TypeID.equals_of_id_eq (hD : D ≠ Ty.void) (hid : s.id D = i) (hi : i.isValid = true) :
    i.equals P D s = (true, s) := by
  rw [← hid] at hi
  rw [TypeID.equals, reflectID_of_isValid hD hi, hid]
  simp

/-- Once a valid id has been found equal to that of a type, it always is. -/
theorem TypeID.equals_stable (hi : i.isValid = true) (h : i.equals P D s = (true, s'))
    (hpass : Passes s' s'') : i.equals P D s'' = (true, s'') := by
  rw [TypeID.equals] at h
  rcases hr : reflectID P D s with ⟨e | j, s₁⟩ <;> rw [hr] at h
  · cases h
  · obtain ⟨hij, rfl⟩ : decide (i = j) = true ∧ s₁ = s' := by simpa using h
    have hij : i = j := of_decide_eq_true hij
    subst hij
    have hD : D ≠ Ty.void := by
      rintro rfl
      rw [reflectID_void] at hr
      cases hr
      cases hi
    have hid := id_of_reflectID_ok hD hr
    rw [← hid] at hi
    exact TypeID.equals_of_id_eq hD ((hpass.id_of_isValid hi).trans hid) (hid ▸ hi)

end Equals

namespace Variant

section MakeShared

omit [DecidableEq L]

@[simp] theorem makeShared_reg (c : WrapperClass L × Binding) (data : Addr) (w : World L V) :
    (makeShared c data w).2.reg = w.reg := by
  unfold makeShared
  split <;> rfl

@[simp] theorem makeShared_wrapper (c : WrapperClass L × Binding) (data : Addr)
    (w : World L V) : (makeShared c data w).1.wrapper = c.1 := by
  unfold makeShared
  split <;> rfl

end MakeShared

theorem createWith_reg (c : WrapperClass L × Binding) (T : Ty L) (data : Addr)
    (w : World L V) : (createWith P c T data w).2.reg = (reflectID P T w.reg).2 := by
  unfold createWith
  split
  next h => rw [h]
  next h => simp [h]

theorem createWith_ok {c : WrapperClass L × Binding} {T : Ty L} {data : Addr}
    {w w' : World L V} {v : Variant L} (h : createWith P c T data w = (.ok v, w')) :
    ∃ s, reflectID P T w.reg = (.ok v.type_, s) ∧
      makeShared c data { w with reg := s } = (v.base_, w') := by
  unfold createWith at h
  split at h
  · cases h
  next i s hid =>
    cases h
    exact ⟨s, hid, rfl⟩

end Variant

variable {τ : Traits L} {s s' : Registry L} {T U D : Ty L} {v : Variant L}

/-- Before `s`, `Variant::Create<T>` has returned `v`. -/
def Created (P : Program L) (τ : Traits L) (s : Registry L) (T : Ty L) (v : Variant L) :
    Prop :=
  ∃ (V : Type) (data : Addr) (w w' : World L V), Passes .init w.reg ∧
    Variant.create P τ T data w = some (.ok v, w') ∧ Passes w'.reg s

theorem ne_void_of_makeWrapper {c : WrapperClass L × Binding} (h : makeWrapper τ T = some c) :
    T ≠ Ty.void := by
  rintro rfl
  cases h

theorem Created.passes (h : Created P τ s T v) (hs : Passes s s') : Created P τ s' T v := by
  obtain ⟨V, data, w, w', hw, hc, hs₀⟩ := h
  exact ⟨V, data, w, w', hw, hc, hs₀.trans hs⟩

theorem Created.issued (h : Created P τ s T v) :
    Passes .init s ∧ Issued P s T v.type_ ∧
      ∃ c, makeWrapper τ T = some c ∧ v.base_.wrapper = c.1 := by
  obtain ⟨V, data, w, w', hw, hc, hs⟩ := h
  obtain ⟨c, hmake, hc⟩ := Option.map_eq_some_iff.mp hc
  have hreg : w'.reg = (reflectID P T w.reg).2 := by
    rw [← Variant.createWith_reg c T data w, hc]
  obtain ⟨s₁, hid, hbase⟩ := Variant.createWith_ok hc
  have hpass := passes_reflectID (P := P) T w.reg
  rw [← hreg] at hpass
  have hs₁ : w'.reg = s₁ := by rw [hreg, hid]
  have hwrapper := Variant.makeShared_wrapper c data { w with reg := s₁ }
  rw [hbase] at hwrapper
  exact ⟨(hw.trans hpass).trans hs, ⟨w.reg, s₁, hw, hid, hs₁ ▸ hs⟩, c, hmake, hwrapper⟩

namespace Variant

theorem canGet_eq (v : Variant L) (U : Ty L) :
    v.canGet P U = match decorated v.base_.wrapper.kind U with
      | some D => v.type_.equals P D
      | none => fun s => (false, s) := by
  unfold canGet VariantMatcher.match
  cases h : decorated v.base_.wrapper.kind U with
  | none => rw [matcher_of_not_decorated h]
  | some D =>
    obtain ⟨m, R, hm, rfl, _⟩ := matcher_of_decorated h
    rw [hm]

theorem passes_canGet (v : Variant L) (U : Ty L) (s : Registry L) :
    Passes s (v.canGet P U s).2 := by
  rw [canGet_eq]
  split
  next D _ =>
    rw [TypeID.equals_snd]
    exact passes_reflectID D s
  · exact .refl

omit [DecidableEq L] in
theorem findSome?_getKinds (kind : VariantWrapperType) (U : Ty L) :
    (getKinds.findSome? fun k => if kind = k then matcher k U else none) = matcher kind U := by
  cases kind <;> simp [getKinds, List.findSome?_cons] <;> first | rfl | split <;> simp_all

theorem getImpl_of_canGet {v : Variant L} {U : Ty L} {s s' : Registry L}
    (h : v.canGet P U s = (true, s')) :
    ∃ D, decorated v.base_.wrapper.kind U = some D ∧
      v.getImpl P U s = (.ok (.ok ⟨castTarget v.base_.wrapper.kind D, getResult U,
        v.base_.value_⟩), s') := by
  cases hd : decorated v.base_.wrapper.kind U with
  | none =>
    rw [canGet_eq, hd] at h
    cases h
  | some D =>
    refine ⟨D, rfl, ?_⟩
    obtain ⟨m, R, hm, _, _, hcast⟩ := matcher_of_decorated hd
    have hvoid : v.isVoid = false := by
      rw [isVoid, decide_eq_false_iff_not]
      intro hk
      rw [hk] at hd
      cases hd
    unfold getImpl checkGet
    rw [findSome?_getKinds, hm, h, hvoid, ← hcast]
    rfl

theorem canGet_stable {v : Variant L} {U U' : Ty L} {s s' s'' : Registry L}
    (hv : v.type_.isValid = true)
    (hU : decorated v.base_.wrapper.kind U' = decorated v.base_.wrapper.kind U)
    (h : v.canGet P U s = (true, s')) (hpass : Passes s' s'') :
    v.canGet P U' s'' = (true, s'') := by
  rw [canGet_eq] at h ⊢
  rw [hU]
  cases hd : decorated v.base_.wrapper.kind U with
  | none =>
    rw [hd] at h
    cases h
  | some D =>
    rw [hd] at h
    exact TypeID.equals_stable hv h hpass

/-- The error of `Get` for a variant that cannot be got. -/
def fault (v : Variant L) : VariantGetError :=
  if v.isVoid then .isVoid else .canNotGet

omit [DecidableEq L] in
theorem fault_of_isVoid {v : Variant L} (h : v.isVoid = true) : v.fault = .isVoid := if_pos h

omit [DecidableEq L] in
theorem fault_of_not_isVoid {v : Variant L} (h : v.isVoid = false) : v.fault = .canNotGet := by
  rw [fault, h]
  rfl

theorem canGet_of_isVoid {v : Variant L} {U : Ty L} {s : Registry L} (h : v.isVoid = true) :
    v.canGet P U s = (false, s) := by
  rw [canGet_eq, of_decide_eq_true h]
  rfl

theorem getImpl_of_not_canGet {v : Variant L} {U : Ty L} {s s' : Registry L}
    (h : v.canGet P U s = (false, s')) :
    v.getImpl P U s = (.ok (.error v.fault), s') := by
  unfold getImpl fault
  cases hvoid : v.isVoid with
  | true =>
    rw [canGet_of_isVoid hvoid] at h
    cases h
    rfl
  | false =>
    rw [if_neg Bool.false_ne_true, checkGet, h]
    rfl

/-- `Get` agrees with `CanGet`, and always reaches a `return`. -/
theorem getImpl_cases (v : Variant L) (U : Ty L) (s : Registry L) :
    (∃ s', v.canGet P U s = (false, s') ∧ v.getImpl P U s = (.ok (.error v.fault), s')) ∨
    (∃ D s', v.canGet P U s = (true, s') ∧ decorated v.base_.wrapper.kind U = some D ∧
      v.getImpl P U s = (.ok (.ok ⟨castTarget v.base_.wrapper.kind D, getResult U,
        v.base_.value_⟩), s')) := by
  rcases hcan : v.canGet P U s with ⟨_ | _, s'⟩
  · exact .inl ⟨s', rfl, getImpl_of_not_canGet hcan⟩
  · obtain ⟨D, hD, himpl⟩ := getImpl_of_canGet hcan
    exact .inr ⟨D, s', rfl, hD, himpl⟩

end Variant

theorem Created.canGet_iff (h : Created P τ s T v)
    (hlen : (v.canGet P U s).2.types_.length < 2 ^ 32) :
    (v.canGet P U s).1 = true ↔ decorated v.base_.wrapper.kind U = some T := by
  obtain ⟨hs, hissued, c, hmake, _⟩ := h.issued
  have hlen₀ : s.types_.length < 2 ^ 32 :=
    Nat.lt_of_le_of_lt (v.passes_canGet U s).length_le hlen
  have hws := hs.wellNumbered hlen₀
  obtain ⟨hid, hvalid⟩ := hissued.id_eq (ne_void_of_makeWrapper hmake) hlen₀
  rw [← hid] at hvalid
  obtain ⟨h₁, h₂⟩ := hws.id_mem hvalid
  rw [hid] at h₁ h₂
  rw [Variant.canGet_eq] at hlen ⊢
  cases hd : decorated v.base_.wrapper.kind U with
  | none => simp
  | some D =>
    rw [hd] at hlen
    rw [TypeID.equals_iff hs h₁ h₂ hlen, ← hid, eq_comm, hws.id_inj hvalid, Option.some.injEq]
    exact eq_comm

theorem Created.canGet_eq (h : Created P τ s T v) (hlen : s.types_.length < 2 ^ 32)
    (hd : decorated v.base_.wrapper.kind U = some T) : v.canGet P U s = (true, s) := by
  obtain ⟨_, hissued, c, hmake, _⟩ := h.issued
  have hv := ne_void_of_makeWrapper hmake
  obtain ⟨hid, hvalid⟩ := hissued.id_eq hv hlen
  rw [Variant.canGet_eq, hd]
  exact TypeID.equals_of_id_eq hv hid hvalid

end ReflCpp
