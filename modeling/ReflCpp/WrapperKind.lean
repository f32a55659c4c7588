import ReflCpp.VariantWrapper

namespace ReflCpp

open Cpp

variable {L : Type} (τ : Traits L)

/-- The wrapper that `MakeWrapper<T>` chooses when it compiles. -/
def wrapperKind : Ty L → VariantWrapperType
  | .lref D => if D.isConst then .constLvalueRef else .lvalueRef
  | .rref D => if D.isConst then .constRvalueRef else .rvalueRef
  | .obj D =>
    if D.isPointer then if D.removePointer.isConst then .constPointer else .pointer
    else if τ.isCopyConstructible D then if D.isConst then .constValue else .value
    else if D.isConst then .constLvalueRef
    else .lvalueRef

def wrapperBinding : Ty L → Binding
  | .lref D => if D.isPointer then .temporary else .direct
  | .rref D => if D.isPointer then .temporary else .direct
  | .obj D =>
    if !D.isPointer && τ.isCopyConstructible D then .copied (τ.cells D) else .direct

def cleanT (T : Ty L) : Obj L := T.removeReference.removePointer.removeConst

variable {τ}

theorem isCopyConstructible_removeConst (D : Obj L) :
    τ.isCopyConstructible D.removeConst = τ.isCopyConstructible D := by
  cases D with
  | leaf c v a => cases a <;> rfl
  | ptr c v t => rfl

theorem isCopyConstructible_addConst (D : Obj L) :
    τ.isCopyConstructible D.addConst = τ.isCopyConstructible D := by
  cases D with
  | leaf c v a => cases a <;> rfl
  | ptr c v t => rfl

theorem removePointer_of_not_isPointer {D : Obj L} (h : D.isPointer = false) :
    D.removePointer = D := by
  cases D with
  | leaf => rfl
  | ptr => cases h

variable [DecidableEq L] {D target : Obj L} {T : Ty L} {c : WrapperClass L × Binding}
  {b : Binding}

section Bind

omit [DecidableEq L] in
theorem qualify_self (D : Obj L) : D.qualify D.isConst D.isVolatile = D := by
  cases D <;> simp [Cpp.Obj.qualify, Cpp.Obj.isConst, Cpp.Obj.isVolatile]

theorem bindLValue_self (D : Obj L) : bindLValue τ D D = some .direct := by
  rw [bindLValue, if_pos (qualify_self D)]

theorem bindLValue_eq (h : bindLValue τ target D = some b) :
    b = if D.qualify target.isConst target.isVolatile = target then .direct
      else .temporary := by
  unfold bindLValue at h
  split at h
  next heq =>
    rw [if_pos heq]
    exact (Option.some.inj h).symm
  next hne =>
    rw [if_neg hne]
    split at h <;> cases h
    rfl

theorem bindRValue_eq (h : bindRValue τ target D = some b) :
    b = if D.qualify target.isConst target.isVolatile = target then .direct
      else .temporary := by
  unfold bindRValue at h
  split at h
  next heq =>
    rw [if_pos heq]
    exact (Option.some.inj h).symm
  next hne =>
    rw [if_neg hne]
    split at h <;> cases h
    rfl

omit [DecidableEq L] in
theorem qualify_ne_of_depth (hD : D.isPointer = true)
    (h : target.depth = D.removePointer.depth) (c v : Bool) : D.qualify c v ≠ target := by
  cases D with
  | leaf => cases hD
  | ptr c' v' t =>
    rintro rfl
    simp only [Cpp.Obj.removePointer, Cpp.Obj.depth_qualify, Cpp.Obj.depth] at h
    omega

omit [DecidableEq L] in
theorem depth_target (D : Obj L) :
    (if D.isConst then D.removePointer.removeConst.addConst
      else D.removePointer.removeConst).depth = D.removePointer.depth := by
  split <;> simp [Cpp.Obj.addConst, Cpp.Obj.removeConst]

omit [DecidableEq L] in
theorem target_eq (hD : D.isPointer = false) :
    (if D.isConst then D.removePointer.removeConst.addConst
      else D.removePointer.removeConst) = D := by
  rw [removePointer_of_not_isPointer hD]
  split
  next hc => exact Cpp.Obj.addConst_removeConst hc
  next hc => exact Cpp.Obj.removeConst_of_not_isConst (by simpa using hc)

omit [DecidableEq L] in
/-- The parameter of a reference wrapper binds to the object itself unless a pointer
has been removed from its type. -/
theorem qualify_eq_target_iff
    (htarget : target = if D.isConst then D.removePointer.removeConst.addConst
      else D.removePointer.removeConst) :
    D.qualify target.isConst target.isVolatile = target ↔ D.isPointer = false := by
  cases hD : D.isPointer with
  | false =>
    rw [htarget, target_eq hD]
    exact iff_of_true (qualify_self D) rfl
  | true =>
    have hdepth : target.depth = D.removePointer.depth := by rw [htarget, depth_target]
    exact iff_of_false (qualify_ne_of_depth hD hdepth _ _) (by simp)

theorem refWrapper_eq {bind : Obj L → Obj L → Option Binding} {kind kind' : VariantWrapperType}
    (hbind : ∀ target b, bind target D = some b →
      b = if D.qualify target.isConst target.isVolatile = target then .direct else .temporary)
    (h : (if D.isConst then
        (bind D.removePointer.removeConst.addConst D).map
          (⟨kind, D.removePointer.removeConst⟩, ·)
      else (bind D.removePointer.removeConst D).map
        (⟨kind', D.removePointer.removeConst⟩, ·)) = some c) :
    c = (⟨if D.isConst then kind else kind', D.removePointer.removeConst⟩,
      if D.isPointer then .temporary else .direct) := by
  have hiff : ∀ target, target = (if D.isConst then D.removePointer.removeConst.addConst
      else D.removePointer.removeConst) →
      (D.qualify target.isConst target.isVolatile = target ↔ D.isPointer = false) :=
    fun _ => qualify_eq_target_iff
  split at h <;> next hc =>
    simp only [hc, if_true, if_false, Bool.false_eq_true] at hiff ⊢
    obtain ⟨b, hb, rfl⟩ := Option.map_eq_some_iff.mp h
    rw [hbind _ b hb, if_congr (hiff _ rfl) rfl rfl]
    cases D.isPointer <;> rfl

end Bind

theorem makeLValueRefWrapper_eq
    (h : makeLValueRefWrapper τ D D.removePointer.removeConst D.isConst = some c) :
    c = (⟨if D.isConst then .constLvalueRef else .lvalueRef, D.removePointer.removeConst⟩,
      if D.isPointer then .temporary else .direct) :=
  refWrapper_eq (fun _ _ => bindLValue_eq) h

theorem makeRValueRefWrapper_eq
    (h : makeRValueRefWrapper τ D D.removePointer.removeConst D.isConst = some c) :
    c = (⟨if D.isConst then .constRvalueRef else .rvalueRef, D.removePointer.removeConst⟩,
      if D.isPointer then .temporary else .direct) :=
  refWrapper_eq (fun _ _ => bindRValue_eq) h

theorem makeValueWrapper_eq
    (hmake : τ.isCopyConstructible D.removeConst || τ.isMoveConstructible D.removeConst)
    (h : makeValueWrapper τ D D.removeConst = some c) :
    c = (⟨if τ.isCopyConstructible D then if D.isConst then .constValue else .value
        else .constLvalueRef, D.removeConst⟩,
      if τ.isCopyConstructible D then .copied (τ.cells D) else .direct) ∧
    (τ.isCopyConstructible D = false → D.isConst = true) := by
  unfold makeValueWrapper at h
  rw [isCopyConstructible_removeConst] at hmake
  split at h
  next hcopy =>
    simp only [hcopy, if_true]
    rw [Traits.cells_removeConst] at h
    split at h
    next hc => cases h; simp [hc]
    next hc =>
      split at h
      · cases h; simp [hc]
      · cases h
  next hcopy =>
    split at h
    · cases h
    next hmove =>
      have hc : D.isConst = true := by
        cases hc : D.isConst with
        | true => rfl
        | false =>
          rw [Cpp.Obj.removeConst_of_not_isConst hc] at hmake
          simp [hcopy, hmove] at hmake
      rw [Cpp.Obj.addConst_removeConst hc, bindLValue_self] at h
      cases h
      simp [hcopy, hc]

theorem makeWrapper_eq (h : makeWrapper τ T = some c) :
    c = (⟨wrapperKind τ T, cleanT T⟩, wrapperBinding τ T) := by
  unfold makeWrapper at h
  split at h
  · cases h
  · cases T with
    | lref D => exact makeLValueRefWrapper_eq h
    | rref D => exact makeRValueRefWrapper_eq h
    | obj D =>
      simp only [Cpp.Ty.removeReference] at h
      cases hD : D.isPointer with
      | true =>
        rw [hD, if_pos rfl, makePointerWrapper] at h
        cases h
        simp only [wrapperKind, wrapperBinding, cleanT, Cpp.Ty.removeReference, hD, if_true,
          Bool.not_true, Bool.false_and, Bool.false_eq_true, if_false]
        split <;> rfl
      | false =>
        simp only [hD, Bool.false_eq_true, if_false, removePointer_of_not_isPointer hD] at h
        simp only [wrapperKind, wrapperBinding, cleanT, Cpp.Ty.removeReference, hD,
          removePointer_of_not_isPointer hD, Bool.false_eq_true, if_false, Bool.not_false,
          Bool.true_and]
        split at h
        next hmake =>
          obtain ⟨rfl, hc⟩ := makeValueWrapper_eq hmake h
          split
          · rfl
          next hcopy => rw [hc (by simpa using hcopy)]; rfl
        next hmake =>
          have hcopy : τ.isCopyConstructible D = false := by
            rw [isCopyConstructible_removeConst] at hmake
            simp_all
          have href := makeLValueRefWrapper_eq
            (D := D) (by rwa [removePointer_of_not_isPointer hD])
          rw [href, hcopy, hD, removePointer_of_not_isPointer hD]
          rfl

end ReflCpp
