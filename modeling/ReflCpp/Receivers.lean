import ReflCpp.InvokeLaws
import ReflCpp.RoundTrip

namespace ReflCpp

open Cpp

variable {L V : Type} {τ : Traits L}

/-- The types an object may have been created as for a member function of `C` to be run
on it. -/
def receiverTypes (C : Obj L) : Qualifier → List (Ty L)
  | .none => [.obj C, .lref C]
  | .const => [.obj C, .obj C.addConst, .lref C, .lref C.addConst]
  | .lref => [.obj C, .lref C]
  | .constLref => [.obj C, .obj C.addConst, .lref C, .lref C.addConst]
  | .rref => [.rref C]
  | .constRref => [.rref C, .rref C.addConst]

section Decorated

variable {A : Obj L} {T : Ty L}

/-- A created type and a request for `A` with the same reference: what is not const is
granted as const too. -/
theorem const_request_iff {D : Obj L} :
    (if D.isConst then A.isConst = true ∧ A = D else A.removeConst = D) ↔
      D = A.removeConst ∨ A.isConst = true ∧ D = A := by
  cases hD : D.isConst with
  | true =>
    have hne : D ≠ A.removeConst := by
      rintro rfl
      simp at hD
    simp only [if_true, hne, false_or]
    exact and_congr_right fun _ => eq_comm
  | false =>
    have hnot : ¬ (A.isConst = true ∧ D = A) := by
      rintro ⟨hA, rfl⟩
      rw [hA] at hD
      cases hD
    simp only [Bool.false_eq_true, if_false, hnot, or_false]
    exact eq_comm

theorem decorated_rref_iff :
    decorated (wrapperKind τ T) (.rref A) = some T ↔
      T = .rref A.removeConst ∨ A.isConst = true ∧ T = .rref A := by
  cases T with
  | obj D =>
    refine iff_of_false ?_ (by simp)
    simp only [wrapperKind]
    split
    · split <;> simp [decorated]
    · split
      · split <;> simp [decorated]
      · split <;> simp [decorated]
  | lref D =>
    refine iff_of_false ?_ (by simp)
    simp only [wrapperKind]
    split <;> simp [decorated]
  | rref D =>
    simp only [Cpp.Ty.rref.injEq]
    rw [← const_request_iff]
    cases hD : D.isConst <;> simp [wrapperKind, hD, decorated]

theorem decorated_lref_iff (hp : A.isPointer = false) (hcopy : τ.isCopyConstructible A = true) :
    decorated (wrapperKind τ T) (.lref A) = some T ↔
      T = .obj A.removeConst ∨ T = .lref A.removeConst ∨
        A.isConst = true ∧ (T = .obj A ∨ T = .lref A) := by
  cases T with
  | obj D =>
    simp only [Cpp.Ty.obj.injEq, reduceCtorEq, or_false, false_or]
    rw [← const_request_iff]
    cases hDp : D.isPointer with
    | true =>
      have hne : A ≠ D ∧ A.removeConst ≠ D := by
        constructor <;> rintro rfl <;> simp_all
      have hfalse : decorated (wrapperKind τ (.obj D)) (.lref A) = none := by
        simp only [wrapperKind, hDp, if_true]
        split <;> rfl
      rw [hfalse]
      split <;> simp [hne]
    | false =>
      cases hDc : τ.isCopyConstructible D with
      | true => cases hD : D.isConst <;> simp [wrapperKind, hDp, hDc, hD, decorated]
      | false =>
        have hne : A ≠ D ∧ A.removeConst ≠ D := by
          constructor <;> rintro rfl
          · rw [hcopy] at hDc
            cases hDc
          · rw [isCopyConstructible_removeConst, hcopy] at hDc
            cases hDc
        cases hD : D.isConst <;> simp [wrapperKind, hDp, hDc, hD, decorated, hne]
  | lref D =>
    simp only [Cpp.Ty.lref.injEq, reduceCtorEq, false_or]
    rw [← const_request_iff]
    cases hD : D.isConst <;> simp [wrapperKind, hD, decorated]
  | rref D =>
    refine iff_of_false ?_ (by simp)
    simp only [wrapperKind]
    split <;> simp [decorated]

end Decorated

/-- The unqualified class `c`. -/
def classObj (c : L) : Obj L := .leaf false false (.user c)

section Receiver

variable [DecidableEq L] {P : Program L} {f : FunctionWrapper L V τ} {c : L} {q : Qualifier}
  {T : Ty L} {s : Registry L} {obj : Variant L}

theorem receiver_eq (hf : f.type.receiver = some (c, q)) :
    f.receiver = some (match q with
      | .none | .lref => .lref (classObj c)
      | .const | .constLref => .lref (classObj c).addConst
      | .rref => .rref (classObj c)
      | .constRref => .rref (classObj c).addConst) := by
  unfold FunctionWrapper.receiver FunctionWrapper.traits
  obtain ⟨⟨receiver, ret, args⟩, _, _, _, _, _⟩ := f
  cases hf
  cases q <;> rfl

theorem gets_receiver_iff (hf : f.type.receiver = some (c, q))
    (hcopy : τ.isCopyConstructible (classObj c) = true) (hobj : Created P τ s T obj)
    (hlen : s.types_.length < 2 ^ 32) :
    (∀ U, f.receiver = some U → gets s obj U = true) ↔ T ∈ receiverTypes (classObj c) q := by
  obtain ⟨_, _, d, hmake, hwrapper⟩ := hobj.issued
  have hkind : obj.base_.wrapper.kind = wrapperKind τ T := by
    rw [hwrapper, makeWrapper_eq hmake]
  have hplain : (classObj c).isConst = false := rfl
  have hclean : (classObj c).removeConst = classObj c := rfl
  have hconst : (classObj c).addConst.removeConst = classObj c := rfl
  have hpointer : (classObj c).addConst.isPointer = false := rfl
  have hcopyConst : τ.isCopyConstructible (classObj c).addConst = true := by
    rw [isCopyConstructible_addConst, hcopy]
  simp only [receiver_eq hf, Option.some.injEq, forall_eq', hobj.gets_iff hlen, hkind]
  cases q with
  | none | lref =>
    simp [decorated_lref_iff (A := classObj c) rfl hcopy, hplain, hclean, receiverTypes]
  | const | constLref =>
    simp [decorated_lref_iff hpointer hcopyConst, hconst, receiverTypes]
    tauto
  | rref => simp [decorated_rref_iff, hplain, hclean, receiverTypes]
  | constRref => simp [decorated_rref_iff, hconst, receiverTypes]

theorem not_isVoid_of_created (hobj : Created P τ s T obj) : obj.isVoid = false := by
  obtain ⟨_, _, d, hmake, hwrapper⟩ := hobj.issued
  have hmem := wrapperKind_mem_getKinds τ T
  rw [Variant.isVoid, hwrapper, makeWrapper_eq hmake, decide_eq_false_iff_not]
  intro hkind
  have hkind : wrapperKind τ T = .void := hkind
  rw [hkind] at hmem
  revert hmem
  decide

/-- With arguments that fit, the call is made exactly when the object was created as one of
the receiver types; otherwise it fails with `ObjectIsInvalid`.  So a method that may write
is not run on a const object, nor an `&&` method on an lvalue. -/
structure ReceiverLaw (P : Program L) (f : FunctionWrapper L V τ) (c : L) (q : Qualifier)
    (args : List (Variant L)) (T : Ty L) (obj : Variant L) (w : World L V) : Prop where
  made : (f.invoke P args obj w).calls = [f.callOn args obj] ↔
    T ∈ receiverTypes (classObj c) q
  refused : T ∉ receiverTypes (classObj c) q →
    (f.invoke P args obj w).result = .ok (.error { type := .objectIsInvalid }) ∧
      (f.invoke P args obj w).calls = []
  const_kept : accessConst T = true → q ∈ [.none, .lref, .rref] →
    (f.invoke P args obj w).calls = []
  lvalue_kept : isRValueReference T = false → q ∈ [.rref, .constRref] →
    (f.invoke P args obj w).calls = []

omit [DecidableEq L] in
theorem receiverTypes_access (h : T ∈ receiverTypes (classObj c) q) :
    (q ∈ [.none, .lref, .rref] → accessConst T = false) ∧
      (q ∈ [.rref, .constRref] → isRValueReference T = true) := by
  cases q <;> simp only [receiverTypes, List.mem_cons, List.not_mem_nil, or_false] at h
  case none | lref => rcases h with rfl | rfl <;> simp [accessConst, classObj]
  case const | constLref => simp
  case rref =>
    rw [h]
    simp [accessConst, isRValueReference, classObj]
  case constRref => rcases h with rfl | rfl <;> simp [isRValueReference]

variable {args : List (Variant L)} {w : World L V}

theorem refusal_of_receiver (hf : f.type.receiver = some (c, q))
    (hvoid : obj.isVoid = false) (harity : args.length = f.traits.argCount)
    (hfits : fits s (args.zip f.traits.args) = true)
    (hgets : ¬ ∀ U, f.receiver = some U → gets s obj U = true) :
    f.refusal s args obj = some { type := .objectIsInvalid } := by
  rw [FunctionWrapper.refusal, if_neg (not_not_intro harity), hvoid, Bool.and_false,
    if_neg Bool.false_ne_true, firstRefused_eq_none.mpr hfits]
  have hrec := receiver_eq hf
  rw [hrec] at hgets ⊢
  simp only [Option.some.injEq, forall_eq'] at hgets
  exact if_neg hgets

theorem receiverLaw_of_created (P : Program L) (f : FunctionWrapper L V τ) {c : L}
    {q : Qualifier} (hf : f.type.receiver = some (c, q))
    (hcopy : τ.isCopyConstructible (classObj c) = true)
    (hobj : Created P τ w.reg T obj) (hargs : ∀ v ∈ args, Made P τ w.reg v)
    (harity : args.length = f.traits.argCount)
    (hfits : fits w.reg (args.zip f.traits.args) = true)
    (hlen : (f.invoke P args obj w).world.reg.types_.length < 2 ^ 32) :
    ReceiverLaw P f c q args T obj w := by
  have hmade : ∀ v ∈ obj :: args, Made P τ w.reg v := by
    intro v hv
    rcases List.mem_cons.mp hv with rfl | hv
    · exact .inr ⟨T, hobj⟩
    · exact hargs v hv
  have hlen₀ := Nat.lt_of_le_of_lt (passes_invoke (P := P) f args obj w).length_le hlen
  have hgets := gets_receiver_iff hf hcopy hobj hlen₀
  have hrefused : T ∉ receiverTypes (classObj c) q →
      (f.invoke P args obj w).result = .ok (.error { type := .objectIsInvalid }) ∧
        (f.invoke P args obj w).calls = [] := by
    intro hT
    rw [← hgets] at hT
    exact invoke_of_refusal hmade .refl hlen
      (refusal_of_receiver hf (not_isVoid_of_created hobj) harity hfits hT)
  refine ⟨⟨?_, ?_⟩, hrefused, ?_, ?_⟩
  · intro hcalls
    by_contra hT
    rw [(hrefused hT).2] at hcalls
    cases hcalls
  · intro hT
    exact (invoke_accepted hmade .refl hlen₀
      (accepts_iff.mpr ⟨harity, hfits, hgets.mpr hT⟩)).1
  · intro hconst hq
    apply (hrefused fun hT => ?_).2
    rw [(receiverTypes_access hT).1 hq] at hconst
    cases hconst
  · intro href hq
    apply (hrefused fun hT => ?_).2
    rw [(receiverTypes_access hT).2 hq] at href
    cases href

end Receiver

section Plain

def plainObject : Variant Nat where
  base_ := { wrapper := ⟨.value, classObj 0⟩, value_ := some 8 }
  type_ := ⟨1⟩

def plainWorld : World Nat Nat where
  reg := (reflectID .plain (.obj (classObj 0)) .init).2
  mem := Blocks.store freshWorld.mem 8 [42, 42]
  next := 10

theorem plainObject_created :
    Created .plain .plain plainWorld.reg (.obj (classObj 0)) plainObject :=
  ⟨Nat, 0, freshWorld, _, .refl, rfl, .refl⟩

theorem receiverLaw_plain :
    ReceiverLaw .plain (intFunction (some (0, .const)) 1 [] (by decide)) 0 .const []
      (.obj (classObj 0)) plainObject plainWorld := by
  apply receiverLaw_of_created .plain _ rfl rfl plainObject_created
  · intro v hv
    cases hv
  · rfl
  · rfl
  · show 2 < 2 ^ 32
    decide

end Plain

end ReflCpp
