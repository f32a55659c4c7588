import ReflCpp.Overloads

namespace ReflCpp

open Cpp

variable {L V : Type} [DecidableEq L] {P : Program L} {τ : Traits L}

/-- `Get<U>` gives a value exactly if `CanGet<U>` does not refuse it, and otherwise the
error for the variant; it always returns. -/
structure GetLaw (P : Program L) (v : Variant L) (U : Ty L) (s : Registry L) : Prop where
  ok_iff : (∃ g, (v.getImpl P U s).1 = .ok (.ok g)) ↔ (v.canGet P U s).1 = true
  void : v.isVoid = true → (v.getImpl P U s).1 = .ok (.error .isVoid)
  refused : v.isVoid = false → (v.canGet P U s).1 = false →
    (v.getImpl P U s).1 = .ok (.error .canNotGet)

theorem getLaw (v : Variant L) (U : Ty L) (s : Registry L) : GetLaw P v U s := by
  rcases v.getImpl_cases (P := P) U s with ⟨s', hcan, himpl⟩ | ⟨D, s', hcan, hD, himpl⟩
  · refine ⟨?_, ?_, ?_⟩ <;> rw [himpl]
    · rw [hcan]
      exact iff_of_false nofun nofun
    · intro hvoid
      rw [Variant.fault_of_isVoid hvoid]
    · intro hvoid _
      rw [Variant.fault_of_not_isVoid hvoid]
  · refine ⟨?_, ?_, ?_⟩ <;> rw [himpl]
    · rw [hcan]
      exact iff_of_true ⟨_, rfl⟩ rfl
    · intro hvoid
      rw [of_decide_eq_true hvoid] at hD
      cases hD
    · rw [hcan]
      nofun

section Checked

variable {args : List (Variant L)} {obj v : Variant L} {U : Ty L} {s s' s'' : Registry L}

/-- The variant is void, or its type has an id. -/
def HasType (v : Variant L) : Prop := v.isVoid = true ∨ v.type_.isValid = true

theorem HasType.isValid (h : HasType v) (hget : v.canGet P U s = (true, s')) :
    v.type_.isValid = true := by
  rcases h with hvoid | hvalid
  · rw [Variant.canGet_eq, of_decide_eq_true hvoid] at hget
    cases hget
  · exact hvalid

theorem Made.hasType (h : Made P τ s v) (hlen : s.types_.length < 2 ^ 32) : HasType v := by
  rcases h with rfl | ⟨T, hT⟩
  · exact .inl rfl
  · obtain ⟨_, hissued, c, hmake, _⟩ := hT.issued
    exact .inr (hissued.id_eq (ne_void_of_makeWrapper hmake) hlen).2

/-- What `CheckArgs` has found can still be got after it, in the type it is extracted
as. -/
theorem canGetAll_stable {ps : List (Variant L × Ty L)} (hps : ∀ p ∈ ps, HasType p.1)
    (hall : canGetAll P ps s = (true, s')) (hpass : Passes s' s'') :
    ∀ p ∈ ps, p.1.canGet P (FunctionWrapper.getArgType p.2) s'' = (true, s'') := by
  induction ps generalizing s with
  | nil => simp
  | cons q ps ih =>
    obtain ⟨v, U⟩ := q
    rw [canGetAll] at hall
    rcases hcan : v.canGet P U s with ⟨_ | _, s₁⟩ <;> rw [hcan] at hall
    · cases hall
    · change canGetAll P ps s₁ = (true, s') at hall
      intro p hp
      rw [List.mem_cons] at hp
      rcases hp with rfl | hp
      · have hpass₁ := passes_canGetAll (P := P) ps s₁
        rw [hall] at hpass₁
        have hvalid := (hps (v, U) List.mem_cons_self).isValid hcan
        exact Variant.canGet_stable hvalid (decorated_getArgType _ U) hcan
          (hpass₁.trans hpass)
      · exact ih (fun p hp => hps p (List.mem_cons_of_mem _ hp)) hall p hp

theorem object_cases (hobj : HasType obj) (classT : Option (Ty L)) (s : Registry L) :
    (∃ e s', FunctionWrapper.object P obj classT s = (.ok (.error e), s') ∧
      ∃ C, classT = some C ∧ (obj.canGet P C s).1 = false) ∨
    ∃ s', FunctionWrapper.object P obj classT s =
      (.ok (.ok (classT.bind fun _ => obj.base_.value_)), s') := by
  cases classT with
  | none => exact .inr ⟨s, rfl⟩
  | some C =>
    rw [FunctionWrapper.object]
    dsimp only
    rcases hcan : obj.canGet P C s with ⟨_ | _, s'⟩
    · exact .inl ⟨_, s', rfl, C, rfl, by rw [hcan]⟩
    · have hagain := Variant.canGet_stable (hobj.isValid hcan) rfl hcan .refl
      exact .inr ⟨s', RegM.andThen_of_ok (getValue_of_canGet hagain)⟩

variable (f : FunctionWrapper L V τ)

theorem objectAndArgs_of_canGetAll (htype : ∀ v ∈ obj :: args, HasType v)
    (harity : args.length = f.traits.argCount)
    (hall : canGetAll P (args.zip f.traits.args) s = (true, s')) :
    (∃ e, (f.objectAndArgs P args obj f.receiver s').1 = .ok (.error e) ∧
      ∃ C, f.receiver = some C ∧ (obj.canGet P C s').1 = false) ∨
    (f.objectAndArgs P args obj f.receiver s').1 =
      .ok (.ok ((f.callOn args obj).obj, (f.callOn args obj).args)) := by
  have hpass := passes_object (P := P) obj f.receiver s'
  rcases object_cases (P := P) (htype obj List.mem_cons_self) f.receiver s' with
    ⟨e, s₁, hobject, hC⟩ | ⟨s₁, hobject⟩
  · exact .inl ⟨e, congrArg Prod.fst (RegM.andThen_of_ok hobject), hC⟩
  · rw [hobject] at hpass
    have hps : ∀ p ∈ args.zip f.traits.args, HasType p.1 :=
      fun p hp => htype p.1 (List.mem_cons_of_mem _ (List.of_mem_zip hp).1)
    have hget := getArgs_of_canGet 0 f.traits.args harity.symm (canGetAll_stable hps hall hpass)
    have heq : f.objectAndArgs P args obj f.receiver s' =
        (.ok (.ok ((f.callOn args obj).obj, (f.callOn args obj).args)), s₁) :=
      calc f.objectAndArgs P args obj f.receiver s'
        _ = _ := RegM.andThen_of_ok hobject
        _ = _ := RegM.andThen_of_ok hget
    exact .inr (congrArg Prod.fst heq)

end Checked

/-- `Get` agrees with `CanGet`; and no `value()` on the way to a call meets an error, as
what the checks have found can be got. -/
theorem extraction_of_checks (P : Program L) (f : FunctionWrapper L V τ)
    {args : List (Variant L)} {obj : Variant L} (htype : ∀ v ∈ obj :: args, HasType v)
    (harity : args.length = f.traits.argCount) (s : Registry L) :
    (∀ (v : Variant L) (U : Ty L), GetLaw P v U s) ∧
    (∃ r, (f.operands P args obj f.receiver s).1 = .ok r) ∧
    ∀ s', f.checkArgs P args s = (.ok (.ok ()), s') →
      (∀ C, f.receiver = some C → (obj.canGet P C s').1 = true) →
      (f.operands P args obj f.receiver s).1 =
        .ok (.ok ((f.callOn args obj).obj, (f.callOn args obj).args)) := by
  have hcases := checkArgs_cases (P := P) args f s
  refine ⟨fun v U => getLaw v U s, ?_⟩
  rcases hall : canGetAll P (args.zip f.traits.args) s with ⟨_ | _, s'⟩ <;>
    rw [hall] at hcases <;> dsimp only at hcases
  · obtain ⟨i, _, hcheck⟩ := hcases
    rw [hcheck]
    exact ⟨⟨_, congrArg Prod.fst (RegM.andThen_of_ok hcheck)⟩, nofun⟩
  · rw [if_pos (Nat.le_of_eq harity.symm)] at hcases
    have heq : f.operands P args obj f.receiver s = f.objectAndArgs P args obj f.receiver s' :=
      RegM.andThen_of_ok hcases
    rw [heq, hcases]
    rcases objectAndArgs_of_canGetAll f htype harity hall with ⟨e, he, C, hC, hfalse⟩ | hok
    · refine ⟨⟨_, he⟩, ?_⟩
      rintro _ ⟨⟩ hreceiver
      rw [hreceiver C hC] at hfalse
      cases hfalse
    · exact ⟨⟨_, hok⟩, fun _ _ _ => hok⟩

theorem extraction_of_checks_int :
    (∀ (v : Variant Nat) (U : Ty Nat), GetLaw .plain v U intRegistry) ∧
    (∃ r, ((intFunction none 1 [.obj int] (by decide)).operands .plain [intVariant] .void
      none intRegistry).1 = .ok r) ∧
    ∀ s', (intFunction none 1 [.obj int] (by decide)).checkArgs .plain [intVariant]
        intRegistry = (.ok (.ok ()), s') →
      (∀ C, none = some C → (Variant.void.canGet .plain C s').1 = true) →
      ((intFunction none 1 [.obj int] (by decide)).operands .plain [intVariant] .void
        none intRegistry).1 = .ok (.ok (none, [some 8])) :=
  extraction_of_checks .plain (intFunction none 1 [.obj int] (by decide))
    (fun v hv => (intVariant_made v hv).hasType (show 1 < 2 ^ 32 by decide)) rfl intRegistry

end ReflCpp
