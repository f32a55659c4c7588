import ReflCpp.Registration

namespace ReflCpp

open Cpp

variable {L : Type} [DecidableEq L] {P : Program L}

variable {s : Registry L}

omit [DecidableEq L] in
theorem allocated_faults (s : Registry L) : s.allocated.faults <:+ s.faults :=
  List.tail_suffix _

omit [DecidableEq L] in
theorem Creation.run_faults {rk : L → Nat} {r : Nat}
    {rec : (U : Ty L) → U.rank rk < r → RegM L (Except ReflectError TypeID)}
    (hrec : ∀ U hU s, (rec U hU s).2.faults <:+ s.faults) (c : Creation L rk r)
    (s : Registry L) : (c.run rec s).2.faults <:+ s.faults := by
  induction c generalizing s with
  | ret d => exact List.suffix_rfl
  | alloc k ih =>
    rw [Creation.run]
    split
    · exact allocated_faults s
    · exact (ih s.allocated).trans (allocated_faults s)
  | value U hU k ih =>
    have hcall := hrec U hU s
    rw [Creation.run]
    split
    next i s' h =>
      rw [h] at hcall
      exact (ih i s').trans hcall
    next e s' h =>
      rw [h] at hcall
      exact hcall
  | attempt U hU k ih => exact (ih _ _).trans (hrec U hU s)

/-- An allocation is not taken from the coming ones twice. -/
theorem reflectID_faults (T : Ty L) (s : Registry L) :
    (reflectID P T s).2.faults <:+ s.faults := by
  induction hr : T.rank P.rank using Nat.strongRecOn generalizing T s with
  | _ r ih =>
    subst hr
    have hcreate : ∀ s, (create P T (fun U _ => reflectID P U) s).2.faults <:+ s.faults := by
      intro s
      unfold create
      split
      · exact List.suffix_rfl
      · exact List.suffix_rfl
      next c _ _ =>
        have hrun := c.run_faults (fun U hU s => ih _ hU U s rfl) s
        split <;> next h => rw [h] at hrun; exact hrun
    rw [reflectID_eq, typeInstanceID]
    split
    · exact List.suffix_rfl
    · split
      · exact List.suffix_rfl
      · have hregister : (registerTypeWith P T (fun U _ => reflectID P U) s).2.faults <:+
            s.faults := by
          have hs := hcreate s
          unfold registerTypeWith
          split
          · exact List.suffix_rfl
          · split
            next h =>
              rw [h] at hs
              exact hs
            next h =>
              rw [h] at hs
              dsimp only
              split
              · exact (allocated_faults _).trans hs
              · exact (allocated_faults _).trans hs
        split <;> next h => rw [h] at hregister; exact hregister

theorem reflectID_faultless (T : Ty L) (hs : s.faults = []) :
    (reflectID P T s).2.faults = [] := by
  have hsuffix := reflectID_faults (P := P) T s
  rw [hs] at hsuffix
  exact List.suffix_nil.mp hsuffix

def Request.faults : Request L → List Bool
  | .reflectID _ fs => fs
  | .reflect _ fs => fs

theorem run_faultless {rs : List (Request L)} (hrs : ∀ r ∈ rs, r.faults = [])
    (hs : s.faults = []) : (run P rs s).faults = [] := by
  induction rs generalizing s with
  | nil => exact hs
  | cons r rs ih =>
    have hr := hrs r List.mem_cons_self
    apply ih (fun r hr => hrs r (List.mem_cons_of_mem _ hr))
    cases r with
    | reflectID T fs => exact reflectID_faultless T hr
    | reflect T fs =>
      rw [Request.exec, reflect_snd]
      exact reflectID_faultless T hr

end ReflCpp
