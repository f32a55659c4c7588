import ReflCpp.Faultless
import ReflCpp.Reflectability
import ReflCpp.TypeGraph

namespace ReflCpp

open Cpp

variable {L : Type}

section Asks

variable {rk : L → Nat} {r : Nat}

/-- A call that a creation may make when no call fails. -/
def Creation.Asks : Creation L rk r → Ty L → Prop
  | .ret _, _ => False
  | .alloc k, U => k.Asks U
  | .value T _ k, U => U = T ∨ ∃ i, (k i).Asks U
  | .attempt T _ k, U => U = T ∨ ∃ i, (k (.ok i)).Asks U

/-- A call that a creation makes when no call fails, whatever ids it gets. -/
def Creation.Always : Creation L rk r → Ty L → Prop
  | .ret _, _ => False
  | .alloc k, U => k.Always U
  | .value T _ k, U => U = T ∨ ∀ i, (k i).Always U
  | .attempt T _ k, U => U = T ∨ ∀ i, (k (.ok i)).Always U

theorem Creation.calls_of_asks {c : Creation L rk r} {U : Ty L} (h : c.Asks U) : c.Calls U := by
  induction c with
  | ret d => exact h
  | alloc k ih => exact ih h
  | value T hT k ih =>
    rcases h with rfl | ⟨i, hi⟩
    · exact .inl rfl
    · exact .inr ⟨i, ih i hi⟩
  | attempt T hT k ih =>
    rcases h with rfl | ⟨i, hi⟩
    · exact .inl rfl
    · exact .inr ⟨.ok i, ih (.ok i) hi⟩

end Asks

/-- Which types the program's own classes reflect does not depend on the ids they get. -/
def Program.Steady (P : Program L) : Prop :=
  ∀ l U, (P.create l).Asks U → (P.create l).Always U

/-- The creation of `T` reflects `U`. -/
def Needs (P : Program L) (T U : Ty L) : Prop := ∃ c, reflectData P T = some c ∧ c.Asks U

variable {P : Program L} {T U V : Ty L}

theorem reflectData_steady (hP : P.Steady) {c : Creation L P.rank (T.rank P.rank)}
    (hc : reflectData P T = some c) (h : c.Asks U) : c.Always U := by
  rcases reflectData_cases hc with ⟨a, rfl⟩ | ⟨name, flags, V, hV, _, rfl⟩
  · cases a with
    | void => cases hc
    | builtin b => cases hc; exact h.elim
    | charArray n => cases hc; exact h.elim
    | string => cases hc; exact h.elim
    | user l => cases hc; exact hP l U h
  · rcases h with rfl | ⟨i, hi⟩
    · exact .inl rfl
    · exact hi.elim

theorem not_needs_void : ¬ Needs P Ty.void U := by
  rintro ⟨c, hc, _⟩
  cases hc

variable [DecidableEq L] {s s' : Registry L}

/-- A registry in which no allocation has failed: what a creation needs is registered
before its data are there, and the data before the type. -/
structure Closed (P : Program L) (s : Registry L) : Prop where
  passes : Passes .init s
  faults : s.faults = []
  data : ∀ T d, s.data T = some d → ∀ U, Needs P T U → U ≠ Ty.void → U ∈ s.keys
  keys : ∀ T ∈ s.keys, ∃ d, s.data T = some d

/-- A computation has registered all of `must`, and nothing but what `may` allows. -/
structure Adds (P : Program L) (must may : Ty L → Prop) (s s' : Registry L) : Prop where
  closed : Closed P s'
  must : ∀ U, must U → U ≠ Ty.void → U ∈ s'.keys
  may : ∀ V ∈ s'.keys, V ∈ s.keys ∨ may V

/-- What `ReflectID<T>` does when no allocation fails and the ids do not run out. -/
def Registers (P : Program L) (s : Registry L) (T : Ty L) : Prop :=
  (reflectID P T s).2.types_.length < 2 ^ 32 →
    (∃ i, (reflectID P T s).1 = .ok i) ∧
      Adds P (· = T) (Relation.ReflTransGen (Needs P) T) s (reflectID P T s).2

omit [DecidableEq L] in
theorem allocated_eq (hs : s.faults = []) : s.allocated = s := by
  rcases s with ⟨types_, id, data, faults⟩
  subst hs
  rfl

theorem Passes.keys_subset (h : Passes s s') : s.keys ⊆ s'.keys := by
  obtain ⟨ts, hts⟩ := h.isPrefix
  rw [Registry.keys, Registry.keys, ← hts, List.map_append]
  exact List.subset_append_left _ _

theorem closed_init : Closed P (.init : Registry L) where
  passes := .refl
  faults := rfl
  data := by simp [Registry.init]
  keys := by simp [Registry.init, Registry.keys]

theorem Creation.run_adds {r : Nat} (c : Creation L P.rank r)
    (hrec : ∀ U, c.Asks U → ∀ s, Closed P s → Registers P s U) (hs : Closed P s)
    (hlen : (c.run (fun U _ => reflectID P U) s).2.types_.length < 2 ^ 32) :
    (∃ d, (c.run (fun U _ => reflectID P U) s).1 = some d) ∧
      Adds P c.Always (fun V => ∃ U, c.Asks U ∧ Relation.ReflTransGen (Needs P) U V) s
        (c.run (fun U _ => reflectID P U) s).2 := by
  induction c generalizing s with
  | ret d => exact ⟨⟨d, rfl⟩, hs, fun U hU => hU.elim, fun V hV => .inl hV⟩
  | alloc k ih =>
    rw [Creation.run, throws_of_noFaults hs.faults, allocated_eq hs.faults,
      if_neg Bool.false_ne_true] at hlen ⊢
    exact ih hrec hs hlen
  | value U hU k ih =>
    have hcall := hrec U (.inl rfl) s hs
    rw [Creation.run] at hlen ⊢
    rcases hr : reflectID P U s with ⟨e | i, s₁⟩ <;> rw [Registers, hr] at hcall <;>
      rw [hr] at hlen <;> dsimp only at hlen ⊢
    · obtain ⟨⟨i, hi⟩, _⟩ := hcall hlen
      cases hi
    · have hpass := (k i).run_passes (P := P) s₁
      obtain ⟨_, hadds⟩ := hcall (Nat.lt_of_le_of_lt hpass.length_le hlen)
      obtain ⟨hd, hrest⟩ :=
        ih i (fun V hV s hs => hrec V (.inr ⟨i, hV⟩) s hs) hadds.closed hlen
      refine ⟨hd, hrest.closed, ?_, ?_⟩
      · rintro V (rfl | hV) hv
        · exact hpass.keys_subset (hadds.must V rfl hv)
        · exact hrest.must V (hV i) hv
      · intro V hV
        rcases hrest.may V hV with hV | ⟨W, hW, hWV⟩
        · exact (hadds.may V hV).imp_right fun h => ⟨U, .inl rfl, h⟩
        · exact .inr ⟨W, .inr ⟨i, hW⟩, hWV⟩
  | attempt U hU k ih =>
    have hcall := hrec U (.inl rfl) s hs
    rw [Creation.run] at hlen ⊢
    have hpass := (k (reflectID P U s).1).run_passes (P := P) (reflectID P U s).2
    obtain ⟨⟨i, hi⟩, hadds⟩ := hcall (Nat.lt_of_le_of_lt hpass.length_le hlen)
    rw [hi] at hlen hpass ⊢
    obtain ⟨hd, hrest⟩ :=
      ih (.ok i) (fun V hV s hs => hrec V (.inr ⟨i, hV⟩) s hs) hadds.closed hlen
    refine ⟨hd, hrest.closed, ?_, ?_⟩
    · rintro V (rfl | hV) hv
      · exact hpass.keys_subset (hadds.must V rfl hv)
      · exact hrest.must V (hV i) hv
    · intro V hV
      rcases hrest.may V hV with hV | ⟨W, hW, hWV⟩
      · exact (hadds.may V hV).imp_right fun h => ⟨U, .inl rfl, h⟩
      · exact .inr ⟨W, .inr ⟨i, hW⟩, hWV⟩

theorem create_adds (hP : P.Steady) {c : Creation L P.rank (T.rank P.rank)}
    (hc : reflectData P T = some c)
    (hrec : ∀ U, c.Asks U → ∀ s, Closed P s → Registers P s U) (hs : Closed P s)
    (hlen : (create P T (fun U _ => reflectID P U) s).2.types_.length < 2 ^ 32) :
    (∃ d, (create P T (fun U _ => reflectID P U) s).1 = some d ∧
        (create P T (fun U _ => reflectID P U) s).2.data T = some d) ∧
      Adds P (Needs P T) (fun V => ∃ U, Needs P T U ∧ Relation.ReflTransGen (Needs P) U V) s
        (create P T (fun U _ => reflectID P U) s).2 := by
  have hneeds : ∀ {U}, Needs P T U ↔ c.Asks U := by
    intro U
    constructor
    · rintro ⟨c', hc', hU⟩
      rw [hc] at hc'
      cases hc'
      exact hU
    · exact fun hU => ⟨c, hc, hU⟩
  have hpass : Passes s (create P T (fun U _ => reflectID P U) s).2 :=
    (create_steps (fun U hU => reflectID_below (P := P) hU) s).1.mono fun _ _ => trivial
  rw [create] at hlen hpass ⊢
  cases hd : s.data T with
  | some d =>
    exact ⟨⟨d, rfl, hd⟩, hs, fun U hU hv => hs.data T d hd U hU hv, fun V hV => .inl hV⟩
  | none =>
    rw [hd, hc] at hlen hpass
    rw [hc]
    dsimp only at hlen hpass ⊢
    have hrun := c.run_adds hrec hs
    rcases hr : c.run (fun U _ => reflectID P U) s with ⟨_ | d, s₁⟩ <;>
      rw [hr] at hlen hpass hrun <;> dsimp only at hlen hpass ⊢
    · obtain ⟨⟨d, hd'⟩, _⟩ := hrun hlen
      cases hd'
    · obtain ⟨_, hadds⟩ := hrun hlen
      refine ⟨⟨d, rfl, Function.update_self _ _ _⟩, ⟨hs.passes.trans hpass, ?_, ?_, ?_⟩, ?_, ?_⟩
      · exact hadds.closed.faults
      · intro W d' hW U hU hv
        by_cases hT : W = T
        · subst hT
          exact hadds.must U (reflectData_steady hP hc (hneeds.mp hU)) hv
        · change Function.update s₁.data T (some d) W = some d' at hW
          rw [Function.update_of_ne hT] at hW
          exact hadds.closed.data W d' hW U hU hv
      · intro W hW
        by_cases hT : W = T
        · subst hT
          exact ⟨d, Function.update_self _ _ _⟩
        · obtain ⟨d', hd'⟩ := hadds.closed.keys W hW
          exact ⟨d', (Function.update_of_ne hT _ _).trans hd'⟩
      · exact fun U hU hv => hadds.must U (reflectData_steady hP hc (hneeds.mp hU)) hv
      · intro V hV
        rcases hadds.may V hV with hV | ⟨U, hU, hUV⟩
        · exact .inl hV
        · exact .inr ⟨U, hneeds.mpr hU, hUV⟩

/-- `ReflectID<T>` registers `T` and what it needs, and nothing else. -/
theorem reflectID_registers (hP : P.Steady) (hT : Reflectable P T) (hs : Closed P s) :
    Registers P s T := by
  induction hT generalizing s with
  | void =>
    rw [Registers, reflectID_void]
    exact fun _ => ⟨⟨_, rfl⟩, hs, fun U hU hv => absurd hU hv, fun V hV => .inl hV⟩
  | create T c hc hcalls ih =>
    intro hlen
    have hok := (reflectID_succeeds (.create T c hc hcalls) s hs.faults).2 hlen
    refine ⟨hok, ?_⟩
    have hpass := hs.passes.trans (passes_reflectID (P := P) T s)
    rw [reflectID_eq, typeInstanceID] at hlen hok hpass ⊢
    by_cases hv : T = Ty.void
    · rw [if_pos hv]
      exact ⟨hs, fun U hU hU' => absurd (hU.trans hv) hU', fun V hV => .inl hV⟩
    · rw [if_neg hv] at hlen hok hpass ⊢
      by_cases hid : (s.id T).isValid = true
      · rw [if_pos hid] at hlen ⊢
        refine ⟨hs, ?_, fun V hV => .inl hV⟩
        rintro U rfl _
        exact (hs.passes.wellNumbered hlen).isValid_iff.mp hid
      · rw [if_neg hid, registerTypeWith] at hlen hok hpass ⊢
        by_cases hmax : s.types_.length = sizeMax
        · rw [if_pos hmax] at hok
          obtain ⟨i, hi⟩ := hok
          cases hi
        · rw [if_neg hmax] at hlen hok hpass ⊢
          have hcreate := create_adds hP hc
            (fun U hU s hs => ih U (Creation.calls_of_asks hU) hs) hs
          rcases hr : create P T (fun U _ => reflectID P U) s with ⟨_ | d, s₁⟩ <;>
            rw [hr] at hlen hok hpass hcreate <;> dsimp only at hlen hok hpass ⊢
          · obtain ⟨i, hi⟩ := hok
            cases hi
          · by_cases hthrows : s₁.throws = true
            · rw [if_pos hthrows] at hok
              obtain ⟨i, hi⟩ := hok
              cases hi
            · rw [if_neg hthrows] at hlen hpass ⊢
              have hle : s₁.types_.length < 2 ^ 32 := by
                simp only [List.length_append, List.length_singleton] at hlen
                omega
              obtain ⟨⟨d', hd', hdata⟩, hadds⟩ := hcreate hle
              rw [allocated_eq hadds.closed.faults] at hpass ⊢
              have hkeys : (s₁.registered T).keys = s₁.keys ++ [T] := s₁.keys_registered T
              refine ⟨⟨hpass, hadds.closed.faults, ?_, ?_⟩, ?_, ?_⟩
              · intro W e hW U hU hU'
                exact hkeys ▸ List.mem_append_left _ (hadds.closed.data W e hW U hU hU')
              · intro W hW
                rcases List.mem_append.mp (hkeys ▸ hW) with hW | hW
                · exact hadds.closed.keys W hW
                · rw [List.mem_singleton.mp hW]
                  exact ⟨d', hdata⟩
              · rintro U rfl _
                exact hkeys ▸ List.mem_append_right _ (List.mem_singleton_self U)
              · intro V hV
                rcases List.mem_append.mp (hkeys ▸ hV) with hV | hV
                · rcases hadds.may V hV with hV | ⟨U, hU, hUV⟩
                  · exact .inl hV
                  · exact .inr (.head hU hUV)
                · rw [List.mem_singleton.mp hV]
                  exact .inr .refl

section Run

def Request.type : Request L → Ty L
  | .reflectID T _ => T
  | .reflect T _ => T

/-- No allocation fails during it, and its type can be reflected. -/
structure Request.Served (P : Program L) (r : Request L) : Prop where
  faults : r.faults = []
  reflectable : Reflectable P r.type

theorem Closed.exec (hP : P.Steady) (hs : Closed P s) {r : Request L} (hr : r.Served P)
    (hlen : (r.exec P s).types_.length < 2 ^ 32) :
    Adds P (· = r.type) (Relation.ReflTransGen (Needs P) r.type) s (r.exec P s) := by
  have hs' : Closed P { s with faults := r.faults } :=
    ⟨hs.passes.tail (.faults s _), hr.faults, hs.data, hs.keys⟩
  have hregisters := reflectID_registers hP hr.reflectable hs'
  cases r with
  | reflectID T fs =>
    have hadds := (hregisters hlen).2
    exact ⟨hadds.closed, hadds.must, hadds.may⟩
  | reflect T fs =>
    rw [Request.exec, reflect_snd] at hlen ⊢
    have hadds := (hregisters hlen).2
    exact ⟨hadds.closed, hadds.must, hadds.may⟩

theorem Closed.run (hP : P.Steady) (hs : Closed P s) {rs : List (Request L)}
    (hrs : ∀ r ∈ rs, r.Served P) (hlen : (run P rs s).types_.length < 2 ^ 32) :
    Adds P (fun U => ∃ r ∈ rs, U = r.type)
      (fun V => ∃ r ∈ rs, Relation.ReflTransGen (Needs P) r.type V) s (ReflCpp.run P rs s) := by
  induction rs generalizing s with
  | nil => exact ⟨hs, by simp, fun V hV => .inl hV⟩
  | cons r rs ih =>
    have hpass := run_steps (P := P) rs (r.exec P s)
    have hhead := hs.exec hP (hrs r List.mem_cons_self)
      (Nat.lt_of_le_of_lt hpass.length_le hlen)
    have htail := ih hhead.closed (fun r hr => hrs r (List.mem_cons_of_mem _ hr)) hlen
    refine ⟨htail.closed, ?_, ?_⟩
    · rintro U ⟨q, hq, rfl⟩ hv
      rcases List.mem_cons.mp hq with rfl | hq
      · exact Passes.keys_subset hpass (hhead.must _ rfl hv)
      · exact htail.must _ ⟨q, hq, rfl⟩ hv
    · intro V hV
      rcases htail.may V hV with hV | ⟨q, hq, hqV⟩
      · exact (hhead.may V hV).imp_right fun h => ⟨r, List.mem_cons_self, h⟩
      · exact .inr ⟨q, List.mem_cons_of_mem _ hq, hqV⟩

/-- What is registered after a run depends on which types were asked for only, not on the
order: those types and what they need. -/
theorem registered_iff (hP : P.Steady) {rs : List (Request L)} (hrs : ∀ r ∈ rs, r.Served P)
    (hlen : (run P rs .init).types_.length < 2 ^ 32) (U : Ty L) :
    U ∈ (run P rs .init).keys ↔
      U ≠ Ty.void ∧ ∃ r ∈ rs, Relation.ReflTransGen (Needs P) r.type U := by
  have hadds := closed_init.run hP hrs hlen
  constructor
  · intro hU
    refine ⟨?_, ?_⟩
    · rintro rfl
      exact (hadds.closed.passes.wellNumbered hlen).void_notMem hU
    · rcases hadds.may U hU with hnil | hr
      · cases hnil
      · exact hr
  · rintro ⟨hv, r, hr, hstar⟩
    have hstar' : U = Ty.void ∨ U ∈ (ReflCpp.run P rs .init).keys := by
      clear hv
      induction hstar with
      | refl =>
        by_cases hv : r.type = Ty.void
        · exact .inl hv
        · exact .inr (hadds.must _ ⟨r, hr, rfl⟩ hv)
      | @tail T U _ hTU ih =>
        rcases ih with rfl | hT
        · exact absurd hTU not_needs_void
        · obtain ⟨d, hd⟩ := hadds.closed.keys T hT
          by_cases hv : U = Ty.void
          · exact .inl hv
          · exact .inr (hadds.closed.data T d hd U hTU hv)
    exact hstar'.resolve_left hv

theorem plain_steady : Program.plain.Steady := fun _ _ h => h.elim

abbrev pointee (isConst : Bool) : Cpp.Obj (Leaf Nat) := .leaf isConst false (.builtin .int32)

/-- `const int32_t*&` brings `const int32_t*`, `const int32_t` and `int32_t`. -/
def pointerRequests : List (Request Nat) :=
  [.reflect (.lref (.ptr false false (pointee true))) [], .reflectID (.obj (pointee true)) []]

theorem pointerRequests_served : ∀ r ∈ pointerRequests, r.Served .plain := by
  intro r hr
  simp only [pointerRequests, List.mem_cons, List.not_mem_nil, or_false] at hr
  rcases hr with rfl | rfl
  · exact ⟨rfl, reflectable_of_qualifiedOnce reflectable_int32 rfl⟩
  · exact ⟨rfl, reflectable_of_qualifiedOnce reflectable_int32 rfl⟩

theorem keys_pointerRequests : (run .plain pointerRequests .init).keys =
    [.obj (pointee false), .obj (pointee true), .obj (.ptr false false (pointee true)),
      .lref (.ptr false false (pointee true))] := rfl

theorem registered_pointer :
    .obj (pointee false) ∈ (run .plain pointerRequests .init).keys ↔
      .obj (pointee false) ≠ Ty.void ∧ ∃ r ∈ pointerRequests,
        Relation.ReflTransGen (Needs .plain) r.type (.obj (pointee false)) := by
  apply registered_iff plain_steady pointerRequests_served
  rw [← Registry.keys_length, keys_pointerRequests]
  decide

end Run

end ReflCpp
