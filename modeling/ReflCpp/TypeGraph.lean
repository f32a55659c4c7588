import ReflCpp.Printer
import ReflCpp.RegistryLaw

namespace ReflCpp

open Cpp

variable {L : Type}

/-- The ids a `TypeData` refers to. -/
def TypeData.refs (d : TypeData) : List TypeID := d.bases ++ d.inners

/-- `c` may return `d`, when a call that reflects `T` gives only ids that `R` allows. -/
inductive Creation.Yields {rk : L → Nat} {r : Nat} (R : Ty L → TypeID → Prop) :
    Creation L rk r → TypeData → Prop
  | ret (d : TypeData) : Yields R (.ret d) d
  | alloc {k : Creation L rk r} {d : TypeData} (hk : Yields R k d) : Yields R (.alloc k) d
  | value {T : Ty L} {h : T.rank rk < r} {k : TypeID → Creation L rk r} {i : TypeID}
      {d : TypeData} (hi : R T i) (hk : Yields R (k i) d) : Yields R (.value T h k) d
  | ok {T : Ty L} {h : T.rank rk < r} {k : Except ReflectError TypeID → Creation L rk r}
      {i : TypeID} {d : TypeData} (hi : R T i) (hk : Yields R (k (.ok i)) d) :
      Yields R (.attempt T h k) d
  | error {T : Ty L} {h : T.rank rk < r} {k : Except ReflectError TypeID → Creation L rk r}
      {e : ReflectError} {d : TypeData} (hk : Yields R (k (.error e)) d) :
      Yields R (.attempt T h k) d

theorem Creation.Yields.mono {rk : L → Nat} {r : Nat} {R R' : Ty L → TypeID → Prop}
    {c : Creation L rk r} {d : TypeData} (hR : ∀ T i, R T i → R' T i) (h : c.Yields R d) :
    c.Yields R' d := by
  induction h with
  | ret d => exact .ret d
  | alloc _ ih => exact .alloc ih
  | value hi _ ih => exact .value (hR _ _ hi) ih
  | ok hi _ ih => exact .ok (hR _ _ hi) ih
  | error _ ih => exact .error ih

variable [DecidableEq L] {P : Program L} {s s' : Registry L} {T U : Ty L} {i : TypeID}
  {d : TypeData} {o : Option TypeData}

section Seen

theorem Passes.id_le (h : Passes .init s) (T : Ty L) : (s.id T).value ≤ s.types_.length := by
  induction h with
  | refl => exact Nat.zero_le _
  | tail _ h ih =>
    cases h with
    | faults => exact ih
    | created => exact ih
    | registered U =>
      rw [Registry.length_registered]
      by_cases hU : T = U
      · rw [hU, Registry.id_registered_self, TypeID.value_ofSize]
        exact Nat.mod_le _ _
      · rw [Registry.id_registered_of_ne _ hU]
        exact Nat.le_succ_of_le ih

theorem Passes.data_eq (h : Passes s s') (hd : s.data T = some d) : s'.data T = some d := by
  induction h with
  | refl => exact hd
  | tail _ h ih =>
    cases h with
    | faults => exact ih
    | created U d' _ hnone =>
      have hne : T ≠ U := by
        rintro rfl
        rw [ih] at hnone
        cases hnone
      exact (Registry.data_created_of_ne _ d' hne).trans ih
    | registered => exact ih

/-- `ReflectID<T>` has returned `i` when there were at most `n` types. -/
def Seen (P : Program L) (s : Registry L) (n : Nat) (T : Ty L) (i : TypeID) : Prop :=
  i.value ≤ n ∧ Issued P s T i

theorem Seen.passes {n m : Nat} (h : Seen P s n T i) (hs : Passes s s') (hn : n ≤ m) :
    Seen P s' m T i :=
  ⟨Nat.le_trans h.1 hn, h.2.passes hs⟩

theorem seen_of_reflectID (hs : Passes .init s) (h : reflectID P T s = (.ok i, s')) :
    Seen P s' s'.types_.length T i := by
  refine ⟨?_, s, s', hs, h, .refl⟩
  by_cases hv : T = Ty.void
  · subst hv
    rw [reflectID_void] at h
    cases h
    exact Nat.zero_le _
  · have hpass := passes_reflectID (P := P) T s
    rw [h] at hpass
    rw [← id_of_reflectID_ok hv h]
    exact Passes.id_le (hs.trans hpass) T

end Seen

section Built

/-- Where the data in the registry come from: `Create` has made them of ids that
`ReflectID` gave it, and each entry had its data before it was added. -/
structure Built (P : Program L) (s : Registry L) : Prop where
  passes : Passes .init s
  data : ∀ T d, s.data T = some d →
    ∃ c, reflectData P T = some c ∧ c.Yields (Seen P s s.types_.length) d
  entries : ∀ (n : Nat) (t : TypeEntry L), s.types_[n]? = some t → ∃ d c, s.data t.data_ = some d ∧
    reflectData P t.data_ = some c ∧ c.Yields (Seen P s n) d

theorem built_init : Built P (.init : Registry L) where
  passes := .refl
  data := by simp [Registry.init]
  entries := by simp [Registry.init]

theorem Built.faults (h : Built P s) (fs : List Bool) : Built P { s with faults := fs } := by
  have hstep : Passes s { s with faults := fs } := .single (.faults s fs)
  refine ⟨h.passes.trans hstep, ?_, ?_⟩
  · intro T d hd
    obtain ⟨c, hc, hy⟩ := h.data T d hd
    exact ⟨c, hc, hy.mono fun U i hi => hi.passes hstep (Nat.le_refl _)⟩
  · intro n t ht
    obtain ⟨d, c, hd, hc, hy⟩ := h.entries n t ht
    exact ⟨d, c, hd, hc, hy.mono fun U i hi => hi.passes hstep (Nat.le_refl _)⟩

theorem Built.created (h : Built P s) {c : Creation L P.rank (T.rank P.rank)}
    (hnone : s.data T = none) (hc : reflectData P T = some c)
    (hy : c.Yields (Seen P s s.types_.length) d) : Built P (s.created T d) := by
  have hstep : Passes s (s.created T d) := .single (.created s T d trivial hnone)
  have hseen : ∀ n U i, Seen P s n U i → Seen P (s.created T d) n U i :=
    fun n U i hi => hi.passes hstep (Nat.le_refl _)
  refine ⟨h.passes.trans hstep, ?_, ?_⟩
  · intro U d' hd'
    by_cases hU : U = T
    · subst hU
      simp only [Registry.created, Function.update_self, Option.some.injEq] at hd'
      subst hd'
      exact ⟨c, hc, hy.mono (hseen _)⟩
    · rw [Registry.data_created_of_ne _ _ hU] at hd'
      obtain ⟨c', hc', hy'⟩ := h.data U d' hd'
      exact ⟨c', hc', hy'.mono (hseen _)⟩
  · intro n t ht
    obtain ⟨d', c', hd', hc', hy'⟩ := h.entries n t ht
    exact ⟨d', c', hstep.data_eq hd', hc', hy'.mono (hseen n)⟩

theorem Built.registered (h : Built P s) (hv : T ≠ Ty.void) (hid : (s.id T).isValid = false)
    (hd : s.data T = some d) : Built P (s.registered T) := by
  have hstep : Passes s (s.registered T) := .single (.registered s T trivial hv hid)
  refine ⟨h.passes.trans hstep, ?_, ?_⟩
  · intro U d' hd'
    obtain ⟨c, hc, hy⟩ := h.data U d' hd'
    exact ⟨c, hc, hy.mono fun V i hi => hi.passes hstep hstep.length_le⟩
  · intro n t ht
    have hseen : ∀ U i, Seen P s n U i → Seen P (s.registered T) n U i :=
      fun U i hi => hi.passes hstep (Nat.le_refl _)
    simp only [Registry.registered] at ht
    rcases Nat.lt_trichotomy n s.types_.length with hn | rfl | hn
    · rw [List.getElem?_append_left hn] at ht
      obtain ⟨d', c', hd', hc', hy'⟩ := h.entries n t ht
      exact ⟨d', c', hd', hc', hy'.mono hseen⟩
    · simp only [List.getElem?_concat_length, Option.some.injEq] at ht
      subst ht
      obtain ⟨c, hc, hy⟩ := h.data T d hd
      exact ⟨d, c, hd, hc, hy.mono hseen⟩
    · rw [List.getElem?_eq_none (by simpa using Nat.succ_le_of_lt hn)] at ht
      cases ht

end Built

section Calls

theorem Creation.run_passes {r : Nat} (c : Creation L P.rank r) (s : Registry L) :
    Passes s (c.run (fun U _ => reflectID P U) s).2 :=
  c.run_steps (fun U _ => passes_reflectID U) s

/-- An id that a creation has obtained is still known when it ends. -/
theorem Built.seen_after {r : Nat} {s₁ : Registry L} (hs : Built P s)
    (hcall : reflectID P U s = (.ok i, s₁)) (k : Creation L P.rank r)
    (hrun : k.run (fun U _ => reflectID P U) s₁ = (o, s')) : Seen P s' s'.types_.length U i := by
  have hpass := k.run_passes (P := P) s₁
  rw [hrun] at hpass
  exact (seen_of_reflectID hs.passes hcall).passes hpass hpass.length_le

theorem Creation.run_built {r : Nat}
    (hrec : ∀ U s, U.rank P.rank < r → Built P s → Built P (reflectID P U s).2)
    (c : Creation L P.rank r) (hs : Built P s)
    (hrun : c.run (fun U _ => reflectID P U) s = (o, s')) :
    Built P s' ∧ ∀ d, o = some d → c.Yields (Seen P s' s'.types_.length) d := by
  induction c generalizing s with
  | ret d =>
    cases hrun
    refine ⟨hs, fun d' hd' => ?_⟩
    cases hd'
    exact .ret d
  | alloc k ih =>
    rw [Creation.run] at hrun
    by_cases hthrows : s.throws = true
    · rw [if_pos hthrows] at hrun
      cases hrun
      exact ⟨hs.faults _, fun d hd => by cases hd⟩
    · rw [if_neg hthrows] at hrun
      obtain ⟨hs', hy⟩ := ih (hs.faults _) hrun
      exact ⟨hs', fun d hd => .alloc (hy d hd)⟩
  | value U hU k ih =>
    rw [Creation.run] at hrun
    have hbuilt := hrec U s hU hs
    rcases hcall : reflectID P U s with ⟨e | i, s₁⟩ <;>
      rw [hcall] at hrun hbuilt <;> dsimp only at hrun hbuilt
    · cases hrun
      exact ⟨hbuilt, fun d hd => by cases hd⟩
    · obtain ⟨hs', hy⟩ := ih i hbuilt hrun
      exact ⟨hs', fun d hd => .value (hs.seen_after hcall (k i) hrun) (hy d hd)⟩
  | attempt U hU k ih =>
    rw [Creation.run] at hrun
    have hbuilt := hrec U s hU hs
    rcases hcall : reflectID P U s with ⟨e | i, s₁⟩ <;>
      rw [hcall] at hrun hbuilt <;> dsimp only at hrun hbuilt
    · obtain ⟨hs', hy⟩ := ih (.error e) hbuilt hrun
      exact ⟨hs', fun d hd => .error (hy d hd)⟩
    · obtain ⟨hs', hy⟩ := ih (.ok i) hbuilt hrun
      exact ⟨hs', fun d hd => .ok (hs.seen_after hcall (k (.ok i)) hrun) (hy d hd)⟩

theorem create_built
    (hrec : ∀ U s, Below P T U → Built P s → Built P (reflectID P U s).2) (hs : Built P s)
    (hcreate : create P T (fun U _ => reflectID P U) s = (o, s')) :
    Built P s' ∧ s'.id T = s.id T ∧ ∀ d, o = some d → s'.data T = some d := by
  have hid := (create_steps (T := T) (fun U hU => reflectID_below (P := P) hU) s).2
  rw [hcreate] at hid
  rw [create] at hcreate
  rcases hd : s.data T with _ | d
  · rcases hc : reflectData P T with _ | c <;> rw [hd, hc] at hcreate <;> dsimp only at hcreate
    · cases hcreate
      exact ⟨hs, rfl, nofun⟩
    · have hdata := (c.run_steps (fun U hU => reflectID_below (P := P) (T := T) hU) s).data_eq
        (T := T) (Nat.lt_irrefl _)
      rcases hrun : c.run (fun U _ => reflectID P U) s with ⟨_ | d, s₁⟩ <;>
        rw [hrun] at hcreate hdata <;> dsimp only at hcreate hdata
      · cases hcreate
        exact ⟨(c.run_built hrec hs hrun).1, hid, nofun⟩
      · obtain ⟨hs₁, hy⟩ := c.run_built hrec hs hrun
        cases hcreate
        refine ⟨hs₁.created (hdata.trans hd) hc (hy d rfl), hid, ?_⟩
        rintro d' ⟨⟩
        exact Function.update_self _ _ _
  · rw [hd] at hcreate
    cases hcreate
    refine ⟨hs, rfl, ?_⟩
    rintro d' ⟨⟩
    exact hd

theorem typeInstanceID_built
    (hrec : ∀ U s, Below P T U → Built P s → Built P (reflectID P U s).2) (hs : Built P s) :
    Built P (typeInstanceID P T (fun U _ => reflectID P U) s).2 := by
  rw [typeInstanceID]
  by_cases hv : T = Ty.void
  · rw [if_pos hv]
    exact hs
  · by_cases hid : (s.id T).isValid = true
    · rw [if_neg hv, if_pos hid]
      exact hs
    · rw [if_neg hv, if_neg hid, registerTypeWith]
      by_cases hmax : s.types_.length = sizeMax
      · rw [if_pos hmax]
        exact hs
      · rw [if_neg hmax]
        rcases hcreate : create P T (fun U _ => reflectID P U) s with ⟨_ | d, s'⟩
        · exact (create_built hrec hs hcreate).1
        · obtain ⟨hs', hid', hd⟩ := create_built hrec hs hcreate
          by_cases hthrows : s'.throws = true
          · simp only [hthrows, if_true]
            exact hs'.faults _
          · simp only [hthrows, Bool.false_eq_true, if_false]
            have hinvalid : (s'.allocated.id T).isValid = false := by
              rw [← Bool.not_eq_true]
              exact hid' ▸ hid
            exact (hs'.faults s'.faults.tail).registered hv hinvalid (hd d rfl)

theorem reflectID_built (T : Ty L) (s : Registry L) (hs : Built P s) :
    Built P (reflectID P T s).2 := by
  induction hr : T.rank P.rank using Nat.strongRecOn generalizing T s with
  | _ r ih =>
    rw [reflectID_eq]
    exact typeInstanceID_built (fun U s hU hs => ih _ (hr ▸ hU) U s hs rfl) hs

theorem Reachable.built (h : Reachable P s) : Built P s := by
  obtain ⟨rs, rfl⟩ := h
  suffices ∀ s, Built P s → Built P (run P rs s) from this .init built_init
  induction rs with
  | nil => exact fun s hs => hs
  | cons r rs ih =>
    intro s hs
    apply ih
    cases r with
    | reflectID T faults => exact reflectID_built T _ (hs.faults faults)
    | reflect T faults =>
      rw [Request.exec, reflect_snd]
      exact reflectID_built T _ (hs.faults faults)

end Calls

section Honest

/-- The data returned refer only to ids in `got` and to those the creation obtains. -/
def Creation.Honest {rk : L → Nat} {r : Nat} : Creation L rk r → List TypeID → Prop
  | .ret d, got => ∀ i ∈ d.refs, i ∈ got
  | .alloc k, got => k.Honest got
  | .value _ _ k, got => ∀ i, (k i).Honest (i :: got)
  | .attempt _ _ k, got => (∀ i, (k (.ok i)).Honest (i :: got)) ∧ ∀ e, (k (.error e)).Honest got

/-- The program's own types refer only to ids that `ReflectID` has returned to them. -/
def Program.Honest (P : Program L) : Prop := ∀ l, (P.create l).Honest []

omit [DecidableEq L] in
theorem Creation.Yields.refs {rk : L → Nat} {r : Nat} {R : Ty L → TypeID → Prop}
    {c : Creation L rk r} {got : List TypeID} (h : c.Yields R d) (hc : c.Honest got) :
    ∀ i ∈ d.refs, i ∈ got ∨ ∃ T, R T i := by
  induction h generalizing got with
  | ret d => exact fun i hi => .inl (hc i hi)
  | alloc _ ih => exact ih hc
  | value hi _ ih =>
    intro j hj
    rcases ih (hc _) j hj with hj | hj
    · rcases List.mem_cons.mp hj with rfl | hj
      · exact .inr ⟨_, hi⟩
      · exact .inl hj
    · exact .inr hj
  | ok hi _ ih =>
    intro j hj
    rcases ih (hc.1 _) j hj with hj | hj
    · rcases List.mem_cons.mp hj with rfl | hj
      · exact .inr ⟨_, hi⟩
      · exact .inl hj
    · exact .inr hj
  | error _ ih => exact ih (hc.2 _)

omit [DecidableEq L] in
theorem reflectData_honest (hP : P.Honest) {c : Creation L P.rank (T.rank P.rank)}
    (hc : reflectData P T = some c) : c.Honest [] := by
  rcases reflectData_cases hc with ⟨a, rfl⟩ | ⟨name, flags, U, h, _, rfl⟩
  · have hleaf : leafData P a = some c := hc
    cases a <;> cases hleaf
    case user.refl l => exact hP l
    all_goals exact nofun
  · intro i j hj
    simpa [TypeData.refs] using hj

end Honest

section Graph

/-- `u` is a base or an inner type of the registered type `t`. -/
def Refers (s : Registry L) (t u : TypeEntry L) : Prop :=
  t ∈ s.types_ ∧ ∃ i ∈ (t.data s).refs, i.getType s = .ok (.ok u)

/-- Ids of bases and inner types are smaller than the id of the type that refers to them,
so that there is no cycle and printing ends. -/
structure AcyclicLaw (texts : Texts L) (s : Registry L) : Prop where
  smaller : ∀ t ∈ s.types_, ∃ d, s.data t.data_ = some d ∧
    ∀ i ∈ d.bases ++ d.inners, i.value < t.id_.value
  acyclic : ∀ t, ¬ Relation.TransGen (Refers s) t t
  ends : ∀ t ∈ s.types_, ∃ r, t.print s texts (t.id_.value + 1) = some r ∧
    t.dump s texts (t.id_.value + 1) = some r

omit [DecidableEq L] in
theorem TypeID.getType_eq_ok {t : TypeEntry L} (hs : EntryIds s)
    (hlen : s.types_.length < 2 ^ 32) (h : i.getType s = .ok (.ok t)) :
    t ∈ s.types_ ∧ t.id_ = i := by
  rw [TypeID.getType] at h
  by_cases hin : 1 ≤ i.value ∧ i.value ≤ s.types_.length
  · obtain ⟨t', ht', hget⟩ := getType_of_inRange hin.1 hin.2
    have hvalid : ¬ i.isInvalid = true := by
      rw [TypeID.isInvalid_iff]
      omega
    rw [if_neg hvalid, hget] at h
    cases h
    refine ⟨List.mem_of_getElem? ht', TypeID.ext_value ?_⟩
    rw [hs _ _ ht', TypeID.value_ofSize]
    omega
  · obtain ⟨e, he⟩ := getType_of_outOfRange hin
    rw [he] at h
    split at h <;> cases h

omit [DecidableEq L] in
theorem value_of_getElem? {n : Nat} {t : TypeEntry L} (hs : EntryIds s)
    (hlen : s.types_.length < 2 ^ 32) (ht : s.types_[n]? = some t) : t.id_.value = n + 1 := by
  have hn := (List.getElem?_eq_some_iff.mp ht).1
  rw [hs n t ht, TypeID.value_ofSize]
  omega

theorem Built.smaller (h : Built P s) (hP : P.Honest) (hlen : s.types_.length < 2 ^ 32)
    {t : TypeEntry L} (ht : t ∈ s.types_) :
    ∃ d, s.data t.data_ = some d ∧ ∀ i ∈ d.refs, i.value < t.id_.value := by
  obtain ⟨n, hn⟩ := List.mem_iff_getElem?.mp ht
  obtain ⟨d, c, hd, hc, hy⟩ := h.entries n t hn
  have hvalue := value_of_getElem? (h.passes.entryIds (by simp [EntryIds, Registry.init])) hlen hn
  refine ⟨d, hd, fun i hi => ?_⟩
  rcases hy.refs (reflectData_honest hP hc) i hi with hi | ⟨U, hle, _⟩
  · cases hi
  · omega

omit [DecidableEq L] in
/-- Where every inner id is smaller, the id bounds the depth of the recursion. -/
theorem print_ends (texts : Texts L) (hs : EntryIds s) (hlen : s.types_.length < 2 ^ 32)
    (hsmaller : ∀ t ∈ s.types_, ∀ i ∈ (t.data s).refs, i.value < t.id_.value) (n : Nat)
    (t : TypeEntry L) (ht : t ∈ s.types_) (hn : t.id_.value < n) :
    ∃ r, t.print s texts n = some r := by
  induction n generalizing t with
  | zero => exact absurd hn (Nat.not_lt_zero _)
  | succ n ih =>
    rw [TypeEntry.print]
    rcases reflectPrinter texts t.data_ with _ | str | ⟨before, after⟩
    · exact ⟨_, rfl⟩
    · exact ⟨_, rfl⟩
    · rcases hin : t.getInner s 0 with c | e | u
      · exact ⟨_, rfl⟩
      · exact ⟨_, rfl⟩
      · rw [TypeEntry.getInner] at hin
        cases hi : (t.data s).inners[0]? with
        | none =>
          rw [hi] at hin
          cases hin
        | some i =>
          rw [hi] at hin
          obtain ⟨hu, hid⟩ := TypeID.getType_eq_ok hs hlen hin
          have hmem : i ∈ (t.data s).refs :=
            List.mem_append_right _ (List.mem_of_getElem? hi)
          have hlt := hsmaller t ht i hmem
          obtain ⟨r, hr⟩ := ih u hu (by rw [hid]; omega)
          dsimp only
          rw [hr]
          exact ⟨_, rfl⟩

theorem acyclicLaw_of_reachable (P : Program L) (hP : P.Honest) (texts : Texts L)
    (hs : Reachable P s) (hlen : s.types_.length < 2 ^ 32) : AcyclicLaw texts s := by
  have hbuilt := hs.built
  have hids := hs.entryIds
  have hsmaller : ∀ t ∈ s.types_, ∀ i ∈ (t.data s).refs, i.value < t.id_.value := by
    intro t ht
    obtain ⟨d, hd, hlt⟩ := hbuilt.smaller hP hlen ht
    rw [TypeEntry.data, hd]
    exact hlt
  refine ⟨fun t ht => hbuilt.smaller hP hlen ht, ?_, ?_⟩
  · intro t hcycle
    have hlt : Relation.TransGen (fun m n : Nat => n < m) t.id_.value t.id_.value := by
      apply hcycle.lift fun t => t.id_.value
      rintro t u ⟨ht, i, hi, hget⟩
      have hlt := hsmaller t ht i hi
      rwa [← (TypeID.getType_eq_ok hids hlen hget).2] at hlt
    rw [Relation.transGen_eq_self] at hlt
    exact Nat.lt_irrefl _ hlt
  · intro t ht
    obtain ⟨r, hr⟩ := print_ends texts hids hlen hsmaller _ t ht (Nat.lt_succ_self _)
    exact ⟨r, hr, hr⟩

/-- A pointer to a type of the program. -/
theorem acyclicLaw_pointer :
    AcyclicLaw (fun _ => none)
      (run .plain [.reflectID (.obj (.ptr false false (.leaf false false (.user 0)))) []] .init) :=
  acyclicLaw_of_reachable .plain (fun _ => nofun) _ ⟨_, rfl⟩ (show 2 < 2 ^ 32 by decide)

end Graph

end ReflCpp
