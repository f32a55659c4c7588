import ReflCpp.TypeGraph

namespace ReflCpp

open Cpp

variable {L : Type}

namespace TypeEntry

variable (s : Registry L) (t : TypeEntry L)

def hasBases : Bool := !(t.data s).bases.isEmpty

/-- `Type::GetBase`; the index is not checked. -/
def getBase (index : Nat) : Except Crash (Except GetTypeError (TypeEntry L)) :=
  match (t.data s).bases[index]? with
  | none => .error .outOfBounds
  | some id => id.getType s

def hasInners : Bool := !(t.data s).inners.isEmpty

def hasInner (id : TypeID) : Bool := (t.data s).inners.any fun inner => inner = id

/-- `Type::Is` -/
def is (id : TypeID) : Bool := t.id_ = id

end TypeEntry

/-- A step from a type to one that it refers to. -/
inductive Hop
  | base (index : Nat)
  | inner (index : Nat)

section Walk

variable (s : Registry L)

/-- The id that the step is over, if the index is in range. -/
def Hop.over (t : TypeEntry L) : Hop → Option TypeID
  | .base index => (t.data s).bases[index]?
  | .inner index => (t.data s).inners[index]?

def TypeEntry.hop (t : TypeEntry L) : Hop → Except Crash (Except GetTypeError (TypeEntry L))
  | .base index => t.getBase s index
  | .inner index => t.getInner s index

/-- One `GetBase` or `GetInner` after the other. -/
def walk : List Hop → TypeEntry L → Except Crash (Except GetTypeError (TypeEntry L))
  | [], t => .ok (.ok t)
  | hop :: hops, t =>
    match t.hop s hop with
    | .ok (.ok u) => walk hops u
    | .ok (.error e) => .ok (.error e)
    | .error c => .error c

/-- The walk stops in front of `hop`, at a type where that step is over `id`. -/
def StopsAt (hops : List Hop) (t : TypeEntry L) (id : Option TypeID) : Prop :=
  ∃ before hop after u, hops = before ++ hop :: after ∧ walk s before t = .ok (.ok u) ∧
    hop.over s u = id

/-- How a walk from `t` ends: at a type as many ids down as there are steps, at an index that
is out of range, or at `void`, whose id is taken for no type. -/
structure WalkLaw (s' : Registry L) (t : TypeEntry L) (hops : List Hop) : Prop where
  arrives : ∀ u, walk s hops t = .ok (.ok u) →
    u ∈ s.types_ ∧ u.id_.value + hops.length ≤ t.id_.value
  fails : ∀ e, walk s hops t = .ok (.error e) → e = .invalidID ∧ StopsAt s hops t (some ⟨0⟩)
  crashes : ∀ c, walk s hops t = .error c → c = .outOfBounds ∧ StopsAt s hops t none
  later : walk s' hops t = walk s hops t

theorem TypeEntry.hop_eq (t : TypeEntry L) (hop : Hop) :
    t.hop s hop =
      match hop.over s t with
      | none => .error .outOfBounds
      | some id => id.getType s := by
  cases hop <;> rfl

variable {s}

theorem StopsAt.cons {t u : TypeEntry L} {hop : Hop} {hops : List Hop} {id : Option TypeID}
    (hhop : t.hop s hop = .ok (.ok u)) (h : StopsAt s hops u id) :
    StopsAt s (hop :: hops) t id := by
  obtain ⟨before, last, after, v, rfl, hwalk, hover⟩ := h
  refine ⟨hop :: before, last, after, v, rfl, ?_, hover⟩
  rw [walk, hhop]
  exact hwalk

end Walk

variable [DecidableEq L] {P : Program L} {s s' : Registry L} {t u : TypeEntry L}

section Hop

omit [DecidableEq L] in
theorem TypeID.getType_of_range {i : TypeID} (h₁ : 1 ≤ i.value)
    (h₂ : i.value ≤ s.types_.length) : ∃ u, i.getType s = .ok (.ok u) := by
  obtain ⟨u, _, hu⟩ := getType_of_inRange h₁ h₂
  refine ⟨u, ?_⟩
  rw [TypeID.getType, if_neg, hu]
  rw [TypeID.isInvalid_iff]
  omega

omit [DecidableEq L] in
theorem Hop.over_mem {hop : Hop} {i : TypeID} (h : hop.over s t = some i) :
    i ∈ (t.data s).refs := by
  cases hop with
  | base index => exact List.mem_append_left _ (List.mem_of_getElem? h)
  | inner index => exact List.mem_append_right _ (List.mem_of_getElem? h)

/-- A step is out of range, over `void`, or to a type with a smaller id. -/
theorem Built.hop_cases (hs : Built P s) (hP : P.Honest) (hlen : s.types_.length < 2 ^ 32)
    (ht : t ∈ s.types_) (hop : Hop) :
    (hop.over s t = none ∧ t.hop s hop = .error .outOfBounds) ∨
    (hop.over s t = some ⟨0⟩ ∧ t.hop s hop = .ok (.error .invalidID)) ∨
    ∃ u ∈ s.types_, t.hop s hop = .ok (.ok u) ∧ hop.over s t = some u.id_ ∧
      u.id_.value < t.id_.value := by
  have hids : EntryIds s := hs.passes.entryIds (by simp [EntryIds, Registry.init])
  rw [t.hop_eq s hop]
  cases hover : hop.over s t with
  | none => exact .inl ⟨rfl, rfl⟩
  | some i =>
    right
    obtain ⟨d, hd, hsmaller⟩ := hs.smaller hP hlen ht
    have hi := Hop.over_mem hover
    rw [TypeEntry.data, hd] at hi
    have hlt : i.value < t.id_.value := hsmaller i hi
    obtain ⟨n, hn⟩ := List.mem_iff_getElem?.mp ht
    have hvalue := value_of_getElem? hids hlen hn
    have hle := (List.getElem?_eq_some_iff.mp hn).1
    dsimp only
    by_cases hzero : i.isInvalid = true
    · left
      rw [TypeID.getType, if_pos hzero]
      exact ⟨congrArg some (TypeID.ext_value (TypeID.isInvalid_iff.mp hzero)), rfl⟩
    · right
      rw [TypeID.isInvalid_iff] at hzero
      have hpos : 1 ≤ i.value := by omega
      have hrange : i.value ≤ s.types_.length := by omega
      obtain ⟨u, hu⟩ := TypeID.getType_of_range hpos hrange
      obtain ⟨hmem, rfl⟩ := TypeID.getType_eq_ok hids hlen hu
      exact ⟨u, hmem, hu, rfl, hlt⟩

theorem Built.data_later (hs : Built P s) (ht : t ∈ s.types_) (hpass : Passes s s') :
    t.data s' = t.data s := by
  obtain ⟨n, hn⟩ := List.mem_iff_getElem?.mp ht
  obtain ⟨d, c, hd, _, _⟩ := hs.entries n t hn
  rw [TypeEntry.data, TypeEntry.data, hpass.data_eq hd, hd]

/-- A step that has been possible leads to the same type later. -/
theorem Built.hop_later (hs : Built P s) (hP : P.Honest) (hlen : s.types_.length < 2 ^ 32)
    (ht : t ∈ s.types_) (hpass : Passes s s') (hop : Hop) : t.hop s' hop = t.hop s hop := by
  have hover : hop.over s' t = hop.over s t := by
    have hdata := hs.data_later ht hpass
    cases hop <;> simp only [Hop.over, hdata]
  have hcases := hs.hop_cases hP hlen ht hop
  rw [t.hop_eq s' hop, hover]
  rcases hcases with ⟨hnone, hhop⟩ | ⟨hvoid, hhop⟩ | ⟨u, hu, hhop, hid, _⟩
  · rw [hnone, hhop]
  · rw [hvoid, hhop]
    rfl
  · rw [hhop, hid]
    rw [t.hop_eq s hop, hid] at hhop
    have hids : EntryIds s := hs.passes.entryIds (by simp [EntryIds, Registry.init])
    obtain ⟨n, hn⟩ := List.mem_iff_getElem?.mp hu
    have hvalue := value_of_getElem? hids hlen hn
    have hle := (List.getElem?_eq_some_iff.mp hn).1
    dsimp only at hhop ⊢
    rw [TypeID.getType] at hhop ⊢
    rw [getType_of_steps hpass (by omega) (by omega)]
    exact hhop

theorem Built.walkLaw (hs : Built P s) (hP : P.Honest) (hlen : s.types_.length < 2 ^ 32)
    (hpass : Passes s s') (ht : t ∈ s.types_) (hops : List Hop) : WalkLaw s s' t hops := by
  induction hops generalizing t with
  | nil =>
    refine ⟨?_, ?_, ?_, rfl⟩ <;> intro r hr <;> cases hr
    exact ⟨ht, Nat.le_refl _⟩
  | cons hop hops ih =>
    have hlater := hs.hop_later hP hlen ht hpass hop
    rcases hs.hop_cases hP hlen ht hop with ⟨hover, hhop⟩ | ⟨hover, hhop⟩ | ⟨u, hu, hhop, _, hlt⟩
    · have hstops : StopsAt s (hop :: hops) t none := ⟨[], hop, hops, t, rfl, rfl, hover⟩
      rw [hhop] at hlater
      constructor <;> simp only [walk, hlater, hhop]
      · intro v hv
        cases hv
      · intro e he
        cases he
      · rintro c ⟨⟩
        exact ⟨rfl, hstops⟩
    · have hstops : StopsAt s (hop :: hops) t (some ⟨0⟩) := ⟨[], hop, hops, t, rfl, rfl, hover⟩
      rw [hhop] at hlater
      constructor <;> simp only [walk, hlater, hhop]
      · intro v hv
        cases hv
      · rintro e ⟨⟩
        exact ⟨rfl, hstops⟩
      · intro c hc
        cases hc
    · have hrest := ih hu
      rw [hhop] at hlater
      constructor <;> simp only [walk, hlater, hhop]
      · intro v hv
        obtain ⟨hmem, hle⟩ := hrest.arrives v hv
        refine ⟨hmem, ?_⟩
        rw [List.length_cons]
        omega
      · intro e he
        exact (hrest.fails e he).imp_right (.cons hhop)
      · intro c hc
        exact (hrest.crashes c hc).imp_right (.cons hhop)
      · exact hrest.later

end Hop

section Queries

omit [DecidableEq L] in
theorem entry_of_id (hs : EntryIds s) (hlen : s.types_.length < 2 ^ 32) (ht : t ∈ s.types_)
    (hu : u ∈ s.types_) (h : t.id_ = u.id_) : t = u := by
  obtain ⟨n, hn⟩ := List.mem_iff_getElem?.mp ht
  obtain ⟨m, hm⟩ := List.mem_iff_getElem?.mp hu
  have hnvalue := value_of_getElem? hs hlen hn
  have hmvalue := value_of_getElem? hs hlen hm
  rw [h, hmvalue] at hnvalue
  obtain rfl := Nat.succ.inj hnvalue
  rw [hn] at hm
  exact Option.some.inj hm

theorem entry_of_key (hs : WellNumbered s) (ht : t ∈ s.types_) (hu : u ∈ s.types_)
    (h : t.data_ = u.data_) : t = u :=
  List.inj_on_of_nodup_map hs.nodup ht hu h

omit [DecidableEq L] in
/-- `HasBases` and `HasInners` say whether the first index is in range. -/
theorem has_iff (hget : ∀ i ∈ (t.data s).refs, ∃ r, i.getType s = .ok r) :
    (t.hasBases s = true ↔ ∃ r, t.getBase s 0 = .ok r) ∧
      (t.hasInners s = true ↔ ∃ r, t.getInner s 0 = .ok r) := by
  have hlist : ∀ ids : List TypeID, (∀ i ∈ ids, ∃ r, i.getType s = .ok r) →
      ((!ids.isEmpty) = true ↔ ∃ r, (match ids[0]? with
        | none => Except.error Crash.outOfBounds
        | some id => id.getType s) = .ok r) := by
    intro ids hids
    cases ids with
    | nil =>
      refine iff_of_false Bool.false_ne_true ?_
      rintro ⟨r, hr⟩
      cases hr
    | cons i ids => exact iff_of_true rfl (hids i List.mem_cons_self)
  exact ⟨hlist _ fun i hi => hget i (List.mem_append_left _ hi),
    hlist _ fun i hi => hget i (List.mem_append_right _ hi)⟩

theorem Built.getType_ok (hs : Built P s) (i : TypeID) : ∃ r, i.getType s = .ok r := by
  have hids : EntryIds s := hs.passes.entryIds (by simp [EntryIds, Registry.init])
  obtain ⟨r, hr, _⟩ := getType_inBounds hids i
  rw [TypeID.getType]
  split
  · exact ⟨_, rfl⟩
  · exact ⟨r, hr⟩

omit [DecidableEq L] in
theorem hasInner_iff (hs : EntryIds s) (hlen : s.types_.length < 2 ^ 32) (hu : u ∈ s.types_) :
    t.hasInner s u.id_ = true ↔ ∃ index, t.getInner s index = .ok (.ok u) := by
  rw [TypeEntry.hasInner, List.any_eq_true]
  constructor
  · rintro ⟨i, hi, heq⟩
    obtain rfl : i = u.id_ := of_decide_eq_true heq
    obtain ⟨index, hindex⟩ := List.mem_iff_getElem?.mp hi
    obtain ⟨n, hn⟩ := List.mem_iff_getElem?.mp hu
    have hvalue := value_of_getElem? hs hlen hn
    have hle := (List.getElem?_eq_some_iff.mp hn).1
    have hpos : 1 ≤ u.id_.value := by omega
    have hrange : u.id_.value ≤ s.types_.length := by omega
    obtain ⟨v, hget⟩ := TypeID.getType_of_range hpos hrange
    obtain ⟨hmem, hid⟩ := TypeID.getType_eq_ok hs hlen hget
    obtain rfl := entry_of_id hs hlen hmem hu hid
    refine ⟨index, ?_⟩
    rw [TypeEntry.getInner, hindex]
    exact hget
  · rintro ⟨index, hget⟩
    rw [TypeEntry.getInner] at hget
    cases hindex : (t.data s).inners[index]? with
    | none =>
      rw [hindex] at hget
      cases hget
    | some i =>
      rw [hindex] at hget
      obtain ⟨_, hid⟩ := TypeID.getType_eq_ok hs hlen hget
      exact ⟨i, List.mem_of_getElem? hindex, decide_eq_true hid.symm⟩

/-- What a program that looks around in the registered types can rely on, in `s` and in any
later `s'`. -/
structure NavigationLaw (s s' : Registry L) : Prop where
  walk : ∀ t ∈ s.types_, ∀ hops, WalkLaw s s' t hops
  has : ∀ t ∈ s.types_, (t.hasBases s = true ↔ ∃ r, t.getBase s 0 = .ok r) ∧
    (t.hasInners s = true ↔ ∃ r, t.getInner s 0 = .ok r)
  is : ∀ t ∈ s.types_, ∀ u ∈ s.types_, t.is u.id_ = true ↔ t.data_ = u.data_
  hasInner : ∀ t ∈ s.types_, ∀ u ∈ s.types_,
    t.hasInner s u.id_ = true ↔ ∃ index, t.getInner s index = .ok (.ok u)

theorem navigationLaw_of_run (hP : P.Honest) (hs : Reachable P s) (rs : List (Request L))
    (hlen : (run P rs s).types_.length < 2 ^ 32) : NavigationLaw s (run P rs s) := by
  have hpass : Passes s (run P rs s) := run_steps rs s
  have hlen₀ := Nat.lt_of_le_of_lt hpass.length_le hlen
  have hbuilt := hs.built
  have hids := hs.entryIds
  refine ⟨fun t ht hops => hbuilt.walkLaw hP hlen₀ hpass ht hops,
    fun t _ => has_iff fun i _ => hbuilt.getType_ok i, fun t ht u hu => ?_,
    fun t _ u hu => hasInner_iff hids hlen₀ hu⟩
  rw [TypeEntry.is, decide_eq_true_eq]
  constructor
  · intro h
    rw [entry_of_id hids hlen₀ ht hu h]
  · intro h
    rw [entry_of_key (hbuilt.passes.wellNumbered hlen₀) ht hu h]

theorem plain_honest : Program.plain.Honest := by
  intro l i hi
  cases hi

/-- `const Point*`, then `void*`. -/
theorem navigationLaw_pointer :
    NavigationLaw
      (run .plain [.reflectID (.obj (.ptr false false (.leaf true false (.user 0)))) []] .init)
      (run .plain [.reflectID (.obj (.ptr false false (.leaf false false .void))) []]
        (run .plain [.reflectID (.obj (.ptr false false (.leaf true false (.user 0)))) []]
          .init)) :=
  navigationLaw_of_run plain_honest ⟨_, rfl⟩ _ (show 4 < 2 ^ 32 by decide)

end Queries

end ReflCpp
