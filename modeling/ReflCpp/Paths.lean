import ReflCpp.ConstSafety
import ReflCpp.Reflectability

namespace ReflCpp

open Cpp Blocks Simulation

variable {L V : Type} [DecidableEq L] {P : Program L} {τ : Traits L}

section Path

/-- One `GetRef` after the other, each on what the one before returned. -/
def follow (P : Program L) : List (FieldWrapper L τ) → Variant L →
    WorldM L V (Except Crash (Except FieldGetError (Variant L)))
  | [], v, w => (.ok (.ok v), w)
  | f :: path, v, w =>
    match f.getRef P v w with
    | (.error c, w) => (.error c, w)
    | (.ok (.error e), w) => (.ok (.error e), w)
    | (.ok (.ok u), w) => follow P path u w

/-- Each field is one of the object that the path has come to, and none of those on the way
is const. -/
def isPath : Obj L → List (FieldWrapper L τ) → Bool
  | _, [] => true
  | D, f :: path => (f.traits.isStatic || D = f.traits.classType) && isPath f.type.member path

def memberAt (D : Obj L) (path : List (FieldWrapper L τ)) : Obj L :=
  path.foldl (fun _ f => f.type.member) D

def placeAt (o : Addr) (path : List (FieldWrapper L τ)) : Addr :=
  path.foldl (fun o f => f.placeIn o) o

variable {f : FieldWrapper L τ} {path : List (FieldWrapper L τ)} {D : Obj L} {o : Addr}

theorem placeAt_append (path path' : List (FieldWrapper L τ)) :
    placeAt o (path ++ path') = placeAt (placeAt o path) path' := List.foldl_append

theorem isPath_append (path path' : List (FieldWrapper L τ)) :
    isPath D (path ++ path') = (isPath D path && isPath (memberAt D path) path') := by
  induction path generalizing D with
  | nil => exact (Bool.true_and _).symm
  | cons f path ih =>
    rw [List.cons_append, isPath, isPath, ih, Bool.and_assoc]
    rfl

omit [DecidableEq L] in
theorem memberAt_append [DecidableEq L] {τ : Traits L} (path path' : List (FieldWrapper L τ)) :
    memberAt D (path ++ path') = memberAt (memberAt D path) path' := List.foldl_append

/-- No field on the path is static, so that its end is a part of the object it starts from. -/
def isPart (path : List (FieldWrapper L τ)) : Bool := path.all fun f => !f.traits.isStatic

theorem isPart_cons : isPart (f :: path) = (!f.traits.isStatic && isPart path) :=
  List.all_cons

theorem placeIn_of_part (hf : f.traits.isStatic = false) : f.placeIn o = o + f.ptr_ := by
  rw [FieldWrapper.placeIn, hf, if_neg Bool.false_ne_true]

/-- A part is where it is in every object. -/
theorem placeAt_of_part (hpart : isPart path = true) (o : Addr) :
    placeAt o path = o + placeAt 0 path := by
  induction path generalizing o with
  | nil => rfl
  | cons f path ih =>
    rw [isPart_cons, Bool.and_eq_true, Bool.not_eq_true'] at hpart
    change placeAt (f.placeIn o) path = o + placeAt (f.placeIn 0) path
    rw [ih hpart.2 (f.placeIn o), ih hpart.2 (f.placeIn 0), placeIn_of_part hpart.1,
      placeIn_of_part hpart.1, Nat.zero_add, Nat.add_assoc]

theorem cells_eq (f : FieldWrapper L τ) : f.cells = τ.cells f.type.member := by
  rw [FieldWrapper.cells, FieldWrapper.traits, fieldTraits_type, Traits.cells_removeConst]

/-- A part ends inside the object. -/
theorem part_inside (hpart : isPart path = true) (hpath : isPath D path = true) :
    placeAt 0 path + τ.cells (memberAt D path) ≤ τ.cells D := by
  induction path generalizing D with
  | nil => exact Nat.le_of_eq (Nat.zero_add _)
  | cons f path ih =>
    rw [isPart_cons, Bool.and_eq_true, Bool.not_eq_true'] at hpart
    rw [isPath, hpart.1, Bool.false_or, Bool.and_eq_true, decide_eq_true_eq] at hpath
    obtain ⟨C, hC⟩ : ∃ C, f.type.class_ = some C := by
      cases hclass : f.type.class_ with
      | none =>
        rw [FieldWrapper.traits, fieldTraits_static f.type hclass] at hpart
        exact absurd hpart.1 Bool.noConfusion
      | some C => exact ⟨C, rfl⟩
    have hD : D = .leaf false false (.user C) := hpath.1.trans (fieldTraits_class f.type hC).2
    have hcells : τ.cells D = τ.size C := by rw [hD]; rfl
    have hplace : placeAt 0 (f :: path) = f.ptr_ + placeAt 0 path := by
      change placeAt (f.placeIn 0) path = _
      rw [placeAt_of_part hpart.2, placeIn_of_part hpart.1, Nat.zero_add]
    have hrest := ih hpart.2 hpath.2
    have hinside := f.inside C hC
    rw [hplace, hcells]
    change f.ptr_ + placeAt 0 path + τ.cells (memberAt f.type.member path) ≤ τ.size C
    rw [Nat.add_assoc]
    exact Nat.le_trans (Nat.add_le_add_left hrest _) hinside

/-- What the object at the end of a path holds. -/
def readAt (mem : Addr → V) (D : Obj L) (o : Addr) (path : List (FieldWrapper L τ)) : List V :=
  load mem (placeAt o path) (τ.cells (memberAt D path))

end Path

section Step

variable {f : FieldWrapper L τ} {D : Obj L} {o : Addr} {it : Ideal L V}

omit [DecidableEq L] in
theorem refType_eq (t : FieldType L) : (fieldTraits t).refType = .lref t.member := by
  rw [FieldTraits.refType, fieldTraits_isConst, fieldTraits_type]
  cases hconst : t.member.isConst with
  | true => exact congrArg Cpp.Ty.lref (Cpp.Obj.addConst_removeConst hconst)
  | false => exact congrArg Cpp.Ty.lref (Cpp.Obj.removeConst_of_not_isConst hconst)

omit [DecidableEq L] in
theorem decorated_lref_const {C : Obj L} (hC : C.isConst = false) :
    decorated (wrapperKind τ (.lref D)) (.lref C) = some (.lref D) ↔ D = C := by
  have hremove := Cpp.Obj.removeConst_of_not_isConst hC
  rw [wrapperKind]
  cases hD : D.isConst with
  | true =>
    have hne : D ≠ C := by
      rintro rfl
      rw [hD] at hC
      cases hC
    rw [if_pos rfl, decorated, hC, if_neg Bool.false_ne_true]
    exact iff_of_false (Option.some_ne_none _).symm hne
  | false =>
    rw [if_neg Bool.false_ne_true, decorated, hremove, Option.some.injEq, Cpp.Ty.lref.injEq]
    exact eq_comm

theorem ideal_lvalue : Ideal.lvalue τ f (some ⟨.lref D, some o⟩) =
    if f.traits.isStatic || D = f.traits.classType then .ok (some (f.placeIn o))
    else .error .canNotGet := by
  have hclass : f.traits.classType.isConst = false := by
    obtain ⟨a, ha⟩ := fieldTraits_classType f.type
    rw [FieldWrapper.traits, ha]
    rfl
  rw [Ideal.lvalue, FieldWrapper.placeIn]
  cases hstatic : f.traits.isStatic with
  | true => rfl
  | false =>
    have hcan : Ideal.canGet τ (some ⟨.lref D, some o⟩) (.lref f.traits.classType) =
        decide (D = f.traits.classType) :=
      decide_eq_decide.mpr (decorated_lref_const hclass)
    rw [Ideal.get, hcan, Bool.false_or]
    cases decide (D = f.traits.classType) <;> rfl

theorem ideal_getRef (hp : f.type.member.isPointer = false) :
    it.getRef τ f (some ⟨.lref D, some o⟩) =
      if f.traits.isStatic || D = f.traits.classType then
        (.read (.ok ()), it.hold (some ⟨.lref f.type.member, some (f.placeIn o)⟩))
      else (.read (.error .canNotGet), it) := by
  have href : f.traits.refType = .lref f.type.member := refType_eq f.type
  have hnone : (!f.traits.isStatic && (some (⟨.lref D, some o⟩ : Typed L)).isNone) = false :=
    Bool.and_false _
  rw [Ideal.getRef, Ideal.access, hnone, if_neg Bool.false_ne_true, ideal_lvalue, href]
  cases f.traits.isStatic || D = f.traits.classType with
  | true =>
    have hcreate : it.create τ (.lref f.type.member) (f.placeIn o) =
        it.hold (some ⟨.lref f.type.member, some (f.placeIn o)⟩) := by
      rw [Ideal.create, wrapperBinding, hp]
      rfl
    exact congrArg (Prod.mk (Reply.read (.ok ()))) hcreate
  | false => rfl

theorem ideal_get {t : Option (Typed L)} {U : Ty L} :
    (∃ a, Ideal.get τ t U = .ok a) ↔ Ideal.canGet τ t U = true := by
  cases t with
  | none =>
    refine iff_of_false ?_ Bool.false_ne_true
    rintro ⟨a, ha⟩
    cases ha
  | some t =>
    rw [Ideal.get]
    cases Ideal.canGet τ (some t) U with
    | true => exact iff_of_true ⟨_, rfl⟩ rfl
    | false =>
      refine iff_of_false ?_ Bool.false_ne_true
      rintro ⟨a, ha⟩
      cases ha

theorem ideal_sides {t : Option (Typed L)} :
    (∃ p, Ideal.sides τ f t (some ⟨.lref D, some o⟩) = .ok p) ↔
      (f.traits.isStatic || D = f.traits.classType) = true ∧
        Ideal.canGet τ t (.lref f.traits.type.addConst) = true := by
  rw [Ideal.sides, ideal_lvalue, ← ideal_get]
  cases f.traits.isStatic || D = f.traits.classType with
  | false =>
    refine iff_of_false ?_ fun h => Bool.false_ne_true h.1
    rintro ⟨p, hp⟩
    cases hp
  | true =>
    rw [if_pos rfl, eq_self, true_and]
    dsimp only
    cases Ideal.get τ t (.lref f.traits.type.addConst) with
    | error e =>
      constructor
      · rintro ⟨p, hp⟩
        cases hp
      · rintro ⟨a, ha⟩
        cases ha
    | ok a => exact iff_of_true ⟨_, rfl⟩ ⟨a, rfl⟩

theorem ideal_setValue {t : Option (Typed L)} :
    (it.setValue τ f t (some ⟨.lref D, some o⟩)).1 = .assigned (.ok ()) ↔
      (f.traits.isStatic || D = f.traits.classType) = true ∧ f.traits.isConst = false ∧
        f.isCopyAssignable = true ∧
        Ideal.canGet τ t (.lref f.traits.type.addConst) = true := by
  have hsides := ideal_sides (τ := τ) (f := f) (D := D) (o := o) (t := t)
  rw [Ideal.setValue]
  cases hconst : f.traits.isConst with
  | true =>
    refine iff_of_false ?_ fun h => Bool.noConfusion h.2.1
    intro h
    cases h
  | false =>
    cases hassign : f.isCopyAssignable with
    | false =>
      refine iff_of_false ?_ fun h => Bool.noConfusion h.2.2.1
      intro h
      cases h
    | true =>
      rw [if_neg Bool.false_ne_true, Bool.not_true, if_neg Bool.false_ne_true, eq_self, true_and,
        eq_self, true_and, ← hsides]
      cases Ideal.sides τ f t (some ⟨.lref D, some o⟩) with
      | error e =>
        constructor
        · intro h
          cases h
        · rintro ⟨p, hp⟩
          cases hp
      | ok p => exact iff_of_true rfl ⟨p, rfl⟩

end Step

section Follow

variable {f : FieldWrapper L τ} {D : Obj L} {o : Addr} {it : Ideal L V} {st : Session L V}
  {v : Variant L}

theorem getRef_faultless (f : FieldWrapper L τ) (v : Variant L) {w : World L V}
    (hw : w.reg.faults = []) : (f.getRef P v w).2.reg.faults = [] := by
  have hl := lvalue_faultless (P := P) f v hw
  unfold FieldWrapper.getRef FieldWrapper.access
  split
  · exact hw
  · rcases hr : f.lvalue P v w.reg with ⟨c | e | a, s⟩ <;> rw [hr] at hl
    · exact hl
    · exact hl
    · dsimp only
      rw [createField_eq, Variant.createWith_reg]
      exact reflectID_faultless f.traits.refType hl

/-- Without the last of the variants, and what the last of them is. -/
theorem Rel.of_hold {w : World L V} {u : Variant L} {t : Option (Typed L)}
    (h : Rel P τ { st with world := w, held := st.held ++ [u] } (it.hold t))
    (hlen : st.held.length = it.held.length) :
    Rel P τ { st with world := w } it ∧ Denotes P τ w.reg u t := by
  have hheld : List.Forall₂ (Denotes P τ w.reg) (st.held ++ [u]) (it.held ++ [t]) := h.held
  have hinit := List.forall₂_take st.held.length hheld
  have hlast := List.forall₂_drop st.held.length hheld
  rw [List.take_left, hlen, List.take_left] at hinit
  rw [List.drop_left, hlen, List.drop_left] at hlast
  exact ⟨⟨h.passes, h.mem, h.next, hinit⟩, (List.forall₂_cons.mp hlast).1⟩

/-- A field that a path may go through: a reference to it can be reflected, and it is not
itself a pointer. -/
structure Walkable (P : Program L) (f : FieldWrapper L τ) : Prop where
  reflects : Reflectable P f.traits.refType
  plain : f.type.member.isPointer = false

theorem getRef_step (h : Rel P τ st it) (hf : Walkable P f)
    (hv : Denotes P τ st.world.reg v (some ⟨.lref D, some o⟩))
    (hfaults : st.world.reg.faults = [])
    (hlen : (f.getRef P v st.world).2.reg.types_.length < 2 ^ 32) :
    Rel P τ { st with world := (f.getRef P v st.world).2 } it ∧
    if f.traits.isStatic || D = f.traits.classType then
      ∃ u, (f.getRef P v st.world).1 = .ok (.ok u) ∧
        Denotes P τ (f.getRef P v st.world).2.reg u
          (some ⟨.lref f.type.member, some (f.placeIn o)⟩)
    else (f.getRef P v st.world).1 = .ok (.error .canNotGet) := by
  have hagrees := h.getRef f hf.reflects hv hfaults hlen
  rw [ideal_getRef hf.plain] at hagrees
  obtain ⟨hreply, hrel⟩ := hagrees
  rcases hr : f.getRef P v st.world with ⟨c | e | u, w⟩ <;> rw [hr] at hreply hrel
  · split at hreply <;> cases hreply
  · split at hreply <;> cases hreply
    next hpath =>
      rw [if_neg hpath] at hrel ⊢
      exact ⟨hrel, rfl⟩
  · split at hreply <;> cases hreply
    next hpath =>
      rw [if_pos hpath] at hrel ⊢
      obtain ⟨hinit, hu⟩ := hrel.of_hold h.held.length_eq
      exact ⟨hinit, u, rfl, hu⟩

theorem passes_follow {w : World L V} (hs : Passes .init w.reg)
    (path : List (FieldWrapper L τ)) (v : Variant L) :
    Passes w.reg (follow P path v w).2.reg := by
  induction path generalizing v w with
  | nil => exact .refl
  | cons f path ih =>
    have hpass := (returned_getRef (P := P) f v hs).passes
    rcases hr : f.getRef P v w with ⟨c | e | u, w'⟩ <;> rw [hr] at hpass <;> rw [follow, hr]
    · exact hpass
    · exact hpass
    · exact hpass.trans (ih (hs.trans hpass) u)

/-- The path reaches the member at its end, which is at the sum of the offsets; where it is
not a path, it ends with an error, and either way no object has changed. -/
theorem follow_rel (h : Rel P τ st it) {path : List (FieldWrapper L τ)}
    (hpath : ∀ f ∈ path, Walkable P f)
    (hv : Denotes P τ st.world.reg v (some ⟨.lref D, some o⟩))
    (hfaults : st.world.reg.faults = [])
    (hlen : (follow P path v st.world).2.reg.types_.length < 2 ^ 32) :
    Rel P τ { st with world := (follow P path v st.world).2 } it ∧
    (follow P path v st.world).2.reg.faults = [] ∧
    if isPath D path then
      ∃ u, (follow P path v st.world).1 = .ok (.ok u) ∧
        Denotes P τ (follow P path v st.world).2.reg u
          (some ⟨.lref (memberAt D path), some (placeAt o path)⟩)
    else (follow P path v st.world).1 = .ok (.error .canNotGet) := by
  induction path generalizing st D o v with
  | nil => exact ⟨h, hfaults, v, rfl, hv⟩
  | cons f path ih =>
    have hstep := getRef_step (o := o) h (hpath f List.mem_cons_self) hv hfaults
    have hfaults' := getRef_faultless (P := P) f v hfaults
    have hpass := (returned_getRef (P := P) f v h.passes).passes
    rw [isPath]
    rcases hr : f.getRef P v st.world with ⟨c | e | u, w⟩ <;>
      rw [hr] at hstep hfaults' hpass <;> rw [follow, hr] at hlen ⊢
    · obtain ⟨_, hreply⟩ := hstep hlen
      split at hreply
      · obtain ⟨u, hu, _⟩ := hreply
        cases hu
      · cases hreply
    · obtain ⟨hrel, hreply⟩ := hstep hlen
      split at hreply
      · obtain ⟨u, hu, _⟩ := hreply
        cases hu
      next hf =>
        rw [Bool.not_eq_true] at hf
        rw [hf]
        exact ⟨hrel, hfaults', hreply⟩
    · have hlen' := Nat.lt_of_le_of_lt
        (passes_follow (P := P) (h.passes.trans hpass) path u).length_le hlen
      obtain ⟨hrel, hreply⟩ := hstep hlen'
      split at hreply
      next hf =>
        obtain ⟨u', hu, hdenotes⟩ := hreply
        cases hu
        rw [hf, Bool.true_and]
        exact ih hrel (fun g hg => hpath g (List.mem_cons_of_mem _ hg)) hdenotes hfaults' hlen
      · cases hreply

end Follow

section Outcome

variable {w w₁ w₂ : World L V} {v u value : Variant L} {D : Obj L} {o : Addr}
  {path : List (FieldWrapper L τ)} {f : FieldWrapper L τ}

/-- Of a world on its own, without any variants. -/
theorem rel_world (hs : Passes .init w.reg) :
    Rel P τ { world := w, args := fun _ => [], infoArgs := fun _ => [], held := [] }
      (.start w.mem w.next) := ⟨hs, rfl, rfl, .nil⟩

/-- What there is at the end of a path. -/
theorem follow_ok (hv : Created P τ w.reg (.lref D) v) (ho : v.base_.value_ = some o)
    (hfaults : w.reg.faults = []) (hpath : ∀ f ∈ path, Walkable P f)
    (hfollow : follow P path v w = (.ok (.ok u), w₁)) (hlen : w₁.reg.types_.length < 2 ^ 32) :
    isPath D path = true ∧ Passes w.reg w₁.reg ∧ w₁.reg.faults = [] ∧
      Denotes P τ w₁.reg u (some ⟨.lref (memberAt D path), some (placeAt o path)⟩) ∧
      Rel P τ { world := w₁, args := fun _ => [], infoArgs := fun _ => [], held := [] }
        (.start w.mem w.next) := by
  have hpass := passes_follow (P := P) hv.issued.1 path v
  obtain ⟨hrel₁, hfaults₁, houtcome⟩ :=
    follow_rel (o := o) (rel_world hv.issued.1) hpath (.created hv ho) hfaults
      (by rw [hfollow]; exact hlen)
  rw [hfollow] at hrel₁ hfaults₁ houtcome hpass
  split at houtcome
  next hp =>
    obtain ⟨u', hu', hdenotes⟩ := houtcome
    cases hu'
    exact ⟨hp, hpass, hfaults₁, hdenotes, hrel₁⟩
  next hp => cases houtcome

/-- How a chain of `GetRef` ends. -/
structure PathLaw (P : Program L) (path : List (FieldWrapper L τ)) (D : Obj L) (o : Addr)
    (w : World L V) (r : Except Crash (Except FieldGetError (Variant L)) × World L V) : Prop where
  mem : r.2.mem = w.mem
  next : r.2.next = w.next
  reaches : isPath D path = true → ∃ u, r.1 = .ok (.ok u) ∧
    u.base_.value_ = some (placeAt o path) ∧ Created P τ r.2.reg (.lref (memberAt D path)) u
  refuses : isPath D path = false → r.1 = .ok (.error .canNotGet)

/-- From a reference to an object a chain of `GetRef` comes to where its last field is, if the
fields are those of the objects on the way and no object on the way is const. -/
theorem pathLaw_of_created (hv : Created P τ w.reg (.lref D) v)
    (ho : v.base_.value_ = some o) (hpath : ∀ f ∈ path, Walkable P f)
    (hfaults : w.reg.faults = [])
    (hlen : (follow P path v w).2.reg.types_.length < 2 ^ 32) :
    PathLaw P path D o w (follow P path v w) := by
  obtain ⟨hrel', _, houtcome⟩ :=
    follow_rel (o := o) (rel_world hv.issued.1) hpath (.created hv ho) hfaults hlen
  refine ⟨hrel'.mem, hrel'.next, fun hp => ?_, fun hp => ?_⟩
  · rw [if_pos hp] at houtcome
    obtain ⟨u, hu, hdenotes⟩ := houtcome
    refine ⟨u, hu, hdenotes.value, ?_⟩
    cases hdenotes with
    | created hcreated _ => exact hcreated
  · rw [hp, if_neg Bool.false_ne_true] at houtcome
    exact houtcome

theorem sides_faultless {s : Registry L} (f : FieldWrapper L τ) (value instance_ : Variant L)
    (hs : s.faults = []) : (f.sides P value instance_ s).2.faults = [] := by
  have hl := lvalue_faultless (P := P) f instance_ hs
  rcases hr : f.lvalue P instance_ s with ⟨c | e | a, s₁⟩ <;> rw [hr] at hl
  · rw [FieldWrapper.sides, RegM.andThen, hr]
    exact hl
  · rw [FieldWrapper.sides, RegM.andThen_of_ok hr]
    exact hl
  · have hget : (value.getImpl P (.lref f.traits.type.addConst) s₁).2.faults = [] := by
      rw [getImpl_snd]
      exact canGet_faultless value _ hl
    rw [FieldWrapper.sides, RegM.andThen_of_ok hr]
    dsimp only
    rcases hg : value.getImpl P (.lref f.traits.type.addConst) s₁ with ⟨c | e | g, s₂⟩ <;>
      rw [hg] at hget
    · rw [RegM.andThen, hg]
      exact hget
    · rw [RegM.andThen_of_ok hg]
      exact hget
    · rw [RegM.andThen_of_ok hg]
      exact hget

theorem setValue_faultless (f : FieldWrapper L τ) (value instance_ : Variant L)
    (hw : w.reg.faults = []) : (f.setValue P value instance_ w).2.reg.faults = [] := by
  have hsides := sides_faultless (P := P) f value instance_ hw
  unfold FieldWrapper.setValue
  split
  · exact hw
  · split
    · exact hw
    · split <;> next h => rw [h] at hsides; exact hsides

omit [DecidableEq L] in
theorem target_eq_placeIn [DecidableEq L] {τ : Traits L} {f : FieldWrapper L τ}
    (hu : u.base_.value_ = some o) : f.target u = some (f.placeIn o) := by
  rw [FieldWrapper.target, FieldWrapper.placeIn, hu]
  cases f.traits.isStatic <;> rfl

theorem mem_setValue {f : FieldWrapper L τ} {w w' : World L V} (hu : u.base_.value_ = some o)
    (hset : f.setValue P value u w = (.ok (.ok ()), w')) :
    w'.mem = store w.mem (f.placeIn o) (w.read f.cells value.base_.value_) := by
  rcases f.setValue_cases (P := P) value u w with ⟨e, s, h⟩ | ⟨_, s, h⟩
  · cases (Prod.mk.inj (hset.symm.trans h)).1
  · obtain rfl := (Prod.mk.inj (hset.symm.trans h)).2
    rw [target_eq_placeIn hu]
    rfl

/-- The field is one of the object. -/
theorem typed_of_setValue {f : FieldWrapper L τ} {w w' : World L V}
    (hu : Denotes P τ w.reg u (some ⟨.lref D, some o⟩))
    (hset : f.setValue P value u w = (.ok (.ok ()), w')) (hlen : w'.reg.types_.length < 2 ^ 32) :
    (f.traits.isStatic || D = f.traits.classType) = true := by
  unfold FieldWrapper.setValue at hset
  split at hset
  · cases hset
  split at hset
  · cases hset
  split at hset
  · cases hset
  · cases hset
  next a b s hsides =>
    cases hset
    obtain ⟨s₁, hl, hpass⟩ := sides_ok hsides
    have hlvalue := lvalue_eq f hu (by rw [hl]; exact Nat.lt_of_le_of_lt hpass.length_le hlen)
    rw [hl, ideal_lvalue] at hlvalue
    cases htyped : f.traits.isStatic || D = f.traits.classType with
    | true => rfl
    | false =>
      rw [htyped] at hlvalue
      cases hlvalue

theorem Made.denotes {s : Registry L} (h : Made P τ s v) : ∃ t, Denotes P τ s v t := by
  rcases h with rfl | ⟨T, hT⟩
  · exact ⟨none, .void⟩
  · exact ⟨some ⟨T, v.base_.value_⟩, .created hT rfl⟩

/-- `SetValue` at the end of a path succeeds if the field continues the path, it can be
assigned, and the value can be got as one of its type. -/
theorem setValue_follow_iff (hv : Created P τ w.reg (.lref D) v)
    (ho : v.base_.value_ = some o) (hfaults : w.reg.faults = [])
    (hpath : ∀ f ∈ path, Walkable P f) (hvalue : Made P τ w.reg value)
    (hfollow : follow P path v w = (.ok (.ok u), w₁))
    (hlen : (f.setValue P value u w₁).2.reg.types_.length < 2 ^ 32) :
    (f.setValue P value u w₁).1 = .ok (.ok ()) ↔
      isPath D (path ++ [f]) = true ∧ f.traits.isConst = false ∧ f.isCopyAssignable = true ∧
        gets w.reg value (.lref f.traits.type.addConst) = true := by
  have hpass₂ := passes_setValue (P := P) f u value w₁
  have hlen₁ := Nat.lt_of_le_of_lt hpass₂.length_le hlen
  obtain ⟨hp, hpass, _, hu, hrel⟩ := follow_ok hv ho hfaults hpath hfollow hlen₁
  obtain ⟨t, ht⟩ := hvalue.denotes
  have hagrees := hrel.setValue f (ht.passes hpass) hu hlen
  have hreply : (f.setValue P value u w₁).1 = .ok (.ok ()) ↔
      (Ideal.setValue τ (.start w.mem w.next) f t
        (some ⟨.lref (memberAt D path), some (placeAt o path)⟩)).1 = .assigned (.ok ()) := by
    have h := hagrees.reply
    rcases hr : (f.setValue P value u w₁).1 with c | r <;> rw [hr] at h
    · cases h
    · rw [← Except.ok.inj h, Except.ok.injEq, Reply.assigned.injEq]
  have hgets := ht.gets_eq (U := .lref f.traits.type.addConst)
    (Nat.lt_of_le_of_lt hpass.length_le hlen₁)
  rw [hreply, ideal_setValue, hgets, isPath_append, hp, Bool.true_and, isPath, isPath,
    Bool.and_true]

/-- Where a path leads after a `value` has been stored into the field `f` at the end of
another, and what is there.  What has become a part of the object stored is as it was in the
`value`; what is apart from it, as where the two paths part at different members, is as it
was. -/
structure StoredLaw (path other : List (FieldWrapper L τ)) (f : FieldWrapper L τ)
    (value : Variant L) (D : Obj L) (o : Addr) (w : World L V)
    (r : Except Crash (Except FieldGetError (Variant L)) × World L V) : Prop where
  reaches : ∃ u, r.1 = .ok (.ok u) ∧ u.base_.value_ = some (placeAt o other)
  mem : r.2.mem =
    store w.mem (placeAt o (path ++ [f])) (w.read f.cells value.base_.value_)
  part : ∀ rest, isPart rest = true → isPath f.type.member rest = true →
    placeAt o other = placeAt o (path ++ f :: rest) →
    memberAt D other = memberAt f.type.member rest →
    readAt r.2.mem D o other =
      readAt w.mem f.type.member (w.place value.base_.value_) rest
  apart : Apart (placeAt o (path ++ [f])) f.cells (placeAt o other)
      (τ.cells (memberAt D other)) →
    readAt r.2.mem D o other = readAt w.mem D o other
  parted : ∀ before g h rest rest', path ++ [f] = before ++ g :: rest →
    other = before ++ h :: rest' → isPart (g :: rest) = true → isPart (h :: rest') = true →
    Apart g.ptr_ g.cells h.ptr_ h.cells → readAt r.2.mem D o other = readAt w.mem D o other

/-- What a part of an object holds after the object has been stored. -/
theorem readAt_store {rest : List (FieldWrapper L τ)} (hpart : isPart rest = true)
    (hpath : isPath D rest = true) (mem : Addr → V) (a b : Addr) :
    readAt (store mem a (load mem b (τ.cells D))) D a rest = readAt mem D b rest := by
  have hinside := part_inside hpart hpath
  rw [readAt, readAt, placeAt_of_part hpart a, placeAt_of_part hpart b,
    load_store_part (by rw [length_load]; exact hinside), take_drop_load hinside]

/-- Where two paths part at members that are apart, so are their ends. -/
theorem apart_of_parted {g h : FieldWrapper L τ} {rest rest' : List (FieldWrapper L τ)}
    (hg : isPart (g :: rest) = true) (hh : isPart (h :: rest') = true)
    (hpath : isPath D (g :: rest) = true) (hpath' : isPath D (h :: rest') = true)
    (hapart : Apart g.ptr_ g.cells h.ptr_ h.cells) :
    Apart (placeAt o (g :: rest)) (τ.cells (memberAt D (g :: rest)))
      (placeAt o (h :: rest')) (τ.cells (memberAt D (h :: rest'))) := by
  rw [isPart_cons, Bool.and_eq_true, Bool.not_eq_true'] at hg hh
  rw [isPath, Bool.and_eq_true] at hpath hpath'
  have hinside := part_inside hg.2 hpath.2
  have hinside' := part_inside hh.2 hpath'.2
  rw [← cells_eq] at hinside hinside'
  have hplace : placeAt o (g :: rest) = o + g.ptr_ + placeAt 0 rest := by
    rw [← placeIn_of_part hg.1, ← placeAt_of_part hg.2]
    rfl
  have hplace' : placeAt o (h :: rest') = o + h.ptr_ + placeAt 0 rest' := by
    rw [← placeIn_of_part hh.1, ← placeAt_of_part hh.2]
    rfl
  rw [hplace, hplace']
  exact (hapart.shift o).of_parts hinside hinside'

/-- What a successful `SetValue` at the end of a path leaves. -/
theorem set_ok (hv : Created P τ w.reg (.lref D) v) (ho : v.base_.value_ = some o)
    (hfaults : w.reg.faults = []) (hpath : ∀ f ∈ path, Walkable P f)
    (hfollow : follow P path v w = (.ok (.ok u), w₁))
    (hset : f.setValue P value u w₁ = (.ok (.ok ()), w₂)) (hlen : w₂.reg.types_.length < 2 ^ 32) :
    isPath D (path ++ [f]) = true ∧ Passes w.reg w₂.reg ∧ w₂.reg.faults = [] ∧
      w₂.mem = store w.mem (placeAt o (path ++ [f])) (w.read f.cells value.base_.value_) := by
  have hpass := passes_setValue (P := P) f u value w₁
  rw [hset] at hpass
  obtain ⟨hp, hpass₁, hfaults₁, hdenotes, hrel₁⟩ := follow_ok hv ho hfaults hpath hfollow
    (Nat.lt_of_le_of_lt hpass.length_le hlen)
  have hu : u.base_.value_ = some (placeAt o path) := hdenotes.value
  have htyped := typed_of_setValue hdenotes hset hlen
  have hfaults₂ := setValue_faultless (P := P) f value u hfaults₁
  rw [hset] at hfaults₂
  refine ⟨?_, hpass₁.trans hpass, hfaults₂, ?_⟩
  · rw [isPath_append, hp, isPath, htyped]
    rfl
  · have hread : w₁.read f.cells value.base_.value_ = w.read f.cells value.base_.value_ :=
      hrel₁.read f.cells value.base_.value_
    have hmem : w₁.mem = w.mem := hrel₁.mem
    rw [mem_setValue hu hset, hmem, hread, placeAt_append]
    rfl

/-- What is stored into a field at the end of a path is read at the end of each path to it,
and into it, and the other paths still lead to what they led to. -/
theorem storedLaw_of_follow (hv : Created P τ w.reg (.lref D) v) (ho : v.base_.value_ = some o)
    (hfaults : w.reg.faults = []) (hpath : ∀ f ∈ path, Walkable P f)
    (hfollow : follow P path v w = (.ok (.ok u), w₁))
    (hset : f.setValue P value u w₁ = (.ok (.ok ()), w₂))
    {other : List (FieldWrapper L τ)} (hother : ∀ g ∈ other, Walkable P g)
    (hleads : isPath D other = true)
    (hlen : (follow P other v w₂).2.reg.types_.length < 2 ^ 32) :
    StoredLaw path other f value D o w (follow P other v w₂) := by
  have hlen₂ : w₂.reg.types_.length < 2 ^ 32 := by
    have hpass := passes_setValue (P := P) f u value w₁
    have hpass₁ := passes_follow (P := P) hv.issued.1 path v
    rw [hset] at hpass
    rw [hfollow] at hpass₁
    exact Nat.lt_of_le_of_lt (passes_follow (P := P)
      ((hv.issued.1.trans hpass₁).trans hpass) other v).length_le hlen
  obtain ⟨hfull, hpass, hfaults₂, hmem₂⟩ := set_ok hv ho hfaults hpath hfollow hset hlen₂
  have hv₂ := hv.passes hpass
  obtain ⟨hrel, _, houtcome⟩ :=
    follow_rel (o := o) (rel_world hv₂.issued.1) hother (.created hv₂ ho) hfaults₂ hlen
  rw [if_pos hleads] at houtcome
  obtain ⟨u', hu', hdenotes⟩ := houtcome
  have hmem : (follow P other v w₂).2.mem =
      store w.mem (placeAt o (path ++ [f])) (w.read f.cells value.base_.value_) :=
    hrel.mem.trans hmem₂
  have hapart : Apart (placeAt o (path ++ [f])) f.cells (placeAt o other)
      (τ.cells (memberAt D other)) →
      readAt (follow P other v w₂).2.mem D o other = readAt w.mem D o other := by
    intro h
    rw [hmem]
    exact load_store_apart (by rwa [World.read, length_load])
  refine ⟨⟨u', hu', hdenotes.value⟩, hmem, ?_, hapart, ?_⟩
  · intro rest hpart hrest hplace hmember
    rw [hmem, World.read, cells_eq, ← readAt_store hpart hrest, readAt, readAt, hplace, hmember,
      placeAt_append, placeAt_append]
    rfl
  · intro before g h rest rest' hpath₁ hpath₂ hg hh hmembers
    have hend : f.cells = τ.cells (memberAt D (path ++ [f])) := by
      rw [cells_eq, memberAt_append]
      rfl
    apply hapart
    rw [hend, hpath₁, hpath₂, placeAt_append, placeAt_append, memberAt_append, memberAt_append]
    rw [hpath₁, isPath_append, Bool.and_eq_true] at hfull
    rw [hpath₂, isPath_append, Bool.and_eq_true] at hleads
    exact apart_of_parted hg hh hfull.2 hleads.2 hmembers

end Outcome

section Line

/-- A `Line&` at 0. -/
def lineVariant : Variant Nat where
  base_ := { wrapper := ⟨.lvalueRef, line⟩, value_ := some 0 }
  type_ := ⟨2⟩

/-- An `int&` at 7. -/
def lineValue : Variant Nat where
  base_ := { wrapper := ⟨.lvalueRef, int⟩, value_ := some 7 }
  type_ := ⟨4⟩

def lineRegistry : Registry Nat := (reflectID .plain (.lref line) .init).2

def lineWorld : World Nat Nat where
  reg := (reflectID .plain (.lref int) lineRegistry).2
  mem := id
  next := 8

theorem lineVariant_created : Created .plain .plain lineWorld.reg (.lref line) lineVariant :=
  ⟨Nat, 0, freshWorld, { freshWorld with reg := lineRegistry }, .refl, rfl,
    passes_reflectID (P := .plain) (.lref int) lineRegistry⟩

theorem lineValue_created : Created .plain .plain lineWorld.reg (.lref int) lineValue :=
  ⟨Nat, 7, { lineWorld with reg := lineRegistry }, lineWorld,
    passes_reflectID (P := .plain) (.lref line) .init, rfl, .refl⟩

theorem reflectable_point : Reflectable .plain (.obj point) :=
  .create _ (.alloc (.ret { name := "Plain" })) rfl fun _ h => h.elim

theorem lineStart_walkable : Walkable .plain lineStart :=
  ⟨reflectable_of_qualifiedOnce reflectable_point rfl, rfl⟩

theorem pointFields_walkable : ∀ i, Walkable .plain (pointFields i)
  | 0 => ⟨reflectable_of_qualifiedOnce reflectable_int32 rfl, rfl⟩
  | _ + 1 => ⟨reflectable_of_qualifiedOnce reflectable_int32 rfl, rfl⟩

/-- `start.x` -/
def lineX : List (FieldWrapper Nat .plain) := [lineStart, pointFields 0]

theorem lineX_walkable : ∀ f ∈ lineX, Walkable .plain f := by
  intro f hf
  simp only [lineX, List.mem_cons, List.not_mem_nil, or_false] at hf
  rcases hf with rfl | rfl
  · exact lineStart_walkable
  · exact pointFields_walkable 0

theorem pathLaw_of_created_line :
    PathLaw .plain lineX line 0 lineWorld (follow .plain lineX lineVariant lineWorld) :=
  pathLaw_of_created lineVariant_created rfl lineX_walkable rfl (show 6 < 2 ^ 32 by decide)

/-- The `Point&` that `GetRef` of `start` returns. -/
def startVariant : Variant Nat where
  base_ := { wrapper := ⟨.lvalueRef, point⟩, value_ := some 2 }
  type_ := ⟨6⟩

def startWorld : World Nat Nat := (follow .plain [lineStart] lineVariant lineWorld).2

theorem start_walkable : ∀ f ∈ [lineStart], Walkable .plain f := by
  intro f hf
  rw [List.mem_singleton.mp hf]
  exact lineStart_walkable

theorem setValue_follow_iff_line :
    ((pointFields 0).setValue .plain lineValue startVariant startWorld).1 = .ok (.ok ()) ↔
      isPath line lineX = true ∧ (pointFields 0).traits.isConst = false ∧
        (pointFields 0).isCopyAssignable = true ∧
        gets lineWorld.reg lineValue (.lref (pointFields 0).traits.type.addConst) = true :=
  setValue_follow_iff lineVariant_created rfl rfl start_walkable (.inr ⟨_, lineValue_created⟩)
    rfl (show 6 < 2 ^ 32 by decide)

/-- A `Point&` at 6. -/
def pointValue : Variant Nat where
  base_ := { wrapper := ⟨.lvalueRef, point⟩, value_ := some 6 }
  type_ := ⟨6⟩

/-- The `start` of the `Line` becomes the `Point` at 6. -/
def movedWorld : World Nat Nat :=
  (lineStart.setValue .plain pointValue lineVariant startWorld).2

theorem storedLaw_of_follow_line :
    StoredLaw [] lineX lineStart pointValue line 0 startWorld
      (follow .plain lineX lineVariant movedWorld) := by
  have hset : lineStart.setValue .plain pointValue lineVariant startWorld =
      (.ok (.ok ()), movedWorld) := rfl
  have hv := lineVariant_created.passes
    (passes_follow (P := .plain) lineVariant_created.issued.1 [lineStart] lineVariant)
  exact storedLaw_of_follow hv rfl rfl (fun _ hf => absurd hf List.not_mem_nil) rfl hset
    lineX_walkable rfl (show 6 < 2 ^ 32 by decide)

example : startWorld.mem (placeAt 0 lineX) = 3 ∧ movedWorld.mem (placeAt 0 lineX) = 7 :=
  ⟨rfl, rfl⟩

end Line

end ReflCpp
