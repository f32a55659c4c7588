import ReflCpp.TypeText

universe u

namespace ReflCpp

open Cpp

variable {L : Type}

section Rebuild

variable {A : Type u}

/-- What the template of `meta/common.hpp` with these flags makes of `inner`. -/
def rebuild (flags : TypeFlags) (inner : Cpp.Obj A) : Option (Cpp.Ty A) :=
  if flags = .isPointer then some (.obj (.ptr false false inner))
  else if flags = .or .isPointer .isConst then some (.obj (.ptr true false inner))
  else if flags = .isLValueReference then some (.lref inner)
  else if flags = .isRValueReference then some (.rref inner)
  else if flags = .isConst then some (.obj inner.addConst)
  else if flags = .isVolatile then some (.obj (inner.qualify false true))
  else none

section Rules

variable (t : Cpp.Obj A)

theorem rebuild_pointer : rebuild .isPointer t = some (.obj (.ptr false false t)) := by
  rw [rebuild, if_pos rfl]

theorem rebuild_constPointer :
    rebuild (.or .isPointer .isConst) t = some (.obj (.ptr true false t)) := by
  rw [rebuild, if_neg (by decide), if_pos rfl]

theorem rebuild_lref : rebuild .isLValueReference t = some (.lref t) := by
  rw [rebuild, if_neg (by decide), if_neg (by decide), if_pos rfl]

theorem rebuild_rref : rebuild .isRValueReference t = some (.rref t) := by
  rw [rebuild, if_neg (by decide), if_neg (by decide), if_neg (by decide), if_pos rfl]

theorem rebuild_const : rebuild .isConst t = some (.obj t.addConst) := by
  rw [rebuild, if_neg (by decide), if_neg (by decide), if_neg (by decide), if_neg (by decide),
    if_pos rfl]

theorem rebuild_volatile : rebuild .isVolatile t = some (.obj (t.qualify false true)) := by
  rw [rebuild, if_neg (by decide), if_neg (by decide), if_neg (by decide), if_neg (by decide),
    if_neg (by decide), if_pos rfl]

end Rules

/-- Flags and inner type of a template give its type back, whatever stands for the leaves. -/
theorem rebuild_template {T : Ty L} {e : Template L} (he : template T = some e)
    (f : Leaf L → A) :
    rebuild e.data.2 (e.inner.subst fun a => .leaf false false (f a)) =
      some (T.subst fun a => .leaf false false (f a)) := by
  cases T with
  | obj t =>
    cases t with
    | leaf c v a =>
      cases c <;> cases v <;> cases he
      · exact rebuild_volatile _
      · exact rebuild_const _
    | ptr c v t =>
      cases c <;> cases v <;> cases he
      · exact rebuild_pointer _
      · exact rebuild_volatile _
      · exact rebuild_constPointer _
  | lref t => cases he; exact rebuild_lref _
  | rref t => cases he; exact rebuild_rref _

theorem template_inj {T U : Ty L} {e e' : Template L} (he : template T = some e)
    (he' : template U = some e') (hflags : e.data.2 = e'.data.2) (hinner : e.inner = e'.inner) :
    T = U := by
  have hT := rebuild_template he id
  have hU := rebuild_template he' id
  rw [hflags, hinner, hU] at hT
  simpa using hT.symm

end Rebuild

/-- Read a type back from its id: the flags say by which template it is made, and the inner
id of what, down to the leaf whose id is given. -/
def decode (s : Registry L) (leaf : TypeID) : Nat → TypeID → Option (Cpp.Ty TypeID)
  | 0, _ => none
  | depth + 1, id =>
    if id = leaf then some (.obj (.leaf false false id))
    else
      match id.getType s with
      | .ok (.ok t) =>
        match (t.data s).inners with
        | [i] =>
          match decode s leaf depth i with
          | some (.obj inner) => rebuild (t.data s).flags inner
          | _ => none
        | _ => none
      | _ => none

def leafID (s : Registry L) (a : Leaf L) : TypeID := s.id (.obj (.leaf false false a))

/-- `T` with the ids of its leaves in their place. -/
def Ty.expression (s : Registry L) (T : Ty L) : Cpp.Ty TypeID :=
  T.subst fun a => .leaf false false (leafID s a)

section Decode

variable [DecidableEq L] {P : Program L} {s : Registry L} {T : Ty L} {t : TypeEntry L} {n : Nat}

/-- Made by a template, from an inner type. -/
def Compound (T : Ty L) : Prop := ∀ a, T ≠ .obj (.leaf false false a)

theorem Built.template_data (h : Built P s) (ht : t ∈ s.types_) (hT : Compound t.data_) :
    ∃ e i, template t.data_ = some e ∧ Issued P s (.obj e.inner) i ∧
      t.data s = { name := e.data.1, inners := [i], flags := e.data.2 } := by
  obtain ⟨c, hc, hy⟩ := h.entry_data ht
  rcases yields_cases hc hy with ⟨a, _, ha, _⟩ | hcompound
  · exact absurd ha (hT a)
  · exact hcompound

theorem WellNumbered.id_void (hs : WellNumbered s) : s.id Ty.void = ⟨0⟩ := by
  apply TypeID.ext_value
  rw [hs.id_eq, Interning.number_eq_zero.mpr hs.void_notMem]
  rfl

theorem Issued.id (h : Issued P s T i) (hs : WellNumbered s) (hlen : s.types_.length < 2 ^ 32) :
    s.id T = i ∧ (T = Ty.void ∨ T ∈ s.keys) := by
  by_cases hv : T = Ty.void
  · subst hv
    exact ⟨hs.id_void.trans h.void_eq.symm, .inl rfl⟩
  · obtain ⟨hid, hvalid⟩ := h.id_eq hv hlen
    rw [← hid] at hvalid
    exact ⟨hid, .inr (hs.isValid_iff.mp hvalid)⟩

theorem WellNumbered.getType (hs : WellNumbered s) (hT : T ∈ s.keys) :
    ∃ t, (s.id T).getType s = .ok (.ok t) ∧ t ∈ s.types_ ∧ t.data_ = T := by
  have hvalid := hs.isValid_iff.mpr hT
  obtain ⟨h₁, h₂⟩ := hs.id_mem hvalid
  obtain ⟨t, ht, hget⟩ := getType_of_inRange h₁ h₂
  obtain ⟨t', hget', hdata⟩ := hs.getType_id hvalid
  rw [hget] at hget'
  cases hget'
  refine ⟨t, ?_, List.mem_of_getElem? ht, hdata⟩
  rw [TypeID.getType, if_neg, hget]
  rw [TypeID.isInvalid_iff]
  omega

/-- A compound type has not the id of its leaf. -/
theorem id_ne_leafID (hs : WellNumbered s) (hT : T ∈ s.keys) (hcompound : Compound T) :
    s.id T ≠ leafID s T.root := by
  intro heq
  rw [leafID, hs.id_inj (hs.isValid_iff.mpr hT)] at heq
  exact hcompound _ heq

/-- Down from any registered type, `decode` meets its template at each level. -/
theorem Built.decode_id (hs : Built P s) (hlen : s.types_.length < 2 ^ 32)
    (hT : T = Ty.void ∨ T ∈ s.keys) (hn : T.rank (fun _ => 0) < n) :
    decode s (leafID s T.root) n (s.id T) = some (T.expression s) := by
  have hws := hs.passes.wellNumbered hlen
  induction n generalizing T with
  | zero => exact absurd hn (Nat.not_lt_zero _)
  | succ n ih =>
    by_cases hplain : ∃ a, T = .obj (.leaf false false a)
    · obtain ⟨a, rfl⟩ := hplain
      exact if_pos rfl
    · have hcompound : Compound T := not_exists.mp hplain
      have hkey : T ∈ s.keys := hT.resolve_left (hcompound .void)
      obtain ⟨t, hget, ht, rfl⟩ := hws.getType hkey
      obtain ⟨e, i, he, hissued, hdata⟩ := hs.template_data ht hcompound
      obtain ⟨rfl, hinner⟩ := hissued.id hws hlen
      have hrank := rank_inner (fun _ => 0) he
      have hrest := ih hinner (by omega)
      have hroot : Cpp.Ty.root (.obj e.inner : Ty L) = t.data_.root := root_inner he
      rw [hroot] at hrest
      rw [decode, if_neg (id_ne_leafID hws hkey hcompound), hget]
      simp only [hdata, hrest]
      exact rebuild_template he (leafID s)

/-- Registered compound types with equal flags and equal inner ids are the same; and the
flags and inner ids from a registered type down to its leaf give the type. -/
structure DescriptorLaw (s : Registry L) : Prop where
  unique : ∀ t ∈ s.types_, ∀ u ∈ s.types_, Compound t.data_ → Compound u.data_ →
    (t.data s).flags = (u.data s).flags → (t.data s).inners = (u.data s).inners →
    t.data_ = u.data_
  decodes : ∀ t ∈ s.types_, ∀ n, t.data_.rank (fun _ => 0) < n →
    decode s (leafID s t.data_.root) n t.id_ = some (t.data_.expression s)

theorem descriptorLaw_of_reachable (P : Program L) (hs : Reachable P s)
    (hlen : s.types_.length < 2 ^ 32) : DescriptorLaw s := by
  have hbuilt := hs.built
  have hws := hbuilt.passes.wellNumbered hlen
  refine ⟨?_, ?_⟩
  · intro t ht u hu htc huc hflags hinners
    obtain ⟨e, i, he, hi, hdata⟩ := hbuilt.template_data ht htc
    obtain ⟨e', j, he', hj, hdata'⟩ := hbuilt.template_data hu huc
    rw [hdata, hdata'] at hflags hinners
    obtain rfl : i = j := List.singleton_inj.mp hinners
    have hinner := hi.inj hbuilt.passes hlen hj
    exact template_inj he he' hflags (Cpp.Ty.obj.inj hinner)
  · intro t ht n hn
    have hkey : t.data_ ∈ s.keys := List.mem_map_of_mem ht
    obtain ⟨u, hget, hu, hdata⟩ := hws.getType hkey
    obtain rfl : u = t := List.inj_on_of_nodup_map hws.nodup hu ht hdata
    rw [(TypeID.getType_eq_ok hs.entryIds hlen hget).2]
    exact hbuilt.decode_id hlen (.inr hkey) hn

theorem descriptorLaw_pointer :
    DescriptorLaw (run .plain [.reflectID intPointer []] .init) :=
  descriptorLaw_of_reachable .plain ⟨_, rfl⟩ (show 2 < 2 ^ 32 by decide)

end Decode

end ReflCpp
