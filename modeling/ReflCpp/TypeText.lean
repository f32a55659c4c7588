import ReflCpp.TypeGraph

namespace ReflCpp

open Cpp

variable {L : Type}

section Template

/-- A specialisation that `ReflectData` and `ReflectPrinter` both have: the name and the
flags, the texts around the inner type, and the inner type. -/
structure Template (L : Type) where
  data : String × TypeFlags
  around : String × String
  inner : Obj L

/-- The specialisation for `T`, read off the tables: partial ordering decides unless a type
is both const and volatile. -/
def template : Ty L → Option (Template L)
  | .obj (.ptr false false t) => some ⟨("Pointer", .isPointer), ("", "*"), t⟩
  | .obj (.ptr true false t) =>
    some ⟨("Const Pointer", .or .isPointer .isConst), ("", "* const"), t⟩
  | .obj (.ptr false true t) =>
    some ⟨("Volatile", .isVolatile), ("volatile ", ""), .ptr false false t⟩
  | .obj (.leaf true false a) => some ⟨("Constant", .isConst), ("const ", ""), .leaf false false a⟩
  | .obj (.leaf false true a) =>
    some ⟨("Volatile", .isVolatile), ("volatile ", ""), .leaf false false a⟩
  | .lref t => some ⟨("LValue Reference", .isLValueReference), ("", "&"), t⟩
  | .rref t => some ⟨("RValue Reference", .isRValueReference), ("", "&&"), t⟩
  | _ => none

theorem select_reflectDataSpecs (T : Ty L) :
    (match select reflectDataSpecs T with
      | .chosen b U => some (b, U)
      | _ => none) = (template T).map fun e => (e.data, e.inner) := by
  cases T with
  | obj t =>
    cases t with
    | leaf c v a => cases c <;> cases v <;> rfl
    | ptr c v t => cases t <;> cases c <;> cases v <;> rfl
  | lref t => cases t <;> rfl
  | rref t => cases t <;> rfl

theorem reflectPrinter_template {texts : Texts L} {T : Ty L} {e : Template L}
    (h : template T = some e) :
    reflectPrinter texts T = some (.inner e.around.1 e.around.2) := by
  cases T with
  | obj t =>
    cases t with
    | leaf c v a => cases c <;> cases v <;> cases h <;> rfl
    | ptr c v t => cases t <;> cases c <;> cases v <;> cases h <;> rfl
  | lref t => cases t <;> cases h <;> rfl
  | rref t => cases t <;> cases h <;> rfl

/-- A `ReflectData` is that of an unqualified leaf, or that of the template for `T`. -/
theorem template_of_reflectData {P : Program L} {T : Ty L}
    {c : Creation L P.rank (T.rank P.rank)} (hc : reflectData P T = some c) :
    (∃ a, T = .obj (.leaf false false a)) ∨
    ∃ e h, template T = some e ∧ c = .value (.obj e.inner) h fun id =>
      .alloc (.ret { name := e.data.1, inners := [id], flags := e.data.2 }) := by
  rcases reflectData_cases hc with hplain | ⟨name, flags, U, h, hsel, rfl⟩
  · exact .inl hplain
  · have hselect := select_reflectDataSpecs T
    rw [hsel] at hselect
    obtain ⟨e, he, heq⟩ := Option.map_eq_some_iff.mp hselect.symm
    obtain ⟨hdata, rfl⟩ := Prod.mk.inj heq
    exact .inr ⟨e, h, he, by rw [hdata]⟩

theorem rank_inner {T : Ty L} {e : Template L} (rk : L → Nat) (h : template T = some e) :
    Ty.rank rk (.obj e.inner) < T.rank rk := by
  have hsel := select_reflectDataSpecs T
  rw [h] at hsel
  split at hsel
  next b U hchosen =>
    cases hsel
    exact rank_lt_of_select rk hchosen
  next => cases hsel

theorem reflectData_of_template {P : Program L} {T : Ty L} {e : Template L}
    (he : template T = some e) :
    reflectData P T = some (.value (.obj e.inner) (rank_inner P.rank he) fun id =>
      .alloc (.ret { name := e.data.1, inners := [id], flags := e.data.2 })) := by
  have hplain : ∀ a, T ≠ .obj (.leaf false false a) := by
    rintro a rfl
    cases he
  have hselect := select_reflectDataSpecs T
  rw [he] at hselect
  rw [reflectData_template hplain]
  split at hselect
  next b U hsel =>
    cases hselect
    split
    next name flags U' hsel' =>
      rw [hsel] at hsel'
      obtain ⟨hb, rfl⟩ := Selection.chosen.inj hsel'
      rw [hb]
    next hne => exact absurd hsel (hne _ _ _)
  next => cases hselect

theorem root_inner {T : Ty L} {e : Template L} (h : template T = some e) :
    e.inner.root = T.root := by
  cases T with
  | obj t =>
    cases t with
    | leaf c v a => cases c <;> cases v <;> cases h <;> rfl
    | ptr c v t => cases c <;> cases v <;> cases h <;> rfl
  | lref t => cases h; rfl
  | rref t => cases h; rfl

end Template

section Text

/-- What `Type::Print` writes for an unqualified leaf; a program's own types have no text
here. -/
def Leaf.spelling : Leaf L → String
  | .void => "void"
  | .builtin b => b.spelling
  | .charArray size => "char[" ++ toString size ++ "]"
  | .string => "std::string"
  | .user _ => ""

def Obj.text : Obj L → String
  | .leaf c v a =>
    (if v then "volatile " else "") ++ ((if c then "const " else "") ++ a.spelling)
  | .ptr c v t => (if v then "volatile " else "") ++ (Obj.text t ++ if c then "* const" else "*")

def Ty.text : Ty L → String
  | .obj t => Obj.text t
  | .lref t => Obj.text t ++ "&"
  | .rref t => Obj.text t ++ "&&"

theorem text_template {T : Ty L} {e : Template L} (h : template T = some e) :
    e.around.1 ++ Ty.text (.obj e.inner) ++ e.around.2 = Ty.text T := by
  cases T with
  | obj t =>
    cases t with
    | leaf c v a => cases c <;> cases v <;> cases h <;> simp [Ty.text, Obj.text]
    | ptr c v t => cases c <;> cases v <;> cases h <;> simp [Ty.text, Obj.text]
  | lref t => cases h; simp [Ty.text]
  | rref t => cases h; simp [Ty.text]

end Text

variable [DecidableEq L] {P : Program L} {s : Registry L} {T U : Ty L} {i : TypeID}
  {t : TypeEntry L} {texts : Texts L}

theorem Issued.getType_inner (h : Issued P s U i) (hs : Passes .init s)
    (hlen : s.types_.length < 2 ^ 32) (hv : U ≠ Ty.void) :
    ∃ u, i.getType s = .ok (.ok u) ∧ u ∈ s.types_ ∧ u.id_ = i ∧ u.data_ = U := by
  obtain ⟨hid, hvalid⟩ := h.id_eq hv hlen
  have hids : EntryIds s := Steps.entryIds hs (by simp [EntryIds, Registry.init])
  obtain ⟨u, hu, hdata⟩ := (hs.wellNumbered hlen).getType_id (T := U) (by rwa [hid])
  rw [hid] at hu
  have hget : i.getType s = .ok (.ok u) := by
    rw [TypeID.getType, if_neg, hu]
    rw [TypeID.isInvalid_iff]
    exact TypeID.isValid_iff.mp hvalid
  obtain ⟨hmem, hi⟩ := TypeID.getType_eq_ok hids hlen hget
  exact ⟨u, hget, hmem, hi, hdata⟩

omit [DecidableEq L] in
theorem leafData_yields {a : Leaf L} {c : Creation L P.rank (a.rank P.rank)} {d : TypeData}
    {R : Ty L → TypeID → Prop} (ha : ∀ l, a ≠ .user l) (hc : leafData P a = some c)
    (hy : c.Yields R d) :
    a ≠ .void ∧ d.inners = [] ∧ (a = .string → d.namespace_ = some "std" ∧ d.name = "string") := by
  cases a with
  | void => cases hc
  | builtin b =>
    cases hc
    cases hy
    simp
  | charArray n =>
    cases hc
    cases hy
    simp
  | string =>
    cases hc
    cases hy
    simp
  | user l => exact absurd rfl (ha l)

omit [DecidableEq L] in
/-- The data of a type are those of an unqualified leaf, or what the template for it has made
of the id of the inner type. -/
theorem yields_cases {R : Ty L → TypeID → Prop} {c : Creation L P.rank (T.rank P.rank)}
    {d : TypeData} (hc : reflectData P T = some c) (hy : c.Yields R d) :
    (∃ a c', T = .obj (.leaf false false a) ∧ leafData P a = some c' ∧ c'.Yields R d) ∨
    ∃ e i, template T = some e ∧ R (.obj e.inner) i ∧
      d = { name := e.data.1, inners := [i], flags := e.data.2 } := by
  rcases template_of_reflectData hc with ⟨a, rfl⟩ | ⟨e, _, he, rfl⟩
  · exact .inl ⟨a, c, rfl, hc, hy⟩
  · cases hy with
    | value hi hk =>
      cases hk with
      | alloc hk =>
        cases hk
        exact .inr ⟨e, _, he, hi, rfl⟩

/-- The data of a registered type come from its `ReflectData`. -/
theorem Built.entry_data (h : Built P s) (ht : t ∈ s.types_) :
    ∃ c, reflectData P t.data_ = some c ∧ c.Yields (Issued P s) (t.data s) := by
  obtain ⟨n, hn⟩ := List.mem_iff_getElem?.mp ht
  obtain ⟨d, c, hd, hc, hy⟩ := h.entries n _ hn
  have hdata : t.data s = d := by rw [TypeEntry.data, hd]; rfl
  rw [hdata]
  exact ⟨c, hc, hy.mono fun _ _ hi => hi.2⟩

/-- A registered type is an unqualified leaf, or the template it is made by has put the id
of the inner type into its data. -/
theorem Built.entry_cases (h : Built P s) (ht : t ∈ s.types_)
    (hroot : ∀ l, t.data_.root ≠ .user l) :
    (∃ a, t.data_ = .obj (.leaf false false a) ∧ a ≠ .void ∧ (t.data s).inners = [] ∧
      (a = .string → (t.data s).namespace_ = some "std" ∧ (t.data s).name = "string")) ∨
    ∃ e i, template t.data_ = some e ∧ (t.data s).inners = [i] ∧ Issued P s (.obj e.inner) i := by
  obtain ⟨c, hc, hy⟩ := h.entry_data ht
  rcases yields_cases hc hy with ⟨a, c', ha, hc', hy'⟩ | ⟨e, i, he, hi, hdata⟩
  · rw [ha] at hroot
    exact .inl ⟨a, ha, leafData_yields hroot hc' hy'⟩
  · exact .inr ⟨e, i, he, by rw [hdata], hi⟩

/-- What a registered type prints: its text, or nothing but a failure if it is made from
`void`, whose id resolves to no type. -/
def printed (T : Ty L) : Except Crash String :=
  if T.root = .void then .error .valueOnError else .ok (Ty.text T)

theorem print_leaf {a : Leaf L} (ha : t.data_ = .obj (.leaf false false a)) (hvoid : a ≠ .void)
    (hroot : ∀ l, t.data_.root ≠ .user l)
    (hstring : a = .string → (t.data s).namespace_ = some "std" ∧ (t.data s).name = "string")
    (n : Nat) : t.print s texts (n + 1) = some (printed t.data_) := by
  have hroot' : Cpp.Ty.root (.obj (.leaf false false a) : Ty L) = a := rfl
  rw [ha, hroot'] at hroot
  rw [TypeEntry.print, ha, printed, hroot', if_neg hvoid]
  cases a with
  | void => exact absurd rfl hvoid
  | builtin b => rfl
  | charArray n => rfl
  | string =>
    obtain ⟨hspace, hname⟩ := hstring rfl
    simp only [reflectPrinter, leafPrinter, TypeEntry.inNamespace, TypeEntry.getNamespace,
      hspace, hname]
    rfl
  | user l => exact absurd rfl (hroot l)

theorem printed_template {T : Ty L} {e : Template L} (he : template T = some e) :
    (printed (.obj e.inner)).map (fun str => e.around.1 ++ str ++ e.around.2) = printed T := by
  have hinner : Cpp.Ty.root (.obj e.inner : Ty L) = e.inner.root := rfl
  rw [printed, printed, ← text_template he, hinner, root_inner he]
  split <;> rfl

theorem print_registered (texts : Texts L) (hs : Built P s) (hlen : s.types_.length < 2 ^ 32)
    (n : Nat) (t : TypeEntry L) (ht : t ∈ s.types_) (hroot : ∀ l, t.data_.root ≠ .user l)
    (hn : t.data_.rank (fun _ => 0) < n) : t.print s texts n = some (printed t.data_) := by
  induction n generalizing t with
  | zero => exact absurd hn (Nat.not_lt_zero _)
  | succ n ih =>
    rcases hs.entry_cases ht hroot with ⟨a, ha, hvoid, _, hstring⟩ | ⟨e, i, he, hi, hissued⟩
    · exact print_leaf ha hvoid hroot hstring n
    · rw [TypeEntry.print, reflectPrinter_template he, ← printed_template he]
      dsimp only
      rw [TypeEntry.getInner, hi]
      by_cases hv : (.obj e.inner : Ty L) = Ty.void
      · rw [hv] at hissued ⊢
        rw [hissued.void_eq]
        rfl
      · obtain ⟨u, hget, hu, _, hdata⟩ := hissued.getType_inner hs.passes hlen hv
        have hrank := rank_inner (fun _ => 0) he
        rw [← root_inner he] at hroot
        have hprint := ih u hu (by rw [hdata]; exact hroot) (by rw [hdata]; omega)
        dsimp only [List.getElem?_cons_zero]
        rw [hget]
        dsimp only
        rw [hprint, hdata]
        rfl

/-- Every inner id of `t` resolves to the type with that id, and printing `t` calls
`value()` on no error. -/
structure InnersResolve (texts : Texts L) (s : Registry L) (t : TypeEntry L) : Prop where
  inners : ∀ i ∈ (t.data s).inners, ∃ u, i.getType s = .ok (.ok u) ∧ u.id_ = i
  prints : ∃ n str, t.print s texts n = some (.ok str) ∧ t.dump s texts n = some (.ok str)

theorem Built.data_void (h : Built P s) : s.data Ty.void = none := by
  cases hd : s.data Ty.void with
  | none => rfl
  | some d =>
    obtain ⟨c, hc, _⟩ := h.data _ _ hd
    cases hc

theorem Built.ne_void (h : Built P s) (hlen : s.types_.length < 2 ^ 32)
    (ht : t ∈ s.types_) : t.data_ ≠ Ty.void := by
  intro hv
  apply (h.passes.wellNumbered hlen).void_notMem
  rw [← hv]
  exact List.mem_map_of_mem ht

theorem innersResolve_voidType (h : Built P s) : InnersResolve texts s voidType := by
  have hdata : voidType.data s = { name := "Void" } := by
    rw [TypeEntry.data, voidType, h.data_void]
    rfl
  refine ⟨?_, 1, "void", rfl, rfl⟩
  rw [hdata]
  intro i hi
  cases hi

theorem innersResolve_of_root (h : Built P s) (hlen : s.types_.length < 2 ^ 32)
    (ht : t ∈ s.types_) (hroot : ∀ l, t.data_.root ≠ .user l) (hvoid : t.data_.root ≠ .void) :
    InnersResolve texts s t := by
  have hprint := print_registered texts h hlen _ t ht hroot (Nat.lt_succ_self _)
  rw [printed, if_neg hvoid] at hprint
  refine ⟨?_, _, _, hprint, hprint⟩
  intro i hi
  rcases h.entry_cases ht hroot with ⟨a, _, _, hnil, _⟩ | ⟨e, j, he, hj, hissued⟩
  · rw [hnil] at hi
    cases hi
  · rw [hj, List.mem_singleton] at hi
    subst hi
    have hv : (.obj e.inner : Ty L) ≠ Ty.void := by
      intro hv
      apply hvoid
      rw [← root_inner he, Cpp.Ty.obj.inj hv]
      rfl
    obtain ⟨u, hget, _, hid, _⟩ := hissued.getType_inner h.passes hlen hv
    exact ⟨u, hget, hid⟩

theorem not_innersResolve_of_root (h : Built P s) (hlen : s.types_.length < 2 ^ 32)
    (ht : t ∈ s.types_) (hvoid : t.data_.root = .void) : ¬ InnersResolve texts s t := by
  rintro ⟨_, n, str, hprint, _⟩
  have hroot : ∀ l, t.data_.root ≠ .user l := by
    rw [hvoid]
    exact fun l => nofun
  have hfail := print_registered texts h hlen _ t ht hroot
    (Nat.lt_add_of_pos_right (n := t.data_.rank fun _ => 0) (Nat.succ_pos n))
  rw [printed, if_pos hvoid, print_mono (Nat.le_add_left _ _) (print_succ hprint)] at hfail
  cases hfail

theorem innersResolve_iff (P : Program L) (texts : Texts L) (hs : Reachable P s)
    (hlen : s.types_.length < 2 ^ 32) (ht : t = voidType ∨ t ∈ s.types_)
    (hroot : ∀ l, t.data_.root ≠ .user l) :
    InnersResolve texts s t ↔ t.data_ = Ty.void ∨ t.data_.root ≠ .void := by
  have hbuilt := hs.built
  rcases ht with rfl | ht
  · exact iff_of_true (innersResolve_voidType hbuilt) (.inl rfl)
  · rw [or_iff_right (hbuilt.ne_void hlen ht)]
    constructor
    · intro hres hvoid
      exact not_innersResolve_of_root hbuilt hlen ht hvoid hres
    · exact innersResolve_of_root hbuilt hlen ht hroot

section Void

def intPointer : Ty Nat := .obj (.ptr false false (.leaf false false (.builtin .int32)))

theorem innersResolve_intPointer :
    InnersResolve (fun _ => none) (run .plain [.reflectID intPointer []] .init)
        { id_ := ⟨2⟩, data_ := intPointer } ↔
      intPointer = Ty.void ∨ intPointer.root ≠ .void :=
  innersResolve_iff .plain _ ⟨_, rfl⟩ (show 2 < 2 ^ 32 by decide) (.inr (.tail _ (.head _)))
    fun _ => nofun

def voidPointer : Ty Nat := .obj (.ptr false false (.leaf false false .void))

def voidPointerRun : Registry Nat := run .plain [.reflectID voidPointer []] .init

/-- `void*` is registered, its inner id is that of no type, and printing it fails. -/
theorem not_innersResolve_voidPointer :
    { id_ := ⟨1⟩, data_ := voidPointer } ∈ voidPointerRun.types_ ∧
      TypeEntry.print voidPointerRun (fun _ => none) 2 { id_ := ⟨1⟩, data_ := voidPointer } =
        some (.error .valueOnError) ∧
      ¬ InnersResolve (fun _ => none) voidPointerRun { id_ := ⟨1⟩, data_ := voidPointer } := by
  refine ⟨.head _, rfl, fun h => ?_⟩
  obtain ⟨u, hu, _⟩ := h.inners ⟨0⟩ (.head _)
  cases hu

end Void

end ReflCpp
