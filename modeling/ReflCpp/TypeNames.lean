import ReflCpp.Readability
import ReflCpp.TypeText

namespace ReflCpp

open Cpp Readability

variable {L : Type}

section Spelling

/-- The letters of a leaf's text. -/
def isWord (c : Char) : Bool := c != ' ' && c != '*' && c != '&'

def IsKeyword (p : List Char) : Prop := p = "volatile".toList ∨ p = "const".toList

theorem word_of_isKeyword {p : List Char} (h : IsKeyword p) : Word isWord p := by
  rcases h with rfl | rfl <;> exact word_of_all (by decide)

theorem isWord_of_isDigit {c : Char} (h : c.isDigit = true) : isWord c = true := by
  simp only [isWord, Bool.and_eq_true, bne_iff_ne]
  refine ⟨⟨?_, ?_⟩, ?_⟩ <;> rintro rfl <;> cases h

theorem toList_charArray (n : Nat) :
    (Leaf.charArray n : Leaf L).spelling.toList =
      "char[".toList ++ (Nat.toDigits 10 n ++ [']']) := by
  simp [Leaf.spelling, Nat.toList_repr]

theorem Builtin.word_spelling (b : Builtin) : Word isWord b.spelling.toList := by
  cases b <;> exact word_of_all (by decide)

theorem word_spelling (a : Leaf L) : Word isWord a.spelling.toList := by
  cases a with
  | void => exact word_of_all (w := "void".toList) (by decide)
  | builtin b => exact b.word_spelling
  | charArray n =>
    intro c hc
    rw [toList_charArray, List.mem_append, List.mem_append] at hc
    rcases hc with hc | hc | hc
    · exact word_of_all (w := "char[".toList) (by decide) c hc
    · exact isWord_of_isDigit (Nat.isDigit_of_mem_toDigits (by decide) (by decide) hc)
    · exact word_of_all (w := [']']) (by decide) c hc
  | string => exact word_of_all (w := "std::string".toList) (by decide)
  | user l => exact nofun

/-- Only the text of a `char` array has a bracket. -/
theorem bracket_mem_spelling {a : Leaf L} :
    '[' ∈ a.spelling.toList ↔ ∃ n, a = .charArray n := by
  cases a with
  | void => simp [Leaf.spelling]
  | builtin b => cases b <;> simp [Leaf.spelling, Builtin.spelling]
  | charArray n => simp [toList_charArray]
  | string => simp [Leaf.spelling]
  | user l => simp [Leaf.spelling]

theorem not_isKeyword_spelling (a : Leaf L) : ¬ IsKeyword a.spelling.toList := by
  cases a with
  | void => simp [IsKeyword, Leaf.spelling]
  | builtin b => cases b <;> simp [IsKeyword, Leaf.spelling, Builtin.spelling]
  | charArray n =>
    have hmem : '[' ∈ (Leaf.charArray n : Leaf L).spelling.toList :=
      bracket_mem_spelling.mpr ⟨n, rfl⟩
    rintro (h | h) <;> rw [h] at hmem <;> revert hmem <;> decide
  | string => simp [IsKeyword, Leaf.spelling]
  | user l => simp [IsKeyword, Leaf.spelling]

theorem Builtin.spelling_inj {b b' : Builtin} (h : b.spelling = b'.spelling) : b = b' := by
  cases b <;> cases b' <;> first | rfl | exact absurd h (by decide)

theorem Builtin.spelling_ne_string (b : Builtin) : b.spelling ≠ "std::string" := by
  cases b <;> decide

theorem charArray_spelling_inj {m n : Nat}
    (h : (Leaf.charArray m : Leaf L).spelling = (Leaf.charArray n : Leaf L).spelling) : m = n := by
  have hlist := congrArg String.toList h
  rw [toList_charArray, toList_charArray] at hlist
  have hdigits := List.append_cancel_right (List.append_cancel_left hlist)
  have hvalue := congrArg (fun cs => Nat.ofDigitChars 10 cs 0) hdigits
  simpa using hvalue

/-- The leaves that have a text and are not `void`. -/
def Leaf.IsValue : Leaf L → Prop
  | .void => False
  | .user _ => False
  | _ => True

/-- The printed names of the leaves are pairwise different. -/
theorem Leaf.spelling_inj {a b : Leaf L} (ha : a.IsValue) (hb : b.IsValue)
    (h : a.spelling = b.spelling) : a = b := by
  have hbracket : (∃ n, a = .charArray n) ↔ ∃ n, b = .charArray n := by
    rw [← bracket_mem_spelling, ← bracket_mem_spelling, h]
  cases a with
  | void => exact ha.elim
  | user l => exact ha.elim
  | charArray n =>
    obtain ⟨m, rfl⟩ := hbracket.mp ⟨n, rfl⟩
    rw [charArray_spelling_inj h]
  | builtin b₁ =>
    cases b with
    | void => exact hb.elim
    | user l => exact hb.elim
    | charArray n => simp at hbracket
    | builtin b₂ => rw [Builtin.spelling_inj h]
    | string => exact absurd h b₁.spelling_ne_string
  | string =>
    cases b with
    | void => exact hb.elim
    | user l => exact hb.elim
    | charArray n => simp at hbracket
    | builtin b₂ => exact absurd h.symm b₂.spelling_ne_string
    | string => rfl

end Spelling

section Letters

/-- The `const` of the innermost type. -/
def Obj.rootConst : Obj L → Bool
  | .leaf c _ _ => c
  | .ptr _ _ t => Obj.rootConst t

/-- Which of the pointers are const, from the inside. -/
def Obj.stars : Obj L → List Bool
  | .leaf _ _ _ => []
  | .ptr c _ t => Obj.stars t ++ [c]

def Obj.keywords (t : Obj L) : List (List Char) :=
  List.replicate t.volatiles "volatile".toList ++ if t.rootConst then ["const".toList] else []

def Ty.ref : Ty L → List Char
  | .obj _ => []
  | .lref _ => ['&']
  | .rref _ => ['&', '&']

theorem Obj.isKeyword_of_mem {t : Obj L} {p : List Char} (h : p ∈ Obj.keywords t) :
    IsKeyword p := by
  rcases List.mem_append.mp h with h | h
  · exact .inl (List.eq_of_mem_replicate h)
  · split at h
    · exact .inr (List.mem_singleton.mp h)
    · cases h

theorem toList_volatile (v : Bool) :
    (if v then "volatile " else "").toList =
      Readability.keywords ' ' (List.replicate v.toNat "volatile".toList) := by
  cases v <;> decide

theorem toList_const (c : Bool) :
    (if c then "const " else "").toList =
      Readability.keywords ' ' (if c then ["const".toList] else []) := by
  cases c <;> decide

theorem toList_star (c : Bool) :
    (if c then "* const" else "*").toList = marks '*' " const".toList [c] := by
  cases c <;> decide

theorem Obj.keywords_ptr (c v : Bool) (t : Obj L) :
    Obj.keywords (.ptr c v t) = List.replicate v.toNat "volatile".toList ++ Obj.keywords t := by
  rw [Obj.keywords, Obj.keywords, Cpp.Obj.volatiles, List.replicate_add, List.append_assoc]
  rfl

/-- All qualifiers but the `const` of a pointer are printed in front. -/
theorem Obj.toList_text (t : Obj L) :
    (Obj.text t).toList = Readability.keywords ' ' (Obj.keywords t) ++
      (t.root.spelling.toList ++ marks '*' " const".toList (Obj.stars t)) := by
  induction t with
  | leaf c v a =>
    rw [Obj.text, String.toList_append, String.toList_append, toList_volatile, toList_const,
      ← List.append_assoc, ← keywords_append]
    exact congrArg _ (List.append_nil _).symm
  | ptr c v t ih =>
    rw [Obj.text, String.toList_append, String.toList_append, toList_volatile, toList_star, ih,
      Obj.keywords_ptr, keywords_append, Obj.stars, marks_append, Cpp.Obj.root]
    simp only [List.append_assoc]

theorem Ty.head?_ref (T : Ty L) : ∀ c ∈ (Ty.ref T).head?, c ≠ '*' ∧ c ≠ ' ' := by
  cases T <;> rintro c ⟨⟩ <;> decide

/-- After the name comes no letter of a name. -/
theorem Ty.stops_stars (T : Ty L) :
    Stops isWord (marks '*' " const".toList (Obj.stars T.removeReference) ++ Ty.ref T) := by
  cases Obj.stars T.removeReference with
  | nil => cases T <;> rintro c ⟨⟩ <;> decide
  | cons b bs =>
    rintro c ⟨⟩
    decide

theorem Ty.toList_text (T : Ty L) :
    (Ty.text T).toList = Readability.keywords ' ' (Obj.keywords T.removeReference) ++
      (T.root.spelling.toList ++
        (marks '*' " const".toList (Obj.stars T.removeReference) ++ Ty.ref T)) := by
  cases T <;> simp [Ty.text, Ty.ref, Obj.toList_text, Cpp.Ty.removeReference, Cpp.Ty.root]

end Letters

section Erase

theorem Obj.eraseVolatile_data {t : Obj L} :
    t.eraseVolatile.root = t.root ∧ Obj.rootConst t.eraseVolatile = Obj.rootConst t ∧
      Obj.stars t.eraseVolatile = Obj.stars t := by
  induction t with
  | leaf c v a => exact ⟨rfl, rfl, rfl⟩
  | ptr c v t ih =>
    obtain ⟨hroot, hconst, hstars⟩ := ih
    exact ⟨hroot, hconst, congrArg (· ++ [c]) hstars⟩

/-- What the text shows of a type: all of it but the places of `volatile`. -/
theorem Obj.eraseVolatile_eq_iff {t u : Obj L} :
    t.eraseVolatile = u.eraseVolatile ↔
      t.root = u.root ∧ Obj.rootConst t = Obj.rootConst u ∧ Obj.stars t = Obj.stars u := by
  constructor
  · intro h
    obtain ⟨hroot, hconst, hstars⟩ := Obj.eraseVolatile_data (t := t)
    rw [h] at hroot hconst hstars
    obtain ⟨hroot', hconst', hstars'⟩ := Obj.eraseVolatile_data (t := u)
    exact ⟨hroot.symm.trans hroot', hconst.symm.trans hconst', hstars.symm.trans hstars'⟩
  · rintro ⟨hroot, hconst, hstars⟩
    induction t generalizing u with
    | leaf c v a =>
      cases u with
      | leaf c' v' a' =>
        obtain rfl : a = a' := hroot
        obtain rfl : c = c' := hconst
        rfl
      | ptr c' v' u => simp [Obj.stars] at hstars
    | ptr c v t ih =>
      cases u with
      | leaf c' v' a' => simp [Obj.stars] at hstars
      | ptr c' v' u =>
        obtain ⟨htail, hc⟩ := List.append_inj' hstars rfl
        obtain rfl := List.singleton_inj.mp hc
        rw [Cpp.Obj.eraseVolatile, Cpp.Obj.eraseVolatile, ih (u := u) hroot hconst htail]

theorem Ty.eraseVolatile_eq_iff {T U : Ty L} :
    T.eraseVolatile = U.eraseVolatile ↔
      T.removeReference.eraseVolatile = U.removeReference.eraseVolatile ∧
        Ty.ref T = Ty.ref U := by
  cases T <;> cases U <;>
    simp [Cpp.Ty.eraseVolatile, Cpp.Ty.removeReference, Ty.ref]

theorem Obj.keywords_inj {t u : Obj L} (h : Obj.keywords t = Obj.keywords u) :
    t.volatiles = u.volatiles ∧ Obj.rootConst t = Obj.rootConst u := by
  have hne : "const".toList ≠ "volatile".toList := by decide
  have hcount := congrArg (List.count "volatile".toList) h
  have hconst : ∀ c : Bool,
      List.count "volatile".toList (if c then ["const".toList] else []) = 0 := by
    intro c
    cases c <;> decide
  simp only [Obj.keywords, List.count_append, List.count_replicate_self, hconst,
    Nat.add_zero] at hcount
  rw [Obj.keywords, Obj.keywords, hcount] at h
  refine ⟨hcount, ?_⟩
  have htail := List.append_cancel_left h
  cases ht : Obj.rootConst t <;> cases hu : Obj.rootConst u <;> simp [ht, hu] at htail ⊢

/-- Two types print alike exactly when they differ at most in where `volatile` stands. -/
theorem Ty.text_eq_iff {T U : Ty L} (hT : T.root.IsValue) (hU : U.root.IsValue) :
    Ty.text T = Ty.text U ↔
      T.eraseVolatile = U.eraseVolatile ∧ T.volatiles = U.volatiles := by
  rw [← String.toList_inj, Ty.toList_text, Ty.toList_text, Ty.eraseVolatile_eq_iff,
    Obj.eraseVolatile_eq_iff]
  constructor
  · intro h
    obtain ⟨hkeywords, hname, hrest⟩ := Readability.keywords_inj (by decide)
      (fun p => word_of_isKeyword) (fun p => Obj.isKeyword_of_mem) (fun p => Obj.isKeyword_of_mem)
      (not_isKeyword_spelling _) (not_isKeyword_spelling _) (word_spelling _) (word_spelling _)
      (Ty.stops_stars T) (Ty.stops_stars U) h
    obtain ⟨hstars, href⟩ := marks_inj (by decide) (Ty.head?_ref T) (Ty.head?_ref U) hrest
    obtain ⟨hvolatiles, hconst⟩ := Obj.keywords_inj hkeywords
    have hroot := Leaf.spelling_inj hT hU (String.toList_inj.mp hname)
    exact ⟨⟨⟨hroot, hconst, hstars⟩, href⟩, hvolatiles⟩
  · rintro ⟨⟨⟨hroot, hconst, hstars⟩, href⟩, hvolatiles⟩
    have hroot : T.root = U.root := hroot
    have hvolatiles : T.removeReference.volatiles = U.removeReference.volatiles := hvolatiles
    rw [hroot, hstars, href, Obj.keywords, Obj.keywords, hconst, hvolatiles]

end Erase

section Names

/-- `T` and `U` differ, but only in where `volatile` stands. -/
def VolatileMoved (T U : Ty L) : Prop :=
  T ≠ U ∧ T.eraseVolatile = U.eraseVolatile ∧ T.volatiles = U.volatiles

variable [DecidableEq L] {P : Program L} {s : Registry L} {t u : TypeEntry L}
  {texts : Texts L}

/-- If `Dump` gives the same text for both, `t` and `u` are the same type. -/
def Identified (texts : Texts L) (s : Registry L) (t u : TypeEntry L) : Prop :=
  ∀ n m str, t.dump s texts n = some (.ok str) → u.dump s texts m = some (.ok str) →
    t.data_ = u.data_

theorem dump_value (texts : Texts L) (hs : Built P s) (hlen : s.types_.length < 2 ^ 32)
    (ht : t ∈ s.types_) (hroot : t.data_.root.IsValue) {n : Nat}
    (hn : t.data_.rank (fun _ => 0) < n) :
    t.dump s texts n = some (.ok (Ty.text t.data_)) := by
  have huser : ∀ l, t.data_.root ≠ .user l := by
    intro l hl
    rw [hl] at hroot
    exact hroot
  have hvoid : t.data_.root ≠ .void := by
    intro hv
    rw [hv] at hroot
    exact hroot
  rw [TypeEntry.dump, print_registered texts hs hlen n t ht huser hn, printed,
    if_neg hvoid]

theorem text_of_dump (hs : Built P s) (hlen : s.types_.length < 2 ^ 32) (ht : t ∈ s.types_)
    (hroot : t.data_.root.IsValue) {n : Nat} {str : String}
    (h : t.dump s texts n = some (.ok str)) : str = Ty.text t.data_ := by
  have hdeep := dump_value texts hs hlen ht hroot
    (Nat.lt_of_lt_of_le (Nat.lt_succ_self _) (Nat.le_add_left _ n))
  have hmono := print_mono (Nat.le_add_right n (t.data_.rank (fun _ => 0) + 1)) h
  rw [TypeEntry.dump, hmono] at hdeep
  cases hdeep
  rfl

theorem identified_iff (P : Program L) (texts : Texts L) (hs : Reachable P s)
    (hlen : s.types_.length < 2 ^ 32) (ht : t ∈ s.types_) (hu : u ∈ s.types_)
    (hroot : t.data_.root.IsValue) (hroot' : u.data_.root.IsValue) :
    Identified texts s t u ↔ ¬ VolatileMoved t.data_ u.data_ := by
  have hbuilt := hs.built
  constructor
  · rintro hid ⟨hne, hsame⟩
    have htext := (Ty.text_eq_iff hroot hroot').mpr hsame
    have hdump := dump_value texts hbuilt hlen ht hroot (Nat.lt_succ_self _)
    have hdump' := dump_value texts hbuilt hlen hu hroot' (Nat.lt_succ_self _)
    rw [htext] at hdump
    exact hne (hid _ _ _ hdump hdump')
  · intro hmoved n m str hdump hdump'
    have htext := text_of_dump hbuilt hlen ht hroot hdump
    rw [text_of_dump hbuilt hlen hu hroot' hdump'] at htext
    by_contra hne
    exact hmoved ⟨hne, (Ty.text_eq_iff hroot hroot').mp htext.symm⟩

/-- `int32_t` -/
def int32 : Obj Nat := .leaf false false (.builtin .int32)

def volatileRun : Registry Nat :=
  run .plain [.reflectID (.obj (.ptr false true int32)) [],
    .reflectID (.obj (.ptr false false (int32.qualify false true))) []] .init

theorem identified_pointers :
    Identified (fun _ => none) volatileRun { id_ := ⟨1⟩, data_ := .obj int32 }
        { id_ := ⟨2⟩, data_ := .obj (.ptr false false int32) } ↔
      ¬ VolatileMoved (.obj int32) (.obj (.ptr false false int32)) :=
  identified_iff .plain _ ⟨_, rfl⟩ (show 5 < 2 ^ 32 by decide) (.head _) (.tail _ (.head _))
    trivial trivial

/-- `int32_t* volatile` and `volatile int32_t*` are both printed `volatile int32_t*`. -/
theorem not_identified_volatile :
    { id_ := ⟨3⟩, data_ := .obj (.ptr false true int32) } ∈ volatileRun.types_ ∧
    { id_ := ⟨5⟩, data_ := .obj (.ptr false false (int32.qualify false true)) } ∈
      volatileRun.types_ ∧
    ¬ Identified (fun _ => none) volatileRun
      { id_ := ⟨3⟩, data_ := .obj (.ptr false true int32) }
      { id_ := ⟨5⟩, data_ := .obj (.ptr false false (int32.qualify false true)) } := by
  refine ⟨.tail _ (.tail _ (.head _)), .tail _ (.tail _ (.tail _ (.tail _ (.head _)))), ?_⟩
  intro h
  cases h 3 3 "volatile int32_t*" rfl rfl

end Names

end ReflCpp
