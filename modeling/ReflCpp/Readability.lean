import Mathlib.Data.List.Basic

/-! Texts made of keywords, a name and marks, with nothing but the letters to tell them
apart: when such a text can be read in one way only. -/

universe u

namespace ReflCpp.Readability

variable {α : Type u}

section Words

variable (word : α → Bool)

def Word (w : List α) : Prop := ∀ a ∈ w, word a = true

/-- Nothing of a word stands at the front. -/
def Stops (rest : List α) : Prop := ∀ a ∈ rest.head?, word a = false

variable {word} {w w' rest rest' : List α}

theorem word_of_all (h : w.all word = true) : Word word w := List.all_eq_true.mp h

theorem takeWhile_word (hw : Word word w) (hrest : Stops word rest) :
    (w ++ rest).takeWhile word = w := by
  rw [List.takeWhile_append_of_pos hw]
  cases rest with
  | nil => exact List.append_nil w
  | cons a rest => rw [List.takeWhile_cons_of_neg (by simp [hrest a rfl]), List.append_nil]

theorem word_inj (hw : Word word w) (hw' : Word word w') (hrest : Stops word rest)
    (hrest' : Stops word rest') (h : w ++ rest = w' ++ rest') : w = w' ∧ rest = rest' := by
  have htake := congrArg (List.takeWhile word) h
  rw [takeWhile_word hw hrest, takeWhile_word hw' hrest'] at htake
  subst htake
  exact ⟨rfl, List.append_cancel_left h⟩

end Words

section Keywords

/-- Keywords, each with a separator behind it. -/
def keywords (sep : α) (ps : List (List α)) : List α := ps.flatMap fun p => p ++ [sep]

theorem keywords_append (sep : α) (ps qs : List (List α)) :
    keywords sep (ps ++ qs) = keywords sep ps ++ keywords sep qs := List.flatMap_append

variable {word : α → Bool} {sep : α} {K : List α → Prop} {ps ps' : List (List α)}
  {name name' rest rest' : List α}

/-- A name that is no keyword shows where the keywords end. -/
theorem keywords_inj (hsep : word sep = false) (hK : ∀ p, K p → Word word p)
    (hps : ∀ p ∈ ps, K p) (hps' : ∀ p ∈ ps', K p) (hname : ¬ K name) (hname' : ¬ K name')
    (hw : Word word name) (hw' : Word word name') (hrest : Stops word rest)
    (hrest' : Stops word rest')
    (h : keywords sep ps ++ (name ++ rest) = keywords sep ps' ++ (name' ++ rest')) :
    ps = ps' ∧ name = name' ∧ rest = rest' := by
  have hstop : ∀ qs : List α, Stops word (sep :: qs) := by
    rintro qs a ⟨⟩
    exact hsep
  induction ps generalizing ps' with
  | nil =>
    cases ps' with
    | nil => exact ⟨rfl, word_inj hw hw' hrest hrest' h⟩
    | cons p' ps' =>
      have hp' := hps' p' List.mem_cons_self
      simp only [keywords, List.flatMap_cons, List.flatMap_nil, List.nil_append,
        List.append_assoc, List.cons_append] at h
      exact absurd ((word_inj hw (hK p' hp') hrest (hstop _) h).1 ▸ hp') hname
  | cons p ps ih =>
    have hp := hps p List.mem_cons_self
    cases ps' with
    | nil =>
      simp only [keywords, List.flatMap_cons, List.flatMap_nil, List.nil_append,
        List.append_assoc, List.cons_append] at h
      exact absurd ((word_inj hw' (hK p hp) hrest' (hstop _) h.symm).1 ▸ hp) hname'
    | cons p' ps' =>
      have hp' := hps' p' List.mem_cons_self
      simp only [keywords, List.flatMap_cons, List.nil_append, List.append_assoc,
        List.cons_append] at h
      obtain ⟨rfl, htail⟩ := word_inj (hK p hp) (hK p' hp') (hstop _) (hstop _) h
      obtain ⟨rfl, hrest⟩ := ih (fun q hq => hps q (List.mem_cons_of_mem _ hq))
        (fun q hq => hps' q (List.mem_cons_of_mem _ hq)) (List.cons_inj_right sep |>.mp htail)
      exact ⟨rfl, hrest⟩

end Keywords

section Marks

/-- Marks that all begin alike; some go on with a tail. -/
def marks (start : α) (tail : List α) (bs : List Bool) : List α :=
  bs.flatMap fun b => start :: if b then tail else []

theorem marks_append (start : α) (tail : List α) (bs cs : List Bool) :
    marks start tail (bs ++ cs) = marks start tail bs ++ marks start tail cs :=
  List.flatMap_append

variable {start t : α} {rest rest' : List α}

/-- What may follow a mark: another mark, or the rest. -/
theorem head?_marks (ts : List α) (bs : List Bool) (ht : start ≠ t)
    (hrest : ∀ a ∈ rest.head?, a ≠ t) :
    ∀ a ∈ (marks start (t :: ts) bs ++ rest).head?, a ≠ t := by
  cases bs with
  | nil => exact hrest
  | cons b bs =>
    rintro a ⟨⟩
    exact ht

theorem marks_cons (tail : List α) (b : Bool) (bs : List Bool) :
    marks start tail (b :: bs) ++ rest =
      start :: ((if b then tail else []) ++ (marks start tail bs ++ rest)) := by
  simp [marks]

/-- A tail that no mark begins with, nor the rest, shows which marks have it. -/
theorem marks_inj {ts : List α} {bs bs' : List Bool} (ht : start ≠ t)
    (hrest : ∀ a ∈ rest.head?, a ≠ start ∧ a ≠ t)
    (hrest' : ∀ a ∈ rest'.head?, a ≠ start ∧ a ≠ t)
    (h : marks start (t :: ts) bs ++ rest = marks start (t :: ts) bs' ++ rest') :
    bs = bs' ∧ rest = rest' := by
  induction bs generalizing bs' with
  | nil =>
    cases bs' with
    | nil => exact ⟨rfl, h⟩
    | cons b' bs' =>
      rw [marks_cons] at h
      have h : rest = start :: _ := h
      rw [h] at hrest
      exact absurd rfl (hrest start rfl).1
  | cons b bs ih =>
    cases bs' with
    | nil =>
      rw [marks_cons] at h
      have h : _ = rest' := h
      rw [← h] at hrest'
      exact absurd rfl (hrest' start rfl).1
    | cons b' bs' =>
      rw [marks_cons, marks_cons, List.cons_inj_right] at h
      have hnext := head?_marks ts bs ht fun a ha => (hrest a ha).2
      have hnext' := head?_marks ts bs' ht fun a ha => (hrest' a ha).2
      cases b with
      | true =>
        cases b' with
        | true =>
          obtain ⟨rfl, htail⟩ := ih (List.append_cancel_left h)
          exact ⟨rfl, htail⟩
        | false =>
          have h : t :: _ = marks start (t :: ts) bs' ++ rest' := h
          rw [← h] at hnext'
          exact absurd rfl (hnext' t rfl)
      | false =>
        cases b' with
        | true =>
          have h : marks start (t :: ts) bs ++ rest = t :: _ := h
          rw [h] at hnext
          exact absurd rfl (hnext t rfl)
        | false =>
          obtain ⟨rfl, htail⟩ := ih h
          exact ⟨rfl, htail⟩

end Marks

end ReflCpp.Readability
