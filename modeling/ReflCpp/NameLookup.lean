import ReflCpp.Search
import ReflCpp.TypeData

namespace ReflCpp

open Search

variable {E : Type} (getName : E → CharPtr) (entries : List E)

/-- The loop of both lookups, which compares addresses.  The reference it returns is
the place of an entry. -/
def findNamed (name : CharPtr) : Option (Fin entries.length) :=
  entries.findFinIdx? fun e => getName e = name

namespace TypeData

variable (data_ : TypeData)

def getField : CharPtr → Option (Fin data_.fields.length) :=
  findNamed Field.name_ data_.fields

def getMethod : CharPtr → Option (Fin data_.methods.length) :=
  findNamed Method.name_ data_.methods

end TypeData

section ByText

variable (text : CharPtr → String)

/-- The result is the first entry whose name has the characters of `name`, or none
when there is no such entry; `text` reads the characters at an address. -/
def FindsText (name : CharPtr) : Option (Fin entries.length) → Prop :=
  Finds (fun e => text (getName e) = text name) entries

/-- Lookup is by text, and gives the same for two names with the same text. -/
def ByText (get : CharPtr → Option (Fin entries.length)) (name name' : CharPtr) : Prop :=
  FindsText getName entries text name (get name) ∧
    (text name = text name' → get name = get name')

/-- The first entry with the text of `name`, if any, is stored at `name`; and a name
with the same text is the same pointer, or neither is the name of an entry. -/
def StoredAt (name name' : CharPtr) : Prop :=
  (∀ i : Fin entries.length, FindsText getName entries text name (some i) →
    getName entries[i] = name) ∧
  (text name = text name' →
    name = name' ∨ ∀ e ∈ entries, getName e ≠ name ∧ getName e ≠ name')

variable {getName entries text} {name name' : CharPtr}

theorem findNamed_findsText_iff :
    FindsText getName entries text name (findNamed getName entries name) ↔
      ∀ i : Fin entries.length, FindsText getName entries text name (some i) →
        getName entries[i] = name := by
  have himp : ∀ e, decide (getName e = name) = true →
      decide (text (getName e) = text name) = true := by
    simp +contextual
  apply (finds_findFinIdx?_iff himp).trans
  simp only [decide_eq_true_eq]
  exact Iff.rfl

theorem findNamed_eq_iff :
    findNamed getName entries name = findNamed getName entries name' ↔
      name = name' ∨ ∀ e ∈ entries, getName e ≠ name ∧ getName e ≠ name' := by
  constructor
  · intro heq
    cases h : findNamed getName entries name with
    | none =>
      have h' : findNamed getName entries name' = none := heq.symm.trans h
      simp only [findNamed, List.findFinIdx?_eq_none_iff, decide_eq_true_eq] at h h'
      exact .inr fun e he => ⟨h e he, h' e he⟩
    | some i =>
      have h' : findNamed getName entries name' = some i := heq.symm.trans h
      simp only [findNamed, List.findFinIdx?_eq_some_iff, decide_eq_true_eq] at h h'
      exact .inl (h.1.symm.trans h'.1)
  · rintro (rfl | hnone)
    · rfl
    · have h : findNamed getName entries name = none := by
        simpa [findNamed] using fun e he => (hnone e he).1
      have h' : findNamed getName entries name' = none := by
        simpa [findNamed] using fun e he => (hnone e he).2
      rw [h, h']

theorem findNamed_byText_iff :
    ByText getName entries text (findNamed getName entries) name name' ↔
      StoredAt getName entries text name name' := by
  rw [ByText, StoredAt, findNamed_findsText_iff, findNamed_eq_iff]

end ByText

theorem lookup_byText_iff (text : CharPtr → String) (data_ : TypeData)
    (name name' : CharPtr) :
    (ByText Field.name_ data_.fields text data_.getField name name' ↔
      StoredAt Field.name_ data_.fields text name name') ∧
    (ByText Method.name_ data_.methods text data_.getMethod name name' ↔
      StoredAt Method.name_ data_.methods text name name') :=
  ⟨findNamed_byText_iff, findNamed_byText_iff⟩

theorem not_byText_copy :
    ¬ ByText Field.name_ [{ name_ := 1, base_ := 0 }] (fun _ => "x")
      (TypeData.getField { name := "T", fields := [{ name_ := 1, base_ := 0 }] }) 2 1 := by
  rintro ⟨_, h⟩
  cases h rfl

end ReflCpp
