import ReflCpp.Brackets
import ReflCpp.GeneratorLaws

namespace ReflCpp.Generator

open Grouping Brackets

variable (filename : String → String)

def chars (text : Text) : List Char := text.flatMap String.toList

abbrev openBrace : Char := '\x7b'
abbrev closeBrace : Char := '\x7d'

/-- The files that are written, in order, each with its path. -/
def written (output_dir : String) (data : List ReflectData) : List (String × Text) :=
  (fileToTypes filename data).map fun g => (outputPath output_dir g.1, fileText filename g.2)

/-- What is written to each output file, and found there afterwards, has balanced braces. -/
structure BracesBalanced (output_dir : String) (data : List ReflectData) : Prop where
  written : ∀ file ∈ written filename output_dir data,
    Balanced openBrace closeBrace (chars file.2)
  stored : ∀ opens path text,
    generateReflectionCode filename opens output_dir data (fun _ => none) path = some text →
    Balanced openBrace closeBrace (chars text)

def NoBraces (s : String) : Prop := openBrace ∉ s.toList ∧ closeBrace ∉ s.toList

/-- The names that the generator writes of a class have no braces. -/
structure PlainNames (type : ReflectData) : Prop where
  qualified_name : NoBraces type.qualified_name
  name : NoBraces type.name
  namespace_ : NoBraces type.namespace_
  fields : ∀ field ∈ type.fields, NoBraces field.name

section Text

variable {a b c : Nat} {piece : String} {text text' : Text}

/-- The text changes the nesting depth from `a` to `b`, and never falls below it. -/
def TextLeads (text : Text) (a b : Nat) : Prop := Leads openBrace closeBrace (chars text) a b

theorem textLeads_nil (a : Nat) : TextLeads [] a a := leads_nil a

theorem TextLeads.append (h : TextLeads text a b) (h' : TextLeads text' b c) :
    TextLeads (text ++ text') a c := by
  have happend := Leads.append h h'
  rwa [chars, chars, ← List.flatMap_append] at happend

theorem textLeads_piece (hpiece : depth openBrace closeBrace a piece.toList = some b)
    (h : TextLeads text b c) : TextLeads (piece :: text) a c :=
  Leads.append (leads_of_depth hpiece) h

theorem textLeads_name (hpiece : NoBraces piece) (h : TextLeads text a c) :
    TextLeads (piece :: text) a c :=
  Leads.append (leads_of_notMem hpiece.1 hpiece.2 a) h

theorem textLeads_flatMap {X : Type} {f : X → Text} {xs : List X}
    (h : ∀ x ∈ xs, TextLeads (f x) a a) : TextLeads (xs.flatMap f) a a := by
  rw [TextLeads, chars, List.flatMap_assoc]
  exact leads_flatMap h

end Text

section Emission

variable {type : ReflectData}

theorem fieldText_leads (htype : PlainNames type) {field : ReflectFieldData}
    (hfield : field ∈ type.fields) : TextLeads (fieldText type field) 4 4 := by
  have hname := htype.fields field hfield
  apply textLeads_piece (b := 5) (by decide)
  apply textLeads_piece (b := 5) (by decide)
  apply textLeads_name htype.qualified_name
  apply textLeads_piece (b := 5) (by decide)
  apply textLeads_name hname
  apply textLeads_piece (b := 5) (by decide)
  apply textLeads_piece (b := 5) (by decide)
  apply textLeads_name hname
  apply textLeads_piece (b := 5) (by decide)
  apply textLeads_piece (b := 4) (by decide)
  exact textLeads_nil 4

theorem createText_leads (htype : PlainNames type) : TextLeads (createText type) 1 1 := by
  apply TextLeads.append (b := 4)
  · apply TextLeads.append (b := 4)
    · apply textLeads_piece (b := 1) (by decide)
      apply textLeads_name htype.qualified_name
      apply textLeads_piece (b := 2) (by decide)
      apply textLeads_piece (b := 3) (by decide)
      apply textLeads_piece (b := 3) (by decide)
      apply textLeads_name htype.name
      apply textLeads_piece (b := 3) (by decide)
      apply textLeads_piece (b := 3) (by decide)
      apply textLeads_name htype.namespace_
      apply textLeads_piece (b := 3) (by decide)
      apply textLeads_piece (b := 4) (by decide)
      exact textLeads_nil 4
    · exact textLeads_flatMap fun field hfield => fieldText_leads htype hfield
  · apply textLeads_piece (b := 3) (by decide)
    apply textLeads_piece (b := 2) (by decide)
    apply textLeads_piece (b := 1) (by decide)
    exact textLeads_nil 1

/-- Whatever stands before the namespace, one brace more is open at the end. -/
theorem not_balanced_fileText {types : List ReflectData}
    (htypes : ∀ type ∈ types, PlainNames type) :
    ¬ Balanced openBrace closeBrace (chars (fileText filename types)) := by
  have hrest : TextLeads (["\n", "namespace ReflCpp \x7b"] ++ types.flatMap createText) 0 1 := by
    apply TextLeads.append (b := 1)
    · apply textLeads_piece (b := 0) (by decide)
      apply textLeads_piece (b := 1) (by decide)
      exact textLeads_nil 1
    · exact textLeads_flatMap fun type htype => createText_leads (htypes type htype)
  rw [balanced_iff (by decide), fileText, List.append_assoc, chars, List.flatMap_append,
    depth_append]
  intro h
  obtain ⟨m, _, hm⟩ := Option.bind_eq_some_iff.mp h
  have hend := hrest m
  rw [Nat.zero_add] at hend
  have hzero := Option.some.inj (hend.symm.trans hm)
  omega

end Emission

section Groups

variable {filename} {output_dir : String} {data : List ReflectData}

theorem mem_fileToTypes {type : ReflectData} :
    (∃ g ∈ fileToTypes filename data, type ∈ g.2) ↔ type ∈ data ∧ type.source_file ≠ "" := by
  have hperm := members_groupBy (outputName filename)
    (data.filter fun type => type.source_file ≠ "") []
  rw [← fileToTypes_eq] at hperm
  have hmem := hperm.mem_iff (a := type)
  simpa [members] using hmem

theorem stored_writeFile {opens : String → Bool} {path path' : String} {text text' : Text}
    {disk : Disk} (h : writeFile opens path text disk path' = some text') :
    disk path' = some text' ∨ (path, text) = (path', text') := by
  unfold writeFile at h
  split at h
  · by_cases hpath : path' = path
    · subst hpath
      rw [Function.update_self, Option.some.injEq] at h
      exact .inr (by rw [h])
    · rw [Function.update_of_ne hpath] at h
      exact .inl h
  · exact .inl h

/-- Nothing is on the disk but what has been written there. -/
theorem mem_written_of_stored {opens : String → Bool} {path : String} {text : Text}
    (h : generateReflectionCode filename opens output_dir data (fun _ => none) path = some text) :
    (path, text) ∈ written filename output_dir data := by
  have hfold : ∀ (groups : List (String × List ReflectData)) (disk : Disk),
      groups.foldl (fun disk group =>
        writeFile opens (outputPath output_dir group.1) (fileText filename group.2) disk) disk
        path = some text →
      disk path = some text ∨
        ∃ g ∈ groups, (outputPath output_dir g.1, fileText filename g.2) = (path, text) := by
    intro groups
    induction groups with
    | nil => exact fun disk h => .inl h
    | cons g groups ih =>
      intro disk h
      rcases ih _ h with hdisk | ⟨g', hg', heq⟩
      · rcases stored_writeFile hdisk with hdisk | heq
        · exact .inl hdisk
        · exact .inr ⟨g, List.mem_cons_self, heq⟩
      · exact .inr ⟨g', List.mem_cons_of_mem _ hg', heq⟩
  rcases hfold _ _ h with hnone | hg
  · cases hnone
  · exact List.mem_map.mpr hg

end Groups

theorem bracesBalanced_iff (output_dir : String) (data : List ReflectData)
    (hdata : ∀ type ∈ data, PlainNames type) :
    BracesBalanced filename output_dir data ↔ ∀ type ∈ data, type.source_file = "" := by
  constructor
  · intro h type htype
    by_contra hsource
    obtain ⟨g, hg, _⟩ := mem_fileToTypes.mpr ⟨htype, hsource⟩
    have hplain : ∀ type ∈ g.2, PlainNames type :=
      fun type ht => hdata type (mem_fileToTypes.mp ⟨g, hg, ht⟩).1
    exact not_balanced_fileText filename hplain (h.written _ (List.mem_map_of_mem hg))
  · intro h
    have hnone : written filename output_dir data = [] := by
      rw [written, fileToTypes_eq_nil h]
      rfl
    refine ⟨?_, ?_⟩
    · rw [hnone]
      simp
    · intro opens path text hstored
      have hmem := mem_written_of_stored hstored
      rw [hnone] at hmem
      cases hmem

section Example

def pointData : ReflectData where
  qualified_name := "geo::Point"
  source_file := "point.hpp"
  name := "Point"
  namespace_ := "geo"
  fields := [{ qualified_name := "geo::Point::x", name := "x" }]

theorem pointData_plain : ∀ type ∈ [pointData], PlainNames type := by
  intro type htype
  obtain rfl := List.mem_singleton.mp htype
  refine ⟨⟨by decide, by decide⟩, ⟨by decide, by decide⟩, ⟨by decide, by decide⟩, ?_⟩
  intro field hfield
  obtain rfl := List.mem_singleton.mp hfield
  exact ⟨by decide, by decide⟩

theorem bracesBalanced_point :
    BracesBalanced id "out" [pointData] ↔ ∀ type ∈ [pointData], type.source_file = "" :=
  bracesBalanced_iff id "out" [pointData] pointData_plain

/-- The brace of the namespace is left open. -/
theorem not_bracesBalanced_point : ¬ BracesBalanced id "out" [pointData] := by
  intro h
  exact not_balanced_fileText id pointData_plain (h.written _ List.mem_cons_self)

end Example

end ReflCpp.Generator
