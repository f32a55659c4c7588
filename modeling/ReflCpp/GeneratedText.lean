import ReflCpp.Delimited
import ReflCpp.GeneratedBraces

namespace ReflCpp.Generator

open Delimited

/-- What the generator writes of a class: the header to include, and the names. -/
structure Summary where
  header : String
  qualified_name : String
  name : String
  namespace_ : String
  fields : List String
  deriving DecidableEq

variable (filename : String → String)

def summary (type : ReflectData) : Summary where
  header := filename type.source_file
  qualified_name := type.qualified_name
  name := type.name
  namespace_ := type.namespace_
  fields := type.fields.map ReflectFieldData.name

abbrev newline : Char := '\n'

def OneLine (s : String) : Prop := newline ∉ s.toList

/-- None of the names goes over the end of a line. -/
structure LineNames (type : ReflectData) : Prop where
  header : OneLine (filename type.source_file)
  qualified_name : OneLine type.qualified_name
  name : OneLine type.name
  namespace_ : OneLine type.namespace_
  fields : ∀ field ∈ type.fields, OneLine field.name

section Text

variable {X γ δ : Type} {s : Set X} {text text' : X → Text} {k : X → γ} {l : X → δ}
  {piece : String}

def TextReads (s : Set X) (text : X → Text) (key : X → γ) : Prop :=
  Reads s (fun x => chars (text x)) key

theorem chars_append (text text' : Text) : chars (text ++ text') = chars text ++ chars text' :=
  List.flatMap_append

theorem chars_singleton (s : String) : chars [s] = s.toList := List.append_nil _

/-- The text of a piece that ends a line, and has no other end of a line in it. -/
def endsLine (piece : String) : Bool :=
  piece.toList.getLast? = some newline && newline ∉ piece.toList.dropLast

theorem textReads_nil : TextReads s (fun _ => []) (fun _ => ()) := reads_const []

theorem TextReads.append (h : TextReads s text k) (h' : TextReads s text' l) :
    TextReads s (fun x => text x ++ text' x) (fun x => (k x, l x)) := by
  have happend := Reads.append h h'
  simp only [← chars_append] at happend
  exact happend

theorem textReads_piece (piece : String) (h : TextReads s text k) :
    TextReads s (fun x => piece :: text x) k :=
  ((reads_const piece.toList).append h).key fun _ _ _ _ hk => congrArg Prod.snd hk

theorem textReads_line {line : X → Text} (hline : ∀ x ∈ s, newline ∉ chars (line x))
    (hpiece : endsLine piece = true) (h : TextReads s text k) :
    TextReads s (fun x => line x ++ piece :: text x) (fun x => (chars (line x), k x)) := by
  rw [endsLine, Bool.and_eq_true, decide_eq_true_eq, decide_eq_true_eq] at hpiece
  obtain ⟨hlast, hrest⟩ := hpiece
  have hsplit : piece.toList = piece.toList.dropLast ++ [newline] :=
    (List.dropLast_append_getLast? newline hlast).symm
  have hwhole : ∀ x ∈ s, newline ∉ chars (line x) ++ piece.toList.dropLast := by
    intro x hx hmem
    rcases List.mem_append.mp hmem with hmem | hmem
    · exact hline x hx hmem
    · exact hrest hmem
  have hread : TextReads s (fun x => line x ++ [piece]) (fun x => chars (line x)) := by
    have huntil := (reads_until hwhole).key (l := fun x => chars (line x))
      fun _ _ _ _ heq => List.append_cancel_right heq
    simp only [List.append_assoc, ← hsplit] at huntil
    rw [TextReads]
    simp only [chars_append, chars_singleton]
    exact huntil
  have happend := hread.append h
  simp only [List.append_assoc, List.singleton_append] at happend
  exact happend

theorem textReads_name {name : X → String} (hname : ∀ x ∈ s, OneLine (name x))
    (hpiece : endsLine piece = true) (h : TextReads s text k) :
    TextReads s (fun x => name x :: piece :: text x) (fun x => (name x, k x)) := by
  have hline : ∀ x ∈ s, newline ∉ chars [name x] := by
    intro x hx
    rw [chars_singleton]
    exact hname x hx
  refine (textReads_line hline hpiece h).key fun x _ y _ hk => ?_
  obtain ⟨hchars, hrest⟩ := Prod.mk.inj hk
  rw [chars_singleton, chars_singleton] at hchars
  exact Prod.ext (String.toList_inj.mp hchars) hrest

end Text

section Emission

variable {filename}

abbrev lined (filename : String → String) : Set ReflectData := {type | LineNames filename type}

theorem reads_includeText :
    TextReads (lined filename) (includeText filename) fun type => filename type.source_file := by
  refine Reads.key (textReads_piece _ (textReads_name (fun type htype => htype.header)
    (by decide) textReads_nil)) fun x _ y _ hk => ?_
  exact congrArg Prod.fst hk

/-- A field with the class that it is written for. -/
abbrev linedField (filename : String → String) : Set (ReflectData × ReflectFieldData) :=
  {p | LineNames filename p.1 ∧ p.2 ∈ p.1.fields}

theorem reads_fieldText :
    TextReads (linedField filename) (fun p => fieldText p.1 p.2) fun p => p.2.name := by
  have hptr : ∀ p ∈ linedField filename,
      newline ∉ chars [p.1.qualified_name, "::", p.2.name] := by
    rintro ⟨type, field⟩ ⟨htype, hfield⟩
    simp only [chars, List.flatMap_cons, List.flatMap_nil, List.append_nil, List.mem_append,
      not_or]
    exact ⟨htype.qualified_name, by decide, htype.fields field hfield⟩
  have hname : ∀ p ∈ linedField filename, OneLine p.2.name :=
    fun p hp => hp.1.fields p.2 hp.2
  have hread : TextReads (linedField filename) (fun p => fieldText p.1 p.2)
      fun p => (chars [p.1.qualified_name, "::", p.2.name], p.2.name, ()) := by
    refine textReads_piece _ (textReads_piece _ (textReads_line hptr ?_ (textReads_piece _
      (textReads_name hname ?_ (textReads_piece _ textReads_nil)))))
    · decide
    · decide
  refine hread.key fun p _ q _ hk => ?_
  exact congrArg (fun k => k.2.1) hk

/-- The fields of a class, up to what closes them. -/
theorem reads_fields :
    TextReads (lined filename)
      (fun type => type.fields.flatMap (fieldText type) ++ ["    \x7d,\n", "    \x7d;\n", "\x7d\n"])
      fun type => type.fields.map ReflectFieldData.name := by
  have hstop : ∀ p ∈ linedField filename, ∀ r r', chars (fieldText p.1 p.2) ++ r ≠
      chars ["    \x7d,\n", "    \x7d;\n", "\x7d\n"] ++ r' := by
    rintro ⟨type, field⟩ _ r r' heq
    rw [fieldText, chars, List.flatMap_cons, List.append_assoc] at heq
    exact append_ne (by decide) (by decide) _ r' heq
  have hlist := (reads_fieldText.flatMap hstop).comp (t := lined filename)
    (e := fun type => type.fields.map (Prod.mk type)) (by
      intro type htype p hp
      obtain ⟨field, hfield, rfl⟩ := List.mem_map.mp hp
      exact ⟨htype, hfield⟩)
  simp only [List.flatMap_map, List.map_map] at hlist
  rw [TextReads]
  simp only [chars_append]
  simp only [chars, List.flatMap_assoc] at hlist ⊢
  exact hlist

theorem reads_createText :
    TextReads (lined filename) createText fun type =>
      (type.qualified_name, type.name, type.namespace_,
        type.fields.map ReflectFieldData.name) := by
  have hhead : TextReads (lined filename) (fun type =>
      [ "TypeData ReflectData<", type.qualified_name, ">::Create() \x7b\n", "\x7b\n",
        "    .name = \"", type.name, "\",\n",
        "    ._namespace = \"", type.namespace_, "\",\n",
        "    .fields = \x7b\n" ])
      fun type => (type.qualified_name, type.name, type.namespace_, ()) := by
    refine textReads_piece _ (textReads_name (fun _ h => h.qualified_name) ?_
      (textReads_piece _ (textReads_piece _ (textReads_name (fun _ h => h.name) ?_
        (textReads_piece _ (textReads_name (fun _ h => h.namespace_) ?_
          (textReads_piece _ textReads_nil)))))))
    · decide
    · decide
    · decide
  have hwhole := hhead.append reads_fields
  simp only [← List.append_assoc] at hwhole
  refine Reads.key hwhole fun type _ type' _ hk => ?_
  simp only [Prod.mk.injEq] at hk ⊢
  exact ⟨hk.1.1, hk.1.2.1, hk.1.2.2.1, hk.2⟩

/-- What is written to a file determines the headers that it includes and, of each class,
the names and the fields, in order. -/
theorem fileText_summary {types types' : List ReflectData}
    (htypes : ∀ type ∈ types, LineNames filename type)
    (htypes' : ∀ type ∈ types', LineNames filename type)
    (h : chars (fileText filename types) = chars (fileText filename types')) :
    types.map (summary filename) = types'.map (summary filename) := by
  have hstop : ∀ type ∈ lined filename, ∀ r r',
      chars (includeText filename type) ++ r ≠ ['\n'] ++ r' := by
    intro type _ r r' heq
    rw [includeText, chars, List.flatMap_cons, List.append_assoc] at heq
    exact append_ne (by decide) (by decide) _ r' heq
  have hne : ∀ type ∈ lined filename, chars (createText type) ≠ [] := by
    intro type _ hnil
    rw [createText, chars] at hnil
    simp at hnil
  have hparts : ∀ types : List ReflectData, chars (fileText filename types) =
      chars ["#include \"reflect.h\"\n"] ++
        (types.flatMap (fun type => chars (includeText filename type)) ++ ['\n'] ++
          (chars ["namespace ReflCpp \x7b"] ++
            types.flatMap fun type => chars (createText type))) := by
    intro types
    simp only [fileText, chars_append, List.append_assoc]
    simp only [chars, List.flatMap_assoc]
    rfl
  rw [hparts, hparts] at h
  obtain ⟨hheaders, hrest⟩ := (reads_includeText.flatMap hstop) types htypes types' htypes' _ _
    (List.append_cancel_left h)
  have hnames := reads_createText.flatMap_end hne htypes htypes' (List.append_cancel_left hrest)
  apply List.ext_getElem
  · rw [List.length_map, List.length_map]
    simpa using congrArg List.length hheaders
  · intro i hi hi'
    rw [List.length_map] at hi hi'
    have hheader := congrArg (·[i]?) hheaders
    have hname := congrArg (·[i]?) hnames
    simp only [List.getElem?_map, List.getElem?_eq_getElem hi, List.getElem?_eq_getElem hi',
      Option.map_some, Option.some.injEq, Prod.mk.injEq] at hheader hname
    obtain ⟨hq, hn, hns, hfs⟩ := hname
    simp only [List.getElem_map, summary, hheader, hq, hn, hns, hfs]

end Emission

section Run

variable {filename}

theorem lineNames_of_group {data : List ReflectData}
    (hdata : ∀ type ∈ data, LineNames filename type) :
    ∀ g ∈ fileToTypes filename data, ∀ type ∈ g.2, LineNames filename type :=
  fun g hg type htype => hdata type (mem_fileToTypes.mp ⟨g, hg, htype⟩).1

/-- Two runs of the generator that write the same texts have been given the same headers,
names and fields, in the same groups. -/
theorem summaries_of_written {output_dir output_dir' : String} {data data' : List ReflectData}
    (hdata : ∀ type ∈ data, LineNames filename type)
    (hdata' : ∀ type ∈ data', LineNames filename type)
    (h : (written filename output_dir data).map (fun file => chars file.2) =
      (written filename output_dir' data').map fun file => chars file.2) :
    (fileToTypes filename data).map (fun g => g.2.map (summary filename)) =
      (fileToTypes filename data').map fun g => g.2.map (summary filename) := by
  have hgroups := lineNames_of_group hdata
  have hgroups' := lineNames_of_group hdata'
  rw [written, written, List.map_map, List.map_map] at h
  generalize fileToTypes filename data = groups at h hgroups
  generalize fileToTypes filename data' = groups' at h hgroups'
  induction groups generalizing groups' with
  | nil =>
    cases groups' with
    | nil => rfl
    | cons g' groups' => cases h
  | cons g groups ih =>
    cases groups' with
    | nil => cases h
    | cons g' groups' =>
      obtain ⟨hhead, htail⟩ := List.cons.inj h
      have hg := fileText_summary (hgroups g List.mem_cons_self)
        (hgroups' g' List.mem_cons_self) hhead
      have hrest := ih (fun g hg => hgroups g (List.mem_cons_of_mem _ hg)) groups' htail
        (fun g hg => hgroups' g (List.mem_cons_of_mem _ hg))
      rw [List.map_cons, List.map_cons, hg, hrest]

end Run

section Example

/-- The bases are not written. -/
def derivedPointData : ReflectData := { pointData with bases := ["geo::Shape"] }

theorem pointData_lines : LineNames id pointData where
  header := by unfold OneLine; decide
  qualified_name := by unfold OneLine; decide
  name := by unfold OneLine; decide
  namespace_ := by unfold OneLine; decide
  fields := by
    intro field hfield
    obtain rfl := List.mem_singleton.mp hfield
    unfold OneLine
    decide

theorem summaries_of_written_point :
    (fileToTypes id [pointData]).map (fun g => g.2.map (summary id)) =
      (fileToTypes id [derivedPointData]).map fun g => g.2.map (summary id) := by
  refine @summaries_of_written id "out" "out" _ _ ?_ ?_ ?_
  · intro type htype
    obtain rfl := List.mem_singleton.mp htype
    exact pointData_lines
  · intro type htype
    obtain rfl := List.mem_singleton.mp htype
    exact ⟨pointData_lines.header, pointData_lines.qualified_name, pointData_lines.name,
      pointData_lines.namespace_, pointData_lines.fields⟩
  · rfl

end Example

end ReflCpp.Generator
