import Mathlib.Data.List.Nodup
import Mathlib.Logic.ExistsUnique
import ReflCpp.Generator

namespace ReflCpp.Generator

open Grouping

variable (filename : String → String)

/-- Every class with a source file is defined in the output file of its source file
and in no other, and different groups have different files. -/
structure Lossless (output_dir : String) (data : List ReflectData) (disk : Disk) : Prop where
  at_stem : ∀ type ∈ data, type.source_file ≠ "" →
    ∃ text, disk (output_dir ++ "/" ++ outputName filename type) = some text ∧
      createText type <:+: text
  paths_ne : ∀ g ∈ fileToTypes filename data, ∀ h ∈ fileToTypes filename data, g.1 ≠ h.1 →
    outputPath output_dir g.1 ≠ outputPath output_dir h.1
  once : ∀ type ∈ data, type.source_file ≠ "" →
    ∃! path, ∃ text, disk path = some text ∧ createText type <:+: text

section Path

/-- The format has no `{}`, so nothing is put into it. -/
theorem outputPath_eq (output_dir name : String) : outputPath output_dir name = "%s/%s" := rfl

variable {filename}

theorem exists_outputName (filename : String → String) (type : ReflectData) :
    ∃ stem, outputName filename type = stem ++ ".reflect-generated.cpp" := by
  unfold outputName
  dsimp only
  split
  · exact ⟨_, rfl⟩
  · exact ⟨_, rfl⟩

theorem expected_ne (output_dir : String) (type : ReflectData) :
    output_dir ++ "/" ++ outputName filename type ≠ "%s/%s" := by
  intro h
  obtain ⟨stem, hstem⟩ := exists_outputName filename type
  rw [hstem, ← String.append_assoc] at h
  have hlast := congrArg (fun s => s.toList.getLast?) h
  rw [String.toList_append, List.getLast?_append] at hlast
  have hp : ".reflect-generated.cpp".toList.getLast? = some 'p' := rfl
  rw [hp] at hlast
  cases hlast

end Path

section Disk

variable {filename} {opens : String → Bool} {output_dir : String} {data : List ReflectData}

theorem generate_frame {path : String} (hpath : path ≠ "%s/%s") (disk : Disk) :
    generateReflectionCode filename opens output_dir data disk path = disk path := by
  unfold generateReflectionCode
  induction fileToTypes filename data generalizing disk with
  | nil => rfl
  | cons g groups ih =>
    rw [List.foldl_cons, ih, writeFile, outputPath_eq]
    split
    · exact Function.update_of_ne hpath ..
    · rfl

theorem fileToTypes_eq (data : List ReflectData) :
    fileToTypes filename data =
      groupBy (outputName filename) (data.filter fun type => type.source_file ≠ "") [] := by
  unfold fileToTypes groupBy
  rw [List.foldl_filter]
  congr 1
  funext groups type
  by_cases h : type.source_file = "" <;> simp [h]

theorem fileToTypes_eq_nil (h : ∀ type ∈ data, type.source_file = "") :
    fileToTypes filename data = [] := by
  have hnone : (data.filter fun type => type.source_file ≠ "") = [] := by
    rw [List.filter_eq_nil_iff]
    intro type htype
    simp [h type htype]
  rw [fileToTypes_eq, hnone]
  rfl

end Disk

theorem generate_lossless_iff (opens : String → Bool) (output_dir : String)
    (data : List ReflectData) :
    Lossless filename output_dir data
        (generateReflectionCode filename opens output_dir data fun _ => none) ↔
      ∀ type ∈ data, type.source_file = "" := by
  constructor
  · intro h type htype
    by_contra hsource
    obtain ⟨text, htext, _⟩ := h.at_stem type htype hsource
    rw [generate_frame (expected_ne output_dir type)] at htext
    cases htext
  · intro h
    refine ⟨?_, ?_, ?_⟩
    · intro type htype hsource
      exact absurd (h type htype) hsource
    · rw [fileToTypes_eq_nil h]
      simp
    · intro type htype hsource
      exact absurd (h type htype) hsource

/-- Neither class is in the output file of its source: both groups go to `%s/%s`. -/
theorem not_lossless_two :
    ¬ Lossless id "out"
      [ { qualified_name := "A", name := "A", source_file := "a.hpp" },
        { qualified_name := "B", name := "B", source_file := "b.hpp" } ]
      (generateReflectionCode id (fun _ => true) "out"
        [ { qualified_name := "A", name := "A", source_file := "a.hpp" },
          { qualified_name := "B", name := "B", source_file := "b.hpp" } ] fun _ => none) := by
  intro h
  obtain ⟨text, htext, _⟩ := h.at_stem _ List.mem_cons_self (by decide)
  cases htext

section Once

/-- The classes that the text of all output files defines `Create` for. -/
def definitions (data : List ReflectData) : List String :=
  (members (fileToTypes filename data)).map ReflectData.qualified_name

/-- Each marked complete class is recorded once, and no `Create` is defined twice. -/
structure OncePerType (sources : List TranslationUnit) : Prop where
  recorded : ∀ unit ∈ sources, ∀ decl ∈ unit, decl.isReflected = true →
    ((runTool sources).map ReflectData.qualified_name).count decl.qualifiedName = 1
  defined : ∀ name, (definitions filename (runTool sources)).count name ≤ 1

/-- The marked complete classes that the tool comes across, in all sources. -/
def reflected (sources : List TranslationUnit) : List CXXRecordDecl :=
  sources.flatten.filter CXXRecordDecl.isReflected

variable {filename}

theorem visit_unit (unit : TranslationUnit) (data : List ReflectData) :
    unit.foldl visitCXXRecordDecl data =
      data ++ (unit.filter CXXRecordDecl.isReflected).map CXXRecordDecl.reflectData := by
  induction unit generalizing data with
  | nil => simp
  | cons decl unit ih =>
    rw [List.foldl_cons, ih, visitCXXRecordDecl]
    cases hc : decl.isCompleteDefinition <;> cases hm : isMarked decl.annotations <;>
      simp [CXXRecordDecl.isReflected, hc, hm]

theorem runTool_eq (sources : List TranslationUnit) :
    runTool sources = (reflected sources).map CXXRecordDecl.reflectData := by
  have hrun : ∀ data, sources.foldl (fun data unit => unit.foldl visitCXXRecordDecl data) data =
      data ++ (reflected sources).map CXXRecordDecl.reflectData := by
    induction sources with
    | nil => simp [reflected]
    | cons unit sources ih =>
      intro data
      rw [List.foldl_cons, ih, visit_unit]
      simp [reflected]
  exact hrun []

theorem names_runTool (sources : List TranslationUnit) :
    (runTool sources).map ReflectData.qualified_name =
      (reflected sources).map CXXRecordDecl.qualifiedName := by
  rw [runTool_eq, List.map_map]
  rfl

theorem definitions_count_le (data : List ReflectData) (name : String) :
    (definitions filename data).count name ≤
      (data.map ReflectData.qualified_name).count name := by
  have hperm := members_groupBy (outputName filename)
    (data.filter fun type => type.source_file ≠ "") []
  rw [← fileToTypes_eq] at hperm
  rw [definitions, (hperm.map _).count_eq]
  exact (List.filter_sublist.map _).count_le _

theorem mem_reflected {sources : List TranslationUnit} {decl : CXXRecordDecl} :
    decl ∈ reflected sources ↔
      ∃ unit ∈ sources, decl ∈ unit ∧ decl.isReflected = true := by
  simp [reflected]

end Once

theorem oncePerType_iff (sources : List TranslationUnit) :
    OncePerType filename sources ↔
      ((reflected sources).map CXXRecordDecl.qualifiedName).Nodup := by
  constructor
  · intro h
    rw [List.nodup_iff_count_eq_one]
    intro name hname
    obtain ⟨decl, hdecl, rfl⟩ := List.mem_map.mp hname
    obtain ⟨unit, hunit, hmem, hr⟩ := mem_reflected.mp hdecl
    rw [← names_runTool, h.recorded unit hunit decl hmem hr]
  · intro h
    refine ⟨?_, ?_⟩
    · intro unit hunit decl hmem hr
      rw [names_runTool]
      apply List.nodup_iff_count_eq_one.mp h
      exact List.mem_map_of_mem (mem_reflected.mpr ⟨unit, hunit, hmem, hr⟩)
    · intro name
      apply Nat.le_trans (definitions_count_le _ name)
      rw [names_runTool]
      exact List.nodup_iff_count.mp h name

/-- A header with one marked class that two sources include. -/
def sharedHeader : TranslationUnit :=
  [ { qualifiedName := "A", name := "A", isCompleteDefinition := true,
      annotations := ["reflect"], enclosingNamespace := none,
      location := some { realPathName := none, filename := "a.hpp" }, bases := [],
      numVBases := 0, decls := [] } ]

theorem not_oncePerType_shared : ¬ OncePerType id [sharedHeader, sharedHeader] := by
  intro h
  have htwice := h.defined "A"
  revert htwice
  decide

end ReflCpp.Generator
