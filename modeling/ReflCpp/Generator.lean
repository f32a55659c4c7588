import Mathlib.Logic.Function.Basic
import ReflCpp.Grouping

namespace ReflCpp.Generator

open Grouping

structure ReflectMethodData where
  qualified_name : String := ""
  name : String := ""
  arg_names : List String := []
  deriving DecidableEq

structure ReflectFieldData where
  qualified_name : String := ""
  name : String := ""
  deriving DecidableEq

structure ReflectData where
  qualified_name : String := ""
  source_file : String := ""
  name : String := ""
  namespace_ : String := ""
  bases : List String := []
  fields : List ReflectFieldData := []
  methods : List ReflectMethodData := []
  deriving DecidableEq

section Text

/-- `std::format`: the arguments replace the fields `{}` of the format in order, and
everything else stands as it is. -/
def formatChars : List Char → List String → List Char
  | '\x7b' :: '\x7b' :: cs, args => '\x7b' :: formatChars cs args
  | '\x7d' :: '\x7d' :: cs, args => '\x7d' :: formatChars cs args
  | '\x7b' :: '\x7d' :: cs, arg :: args => arg.toList ++ formatChars cs args
  | c :: cs, args => c :: formatChars cs args
  | [], _ => []

def format (fmt : String) (args : List String) : String :=
  .ofList (formatChars fmt.toList args)

def findLastOf (c : Char) (cs : List Char) : Option Nat :=
  (cs.reverse.findIdx? fun d => d = c).map fun i => cs.length - 1 - i

def substr (s : String) (count : Nat) : String := .ofList (s.toList.take count)

end Text

section Emission

/-- What is written to a stream, one piece for each `<<`. -/
abbrev Text := List String

variable (filename : String → String)

def includeText (type : ReflectData) : Text :=
  ["#include \"", filename type.source_file, "\"\n"]

def fieldText (type : ReflectData) (field : ReflectFieldData) : Text :=
  [ "        FieldData \x7b\n",
    "            .ptr = &", type.qualified_name, "::", field.name, ",\n",
    "            .name = \"", field.name, "\",\n",
    "        \x7d,\n" ]

/-- The definition of `ReflectData<Q>::Create` for the class `type`. -/
def createText (type : ReflectData) : Text :=
  [ "TypeData ReflectData<", type.qualified_name, ">::Create() \x7b\n",
    "\x7b\n",
    "    .name = \"", type.name, "\",\n",
    "    ._namespace = \"", type.namespace_, "\",\n",
    "    .fields = \x7b\n" ] ++
  type.fields.flatMap (fieldText type) ++
  [ "    \x7d,\n",
    "    \x7d;\n",
    "\x7d\n" ]

def fileText (types : List ReflectData) : Text :=
  ["#include \"reflect.h\"\n"] ++
  types.flatMap (includeText filename) ++
  ["\n", "namespace ReflCpp \x7b"] ++
  types.flatMap createText

end Emission

section Generate

variable (filename : String → String)

/-- The name of the output file that the loop computes for a class. -/
def outputName (type : ReflectData) : String :=
  let name := filename type.source_file
  match findLastOf '.' name.toList with
  | some dot_pos => substr name dot_pos ++ ".reflect-generated.cpp"
  | none => name ++ ".reflect-generated.cpp"

def fileToTypes (data : List ReflectData) : List (String × List ReflectData) :=
  data.foldl (fun groups type =>
    if type.source_file = "" then groups else pushBack (outputName filename type) type groups) []

def outputPath (output_dir name : String) : String := format "%s/%s" [output_dir, name]

/-- The files, by path.  `opens` says which paths an `ofstream` can open. -/
abbrev Disk := String → Option Text

def writeFile (opens : String → Bool) (path : String) (text : Text) (disk : Disk) : Disk :=
  if opens path then Function.update disk path (some text) else disk

def generateReflectionCode (opens : String → Bool) (output_dir : String)
    (data : List ReflectData) (disk : Disk) : Disk :=
  (fileToTypes filename data).foldl (fun disk group =>
    writeFile opens (outputPath output_dir group.1) (fileText filename group.2) disk) disk

end Generate

section Visitor

/-- What the visitor reads of a valid location: the real path of its file entry, if there
is one, and the name of its file. -/
structure SourceLocation where
  realPathName : Option String
  filename : String

inductive MemberDecl
  | field (qualifiedName name : String)
  | method (isSpecial : Bool) (qualifiedName name : String) (parameters : List String)
  | other

/-- A class as the visitor reads it, with the texts of its annotations.  A member function
is special if it is a constructor or a destructor. -/
structure CXXRecordDecl where
  qualifiedName : String
  name : String
  isCompleteDefinition : Bool
  annotations : List String
  enclosingNamespace : Option String
  location : Option SourceLocation
  -- Of each base its class, if it has one: the annotations and the qualified name.
  bases : List (Option (List String × String))
  numVBases : Nat
  decls : List MemberDecl

def isMarked (annotations : List String) : Bool := annotations.any fun a => a = "reflect"

namespace CXXRecordDecl

variable (decl : CXXRecordDecl)

/-- The real path is stored first, and then overwritten. -/
def sourceFile : String :=
  let source_file := (decl.location.bind SourceLocation.realPathName).getD ""
  match decl.location with
  | some loc => loc.filename
  | none => source_file

def markedBases : List String :=
  if decl.bases.length + decl.numVBases > 0 then
    decl.bases.filterMap fun base =>
      match base with
      | some (annotations, name) => if isMarked annotations then some name else none
      | none => none
  else []

def fields : List ReflectFieldData :=
  decl.decls.filterMap fun
    | .field qualifiedName name => some { qualified_name := qualifiedName, name }
    | _ => none

def methods : List ReflectMethodData :=
  decl.decls.filterMap fun
    | .method false qualifiedName name parameters =>
      some { qualified_name := qualifiedName, name, arg_names := parameters }
    | _ => none

def reflectData : ReflectData where
  qualified_name := decl.qualifiedName
  source_file := decl.sourceFile
  name := decl.name
  namespace_ := decl.enclosingNamespace.getD ""
  bases := decl.markedBases
  fields := decl.fields
  methods := decl.methods

def isReflected : Bool := decl.isCompleteDefinition && isMarked decl.annotations

end CXXRecordDecl

/-- `VisitCXXRecordDecl`, on the vector `G_ReflectData`. -/
def visitCXXRecordDecl (data : List ReflectData) (decl : CXXRecordDecl) : List ReflectData :=
  if !decl.isCompleteDefinition || !isMarked decl.annotations then data
  else data ++ [decl.reflectData]

/-- A translation unit, as the classes in it in the order of the traversal. -/
abbrev TranslationUnit := List CXXRecordDecl

/-- `G_ReflectData` after the tool has run on each source. -/
def runTool (sources : List TranslationUnit) : List ReflectData :=
  sources.foldl (fun data unit => unit.foldl visitCXXRecordDecl data) []

end Visitor

end ReflCpp.Generator
