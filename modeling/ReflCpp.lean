import ReflCpp.Cpp.Types
import ReflCpp.Cpp.Specialization
import ReflCpp.TypeTraits
import ReflCpp.Interning
import ReflCpp.Blocks
import ReflCpp.Meta
import ReflCpp.Database
import ReflCpp.DatabaseLaws
import ReflCpp.Registration
import ReflCpp.RegistryLaw
import ReflCpp.Capacity
import ReflCpp.VariantMatcher
import ReflCpp.Variant
import ReflCpp.VariantLaws
import ReflCpp.WrapperKind
import ReflCpp.Compatibility
import ReflCpp.RoundTrip
import ReflCpp.FunctionTraits
import ReflCpp.FunctionWrapper
import ReflCpp.Method
import ReflCpp.ArgumentLaws
import ReflCpp.MethodLaws
import ReflCpp.Acceptance
import ReflCpp.AcceptedCalls
import ReflCpp.Overloads
import ReflCpp.AllOrNothing
import ReflCpp.NameLookup
import ReflCpp.FieldWrapper
import ReflCpp.LastWrite
import ReflCpp.FieldLaws
import ReflCpp.Generator
import ReflCpp.GeneratorLaws
import ReflCpp.Extraction
import ReflCpp.InvokeLaws
import ReflCpp.ArgTypes
import ReflCpp.Receivers
import ReflCpp.Printer
import ReflCpp.TypeGraph
import ReflCpp.TypeText
import ReflCpp.Readability
import ReflCpp.TypeNames
import ReflCpp.Reflectability
import ReflCpp.TypePredicates
import ReflCpp.Descriptors
import ReflCpp.Brackets
import ReflCpp.GeneratedBraces
import ReflCpp.MethodFunc
import ReflCpp.FieldFaults
import ReflCpp.GetErrors
import ReflCpp.Ownership
import ReflCpp.Session
import ReflCpp.SessionSafety
import ReflCpp.Ideal
import ReflCpp.Refinement
import ReflCpp.RegistryIndependence
import ReflCpp.Closure
import ReflCpp.Delimited
import ReflCpp.GeneratedText
import ReflCpp.ConstSafety
import ReflCpp.Paths
import ReflCpp.Flags
import ReflCpp.Metafunctions
import ReflCpp.Failures
import ReflCpp.Navigation
