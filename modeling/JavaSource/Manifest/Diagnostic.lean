import JavaSource.Manifest.MemberLink
import JavaSource.Manifest.Shape
import JavaSource.Manifest.Span

/-!
# Diagnostics

Why a manifest is rejected: each cause with the names and places that it concerns, and its words:
a message, a code, a hint, and labels for places in the manifest's text.
-/

namespace JavaSource

inductive InterfaceMethodProblem
  | isFinal
  | isProtected
  | isPrivateWithoutBody
deriving DecidableEq

/-- A rule between the parts of a declaration that is broken. -/
inductive RuleProblem
  | finalAbstractClass (name : Text)
  | interfaceSuperclass (name : Text)
  | duplicateField (field className : Text)
  | interfaceConstructors (name : Text)
  | interfaceFieldVisibility (path : Text) (visibility : Visibility)
  | interfaceFieldWithoutInit (path : Text)
  | abstractMethodBody (path : Text)
  | abstractMethodModifier (path : Text) (isFinal : Bool)
  | interfaceMethod (path : Text) (problem : InterfaceMethodProblem)
  /-- A problem that is already in words. -/
  | other (message : Text)
deriving DecidableEq

def InterfaceMethodProblem.message : InterfaceMethodProblem → Text
  | isFinal => "cannot be final".toList
  | isProtected => "cannot be protected".toList
  | isPrivateWithoutBody => "is private and needs a body".toList

def RuleProblem.message : RuleProblem → Text
  | finalAbstractClass name =>
    "class ".toList ++ Text.inQuotes name ++ " cannot be both final and abstract".toList
  | interfaceSuperclass name =>
    "interface ".toList ++ Text.inQuotes name ++
      " cannot extend a class, list super-interfaces in 'implements'".toList
  | duplicateField field className =>
    "field ".toList ++ Text.inQuotes field ++ " is declared more than once in ".toList ++
      Text.inQuotes className
  | interfaceConstructors name =>
    "interface ".toList ++ Text.inQuotes name ++ " cannot declare constructors".toList
  | interfaceFieldVisibility path visibility =>
    "interface field ".toList ++ Text.inQuotes path ++ " cannot be ".toList ++ visibility.word
  | interfaceFieldWithoutInit path =>
    "interface field ".toList ++ Text.inQuotes path ++ " needs an initializer".toList
  | abstractMethodBody path =>
    "abstract method ".toList ++ Text.inQuotes path ++ " cannot have a body".toList
  | abstractMethodModifier path isFinal =>
    "abstract method ".toList ++ Text.inQuotes path ++ " cannot be ".toList ++
      (if isFinal then "final" else "static").toList
  | interfaceMethod path problem =>
    "interface method ".toList ++ Text.inQuotes path ++ ' ' :: problem.message
  | other message => message

inductive Diagnostic
  /-- The file at a path cannot be read as text. -/
  | unreadable (path : Text)
  /-- The text is no document, or the document has not the shape of a manifest. -/
  | badDocument (error : Option ShapeError)
  | brokenRule (problem : RuleProblem)
  | reservedKeyword (span : Option Span) (name context : Text)
  | invalidIdentifier (span : Option Span) (name context : Text) (problem : NameProblem)
  | invalidType (span : Option Span) (raw context : Text) (problem : TypeProblem)
  | duplicateClass (first second : Option Span) (name : Text)
  | duplicateArgument (span : Option Span) (name method : Text)
  | unresolvedLink (span : Option Span) (link : Text) (problem : LinkProblem)

namespace Diagnostic

def message : Diagnostic → Text
  | unreadable path => "failed to read ".toList ++ Text.inQuotes path
  | badDocument _ => "failed to parse jwrap.toml".toList
  | brokenRule problem => problem.message
  | reservedKeyword _ name _ => Text.inQuotes name ++ " is a Java reserved keyword".toList
  | invalidIdentifier _ name context _ =>
    "invalid ".toList ++ context ++ " name ".toList ++ Text.inQuotes name
  | invalidType _ raw context _ =>
    "invalid type ".toList ++ Text.inQuotes raw ++ " for ".toList ++ context
  | duplicateClass _ _ name =>
    "class ".toList ++ Text.inQuotes name ++ " is declared more than once".toList
  | duplicateArgument _ name method =>
    "duplicate argument ".toList ++ Text.inQuotes name ++ " in ".toList ++ method
  | unresolvedLink _ link _ => "cannot resolve member link ".toList ++ Text.inQuotes link

/-- The code of a diagnostic; a file that cannot be read has none. -/
def code? : Diagnostic → Option Text
  | unreadable _ => none
  | badDocument _ => some "jwrap::parse_error".toList
  | brokenRule _ => some "jwrap::validation_error".toList
  | reservedKeyword .. => some "jwrap::reserved_keyword".toList
  | invalidIdentifier .. => some "jwrap::invalid_identifier".toList
  | invalidType .. => some "jwrap::invalid_type".toList
  | duplicateClass .. => some "jwrap::duplicate_class".toList
  | duplicateArgument .. => some "jwrap::duplicate_argument".toList
  | unresolvedLink .. => some "jwrap::unresolved_link".toList

def help? : Diagnostic → Option Text
  | unreadable _ => some "pass the manifest path with '--config <path>'".toList
  | badDocument _ => none
  | brokenRule _ => none
  | reservedKeyword _ name context =>
    some ("rename the ".toList ++ context ++ ", e.g. ".toList ++
      Text.inQuotes (name ++ "Value".toList) ++ " or ".toList ++ Text.inQuotes (name ++ ['_']))
  | invalidIdentifier _ _ _ problem =>
    some (problem.message ++ (". Use only letters, digits, underscores and dollar signs, " ++
      "not starting with a digit.").toList)
  | invalidType _ _ _ problem =>
    some (problem.message ++ (". Use a primitive keyword or a qualified class name, " ++
      "optionally followed by '[]'").toList)
  | duplicateClass .. => some "every class must have a unique qualified name".toList
  | duplicateArgument .. => some "argument names must be unique within one method".toList
  | unresolvedLink _ _ problem =>
    some (problem.message ++ (". Member links take the form 'com.example.Class#method' or " ++
      "'com.example.Class#method(int, java.lang.String)'").toList)

def label (text : String) (span : Option Span) : List (Text × Span) :=
  span.toList.map fun s => (text.toList, s)

def labels : Diagnostic → List (Text × Span)
  | unreadable _ => []
  | badDocument _ => []
  | brokenRule _ => []
  | reservedKeyword span _ _ => label "reserved keyword used here" span
  | invalidIdentifier span _ _ _ => label "invalid identifier" span
  | invalidType span _ _ _ => label "invalid type" span
  | duplicateClass first second _ =>
    label "first declared here" first ++ label "declared again here" second
  | duplicateArgument span _ _ => label "duplicate argument" span
  | unresolvedLink span _ _ => label "unresolved link" span

def detail? : Diagnostic → Option Text
  | badDocument error => error.map ShapeError.message
  | _ => none

end Diagnostic

end JavaSource
