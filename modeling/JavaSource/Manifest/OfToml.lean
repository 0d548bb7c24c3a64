import JavaSource.Manifest.Shape
import JavaSource.Toml.Document

/-!
# Manifests from documents

The shapes of a manifest's parts. Types, lines, body entries and parts of documentation have
several forms, which are told apart by trying them in turn; everything else is a record.
-/

namespace JavaSource

open Toml (Value)

/-! ### Data with several forms -/

def textOfValue? : Value → Option Text
  | .string s => some s
  | _ => none

namespace TypeExpr

mutual

/-- A type: a text, a table of its name and arguments and nothing else, or an array of these two. -/
def ofValue? : Value → Option TypeExpr
  | .string s => some (.name s)
  | .array [raw] => (textOfValue? raw).map fun s => .table s []
  | .array [raw, args] =>
    (textOfValue? raw).bind fun s => (listOfValue? args).map fun ts => .table s ts
  | .table entries =>
    if entries.all fun e => e.1 = "type".toList || e.1 = "args".toList then
      ((entries.lookup "type".toList).bind textOfValue?).bind fun s =>
        (argsOfEntries? entries).map fun ts => .table s ts
    else none
  | _ => none

def listOfValue? : Value → Option (List TypeExpr)
  | .array items => listOfItems? items
  | _ => none

def listOfItems? : List Value → Option (List TypeExpr)
  | [] => some []
  | v :: vs => (ofValue? v).bind fun t => (listOfItems? vs).map fun ts => t :: ts

/-- The type arguments in a table, none where it has no entry for them. -/
def argsOfEntries? : List (Text × Value) → Option (List TypeExpr)
  | [] => some []
  | (key, v) :: rest => if key = "args".toList then listOfValue? v else argsOfEntries? rest

end

end TypeExpr

def LinePart.ofValue? : Value → Option LinePart
  | .string s => some (.text s)
  | v => (TypeExpr.ofValue? v).map .type

def CodeLine.ofValue? : Value → Option CodeLine
  | .string s => some (.text s)
  | .array items => (items.mapM LinePart.ofValue?).map .parts
  | _ => none

namespace BodyEntry

def lineOfEntries? (entries : List (Text × Value)) : Option BodyEntry :=
  ((entries.lookup "line".toList).bind CodeLine.ofValue?).map .line

mutual

/-- A body entry: a text, a table with a line, or a table with a block's header and body. -/
def ofValue? : Value → Option BodyEntry
  | .string s => some (.text s)
  | .table entries =>
    match lineOfEntries? entries with
    | some e => some e
    | none =>
      ((entries.lookup "block".toList).bind textOfValue?).bind fun header =>
        (bodyOfEntries? entries).map fun body => .block header body
  | _ => none

def bodyOfValue? : Value → Option (List BodyEntry)
  | .array items => bodyOfItems? items
  | _ => none

def bodyOfItems? : List Value → Option (List BodyEntry)
  | [] => some []
  | v :: vs => (ofValue? v).bind fun e => (bodyOfItems? vs).map fun es => e :: es

/-- The body in a table, which must have an entry for it. -/
def bodyOfEntries? : List (Text × Value) → Option (List BodyEntry)
  | [] => none
  | (key, v) :: rest => if key = "body".toList then bodyOfValue? v else bodyOfEntries? rest

end

end BodyEntry

/-- A part of documentation: a text, or a table with a link to a type or to a member. -/
def DocPart.ofValue? : Value → Option DocPart
  | .string s => some (.text s)
  | .table entries =>
    match (entries.lookup "link".toList).bind TypeExpr.ofValue? with
    | some t => some (.link t)
    | none => ((entries.lookup "member".toList).bind textOfValue?).map .member
  | _ => none

/-! ### Readers of fields -/

namespace Reader

def type : Reader TypeExpr := form "TypeSpec" TypeExpr.ofValue?

def line : Reader CodeLine := form "LineSpec" CodeLine.ofValue?

def doc : Reader (List DocPart) := list (form "DocPart" DocPart.ofValue?)

def body : Reader (List BodyEntry) := list (form "BodyLine" BodyEntry.ofValue?)

def visibilityOfWord (word : Text) : Except ShapeError Visibility :=
  match Visibility.all.find? fun v => v.word = word with
  | Option.some v => .ok v
  | none => .error (.unknownVariant word)

/-- Reads an access level: a word, or a table with the word as its only key and nothing inside. -/
def visibility : Reader Visibility
  | .string s => visibilityOfWord s
  | .table [] => .error (.variantCount false)
  | .table [(word, content)] => do
    let v ← visibilityOfWord word
    match content with
    | .table [] => .ok v
    | .array [] => .ok v
    | _ => .error (.variantContent content)
  | .table _ => .error (.variantCount true)
  | _ => .error .noVariantForm

def maxIndentWidth : Nat := 16

/-- Reads a unit of indentation: a number of spaces or the word for a tab. -/
def indent : Reader Indent
  | .integer n =>
    if 1 ≤ n ∧ n ≤ maxIndentWidth then .ok (.spaces n.natAbs) else .error (.indentWidth n)
  | .string s => if s = "tab".toList then .ok .tab else .error (.indentWord s)
  | _ => .error (.noForm "RawIndent".toList)

end Reader

/-! ### Records -/

def ArgumentDecl.shape : RecordShape ArgumentDecl where
  name := "ArgSpec".toList
  empty := {}
  fields := [
    .optional "name" (.some .text) fun a x => { a with name := x },
    .needed "type" .type fun a x => { a with type := x }]

def FieldDecl.shape : RecordShape FieldDecl where
  name := "FieldSpec".toList
  empty := {}
  fields := [
    .needed "name" .text fun a x => { a with name := x },
    .needed "type" .type fun a x => { a with type := x },
    .optional "visibility" (.some .visibility) fun a x => { a with visibility := x },
    .optional "static" .boolean fun a x => { a with isStatic := x },
    .optional "final" .boolean fun a x => { a with isFinal := x },
    .optional "init" (.some .line) fun a x => { a with init := x },
    .optional "doc" .doc fun a x => { a with doc := x }]

def ConstructorDecl.shape : RecordShape ConstructorDecl where
  name := "ConstructorSpec".toList
  empty := {}
  fields := [
    .optional "args" (.list ArgumentDecl.shape.read) fun a x => { a with args := x },
    .optional "throws" (.list .type) fun a x => { a with throws := x },
    .optional "visibility" (.some .visibility) fun a x => { a with visibility := x },
    .optional "annotations" (.list .text) fun a x => { a with annotations := x },
    .optional "doc" .doc fun a x => { a with doc := x },
    .optional "body" .body fun a x => { a with body := x }]

def MethodDecl.shape : RecordShape MethodDecl where
  name := "MethodSpec".toList
  empty := {}
  fields := [
    .needed "name" .text fun a x => { a with name := x },
    .optional "returns" (.some .type) fun a x => { a with returns := x },
    .optional "args" (.list ArgumentDecl.shape.read) fun a x => { a with args := x },
    .optional "throws" (.list .type) fun a x => { a with throws := x },
    .optional "visibility" (.some .visibility) fun a x => { a with visibility := x },
    .optional "static" .boolean fun a x => { a with isStatic := x },
    .optional "final" .boolean fun a x => { a with isFinal := x },
    .optional "abstract" .boolean fun a x => { a with isAbstract := x },
    .optional "annotations" (.list .text) fun a x => { a with annotations := x },
    .optional "doc" .doc fun a x => { a with doc := x },
    .optional "body" .body fun a x => { a with body := x }]

def ClassDecl.shape : RecordShape ClassDecl where
  name := "ClassSpec".toList
  empty := {}
  fields := [
    .needed "name" .text fun a x => { a with name := x },
    .optional "interface" .boolean fun a x => { a with isInterface := x },
    .optional "visibility" (.some .visibility) fun a x => { a with visibility := x },
    .optional "final" .boolean fun a x => { a with isFinal := x },
    .optional "abstract" .boolean fun a x => { a with isAbstract := x },
    .optional "extends" (.some .type) fun a x => { a with superclass := x },
    .optional "implements" (.list .type) fun a x => { a with interfaces := x },
    .optional "annotations" (.list .text) fun a x => { a with annotations := x },
    .optional "doc" .doc fun a x => { a with doc := x },
    .optional "fields" (.list FieldDecl.shape.read) fun a x => { a with fields := x },
    .optional "constructors" (.list ConstructorDecl.shape.read) fun a x =>
      { a with constructors := x },
    .optional "methods" (.list MethodDecl.shape.read) fun a x => { a with methods := x }]

def Settings.shape : RecordShape Settings where
  name := "GeneratorConfig".toList
  empty := {}
  fields := [
    .optional "indent" .indent fun a x => { a with indent := x },
    .optional "header" (.some .text) fun a x => { a with header := x }]

namespace Manifest

def shape : RecordShape Manifest where
  name := "Manifest".toList
  empty := {}
  fields := [
    .optional "generator" Settings.shape.read fun a x => { a with settings := x },
    .optional "classes" (.list ClassDecl.shape.read) fun a x => { a with classes := x }]

/-- Reads the manifest in a text without checking what it declares. The error is none where the
text is no document at all; it is not explained either where the document holds a number that is
neither an integer of 64 bits with a sign nor a fraction. -/
def ofText? (s : Text) : Except (Option ShapeError) Manifest :=
  match Toml.parse? s with
  | none => .error none
  | some entries =>
    (shape.readTable entries).mapError fun e =>
      if (Value.table entries).isReadable Value.maxSigned then some e else none

end Manifest

end JavaSource
