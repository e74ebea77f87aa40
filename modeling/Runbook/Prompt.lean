import Runbook.FrontMatter
import Runbook.Text.Truth

/-!
Prompts: a template and what its front matter says about it. The template is never changed. A
prompt's name is given from outside; front matter cannot rename it or replace its template.
-/
namespace Runbook

open Yaml

structure Prompt.Argument where
  name : String
  description : String
  required : Bool
  default : Option String
  deriving DecidableEq, Repr

structure Prompt where
  name : String
  template : String
  title : Option String
  description : Option String
  category : Option String
  tags : List String
  arguments : List Prompt.Argument
  deriving DecidableEq, Repr

namespace Prompt

/-- What metadata may be wrong in: the name of the key. -/
abbrev Reading := Except String

/-- Text, or the bytes of a text. -/
def text? : Datum → Option String
  | .scalar (.text s) => if Text.hasHalves s then none else some s
  | .scalar (.bytes bs) => String.fromUTF8? ⟨bs.toArray⟩
  | _ => none

/-- What looks a name up among entries. -/
abbrev Lookup := String → Option Datum

/-- A text under a key, or else the default. -/
def textEntry (key default : String) (entries : Lookup) : Reading String :=
  match entries key with
  | none => .ok default
  | some d =>
    match text? d with
    | some s => .ok s
    | none => .error key

/-- A text or null under a key, or nothing. -/
def optionalEntry (key : String) (entries : Lookup) : Reading (Option String) :=
  match entries key with
  | none | some (.scalar .null) => .ok none
  | some d =>
    match text? d with
    | some s => .ok (some s)
    | none => .error key

def items? : Datum → Option (List Datum)
  | .list items => some items
  | .set items => some ((Scalar.tableOrder items).map .scalar)
  | .pairs [] => some []
  | _ => none

def tagsEntry (entries : Lookup) : Reading (List String) :=
  match entries "tags" with
  | none => .ok []
  | some d =>
    match (items? d).bind fun items => items.mapM text? with
    | some tags => .ok tags
    | none => .error "tags"

/-- A truth value: as such, as the number one or zero, or as one of some words. -/
def truth? (d : Datum) : Option Bool :=
  match d, text? d with
  | .scalar (.bool b), _ => some b
  | _, some s => Text.truthWord? s
  | .scalar s, none =>
    if s.sameKey (.int 1) then some true
    else if s.sameKey (.int 0) then some false
    else none
  | _, none => none

def truthEntry (key : String) (entries : Lookup) : Reading Bool :=
  match entries key with
  | none => .ok false
  | some d =>
    match truth? d with
    | some b => .ok b
    | none => .error key

def readArgument (d : Datum) : Reading Argument :=
  match d with
  | .mapping found => do
    let entries : Lookup := fun name => Datum.get? name found
    let name ← match (entries "name").bind text? with
      | some s => pure s
      | none => throw "name"
    let description ← textEntry "description" "" entries
    let required ← truthEntry "required" entries
    let default ← optionalEntry "default" entries
    pure ⟨name, description, required, default⟩
  | _ => .error "arguments"

def argumentsEntry (entries : Lookup) : Reading (List Argument) :=
  match entries "arguments" with
  | none => .ok []
  | some d =>
    match items? d with
    | some items => items.mapM readArgument
    | none => .error "arguments"

def isText : Scalar → Bool
  | .text _ => true
  | _ => false

/-- A prompt from its parts; all keys of the front matter are text. -/
def ofEntries (name template : String) (found : Entries) : Reading Prompt := do
  if Text.hasHalves name then throw "name"
  if Text.hasHalves template then throw "template"
  if found.keys.any fun key => !isText key then throw "keys must be text"
  let entries : Lookup := fun name => found.get? name
  let title ← optionalEntry "title" entries
  let description ← optionalEntry "description" entries
  let category ← optionalEntry "category" entries
  let tags ← tagsEntry entries
  let arguments ← argumentsEntry entries
  pure ⟨name, template, title, description, category, tags, arguments⟩

/-- Reads a prompt. -/
def parse (name content : String) : Parsed Prompt := do
  let (entries, body) ← FrontMatter.split content
  match ofEntries name body entries with
  | .ok prompt => pure prompt
  | .error key => .error (.fault (.atLine 1 (.invalidMetadata key) none))

end Prompt

end Runbook
