import Interception.Surroundings.Directory
import Interception.Surroundings.Layers
import Interception.Text.LowerCase

/-! A library for settings, with which the settings can be loaded: a stand-in for the one that a program
brings along, true to it as far as its documents go. Nothing is proved of it. -/

namespace Interception.Surroundings

open Settings (Host Source)

/-- Why sources cannot be read, or what they say is not what was wanted. -/
inductive Fault where
  | fileNotFound (path : String)
  | unreadable (file : String) (e : Document.DocumentError)
  /-- The content of a file is no table. -/
  | noTable (file : String) (content : Setting)
  /-- A setting that has to be a truth value is none. -/
  | noTruthValue (key : String) (found : Setting)
  /-- A setting that has to be a record is neither a table nor a list. -/
  | noRecord (found : Setting)

namespace Setting

def origin : Setting → Option String
  | null origin | bool origin _ | integer origin _ | number origin _ | text origin _ | list origin _
  | table origin _ => origin

/-- A setting that is not what was expected, where any value but the expected one is looked at. -/
def describe : Setting → String
  | null _ => "unit value"
  | bool _ b => "boolean \x60" ++ Description.truth b ++ "\x60"
  | integer _ n => "64-bit integer \x60" ++ toString n ++ "\x60"
  | number _ x => "floating point \x60" ++ Decimal.write x ++ "\x60"
  | text _ s => "string " ++ Description.quoted s
  | list _ _ => "sequence"
  | table _ _ => "map"

/-- A setting that is not what was expected, where a record was. -/
def describeForRecord : Setting → String
  | integer _ n => "integer \x60" ++ toString n ++ "\x60"
  | number _ x => "floating point \x60" ++ Decimal.writeWithPoint x ++ "\x60"
  | other => other.describe

end Setting

namespace Fault

def place : Option String → String
  | some origin => " in " ++ origin
  | none => ""

def wording : Fault → String
  | fileNotFound path => "configuration file \"" ++ path ++ "\" not found"
  | unreadable file e => e.message ++ place file
  | noTable file content =>
    "invalid type: " ++ content.describe ++ ", expected a map" ++ place file ++ place file
  | noTruthValue key found =>
    "invalid type: " ++ found.describe ++ ", expected a boolean for key \x60" ++ key ++ "\x60" ++
      place found.origin
  | noRecord found => "invalid type: " ++ found.describeForRecord ++ ", expected struct ProxyConfig"

end Fault

/-! Files -/

/-- The parts of a path with an extension behind the name of the file. What stands for no name at the
end of the path is left out. -/
def withExtension? (parts : List String) (extension : String) : Option (List String) :=
  match parts.reverse.dropWhile fun part => part = "" || part = "." with
  | [] => none
  | name :: way => if name = ".." then none else some ((name ++ extension) :: way).reverse

/-- A path as messages show it, without the parts that lead nowhere. -/
def shownPath (parts : List String) : String :=
  "/".intercalate (parts.filter fun part => part ≠ "" && part ≠ ".")

/-- The file that a path names: of that name, or with an extension behind it. -/
def find? (host : Host) (path : String) : Option (String × String) :=
  let parts := partsOf path
  let candidates := parts :: [".yaml", ".yml"].filterMap (withExtension? parts)
  candidates.findSome? fun parts => (host.files ("/".intercalate parts)).map (shownPath parts, ·)

def readFile (name text : String) : Except Fault (List (String × Setting)) :=
  match Node.read text with
  | .error e => .error (.unreadable name e)
  | .ok node =>
    match Setting.ofNode name node with
    | .table _ entries => .ok entries
    | content => .error (.noTable name content)

/-! Variables -/

/-- What the text of a variable means: a truth value, a whole number, a number, or text. -/
def variableValue (value : String) : Setting :=
  let origin := "the environment"
  match Text.lowerCase value with
  | "true" => .bool origin true
  | "false" => .bool origin false
  | _ =>
    match Decimal.readInteger? 10 value.toList with
    | some n => .integer origin n
    | none =>
      match Decimal.read? value.toList with
      | some x => .number origin x
      | none => .text origin value

/-- The setting that a variable gives, if its name starts as it has to. Separators stand between the keys
of its path. -/
def entryOf? (start separator name value : String) : Option (String × Setting) :=
  let name := (Text.lowerCase name).toList
  let start := (Text.lowerCase (start ++ separator)).toList
  if start.isPrefixOf name then
    let keys := (String.ofList (name.drop start.length)).splitOn separator
    some (".".intercalate keys, variableValue value)
  else none

/-! The library -/

/-- The entries that a source gives. Their keys are paths. -/
def entriesOf (host : Host) : Source → Except Fault (List (String × Setting))
  | .file path required =>
    match find? host path with
    | some (name, text) => readFile name text
    | none => if required then .error (.fileNotFound path) else .ok []
  | .environment start separator parsed =>
    .ok (host.environment.filterMap fun (name, value) =>
      (entryOf? start separator name value).map fun (path, found) =>
        (path, if parsed then found else .text found.origin value))

/-- A setting and the key under which it was found. -/
structure Found where
  key : String
  setting : Setting

namespace Found

/-- The fields of a table or a list. -/
def fields (found : Found) : Except Fault (String → Nat → Option Found) :=
  match found.setting with
  | .list _ items => .ok fun _ position =>
    items[position]?.map fun item => ⟨found.key ++ "[" ++ toString position ++ "]", item⟩
  | s@(.table _ _) => .ok fun name _ =>
    (s.get? name).map fun field =>
      ⟨if found.key.isEmpty then name else found.key ++ "." ++ name, field⟩
  | other => .error (.noRecord other)

/-- The truth value that a setting gives: by itself, as a number that is not zero, or by a word. -/
def truth (found : Found) : Except Fault Bool :=
  match found.setting with
  | .bool _ b => .ok b
  | .integer _ n => .ok (n ≠ 0)
  | .number _ x => .ok (x != 0.0)
  | .text origin s =>
    let word := Text.lowerCase s
    if ["1", "true", "on", "yes"].contains word then .ok true
    else if ["0", "false", "off", "no"].contains word then .ok false
    else .error (.noTruthValue found.key (.text origin word))
  | other => .error (.noTruthValue found.key other)

end Found

def library : Settings.Library Found Fault where
  build host sources := do
    let layers ← sources.mapM (entriesOf host)
    pure ⟨"", layers.foldl Setting.overlay Setting.emptyTable⟩
  fields := Found.fields
  truth := Found.truth
  wording := Fault.wording

end Interception.Surroundings
