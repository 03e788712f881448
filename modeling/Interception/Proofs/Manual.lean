import Interception.Settings
import Interception.Text.LowerCase

/-! What is documented of a library for settings: which files it finds, which variables it takes and how
it cuts their names, and that sources are laid over one another in order, tables key by key, while
anything else replaces what was there. -/

namespace Interception.Settings

variable {τ ε : Type}

/-! ### The variables of the environment -/

/-- Cuts text at each separator, from the left. The number counts what is left of a separator. -/
def cutAt (separator : List Char) : Nat → List Char → List (List Char)
  | _, [] => [[]]
  | left + 1, _ :: rest => cutAt separator left rest
  | 0, c :: rest =>
    if separator.isPrefixOf (c :: rest) then [] :: cutAt separator (separator.length - 1) rest
    else (cutAt separator 0 rest).modifyHead (c :: ·)

/-- The keys in the name of a variable, which start behind the start and a separator, in any case. -/
def keysOf? (start separator name : String) : Option (List String) :=
  let start := (Text.lowerCase (start ++ separator)).toList
  let name := (Text.lowerCase name).toList
  if start.isPrefixOf name then
    some ((cutAt separator.toList 0 (name.drop start.length)).map String.ofList)
  else none

/-- The truth value that is written as text, in any case. -/
def truthIn? (text : String) : Option Bool :=
  if Text.lowerCase text = "true" then some true
  else if Text.lowerCase text = "false" then some false
  else none

namespace Host

/-- The variables that start as they have to, with their keys. -/
def entries (host : Host) (start separator : String) : List (List String × String) :=
  host.environment.filterMap fun (name, text) => (keysOf? start separator name).map (·, text)

/-- The text of the variable with the keys. If there are several, it is the last one that counts. -/
def textUnder? (host : Host) (start separator : String) (keys : List String) : Option String :=
  (host.entries start separator).reverse.lookup keys

end Host

/-! ### The manual of a library -/

/-- The notions in which the manual of a library speaks. -/
structure Manual (τ ε : Type) where
  isTable : τ → Prop
  get? : τ → String → Option τ
  truth? : τ → Option Bool
  empty : τ
  /-- The table with one key. -/
  single : String → τ → τ
  /-- Lays the second tree over the first. -/
  overlay : τ → τ → τ
  /-- The value that is written as the text of a variable. -/
  parse : String → τ
  /-- Names under which a file is looked for if there is none of its own name. -/
  furtherNames : String → List String
  read : String → String → Except ε τ
  /-- What a source comes to by itself. -/
  collect : Host → Source → Except ε τ

namespace Manual

variable (manual : Manual τ ε)

/-- The file that a path stands for, its name and its text. -/
def find? (host : Host) (path : String) : Option (String × String) :=
  (path :: manual.furtherNames path).findSome? fun name => (host.files name).map (name, ·)

def nested (keys : List String) (value : τ) : τ := keys.foldr manual.single value

/-- What stands under a key after one table was laid over another: a new value stands over the old one,
or alone. -/
def merged (old : Option τ) : Option τ → Option τ
  | none => old
  | some value => some (manual.overlay (old.getD manual.empty) value)

/-- The variables laid over one another. -/
def layered (entries : List (List String × String)) : τ :=
  (entries.map fun (keys, text) => manual.nested keys (manual.parse text)).foldl manual.overlay manual.empty

end Manual

/-- A library does what its manual says. -/
structure Library.Follows (library : Library τ ε) (manual : Manual τ ε) : Prop where
  /-- Sources are read in the order in which they were added, and laid over one another in this order.
  The first that cannot be read decides the error. -/
  build_eq (host : Host) (sources : List Source) : library.build host sources =
    (sources.mapM (manual.collect host)).map (·.foldl manual.overlay manual.empty)
  isTable_empty : manual.isTable manual.empty
  get?_empty (key : String) : manual.get? manual.empty key = none
  isTable_single (key : String) (value : τ) : manual.isTable (manual.single key value)
  get?_single (key other : String) (value : τ) :
    manual.get? (manual.single key value) other = if other = key then some value else none
  /-- Tables are merged. -/
  isTable_overlay {below above : τ} : manual.isTable below → manual.isTable above →
    manual.isTable (manual.overlay below above)
  /-- Tables are merged key by key. -/
  get?_overlay {below above : τ} (key : String) : manual.isTable below → manual.isTable above →
    manual.get? (manual.overlay below above) key =
      manual.merged (manual.get? below key) (manual.get? above key)
  /-- What is no table replaces what was there. -/
  overlay_value {above : τ} (below : τ) : ¬ manual.isTable above → manual.overlay below above = above
  /-- A truth value is no table. -/
  truth_value {tree : τ} : (manual.truth? tree).isSome → ¬ manual.isTable tree
  collect_file {host : Host} {path name text : String} (required : Bool) :
    manual.find? host path = some (name, text) →
      manual.collect host (.file path required) = manual.read name text
  /-- A file that need not be there counts as an empty one if it is missing. -/
  collect_optional {host : Host} {path : String} : manual.find? host path = none →
    manual.collect host (.file path false) = .ok manual.empty
  /-- A file that is required has to be there. -/
  collect_required {host : Host} {path : String} : manual.find? host path = none →
    ∃ e, manual.collect host (.file path true) = .error e
  /-- The variables that start as they have to are laid over one another, in an order that is not
  promised. -/
  collect_environment (host : Host) (start : String) {separator : String} : separator ≠ "" →
    ∃ entries, (∀ keys text, (keys, text) ∈ entries ↔ host.textUnder? start separator keys = some text) ∧
      manual.collect host (.environment start separator true) = .ok (manual.layered entries)
  parse_truth {text : String} {b : Bool} : truthIn? text = some b →
    manual.truth? (manual.parse text) = some b
  /-- The fields of a table are what it holds under their names. -/
  fields_table {tree : τ} : manual.isTable tree → ∃ field, library.fields tree = .ok field ∧
    ∀ name position, field name position = manual.get? tree name
  truth_eq {tree : τ} {b : Bool} : manual.truth? tree = some b → library.truth tree = .ok b

end Interception.Settings
