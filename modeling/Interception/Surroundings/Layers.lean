import Interception.Surroundings.Document.Node

/-! Settings from several sources. Each source is a table of settings; sources are laid over one another
in order. Tables are merged key by key, everything else is replaced, so the last source that mentions a
setting decides it. Keys do not depend on case, and a key that is a path names a setting inside tables
and lists. Every value remembers the source it came from. -/

namespace Interception.Surroundings

/-- A setting: a value with the source that it came from, or a table. -/
inductive Setting where
  | null (origin : Option String)
  | bool (origin : Option String) (b : Bool)
  | integer (origin : Option String) (n : Int)
  | number (origin : Option String) (x : Float)
  | text (origin : Option String) (s : String)
  | list (origin : Option String) (items : List Setting)
  | table (origin : Option String) (entries : List (String × Setting))
  deriving Inhabited

namespace Setting

/-- A table without entries, which came from no source. -/
def emptyTable : Setting := table none []

def entries : Setting → List (String × Setting)
  | table _ entries => entries
  | _ => []

/-- A setting as a table: one that is none gives way to an empty one. -/
def asTable : Setting → Setting
  | table origin entries => table origin entries
  | _ => emptyTable

/-- Keys do not depend on case. -/
def normalKey (key : String) : String := String.ofList (key.toList.map Char.toLower)

def get? (s : Setting) (key : String) : Option Setting := s.entries.lookup (normalKey key)

/-- Puts a setting under a key, in place of the one that was there. What is no table becomes one. -/
def put (key : String) (value : Setting) (s : Setting) : Setting :=
  let key := normalKey key
  match s.asTable with
  | table origin entries =>
    if (entries.lookup key).isSome then
      table origin (entries.map fun (k, old) => (k, if k = key then value else old))
    else table origin (entries ++ [(key, value)])
  | other => other

mutual

/-- Lays a value over what stands under a key. A table is merged into it key by key. -/
def lay (root : Setting) (key : String) : Setting → Setting
  | table _ incoming =>
    put key (layAll ((root.get? key).getD emptyTable) incoming) root
  | value => put key value root

def layAll (root : Setting) : List (String × Setting) → Setting
  | [] => root
  | (key, value) :: rest => layAll (lay root key value) rest

end

mutual

def ofNode (origin : String) : Node → Setting
  | .null => null origin
  | .bool b => bool origin b
  | .integer n => integer origin n
  | .number x => number origin x
  | .text s => text origin s
  | .list items => list origin (ofNodes origin items)
  | .mapping entries => table origin (ofEntries origin entries)

def ofNodes (origin : String) : List Node → List Setting
  | [] => []
  | node :: rest => ofNode origin node :: ofNodes origin rest

/-- The entries of a mapping by the names of their keys. Of two keys with one name the later counts. -/
def ofEntries (origin : String) : List (Key × Node) → List (String × Setting)
  | [] => []
  | (key, node) :: rest =>
    let later := ofEntries origin rest
    if (later.lookup key.name).isSome then later else (key.name, ofNode origin node) :: later

end

end Setting

inductive PathStep where
  | key (name : String)
  | index (n : Int)

/-- A place among the settings: a key at the top, then steps from there. -/
structure Path where
  first : String
  steps : List PathStep

namespace Path

/-- Characters of which the keys of a path consist. -/
def isKeyChar (c : Char) : Bool := c.isAlphanum || c = '_' || c = '-' || c = ' '

/-- The index between brackets, from behind the first, and what follows. Blanks may surround it, and
only a minus may stand in front of its digits. -/
def index? (text : List Char) : Option (Int × List Char) := do
  let isBlank (c : Char) : Bool := c = ' ' || c = '\t'
  let text := text.dropWhile isBlank
  let isPart (c : Char) : Bool := c.isDigit || c = '-'
  let n ← Decimal.readInteger? 10 (text.takeWhile isPart)
  match (text.dropWhile isPart).dropWhile isBlank with
  | ']' :: rest => some (n, rest)
  | _ => none

/-- Reads steps, as many as the bound allows. -/
def steps? : Nat → List Char → Option (List PathStep)
  | _, [] => some []
  | 0, _ => none
  | bound + 1, '.' :: rest =>
    let name := rest.takeWhile isKeyChar
    if name.isEmpty then none
    else (steps? bound (rest.dropWhile isKeyChar)).map (.key (String.ofList name) :: ·)
  | bound + 1, '[' :: rest =>
    (index? rest).bind fun (n, rest) => (steps? bound rest).map (.index n :: ·)
  | _, _ => none

/-- Reads a path. Text that is none is a key as it stands. -/
def read (text : String) : Path :=
  let chars := text.toList
  let first := chars.takeWhile isKeyChar
  match if first.isEmpty then none else steps? chars.length (chars.dropWhile isKeyChar) with
  | some steps => ⟨String.ofList first, steps⟩
  | none => ⟨text, []⟩

end Path

namespace Setting

/-- The position of an index, counted from the end if it is negative. -/
def position (n : Int) (length : Nat) : Nat := if n < 0 then length - n.natAbs else n.toNat

/-- Changes the item at an index. A list that is too short is filled up; what is no list becomes one. -/
def changeItem (n : Int) (change : Setting → Setting) (s : Setting) : Setting :=
  let (origin, items) := match s with
    | list origin items => (origin, items)
    | _ => (none, [])
  let i := position n items.length
  list origin ((items ++ List.replicate (i + 1 - items.length) (null none)).modify i change)

/-- Lays a value over what a path names below a setting. -/
def layAt (value : Setting) (key : String) : List PathStep → Setting → Setting
  | [], s => lay s key value
  | .key name :: rest, s => put key (layAt value name rest ((s.get? key).getD emptyTable).asTable) s
  | .index n :: rest, s => put key (layItem value n rest ((s.get? key).getD (list none []))) s
where
  layItem (value : Setting) (n : Int) : List PathStep → Setting → Setting
    | [], s => changeItem n (fun _ => value) s
    | .key name :: rest, s => changeItem n (fun item => layAt value name rest item.asTable) s
    | .index m :: rest, s => changeItem n (layItem value m rest) s

/-- Lays a source over what was collected from the sources before it. Its keys are paths. -/
def overlay (collected : Setting) (source : List (String × Setting)) : Setting :=
  source.foldl (fun collected (key, value) =>
    let path := Path.read key
    layAt value path.first path.steps collected) collected

end Setting

end Interception.Surroundings
