import Interception.Text.Unprintable

/-! How data is described to a reader: text between double quotes, lists between brackets, records
and optional values by name. A description is read by people and compared as text, so every
character has one written form: a character that cannot be printed is written as its code point. -/

namespace Interception.Description

/-- Characters without a printed form are written as code points. -/
def needsCodePoint (c : Char) : Bool :=
  c.toNat < 0x20 || (0x7f ≤ c.toNat && Text.isUnprintable c)

/-- The written form of one character inside quotes. A single quote stands for itself. -/
def escape (c : Char) : List Char :=
  if c = '"' then ['\\', '"']
  else if c = '\\' then ['\\', '\\']
  else if c = '\n' then ['\\', 'n']
  else if c = '\r' then ['\\', 'r']
  else if c = '\t' then ['\\', 't']
  else if c = '\x00' then ['\\', '0']
  else if needsCodePoint c then ['\\', 'u', '\x7b'] ++ Nat.toDigits 16 c.toNat ++ ['\x7d']
  else [c]

/-- Text between double quotes, with every character escaped. -/
def quoted (text : String) : String :=
  String.ofList ('"' :: text.toList.flatMap escape ++ ['"'])

def list (items : List String) : String :=
  "[" ++ ", ".intercalate items ++ "]"

def record (name : String) (fields : List (String × String)) : String :=
  name ++ " \x7b " ++ ", ".intercalate (fields.map fun field => field.1 ++ ": " ++ field.2) ++ " \x7d"

def wrapped (name inner : String) : String :=
  name ++ "(" ++ inner ++ ")"

/-- An optional description: `None`, or the description wrapped in `Some`. -/
def optional : Option String → String
  | none => "None"
  | some inner => wrapped "Some" inner

def truth (b : Bool) : String :=
  if b then "true" else "false"

end Interception.Description
