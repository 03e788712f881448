/-! Places in the text of a document. The text ends where it is exhausted or holds a character zero, and
its lines end with a line feed. -/

namespace Interception.Surroundings.Document

/-- Why text is no document. -/
inductive DocumentError where
  /-- The text breaks the grammar. -/
  | malformed
  /-- A scalar that has the form of a number and denotes none. -/
  | unreadableNumber (text : String)
  /-- Several documents where one is wanted. -/
  | manyDocuments (count : Nat)

def DocumentError.message : DocumentError → String
  | malformed => "malformed document"
  | unreadableNumber text => "Parsing " ++ text ++ " as floating point number failed"
  | manyDocuments count => "Got " ++ toString count ++ " YAML documents, expected 1"

abbrev Reading := Except DocumentError

def malformed {α : Type} : Reading α := .error .malformed

/-- The text up to its end, with every kind of line end written as a line feed. -/
def unifyLines : List Char → List Char
  | [] => []
  | '\x00' :: _ => []
  | '\r' :: '\n' :: rest => '\n' :: unifyLines rest
  | '\r' :: rest => '\n' :: unifyLines rest
  | c :: rest => c :: unifyLines rest

def isBlank (c : Char) : Bool := c = ' ' || c = '\t'

/-- A blank or the end of a line. -/
def isGap (c : Char) : Bool := isBlank c || c = '\n'

def gapOrEnd (c : Option Char) : Bool := c.all isGap

def lineOrEnd (c : Option Char) : Bool := c.all (· = '\n')

/-- The marks of flow collections. -/
def isFlowMark (c : Char) : Bool := ",[]\x7b\x7d".contains c

/-- Whether a line starts with a document mark. -/
def startsMark (mark : List Char) (text : List Char) : Bool :=
  mark.isPrefixOf text && gapOrEnd text[3]?

/-- Whether nothing but blanks and a comment is left of the line. -/
def isLineOver (text : List Char) : Bool :=
  match (text.dropWhile isBlank).head? with
  | none | some '\n' | some '#' => true
  | _ => false

/-- A place in a text: what is ahead of it, and where it is. -/
structure Cursor where
  ahead : List Char
  index : Nat := 0
  line : Nat := 0
  column : Nat := 0
  /-- Nothing but blanks lies in front of it on its line. -/
  inIndentation : Bool := true

namespace Cursor

def peek (c : Cursor) : Option Char := c.ahead.head?

def peekNext (c : Cursor) : Option Char := c.ahead[1]?

/-- The place behind so many characters of the line. -/
def past (c : Cursor) (count : Nat) (inIndentation : Bool) : Cursor :=
  { c with
    ahead := c.ahead.drop count, index := c.index + count, column := c.column + count, inIndentation }

def skip (c : Cursor) (count : Nat) : Cursor := c.past count false

def skipBlanks (c : Cursor) (count : Nat) : Cursor := c.past count c.inIndentation

/-- The start of the next line, from the end of a line. -/
def nextLine (c : Cursor) : Cursor :=
  { ahead := c.ahead.drop 1, index := c.index + 1, line := c.line + 1, column := 0,
    inIndentation := true }

/-- Whether a document mark stands here, at the start of a line. -/
def atMark (c : Cursor) : Bool :=
  c.column = 0 && (startsMark "---".toList c.ahead || startsMark "...".toList c.ahead)

/-- Skips blanks and a comment. A comment has to be separated by blanks. Gives the blanks. -/
def skipGap (c : Cursor) : Reading (List Char × Cursor) :=
  let blanks := c.ahead.takeWhile isBlank
  let c := c.skipBlanks blanks.length
  if c.peek ≠ some '#' then .ok (blanks, c)
  else if blanks.isEmpty then malformed
  else .ok (blanks, c.skip (c.ahead.takeWhile (· ≠ '\n')).length)

/-- Skips everything in front of a token: blanks, ends of lines and comments. Tells also whether a line
ended. Inside a block a tab may stand in its indentation only on lines that hold nothing else. -/
def skipSpace (block : Option Int) (inComment lineEnded : Bool) (c : Cursor) :
    Reading (Bool × Cursor) :=
  match _h : c.ahead with
  | [] => .ok (lineEnded, c)
  | x :: rest =>
    if x = '\n' then skipSpace block false true c.nextLine
    else if inComment || x = '#' then skipSpace block true lineEnded (c.skip 1)
    else if !isBlank x then .ok (lineEnded, c)
    else if x = '\t' && c.inIndentation && block.any ((c.column : Int) < ·) && !isLineOver rest then
      malformed
    else skipSpace block false lineEnded (c.skipBlanks 1)
termination_by c.ahead.length
decreasing_by all_goals simp [nextLine, skip, skipBlanks, past, _h]

end Cursor

end Interception.Surroundings.Document
