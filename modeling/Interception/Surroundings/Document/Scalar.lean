import Interception.Surroundings.Document.Cursor
import Interception.Text.Decimal

/-! Scalars: the text of a plain or a quoted scalar, over as many lines as it takes, and what a plain
scalar means. Lines of a scalar are folded: one line end is a space, and of several the first is
dropped. -/

namespace Interception.Surroundings.Document

structure Gap where
  blanks : List Char := []
  /-- Whether a line ended behind a word. -/
  folded : Bool := false
  /-- How many empty lines followed. -/
  emptyLines : Nat := 0

/-- What a gap contributes to the text of a scalar. -/
def Gap.text (g : Gap) (inIndentation : Bool) : List Char :=
  if !inIndentation then g.blanks
  else if g.folded && g.emptyLines = 0 then [' ']
  else List.replicate g.emptyLines '\n'

def Gap.endLine (g : Gap) (inIndentation : Bool) : Gap :=
  if inIndentation then { g with emptyLines := g.emptyLines + 1 }
  else { g with blanks := [], folded := true }

/-! Plain scalars -/

/-- Whether a plain scalar may go on with the text: a colon in front of a gap ends it, and inside a flow
collection the marks of these do. -/
def goesOn (inFlow : Bool) : List Char → Bool
  | [] => false
  | c :: rest =>
    if c = ':' then !gapOrEnd rest.head? && !(inFlow && rest.head?.any isFlowMark)
    else !isGap c && !(inFlow && isFlowMark c)

/-- The longest word with which a plain scalar goes on. -/
def plainWord (inFlow : Bool) : List Char → List Char
  | [] => []
  | c :: rest => if goesOn inFlow (c :: rest) then c :: plainWord inFlow rest else []

/-- The gap behind a word of a plain scalar. A tab in the indentation is allowed only where the line is
over; then a comment may follow. -/
def plainGap (indent : Int) (inComment : Bool) (g : Gap) (c : Cursor) : Reading (Gap × Cursor) :=
  match _h : c.ahead with
  | [] => .ok (g, c)
  | x :: rest =>
    if x = '\n' then plainGap indent false (g.endLine c.inIndentation) c.nextLine
    else if inComment then plainGap indent true g (c.skip 1)
    else if !isBlank x then .ok (g, c)
    else if !c.inIndentation then
      plainGap indent false { g with blanks := g.blanks ++ [x] } (c.skipBlanks 1)
    else if x = '\t' && (c.column : Int) < indent then
      if isLineOver rest then
        plainGap indent (rest.dropWhile isBlank |>.head? |>.any (· = '#')) g (c.skipBlanks 1)
      else malformed
    else plainGap indent false g (c.skipBlanks 1)
termination_by c.ahead.length
decreasing_by all_goals simp [Cursor.nextLine, Cursor.skip, Cursor.skipBlanks, Cursor.past, _h]

/-- The words of a plain scalar and the gaps between them, behind a text and a gap. Outside flow
collections the scalar ends in front of a line that is indented less than is given. The bound is on the
number of words. -/
def plainWords (inFlow : Bool) (indent : Int) :
    Nat → List Char → Gap → Cursor → Reading (List Char × Cursor)
  | 0, _, _, _ => malformed
  | bound + 1, text, g, c =>
    if c.atMark || c.peek = some '#' then .ok (text, c)
    else if inFlow && c.peek = some '-' && c.peekNext.any isFlowMark then malformed
    else if !goesOn inFlow c.ahead then .ok (text, c)
    else do
      let word := plainWord inFlow c.ahead
      let text := text ++ g.text c.inIndentation ++ word
      let c := c.skip word.length
      if !c.peek.any isGap then pure (text, c)
      else
        let (g, c) ← plainGap indent false {} c
        if !inFlow && (c.column : Int) < indent then pure (text, c)
        else plainWords inFlow indent bound text g c

/-! Quoted scalars -/

def escapes : List (Char × Char) :=
  [('0', '\x00'), ('a', '\x07'), ('b', '\x08'), ('t', '\t'), ('\t', '\t'), ('n', '\n'), ('v', '\x0b'),
   ('f', '\x0c'), ('r', '\r'), ('e', '\x1b'), (' ', ' '), ('"', '"'), ('/', '/'), ('\\', '\\'),
   ('N', '\u0085'), ('_', '\u00a0'), ('L', '\u2028'), ('P', '\u2029')]

/-- How many digits of a code point follow a letter behind a backslash. -/
def codeLengths : List (Char × Nat) := [('x', 2), ('u', 4), ('U', 8)]

def codePoint? (digits : List Char) : Option Char :=
  (Decimal.readNat? 16 digits).bind fun n =>
    if h : n.isValidChar then some (Char.ofNatAux n h) else none

/-- The character that an escape stands for, from behind its backslash, and the length of the escape. -/
def escape? : List Char → Option (Char × Nat)
  | [] => none
  | letter :: rest =>
    match codeLengths.lookup letter with
    | some count =>
      if rest.length < count then none else (codePoint? (rest.take count)).map (·, count + 2)
    | none => (escapes.lookup letter).map (·, 2)

/-- A word of a quoted scalar behind a text: what stands in front of a gap, of the quote that ends the
scalar, or of an escaped line end. The quote is written twice in single quotes. Tells whether a line end
was escaped. The bound is on the number of characters. -/
def quotedWord (quote : Char) : Nat → List Char → Cursor → Reading (List Char × Bool × Cursor)
  | 0, text, c => .ok (text, false, c)
  | bound + 1, text, c =>
    match c.ahead with
    | [] => .ok (text, false, c)
    | x :: rest =>
      if isGap x then .ok (text, false, c)
      else if x = quote then
        if quote = '\'' && rest.head? = some quote then
          quotedWord quote bound (text ++ [quote]) (c.skip 2)
        else .ok (text, false, c)
      else if x = '\\' && quote = '"' then
        if rest.head? = some '\n' then .ok (text, true, (c.skip 1).nextLine)
        else match escape? rest with
          | none => malformed
          | some (escaped, length) => quotedWord quote bound (text ++ [escaped]) (c.skip length)
      else quotedWord quote bound (text ++ [x]) (c.skip 1)

/-- The gap behind a word of a quoted scalar. The indentation holds no tabs. -/
def quotedGap (indent : Int) (startsLine : Bool) (g : Gap) (c : Cursor) :
    Reading (Gap × Bool × Cursor) :=
  match _h : c.ahead with
  | [] => .ok (g, startsLine, c)
  | x :: _ =>
    if x = '\n' then quotedGap indent true (g.endLine startsLine) c.nextLine
    else if !isBlank x then .ok (g, startsLine, c)
    else if !startsLine then quotedGap indent false { g with blanks := g.blanks ++ [x] } (c.skipBlanks 1)
    else if x = '\t' && (c.column : Int) < indent then malformed
    else quotedGap indent true g (c.skipBlanks 1)
termination_by c.ahead.length
decreasing_by all_goals simp [Cursor.nextLine, Cursor.skipBlanks, Cursor.past, _h]

/-- The rest of a quoted scalar behind a text, up to the quote that ends it. Its lines are indented at
least as much as is given. The bound is on the number of words. -/
def quotedWords (quote : Char) (indent : Int) :
    Nat → List Char → Cursor → Reading (List Char × Cursor)
  | 0, _, _ => malformed
  | bound + 1, text, c =>
    if c.atMark || c.ahead.isEmpty || (c.column : Int) < indent then malformed
    else do
      let (text, escapedEnd, c) ← quotedWord quote c.ahead.length text c
      if c.peek = some quote then pure (text, c.skip 1)
      else
        let (g, startsLine, c) ← quotedGap indent escapedEnd {} c
        quotedWords quote indent bound (text ++ g.text startsLine) c

end Interception.Surroundings.Document
