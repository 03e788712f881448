import Interception.Surroundings.Document.Scalar

/-! Tokens: the marks and scalars of which a document consists. Indentation and keys have no marks of
their own, so tokens are added for them: one where a block collection starts, one where it ends, and one
in front of each key. That something is a key shows only at the colon behind it, so the places at which
a key may have started are remembered. -/

namespace Interception.Surroundings.Document

inductive Token where
  | documentStart
  | documentEnd
  | blockListStart
  | blockMappingStart
  | blockEnd
  | flowListStart
  | flowListEnd
  | flowMappingStart
  | flowMappingEnd
  | item
  | comma
  | key
  | value
  | plain (text : String)
  | quoted (text : String)
  deriving DecidableEq

/-- A place at which a key may have started, and the number of the token there. -/
structure KeyStart where
  index : Nat
  line : Nat
  column : Nat
  token : Nat
  /-- The token has to be a key, as a block mapping goes on here. -/
  required : Bool

/-- A level of indentation inside another one. -/
structure Level where
  outer : Int
  isBlock : Bool

def keyLimit : Nat := 1024

def flowLimit : Nat := 255

/-- The state in which tokens are found. -/
structure Lexer where
  cursor : Cursor
  tokens : Array Token := #[]
  /-- Whether a key or the item of a block list may start here. -/
  keyAllowed : Bool := true
  /-- Where a key may have started, for each flow collection around and outside of all, the innermost
  first. -/
  keyStarts : List (Option KeyStart) := [none]
  indent : Int := -1
  levels : List Level := []
  flowDepth : Nat := 0
  /-- Whether a flow mapping was started, after which the pairs in a list are recognised by their keys.
  -/
  mappingStarted : Bool := false
  /-- For each flow list around, whether a pair in it is a mapping that has to be ended. -/
  openPairs : List Bool := []
  /-- The index at which a value may follow its colon without a gap. -/
  adjacentAt : Nat := 0

namespace Lexer

def inFlow (l : Lexer) : Bool := l.flowDepth > 0

def add (l : Lexer) (t : Token) : Lexer := { l with tokens := l.tokens.push t }

/-- Adds a token in front of the one with the given number. -/
def addAt (l : Lexer) (number : Nat) (t : Token) : Lexer :=
  { l with tokens := l.tokens.insertIdxIfInBounds number t }

def allowKey (l : Lexer) (allowed : Bool) : Lexer := { l with keyAllowed := allowed }

def skip (l : Lexer) (count : Nat) : Lexer := { l with cursor := l.cursor.skip count }

def skipGap (l : Lexer) : Reading Lexer := do
  let (_, cursor) ← l.cursor.skipGap
  pure { l with cursor }

/-- Skips everything in front of the next token. A new line allows keys outside flow collections. -/
def skipSpace (l : Lexer) : Reading Lexer := do
  let block := if l.levels.isEmpty then none else some l.indent
  let (lineEnded, cursor) ← l.cursor.skipSpace block false false
  pure { l with cursor, keyAllowed := l.keyAllowed || (lineEnded && !l.inFlow) }

/-! Keys -/

def saveKeyStart (l : Lexer) : Lexer :=
  if !l.keyAllowed then l
  else
    let c := l.cursor
    let start : KeyStart :=
      { index := c.index, line := c.line, column := c.column, token := l.tokens.size,
        required := !l.inFlow && l.indent = c.column && l.levels.head?.any (·.isBlock) }
    { l with keyStarts := some start :: l.keyStarts.drop 1 }

/-- Forgets where a key may have started, unless there has to be one. -/
def dropKeyStart (l : Lexer) : Reading Lexer :=
  if l.keyStarts.head?.join.any (·.required) then malformed
  else pure { l with keyStarts := none :: l.keyStarts.drop 1 }

/-- Whether a key that started there can no longer end here. -/
def isStale (l : Lexer) (start : KeyStart) : Bool :=
  start.line < l.cursor.line || start.index + keyLimit < l.cursor.index

/-- Forgets the places at which no key can have started: outside flow collections a key stands on one
line. -/
def dropStale (l : Lexer) : Reading Lexer :=
  if l.inFlow then pure l
  else
    let stale := l.keyStarts.map fun start => start.any l.isStale
    if (l.keyStarts.zip stale).any fun (start, stale) => stale && start.any (·.required) then malformed
    else pure { l with keyStarts := l.keyStarts.map fun start => start.filter (!l.isStale ·) }

/-! Indentation -/

def unrolled (column : Int) : List Level → Int → Array Token → List Level × Int × Array Token
  | [], indent, tokens => ([], indent, tokens)
  | level :: rest, indent, tokens =>
    if indent > column then
      unrolled column rest level.outer (if level.isBlock then tokens.push .blockEnd else tokens)
    else (level :: rest, indent, tokens)

/-- Leaves the levels that are indented more than a column. Inside flow collections indentation means
nothing. -/
def unroll (l : Lexer) (column : Int) : Lexer :=
  if l.inFlow then l
  else
    let (levels, indent, tokens) := unrolled column l.levels l.indent l.tokens
    { l with levels, indent, tokens }

/-- Enters a level one column deeper that is no block, inside a block. -/
def deepen (l : Lexer) : Lexer :=
  if !l.inFlow && l.levels.head?.any (·.isBlock) then
    { l with levels := ⟨l.indent, false⟩ :: l.levels, indent := l.indent + 1 }
  else l

/-- Leaves the innermost level if it is no block. There is never more than one such level inside a
block. -/
def shallow (l : Lexer) : Lexer :=
  match l.levels with
  | ⟨outer, false⟩ :: rest => { l with levels := rest, indent := outer }
  | _ => l

/-- Enters the block of a collection that starts at a column, and adds its token in front of the one
with the given number, or at the end. -/
def roll (l : Lexer) (column : Nat) (number : Nat) (t : Token) : Lexer :=
  if l.inFlow then l
  else
    let l := if l.indent ≤ column then l.shallow else l
    if l.indent < column then
      { l with levels := ⟨l.indent, true⟩ :: l.levels, indent := column }.addAt number t
    else l

/-! Tokens one by one -/

def endPair (l : Lexer) : Lexer :=
  match l.openPairs with
  | true :: rest => { l with openPairs := false :: rest, mappingStarted := false }.add .flowMappingEnd
  | _ => l

def startFlow (l : Lexer) (t : Token) : Reading Lexer := do
  let l := l.saveKeyStart.deepen
  if l.flowDepth = flowLimit then malformed
  let l := { l with keyStarts := none :: l.keyStarts, flowDepth := l.flowDepth + 1 }
  let l := (l.allowKey true).skip 1
  let l := if t = .flowMappingStart then { l with mappingStarted := true }
    else { l with openPairs := false :: l.openPairs }
  pure ((← l.skipGap).add t)

/-- Ends a flow collection. Behind one that is itself inside another, a value may follow without a gap.
-/
def endFlow (l : Lexer) (t : Token) : Reading Lexer := do
  if !l.inFlow then malformed
  let l ← l.dropKeyStart
  let l := { l with keyStarts := l.keyStarts.drop 1, flowDepth := l.flowDepth - 1, keyAllowed := false }
  let l := if t = .flowListEnd then { l.endPair with openPairs := l.openPairs.drop 1 } else l
  let l ← (l.skip 1).skipGap
  pure ((if l.inFlow then { l with adjacentAt := l.cursor.index } else l).add t)

def comma (l : Lexer) : Reading Lexer := do
  if !l.inFlow then malformed
  let l := ((← l.dropKeyStart).allowKey true).endPair
  pure ((← (l.skip 1).skipGap).add .comma)

def item (l : Lexer) : Reading Lexer := do
  if l.inFlow || !l.keyAllowed then malformed
  let column := l.cursor.column
  let l := (l.skip 1).roll column l.tokens.size .blockListStart
  let (blanks, cursor) ← l.cursor.skipGap
  if blanks.contains '\t' && cursor.peek = some '-' && gapOrEnd cursor.peekNext then malformed
  let l := { l with cursor }
  let l := if cursor.peek.any fun c => c = '\n' || isFlowMark c then l.deepen else l
  pure (((← l.dropKeyStart).allowKey true).add .item)

def question (l : Lexer) : Reading Lexer := do
  if !l.inFlow && !l.keyAllowed then malformed
  let l := if l.inFlow then { l with mappingStarted := true }
    else l.roll l.cursor.column l.tokens.size .blockMappingStart
  let l := ((← l.dropKeyStart).allowKey !l.inFlow).skip 1
  let next := l.cursor.ahead.dropWhile fun c => c = ' ' || c = '\n'
  if next.length = l.cursor.ahead.length || next.head? = some '\t' then malformed
  pure (l.add .key)

/-- Whether a value that starts with the character has to be separated from its colon by a space. -/
def needsSpace (c : Char) : Bool := c.isAlphanum || c = '_' || c = '-'

/-- The colon behind a key, which shows that it was one. -/
def colon (l : Lexer) : Reading Lexer := do
  let column := l.cursor.column
  let line := l.cursor.line
  let isPair := !l.openPairs.isEmpty && !l.mappingStarted
  let l := if isPair then { l with openPairs := true :: l.openPairs.drop 1 } else l
  let l := l.skip 1
  let (blanks, cursor) ←
    if l.cursor.peek = some '\t' then l.cursor.skipGap else pure ([], l.cursor)
  if !blanks.isEmpty && !blanks.contains ' ' && cursor.peek.any needsSpace then malformed
  let l := { l with cursor }
  match l.keyStarts.head?.join with
  | some start =>
    let l := l.addAt start.token .key
    if isPair && start.line < line then malformed
    let l := if isPair then l.addAt start.token .flowMappingStart else l
    let l := (l.roll start.column start.token .blockMappingStart).deepen
    pure ({ l with keyStarts := none :: l.keyStarts.drop 1, keyAllowed := false }.add .value)
  | none =>
    let l := if isPair then l.add .flowMappingStart else l
    if !l.inFlow && !l.keyAllowed then malformed
    let l := (l.roll column l.tokens.size .blockMappingStart).deepen
    pure ((l.allowKey !l.inFlow).add .value)

/-- A document mark, which ends all blocks. -/
def documentMark (l : Lexer) (t : Token) : Reading Lexer := do
  let l := ((← (l.unroll (-1)).dropKeyStart).allowKey false).skip 3
  if t = .documentStart then pure (l.add t)
  else
    let l ← l.skipGap
    if lineOrEnd l.cursor.peek then pure (l.add t) else malformed

/-- A quoted scalar. What follows it on its line is the end, a comma, a closing mark, or the colon of a
key. -/
def quoted (l : Lexer) (quote : Char) : Reading Lexer := do
  let l := l.saveKeyStart.allowKey false
  let line := l.cursor.line
  let start := l.cursor.skip 1
  let (text, cursor) ← quotedWords quote l.indent (start.ahead.length + 1) [] start
  let l ← { l with cursor }.skipGap
  let ends := match l.cursor.peek with
    | none => true
    | some c =>
      c = '\n' || (c = ':' && (l.inFlow || line = l.cursor.line)) ||
        (l.inFlow && (c = ',' || c = ']' || c = '\x7d'))
  if !ends then malformed
  let l ← l.skipSpace
  pure ({ l with adjacentAt := l.cursor.index }.add (.quoted (String.ofList text)))

def plain (l : Lexer) : Reading Lexer := do
  let l := (l.saveKeyStart.allowKey false).shallow
  let indent := l.indent + 1
  if l.inFlow && (l.cursor.column : Int) < indent then malformed
  let (text, cursor) ← plainWords l.inFlow indent (l.cursor.ahead.length + 1) [] {} l.cursor
  pure ({ l with cursor, keyAllowed := cursor.inIndentation }.add (.plain (String.ofList text)))

/-- Whether no plain scalar starts with the character. -/
def isReserved (inFlow : Bool) (c : Char) : Bool :=
  "&*!%@\x60".contains c || (!inFlow && "|>".contains c)

def finish (l : Lexer) : Reading (Array Token) :=
  if l.keyStarts.any fun start => start.any (·.required) then malformed
  else pure (l.unroll (-1)).tokens

/-- The next token, whose first character is given. -/
def step (l : Lexer) (c : Char) : Reading Lexer :=
  let next := l.cursor.peekNext
  if c = '[' then l.startFlow .flowListStart
  else if c = '\x7b' then l.startFlow .flowMappingStart
  else if c = ']' then l.endFlow .flowListEnd
  else if c = '\x7d' then l.endFlow .flowMappingEnd
  else if c = ',' then l.comma
  else if c = '-' && gapOrEnd next then l.item
  else if c = '?' && gapOrEnd next then l.question
  else if c = ':' && (gapOrEnd next ||
      (l.inFlow && (next.any isFlowMark || l.cursor.index = l.adjacentAt))) then l.colon
  else if c = '\'' || c = '"' then l.quoted c
  else if isReserved l.inFlow c then malformed
  else l.plain

/-- The tokens from here to the end. The bound is on their number. -/
def run : Nat → Lexer → Reading (Array Token)
  | 0, _ => malformed
  | bound + 1, l => do
    let l ← (← l.skipSpace).dropStale
    let l := l.unroll l.cursor.column
    match l.cursor.peek with
    | none => l.finish
    | some c =>
      if l.cursor.column = 0 && c = '%' then malformed
      else if l.cursor.column = 0 && startsMark "---".toList l.cursor.ahead then
        run bound (← l.documentMark .documentStart)
      else if l.cursor.column = 0 && startsMark "...".toList l.cursor.ahead then
        run bound (← l.documentMark .documentEnd)
      else if (l.cursor.column : Int) < l.indent then malformed
      else run bound (← l.step c)

end Lexer

def Token.scan (text : List Char) : Reading (Array Token) :=
  let ahead := unifyLines text
  Lexer.run (ahead.length + 1) { cursor := { ahead } }

end Interception.Surroundings.Document
