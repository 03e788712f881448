import Interception.Logging.Subscription
import Interception.Text.Alphanumeric
import Interception.Text.Decimal
import Interception.Text.Space

/-! A library for filters of events, with which events can be printed: a stand-in for the one that a
program brings along. Nothing is proved of it. A filter is a list of directives, each of which sets a
least level for the events whose source starts alike, or for all events. The directive that names an
event most closely decides; an event that no directive speaks of is not printed. -/

namespace Interception.Surroundings

open Logging

/-- The least level of the events that are let through; none are if there is no level. -/
abbrev Threshold := Option Level

def levelNames : List (String × Threshold) :=
  [("trace", some .trace), ("debug", some .debug), ("info", some .info), ("warn", some .warn),
   ("error", some .error), ("off", none)]

/-- Levels by number, the most severe first. -/
def levelNumbers : List Threshold :=
  [none, some .error, some .warn, some .info, some .debug, some .trace]

/-- A threshold, by number or by name. -/
def Threshold.read? (text : List Char) : Option Threshold :=
  let byNumber := match text with
    | '-' :: _ => none
    | _ => (Decimal.readInteger? 10 text).bind fun n => levelNumbers[n.toNat]?
  byNumber.or (levelNames.lookup (String.ofList (text.map Char.toLower)))

/-- Sets the threshold for the events whose source starts with the target, or for all events. It may
speak only of events that have a field, or only of those inside a span, a stretch of work that is named
while it lasts. -/
structure Directive where
  target : Option String
  /-- Whether only events inside a span are meant. The library opens none, so these do not occur. -/
  inSpan : Bool := false
  field : Option String := none
  threshold : Threshold

namespace Directive

def mayStart (c : Char) : Bool := c = '-' || c = ':' || c = '_' || Text.isAlphanumeric c

/-- Reads the threshold behind a directive: none is named, which lets everything through, or one is
behind an equals sign. -/
def readThreshold? : List Char → Option Threshold
  | [] | ['='] => some (some .trace)
  | '=' :: level => Threshold.read? level
  | _ => none

/-- Reads what stands between brackets, from behind the first: the name of a span, a field in braces, or
both. The field may have a value, which only that of a span can be compared with. Gives whether a span
is meant, the field, and what follows. -/
def readBrackets? (text : List Char) : Option (Bool × Option String × List Char) :=
  let isEnd (c : Char) : Bool := c = ']' || c = '\x7b'
  match text.dropWhile (!isEnd ·) with
  | ']' :: rest => some (true, none, rest)
  | '\x7b' :: inner =>
    let field := inner.takeWhile (· ≠ '\x7d')
    match inner.dropWhile (· ≠ '\x7d') with
    | '\x7d' :: ']' :: rest =>
      if field.isEmpty then none
      else if field.contains '=' || text.head?.any (!isEnd ·) then some (true, none, rest)
      else some (false, some (String.ofList field), rest)
    | _ => none
  | _ => none

/-- Reads a level, a target, or a target with brackets and a level. Blanks in front belong to the
target, and no level may follow such a target. Blanks at the end belong to the target or the level, and
behind brackets to nothing. -/
def read? (text : String) : Option Directive :=
  let chars := text.toList
  let trimmed := chars.dropWhile Text.isSpace
  let indented := trimmed.length < chars.length
  let isEnd (c : Char) : Bool := c = '=' || c = '['
  let front := chars.takeWhile (!isEnd ·)
  let target := if front.isEmpty then none else some (String.ofList front)
  match chars.dropWhile (!isEnd ·), trimmed.head? with
  | _, none => none
  | '[' :: rest, some c =>
    if c ≠ '[' && !mayStart c then none
    else do
      let (inSpan, field, rest) ← readBrackets? rest
      let rest := if rest.all Text.isSpace then [] else rest
      if indented && !rest.isEmpty then none
      else some { target, inSpan, field, threshold := ← readThreshold? rest }
  | rest, some c =>
    if !mayStart c || (indented && !rest.isEmpty) then none
    else match rest, Threshold.read? front with
      | [], some threshold => some { target := none, threshold }
      | _, _ => (readThreshold? rest).map fun threshold => { target, threshold }

def covers (e : Event) (d : Directive) : Bool :=
  !d.inSpan && d.target.all (fun target => target.toList.isPrefixOf e.source.toList) &&
    d.field.all fun field => field = "message" || (e.fields.lookup field).isSome

/-- How closely a directive names its events: by the length of the target, then by a field. -/
def closeness (d : Directive) : Nat :=
  2 * (match d.target with | none => 0 | some target => target.utf8ByteSize + 1) + d.field.toList.length

/-- Whether a directive gives way to a later one that speaks of the same event: to one that names it
more closely, and among equally close ones to one whose field is the same or comes later in the order of
text. -/
def givesWayTo (earlier later : Directive) : Bool :=
  earlier.closeness < later.closeness ||
    (earlier.closeness = later.closeness && earlier.field.getD "" ≤ later.field.getD "")

end Directive

structure Filter where
  directives : List Directive

namespace Filter

/-- The directives in a text, which commas separate. -/
def directivesOf (text : String) : List String := (text.splitOn ",").filter (· ≠ "")

/-- Reads directives. One that cannot be read spoils them all. -/
def read? (text : String) : Option Filter := ((directivesOf text).mapM Directive.read?).map Filter.mk

/-- Reads directives and leaves out those that cannot be read. -/
def readLeniently (text : String) : Filter := ⟨(directivesOf text).filterMap Directive.read?⟩

/-- The directive that names an event most closely; of several with the same target and field the last.
-/
def decisive? (f : Filter) (e : Event) : Option Directive :=
  f.directives.foldl (fun best d =>
    if !d.covers e then best
    else match best with
      | none => some d
      | some b => if b.givesWayTo d then some d else some b) none

def lets (f : Filter) (e : Event) : Bool :=
  match (f.decisive? e).bind (·.threshold) with
  | some least => least.rank ≤ e.level.rank
  | none => false

end Filter

def filters : Logging.Filtering Filter where
  read? := Filter.read?
  readLeniently := Filter.readLeniently
  lets := Filter.lets

end Interception.Surroundings
