import Interception.Surroundings.Document.Token

/-! Nodes: what a document says. Read are block and flow lists and mappings, plain and quoted scalars,
comments, and the marks between documents; anchors, tags, directives and block scalars are refused. What
a plain scalar means is decided by its form; a quoted one is text. -/

namespace Interception.Surroundings

open Document

inductive Key where
  | text (s : String)
  | integer (n : Int)
  deriving DecidableEq, Inhabited

/-- A key as text, under which the settings know it. -/
def Key.name : Key → String
  | text s => s
  | integer n => toString n

inductive Node where
  | null
  | bool (b : Bool)
  | integer (n : Int)
  | number (x : Float)
  | text (s : String)
  | list (items : List Node)
  | mapping (entries : List (Key × Node))
  deriving Inhabited

namespace Node

def wholeNumber? (text : List Char) : Option Int :=
  let marked := match text with
    | '0' :: 'x' :: digits => Decimal.readInteger? 16 digits
    | '0' :: 'o' :: digits => Decimal.readInteger? 8 digits
    | '+' :: digits => Decimal.readInteger? 10 digits
    | _ => none
  marked.or (Decimal.readInteger? 10 text)

/-- Names of infinity and of the value that is no number. They have the form of numbers, and are refused
as such. -/
def numberNames : List String :=
  [".inf", ".Inf", ".INF", "+.inf", "+.Inf", "+.INF", "-.inf", "-.Inf", "-.INF", ".nan", ".NAN"]

/-- What a plain scalar means. -/
def ofPlain (word : String) : Reading Node :=
  if word = "" || word = "~" || word = "null" then .ok .null
  else if word = "true" then .ok (.bool true)
  else if word = "false" then .ok (.bool false)
  else match wholeNumber? word.toList with
    | some n => .ok (.integer n)
    | none =>
      if numberNames.contains word then .error (.unreadableNumber word)
      else match Decimal.read? word.toList with
        | some x => .ok (.number x)
        | none => .ok (.text word)

def asKey : Node → Reading Key
  | .text s => .ok (.text s)
  | .integer n => .ok (.integer n)
  | _ => malformed

/-- Adds an entry to a mapping, in which every key stands once. -/
def addEntry (entries : List (Key × Node)) (key value : Node) : Reading (List (Key × Node)) := do
  let key ← key.asKey
  if (entries.lookup key).isSome then malformed else pure (entries ++ [(key, value)])

mutual

/-- The node that starts with the first token, and the tokens behind it. Block collections and lists
without a token for their start are read only where they may stand. The bound is on the number of
tokens. -/
def ofTokens (block bareList : Bool) : Nat → List Token → Reading (Node × List Token)
  | 0, _ => malformed
  | bound + 1, tokens =>
    match tokens with
    | .plain word :: rest => do pure (← ofPlain word, rest)
    | .quoted word :: rest => pure (.text word, rest)
    | .flowListStart :: rest => flowItems true [] bound rest
    | .flowMappingStart :: rest => flowEntries true [] bound rest
    | .blockListStart :: rest => if block then blockItems [] bound rest else malformed
    | .blockMappingStart :: rest => if block then blockEntries [] bound rest else malformed
    | .item :: _ => if bareList then bareItems [] bound tokens else malformed
    | _ => malformed

/-- The value behind a colon, or none where one of the given tokens follows. Without a colon there is
none. -/
def valueOfTokens (block : Bool) (ends : List Token) :
    Nat → List Token → Reading (Node × List Token)
  | 0, _ => malformed
  | bound + 1, tokens =>
    match tokens with
    | .value :: rest =>
      if rest.head?.any ends.contains then pure (.null, rest) else ofTokens block block bound rest
    | _ => pure (.null, tokens)

/-- The rest of a flow list. Behind the first item every one has a comma in front of it. -/
def flowItems (first : Bool) (items : List Node) : Nat → List Token → Reading (Node × List Token)
  | 0, _ => malformed
  | bound + 1, tokens =>
    match tokens with
    | .flowListEnd :: rest => pure (.list items, rest)
    | .comma :: rest => if first then malformed else flowItem items bound rest
    | _ => if first then flowItem items bound tokens else malformed

/-- An item of a flow list and the rest of the list. The item may be a mapping of one entry, or missing
at the end. -/
def flowItem (items : List Node) : Nat → List Token → Reading (Node × List Token)
  | 0, _ => malformed
  | bound + 1, tokens =>
    match tokens with
    | .flowListEnd :: rest => pure (.list items, rest)
    | .key :: rest => do
      let (key, rest) ← ofTokens false false bound rest
      let (value, rest) ← valueOfTokens false [.comma, .flowListEnd] bound rest
      flowItems false (items ++ [.mapping (← addEntry [] key value)]) bound rest
    | _ => do
      let (item, rest) ← ofTokens false false bound tokens
      flowItems false (items ++ [item]) bound rest

/-- The rest of a flow mapping. Behind the first entry every one has a comma in front of it. -/
def flowEntries (first : Bool) (entries : List (Key × Node)) :
    Nat → List Token → Reading (Node × List Token)
  | 0, _ => malformed
  | bound + 1, tokens =>
    match tokens with
    | .flowMappingEnd :: rest => pure (.mapping entries, rest)
    | .comma :: rest => if first then malformed else flowEntry entries bound rest
    | _ => if first then flowEntry entries bound tokens else malformed

/-- An entry of a flow mapping and the rest of the mapping. The entry may be missing at the end. -/
def flowEntry (entries : List (Key × Node)) : Nat → List Token → Reading (Node × List Token)
  | 0, _ => malformed
  | bound + 1, tokens =>
    match tokens with
    | .flowMappingEnd :: rest => pure (.mapping entries, rest)
    | .key :: rest => do
      let (key, rest) ← ofTokens false false bound rest
      let (value, rest) ← valueOfTokens false [.comma, .flowMappingEnd] bound rest
      flowEntries false (← addEntry entries key value) bound rest
    | _ => do
      let (key, rest) ← ofTokens false false bound tokens
      flowEntries false (← addEntry entries key .null) bound rest

def blockItems (items : List Node) : Nat → List Token → Reading (Node × List Token)
  | 0, _ => malformed
  | bound + 1, tokens =>
    match tokens with
    | .blockEnd :: rest => pure (.list items, rest)
    | .item :: rest =>
      if rest.head?.any [.item, .blockEnd].contains then blockItems (items ++ [.null]) bound rest
      else do
        let (item, rest) ← ofTokens true false bound rest
        blockItems (items ++ [item]) bound rest
    | _ => malformed

/-- The rest of a list that stands below a key at the indentation of the key, and so has no tokens for
its start and its end. -/
def bareItems (items : List Node) : Nat → List Token → Reading (Node × List Token)
  | 0, _ => malformed
  | bound + 1, tokens =>
    match tokens with
    | .item :: rest =>
      if rest.head?.any [.item, .key, .value, .blockEnd].contains then
        bareItems (items ++ [.null]) bound rest
      else do
        let (item, rest) ← ofTokens true false bound rest
        bareItems (items ++ [item]) bound rest
    | _ => pure (.list items, tokens)

def blockEntries (entries : List (Key × Node)) : Nat → List Token → Reading (Node × List Token)
  | 0, _ => malformed
  | bound + 1, tokens =>
    match tokens with
    | .blockEnd :: rest => pure (.mapping entries, rest)
    | .key :: rest => do
      let (key, rest) ← ofTokens true true bound rest
      let (value, rest) ← valueOfTokens true [.key, .value, .blockEnd] bound rest
      blockEntries (← addEntry entries key value) bound rest
    | _ => malformed

end

/-- The documents that tokens make up. A document may start without a mark at the start of the text and
behind a mark that ends one. -/
def documents (bareStart : Bool) : Nat → List Token → Reading (List Node)
  | 0, _ => malformed
  | bound + 1, tokens =>
    match tokens with
    | [] => pure []
    | .documentEnd :: rest => documents true bound rest
    | .documentStart :: rest =>
      if rest.head?.all [.documentStart, .documentEnd].contains then do
        pure (.null :: (← documents false bound rest))
      else do
        let (node, rest) ← ofTokens true false (4 * rest.length + 4) rest
        pure (node :: (← documents false bound rest))
    | _ =>
      if !bareStart then malformed
      else do
        let (node, rest) ← ofTokens true false (4 * tokens.length + 4) tokens
        pure (node :: (← documents false bound rest))

/-- The only document of a text. A text without any holds an empty mapping. -/
def read (text : String) : Reading Node := do
  let tokens ← Token.scan text.toList
  match ← documents true (tokens.size + 1) tokens.toList with
  | [] => pure (.mapping [])
  | [node] => pure node
  | nodes => .error (.manyDocuments nodes.length)

end Node

end Interception.Surroundings
