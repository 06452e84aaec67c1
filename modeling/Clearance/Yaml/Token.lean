import Clearance.Yaml.Scalar

/-!
# Tokens of YAML text

YAML text is cut into tokens, among them the starts and ends of the collections that only its
indentation shows.  A mapping key is known as such by the colon that follows it on its line, so a
place where a key may have started is remembered, and its tokens are put in when the colon is found.
Directives and tags are refused.
-/

namespace Clearance.Yaml

/-- A token of YAML text. -/
inductive Token
  | documentStart | documentEnd
  | blockSequenceStart | blockMappingStart | blockEnd
  | flowSequenceStart | flowSequenceEnd | flowMappingStart | flowMappingEnd
  | blockEntry | flowEntry | key | value
  | anchor (name : String)
  | alias (name : String)
  | scalar (isPlain : Bool) (text : String)
  deriving DecidableEq, Inhabited

/-! ## Places in a text -/

/-- A place in a text: what follows, and where it stands. -/
structure Cursor where
  rest : List Char
  /-- The number of bytes before it, in UTF-8. -/
  index : Nat := 0
  line : Nat := 0
  column : Nat := 0
  deriving Inhabited

namespace Cursor

/-- The place after `count` more characters. -/
def skip (cursor : Cursor) : Nat → Cursor
  | 0 => cursor
  | count + 1 =>
    match cursor.rest with
    | [] => cursor
    | c :: rest =>
      let index := cursor.index + c.utf8Size
      if isBreak c then skip { rest, index, line := cursor.line + 1, column := 0 } count
      else skip { cursor with rest, index, column := cursor.column + 1 } count

end Cursor

/-! ## Scanning -/

/-- A place where a mapping key may have started. -/
structure PossibleKey where
  /-- Whether the text is faulty unless a colon makes it a key. -/
  required : Bool
  /-- The number of tokens before it. -/
  position : Nat
  index : Nat
  line : Nat
  column : Nat
  deriving Inhabited

/-- The layout of the text read so far: where it stands, which collections are open, and the tokens
found. -/
structure Layout where
  cursor : Cursor
  /-- The column of the innermost block collection, if there is one. -/
  indent : Option Nat := none
  /-- Those of the collections around it. -/
  outer : List (Option Nat) := []
  /-- The possible key outside all brackets or in the innermost ones. -/
  possible : Option PossibleKey := none
  /-- The possible keys around each pair of brackets that is open, the innermost first. -/
  around : List (Option PossibleKey) := []
  /-- Whether a key may start here. -/
  keyAllowed : Bool := true
  /-- The tokens found, last first. -/
  tokens : List Token := []
  /-- The number of tokens found. -/
  count : Nat := 0
  deriving Inhabited

namespace Layout

/-- Whether brackets are open. -/
def inFlow (s : Layout) : Bool := !s.around.isEmpty

/-- Adds a token. -/
def emit (s : Layout) (token : Token) : Layout :=
  { s with tokens := token :: s.tokens, count := s.count + 1 }

/-- Puts a token after the first `position` ones. -/
def emitAt (s : Layout) (position : Nat) (token : Token) : Layout :=
  let later := s.count - position
  { s with
    tokens := s.tokens.take later ++ token :: s.tokens.drop later
    count := s.count + 1 }

/-- Goes on by `count` characters. -/
def skip (s : Layout) (count : Nat) : Layout := { s with cursor := s.cursor.skip count }

/-- Says whether a key may start next. -/
def allowKey (s : Layout) (keyAllowed : Bool) : Layout := { s with keyAllowed }

/-! ### Indentation -/

/-- Whether a column lies further right than the innermost block collection. -/
def isDeeper (s : Layout) (column : Nat) : Bool := s.indent.all (· < column)

/-- Opens a block collection at a column, unless one is open there or brackets are; its token goes
after the first `position` ones. -/
def openBlock (s : Layout) (column position : Nat) (token : Token) : Layout :=
  if !s.inFlow && s.isDeeper column then
    { s.emitAt position token with indent := some column, outer := s.indent :: s.outer }
  else s

/-- Closes block collections as long as `closes` holds of the column of the innermost. -/
def closeBlocks (s : Layout) (closes : Nat → Bool) : Layout :=
  if s.inFlow then s else go s s.outer
where
  /-- Closes block collections, of which `outer` are the ones around the innermost. -/
  go (s : Layout) : List (Option Nat) → Layout
    | [] => s
    | indent :: outer =>
      if s.indent.any closes then go { s.emit .blockEnd with indent, outer } outer else s

/-! ### Possible keys -/

/-- Gives up the possible key, which must not be a required one. -/
def dropKey? (s : Layout) : Option Layout :=
  if s.possible.any (·.required) then none else some { s with possible := none }

/-- Remembers that a key may start here, if one is allowed. -/
def saveKey? (s : Layout) : Option Layout :=
  if s.keyAllowed then do
    let s ← s.dropKey?
    let key := {
      required := !s.inFlow && s.indent == some s.cursor.column
      position := s.count
      index := s.cursor.index
      line := s.cursor.line
      column := s.cursor.column }
    return { s with possible := some key }
  else some s

/-- Whether a key that started there can still end here: on the same line, and after 1024 bytes at
most. -/
def isOpen (s : Layout) (key : PossibleKey) : Bool :=
  key.line == s.cursor.line && s.cursor.index ≤ key.index + 1024

/-- Gives up a possible key that can no longer end here, which must not be a required one. -/
def refresh? (s : Layout) : Option PossibleKey → Option (Option PossibleKey)
  | none => some none
  | some key =>
    if s.isOpen key then some (some key) else if key.required then none else some none

/-- Gives up all possible keys that can no longer end here. -/
def dropStaleKeys? (s : Layout) : Option Layout := do
  let possible ← s.refresh? s.possible
  let around ← s.around.mapM s.refresh?
  return { s with possible, around }

/-! ### Between tokens -/

/-- Whether a character that is no line break is passed over between tokens: inside a comment, at the
start of a line if it is the byte order mark, and as a blank.  A tab counts only where it cannot be
taken for indentation. -/
def isPassed (inFlow keyAllowed inComment startsLine : Bool) (c : Char) : Bool :=
  inComment || (startsLine && c == byteOrderMark) || c == ' '
    || (c == '\t' && (inFlow || !keyAllowed))

/-- The number of characters that are passed over before the next token, and whether a key may start
after them.  A new line allows a key outside brackets. -/
def space (inFlow keyAllowed inComment startsLine : Bool) (count : Nat) : List Char → Nat × Bool
  | [] => (count, keyAllowed)
  | c :: rest =>
    if isBreak c then space inFlow (keyAllowed || !inFlow) false true (count + 1) rest
    else if isPassed inFlow keyAllowed inComment startsLine c then
      space inFlow keyAllowed inComment false (count + 1) rest
    else if c == '#' then space inFlow keyAllowed true false (count + 1) rest
    else (count, keyAllowed)

/-- Goes on to the next token. -/
def skipSpace (s : Layout) : Layout :=
  let startsLine := s.cursor.column == 0
  let (count, keyAllowed) := space s.inFlow s.keyAllowed false startsLine 0 s.cursor.rest
  (s.skip count).allowKey keyAllowed

/-! ### Tokens -/

/-- The mark that starts or ends a document. -/
def documentMark? (s : Layout) (token : Token) : Option Layout := do
  let s ← (s.closeBlocks fun _ => true).dropKey?
  return ((s.allowKey false).skip 3).emit token

/-- An opening bracket, with which a key may start. -/
def openFlow? (s : Layout) (token : Token) : Option Layout := do
  let s ← s.saveKey?
  let s := { s with possible := none, around := s.possible :: s.around }
  return ((s.allowKey true).skip 1).emit token

/-- A closing bracket. -/
def closeFlow? (s : Layout) (token : Token) : Option Layout := do
  let s ← s.dropKey?
  let s := match s.around with
    | [] => s
    | possible :: around => { s with possible, around }
  return ((s.allowKey false).skip 1).emit token

/-- A comma between items in brackets. -/
def flowEntry? (s : Layout) : Option Layout := do
  let s ← s.dropKey?
  return ((s.allowKey true).skip 1).emit .flowEntry

/-- The dash before an item, which outside brackets stands where a key could. -/
def blockEntry? (s : Layout) : Option Layout := do
  if !s.inFlow && !s.keyAllowed then none
  let s ← (s.openBlock s.cursor.column s.count .blockSequenceStart).dropKey?
  return ((s.allowKey true).skip 1).emit .blockEntry

/-- The question mark before a key. -/
def key? (s : Layout) : Option Layout := do
  if !s.inFlow && !s.keyAllowed then none
  let s ← (s.openBlock s.cursor.column s.count .blockMappingStart).dropKey?
  return ((s.allowKey (!s.inFlow)).skip 1).emit .key

/-- The colon before a value, which makes the possible key before it one. -/
def value? (s : Layout) : Option Layout :=
  match s.possible with
  | some key =>
    let s := s.emitAt key.position .key
    let s := s.openBlock key.column key.position .blockMappingStart
    some ((({ s with possible := none }.allowKey false).skip 1).emit .value)
  | none => do
    if !s.inFlow && !s.keyAllowed then none
    let s := s.openBlock s.cursor.column s.count .blockMappingStart
    return ((s.allowKey (!s.inFlow)).skip 1).emit .value

/-- An anchor or an alias, from the character before its name. -/
def name? (s : Layout) (token : String → Token) : Option Layout := do
  let s ← s.saveKey?
  let text := s.cursor.rest.drop 1
  let name := text.takeWhile isNameChar
  let after := text.dropWhile isNameChar
  let ends := startsBlank after
    || after.head?.any (['?', ':', ',', ']', '\x7d', '%', '@', '\x60'].contains ·)
  if name.isEmpty || !ends then none
  return ((s.allowKey false).skip (name.length + 1)).emit (token (String.ofList name))

/-- Goes on after a scalar that has a sign of this length in front. -/
def afterScalar (s : Layout) (isPlain : Bool) (sign : Nat) (scalar : Scalar) : Layout :=
  (s.skip (sign + scalar.used)).emit (.scalar isPlain (String.ofList scalar.chars))

/-- A scalar between quotes. -/
def quoted? (s : Layout) (read : Nat → List Char → Option Scalar) : Option Layout := do
  let s ← s.saveKey?
  let scalar ← read (s.cursor.column + 1) (s.cursor.rest.drop 1)
  return (s.allowKey false).afterScalar false 1 scalar

/-- The least indentation of text inside the innermost block collection. -/
def leastIndent (s : Layout) : Nat := (s.indent.map (· + 1)).getD 0

/-- A block scalar, after which a key may start. -/
def block? (s : Layout) (folded : Bool) : Option Layout := do
  let s ← s.dropKey?
  let scalar ← readBlockScalar folded s.leastIndent (s.cursor.rest.drop 1)
  return (s.allowKey true).afterScalar false 1 scalar

/-- A plain scalar. -/
def plain? (s : Layout) : Option Layout := do
  let s ← s.saveKey?
  let scalar ← readPlain s.inFlow s.leastIndent s.cursor.column {} s.cursor.rest
  return (s.allowKey scalar.endsLine).afterScalar true 0 scalar

/-- Whether a plain scalar can start with this text: with no indicator, with a dash before anything
but a blank, and outside brackets with a question mark or a colon before anything but white space. -/
def startsPlain (s : Layout) : List Char → Bool
  | [] => false
  | c :: rest =>
    !(startsBlank (c :: rest) || isIndicator c)
      || (c == '-' && !rest.head?.any isBlank)
      || (!s.inFlow && (c == '?' || c == ':') && !startsBlank rest)

/-- Reads the token that a text starts with. -/
def token? (s : Layout) (c : Char) (rest : List Char) : Option Layout :=
  let text := c :: rest
  let column := s.cursor.column
  let separate := s.inFlow || startsBlank rest
  if column == 0 && isDocumentMark '-' text then s.documentMark? .documentStart
  else if column == 0 && isDocumentMark '.' text then s.documentMark? .documentEnd
  else if c == '[' then s.openFlow? .flowSequenceStart
  else if c == '\x7b' then s.openFlow? .flowMappingStart
  else if c == ']' then s.closeFlow? .flowSequenceEnd
  else if c == '\x7d' then s.closeFlow? .flowMappingEnd
  else if c == ',' then s.flowEntry?
  else if c == '-' && startsBlank rest then s.blockEntry?
  else if c == '?' && separate then s.key?
  else if c == ':' && separate then s.value?
  else if c == '*' then s.name? .alias
  else if c == '&' then s.name? .anchor
  else if c == '|' && !s.inFlow then s.block? false
  else if c == '>' && !s.inFlow then s.block? true
  else if c == '\'' then s.quoted? fun column => readSingleQuoted column {}
  else if c == '"' then s.quoted? fun column => readDoubleQuoted column {} .among
  else if s.startsPlain text then s.plain?
  else none

/-- Closes everything at the end of the text. -/
def finish? (s : Layout) : Option (List Token) := do
  let s ← (s.closeBlocks fun _ => true).dropKey?
  return s.tokens.reverse

/-- Reads tokens up to the end of the text, each for one unit of fuel. -/
def run (s : Layout) : Nat → Option (List Token)
  | 0 => none
  | fuel + 1 => do
    let s ← s.skipSpace.dropStaleKeys?
    let s := s.closeBlocks (s.cursor.column < ·)
    match s.cursor.rest with
    | [] => s.finish?
    | c :: rest => (← s.token? c rest).run fuel

end Layout

/-- The tokens of a text.  A reading step takes at least one character, so one step for each, and
one for the end, are enough. -/
def tokens? (text : List Char) : Option (List Token) :=
  Layout.run { cursor := { rest := text } } (text.length + 1)

end Clearance.Yaml
