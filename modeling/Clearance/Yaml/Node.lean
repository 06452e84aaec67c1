import Clearance.Yaml.Token

/-!
# Nodes of YAML text

The tokens of a text form a node: a scalar, a sequence, a mapping, or an alias.  A document is such a
node together with the nodes that its aliases stand for, which may be those that the aliases are in.
-/

namespace Clearance.Yaml

/-- What a YAML document holds. -/
inductive Node
  | scalar (isPlain : Bool) (text : String)
  | sequence (items : List Node)
  | mapping (entries : List (Node × Node))
  /-- What a named node holds, known by the number of its name. -/
  | alias (number : Nat)
  deriving Inhabited

namespace Node

/-- The node that is left out. -/
def blank : Node := scalar true ""

mutual

/-- The number of marks that a node is made of: one for a scalar or an alias, and two for the start
and the end of a collection. -/
def size : Node → Nat
  | .scalar _ _ | .alias _ => 1
  | sequence items => sizeItems items + 2
  | mapping entries => sizeEntries entries + 2

/-- The marks that the items of a sequence are made of. -/
def sizeItems : List Node → Nat
  | [] => 0
  | item :: rest => size item + sizeItems rest

/-- The marks that the entries of a mapping are made of. -/
def sizeEntries : List (Node × Node) → Nat
  | [] => 0
  | (key, value) :: rest => size key + size value + sizeEntries rest

end

end Node

/-- The node of a text, and its named nodes by their numbers; the first one with a number is what an
alias stands for. -/
structure Document where
  root : Node
  named : List (Nat × Node) := []
  deriving Inhabited

namespace Node

/-! ## Reading tokens -/

/-- What is known while tokens are read. -/
structure Progress where
  /-- The tokens still to be read. -/
  tokens : List Token
  /-- The different names that have been given, with their numbers. -/
  names : List (String × Nat) := []
  /-- The number of each node that has been named, the last first, with how many were named before
  it. -/
  started : List (Nat × Nat) := []
  /-- The named nodes that are complete, each by how many were named before it. -/
  finished : List (Nat × Node) := []
  deriving Inhabited

/-- A reader of tokens, which may fail. -/
abbrev Reader (α : Type) : Type := StateT Progress Option α

/-- The next token. -/
def peek : Reader (Option Token) := return (← get).tokens.head?

/-- Goes on to the token after the next. -/
def advance : Reader Unit := modify fun p => { p with tokens := p.tokens.drop 1 }

/-- Reads a token that must come next. -/
def expect (token : Token) : Reader Unit := do
  if (← peek) != some token then failure
  advance

/-- The alias for a name that has been given. -/
def aliasOf (name : String) : Reader Node := do
  match (← get).names.lookup name with
  | none => failure
  | some number => return .alias number

/-- Gives a name to the node that comes next, and says how many nodes were named before it.  The name
has as its number how many different names have been given, so one that is given again can come to
share it with the next new name. -/
def startNamed (name : String) : Reader Nat := do
  let progress ← get
  let number := progress.names.length
  let earlier := progress.started.length
  set { progress with
    names := (name, number) :: progress.names.filter (·.1 != name)
    started := (number, earlier) :: progress.started }
  return earlier

/-- Completes a named node, before which `earlier` were named. -/
def finishNamed (earlier : Nat) (node : Node) : Reader Unit :=
  modify fun p => { p with finished := (earlier, node) :: p.finished }

/-- The named nodes by their numbers, those that start last first. -/
def Progress.named (progress : Progress) : List (Nat × Node) :=
  progress.started.filterMap fun (number, earlier) =>
    (progress.finished.lookup earlier).map fun node => (number, node)

/-- Reads the name that a node is given, if it is. -/
def anchor? : Reader (Option Nat) := do
  match ← peek with
  | some (.anchor name) =>
    advance
    return some (← startNamed name)
  | _ => return none

/-- Where a node stands: what it can be, and what shows that it is left out. -/
inductive Position
  /-- The node of a document, or an item of a block sequence. -/
  | item
  /-- An item of a block sequence that is no further indented than the mapping around it. -/
  | looseItem
  /-- A key or a value of a block mapping, where a sequence may be no further indented. -/
  | entry
  /-- An item between square brackets. -/
  | flowItem
  /-- A key or a value between curly brackets. -/
  | flowEntry
  deriving DecidableEq

namespace Position

/-- Whether block collections can stand here. -/
def inBlock : Position → Bool
  | item | looseItem | entry => true
  | flowItem | flowEntry => false

/-- Whether a token shows that the node is left out. -/
def isLeftOut : Position → Token → Bool
  | item, token => token == .blockEntry || token == .blockEnd
  | looseItem, token =>
    token == .blockEntry || token == .key || token == .value || token == .blockEnd
  | entry, token => token == .key || token == .value || token == .blockEnd
  | flowItem, token => token == .value || token == .flowEntry || token == .flowSequenceEnd
  | flowEntry, token => token == .value || token == .flowEntry || token == .flowMappingEnd

end Position

mutual

/-- Reads a node that must be there.  Every reading step spends one unit of `fuel`. -/
def read (fuel : Nat) (position : Position) : Reader Node :=
  match fuel with
  | 0 => failure
  | fuel + 1 => do
    match ← peek with
    | some (.alias name) =>
      advance
      aliasOf name
    | _ =>
      match ← anchor? with
      | none => readContent fuel position
      | some earlier =>
        let node ← readContentOrBlank fuel position
        finishNamed earlier node
        return node

/-- Reads a node that may be left out. -/
def readOrBlank (fuel : Nat) (position : Position) : Reader Node :=
  match fuel with
  | 0 => failure
  | fuel + 1 => do
    if (← peek).any position.isLeftOut then return blank else read fuel position

/-- Reads the content of a node after its name, where anything else shows that there is none. -/
def readContentOrBlank (fuel : Nat) (position : Position) : Reader Node :=
  match fuel with
  | 0 => failure
  | fuel + 1 => do
    match ← peek with
    | some (.scalar _ _) | some .flowSequenceStart | some .flowMappingStart =>
      readContent fuel position
    | some .blockSequenceStart | some .blockMappingStart =>
      if position.inBlock then readContent fuel position else return blank
    | some .blockEntry =>
      if position == .entry then readContent fuel position else return blank
    | _ => return blank

/-- Reads the content of a node. -/
def readContent (fuel : Nat) (position : Position) : Reader Node :=
  match fuel with
  | 0 => failure
  | fuel + 1 => do
    match ← peek with
    | some (.scalar isPlain text) =>
      advance
      return scalar isPlain text
    | some .flowSequenceStart =>
      advance
      return sequence (← readFlowItems fuel true)
    | some .flowMappingStart =>
      advance
      return mapping (← readFlowEntries fuel true)
    | some .blockSequenceStart =>
      if !position.inBlock then failure
      advance
      return sequence (← readBlockItems fuel true)
    | some .blockMappingStart =>
      if !position.inBlock then failure
      advance
      return mapping (← readBlockEntries fuel)
    | some .blockEntry =>
      if position != .entry then failure
      return sequence (← readBlockItems fuel false)
    | _ => failure

/-- Reads the items of a block sequence, which has an end of its own only if it is indented. -/
def readBlockItems (fuel : Nat) (indented : Bool) : Reader (List Node) :=
  match fuel with
  | 0 => failure
  | fuel + 1 => do
    match ← peek with
    | some .blockEntry =>
      advance
      let item ← readOrBlank fuel (if indented then .item else .looseItem)
      return item :: (← readBlockItems fuel indented)
    | _ =>
      if indented then expect .blockEnd
      return []

/-- Reads the entries of a block mapping. -/
def readBlockEntries (fuel : Nat) : Reader (List (Node × Node)) :=
  match fuel with
  | 0 => failure
  | fuel + 1 => do
    match ← peek with
    | some .key =>
      advance
      let key ← readOrBlank fuel .entry
      let value ← readValue fuel .entry
      return (key, value) :: (← readBlockEntries fuel)
    | _ =>
      expect .blockEnd
      return []

/-- Reads a value with the colon before it, if there is one. -/
def readValue (fuel : Nat) (position : Position) : Reader Node :=
  match fuel with
  | 0 => failure
  | fuel + 1 => do
    match ← peek with
    | some .value =>
      advance
      readOrBlank fuel position
    | _ => return blank

/-- Reads items between square brackets, with a comma before each but the first; a key there makes an
item that is a mapping of one entry. -/
def readFlowItems (fuel : Nat) (isFirst : Bool) : Reader (List Node) :=
  match fuel with
  | 0 => failure
  | fuel + 1 => do
    if (← peek) != some .flowSequenceEnd && !isFirst then expect .flowEntry
    match ← peek with
    | some .flowSequenceEnd =>
      advance
      return []
    | some .key =>
      advance
      let key ← readItemKey fuel
      let value ← readValue fuel .flowItem
      return mapping [(key, value)] :: (← readFlowItems fuel false)
    | _ =>
      let item ← read fuel .flowItem
      return item :: (← readFlowItems fuel false)

/-- Reads the key of an item that is a mapping.  If the key is left out, the token that shows this is
passed over as well. -/
def readItemKey (fuel : Nat) : Reader Node :=
  match fuel with
  | 0 => failure
  | fuel + 1 => do
    if (← peek).any Position.flowItem.isLeftOut then
      advance
      return blank
    else read fuel .flowItem

/-- Reads entries between curly brackets, with a comma before each but the first; without a colon an
entry has no value. -/
def readFlowEntries (fuel : Nat) (isFirst : Bool) : Reader (List (Node × Node)) :=
  match fuel with
  | 0 => failure
  | fuel + 1 => do
    if (← peek) != some .flowMappingEnd && !isFirst then expect .flowEntry
    match ← peek with
    | some .flowMappingEnd =>
      advance
      return []
    | some .key =>
      advance
      let key ← readOrBlank fuel .flowEntry
      let value ← readValue fuel .flowEntry
      return (key, value) :: (← readFlowEntries fuel false)
    | _ =>
      let key ← read fuel .flowEntry
      return (key, blank) :: (← readFlowEntries fuel false)

end

end Node

/-! ## Documents -/

namespace Document

/-- Reads the node of a document, after its mark if there is one. -/
def readRoot (fuel : Nat) : Node.Reader Node := do
  match ← Node.peek with
  | none => return .blank
  | some .documentStart =>
    Node.advance
    match ← Node.peek with
    | none | some .documentStart | some .documentEnd => return .blank
    | _ => Node.read fuel .item
  | _ => Node.read fuel .item

/-- The only document that tokens form.  A step of reading takes a token or leads at once to one
that does, so three steps for each token are enough. -/
def ofTokens? (tokens : List Token) : Option Document := do
  let (root, progress) ← (readRoot (3 * tokens.length + 8)).run { tokens }
  if progress.tokens.all (· == .documentEnd) then some { root, named := progress.named } else none

/-- The only document of a text. -/
def ofText? (text : String) : Option Document := do
  ofTokens? (← tokens? (← normalize? text))

end Document

end Clearance.Yaml
