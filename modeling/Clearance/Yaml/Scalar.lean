import Clearance.Digit
import Clearance.Yaml.Character

/-!
# Scalars of YAML text

A scalar is written plain, between quotes, or as a block of indented lines.  Each reader here takes
the text from the start of a scalar and gives the characters denoted and the number of those read.
-/

namespace Clearance.Yaml

/-! ## White space inside a scalar -/

/-- Line breaks that stand for one gap: a single line feed is a space, of several the first is
dropped. -/
def foldBreaks : List Char → List Char
  | ['\n'] => [' ']
  | '\n' :: more => more
  | breaks => breaks

/-- White space whose meaning is settled by what follows; what is read is kept last first. -/
inductive Gap
  /-- Blanks on one line. -/
  | blanks (read : List Char)
  /-- Line breaks; the blanks around them do not count. -/
  | breaks (read : List Char)
  /-- Line breaks after one that has been escaped. -/
  | afterEscape (read : List Char)
  deriving Inhabited

namespace Gap

/-- No white space. -/
def empty : Gap := blanks []

/-- Whether there is any white space. -/
def isEmpty : Gap → Bool
  | blanks [] => true
  | _ => false

/-- Whether a line has been ended. -/
def endsLine : Gap → Bool
  | blanks _ => false
  | _ => true

/-- The gap with one more blank. -/
def addBlank (c : Char) : Gap → Gap
  | blanks read => blanks (c :: read)
  | gap => gap

/-- The gap with one more line break. -/
def addBreak (c : Char) : Gap → Gap
  | blanks _ => breaks [c]
  | breaks read => breaks (c :: read)
  | afterEscape read => afterEscape (c :: read)

/-- The characters that a gap stands for, put before the text read so far, last first. -/
def onto (text : List Char) : Gap → List Char
  | blanks read => read ++ text
  | breaks read => (foldBreaks read.reverse).reverse ++ text
  | afterEscape read => read ++ text

end Gap

/-- What is read of a scalar: the characters denoted, last first, the gap after them, and the number
of characters of the text that make them up. -/
structure Draft where
  text : List Char := []
  gap : Gap := .empty
  used : Nat := 0

namespace Draft

/-- Goes on by a character that denotes nothing by itself. -/
def pass (read : Draft) : Draft := { read with used := read.used + 1 }

/-- Settles what the gap stands for. -/
def settle (read : Draft) : Draft :=
  { read with text := read.gap.onto read.text, gap := .empty }

/-- Goes on by a character, the last of those that denote `c`. -/
def push (c : Char) (read : Draft) : Draft :=
  let settled := read.settle.pass
  { settled with text := c :: settled.text }

/-- Goes on by a blank or a line break. -/
def space (c : Char) (read : Draft) : Draft :=
  { read.pass with gap := if isBreak c then read.gap.addBreak c else read.gap.addBlank c }

/-- The column after a blank or a line break. -/
def columnAfter (c : Char) (column : Nat) : Nat := if isBreak c then 0 else column + 1

end Draft

/-- A scalar as read: the characters denoted, the number of characters read, and whether a line was
ended after the last of them. -/
structure Scalar where
  chars : List Char
  used : Nat
  endsLine : Bool := false

/-- The scalar that ends before the gap. -/
def Draft.finish (read : Draft) : Scalar :=
  { chars := read.text.reverse, used := read.used, endsLine := read.gap.endsLine }

/-- The scalar that ends after the gap and one more character. -/
def Draft.close (read : Draft) : Scalar :=
  { chars := read.settle.text.reverse, used := read.used + 1 }

/-! ## Plain scalars -/

/-- Whether a plain scalar ends before this text: at a colon before white space, and in brackets at
an indicator of brackets. -/
def endsPlain (inFlow : Bool) : List Char → Bool
  | [] => true
  | c :: rest => (c == ':' && startsBlank rest) || (inFlow && isFlowIndicator c)

/-- Whether this text holds a colon that has no meaning in brackets. -/
def isStrayColon : List Char → Bool
  | ':' :: c :: _ => isFlowIndicator c || c == '?'
  | _ => false

/-- Whether a plain scalar ends at a word that follows white space: at a comment, at the mark of a
document, and outside brackets on a line that is indented too little. -/
def endsPlainAtWord (inFlow : Bool) (indent column : Nat) (endsLine : Bool) (text : List Char) :
    Bool :=
  text.head? == some '#' || (column == 0 && isAnyDocumentMark text)
    || (endsLine && !inFlow && column < indent)

/-- Reads a plain scalar.  Outside brackets its later lines are indented by `indent` at least; a tab
must not stand in for that. -/
def readPlain (inFlow : Bool) (indent column : Nat) (read : Draft) :
    List Char → Option Scalar
  | [] => some read.finish
  | c :: rest =>
    if isBlank c || isBreak c then
      if c == '\t' && read.gap.endsLine && column < indent then none
      else readPlain inFlow indent (Draft.columnAfter c column) (read.space c) rest
    else if !read.gap.isEmpty
        && endsPlainAtWord inFlow indent column read.gap.endsLine (c :: rest) then
      some read.finish
    else if inFlow && isStrayColon (c :: rest) then none
    else if endsPlain inFlow (c :: rest) then some read.finish
    else readPlain inFlow indent (column + 1) (read.push c) rest

/-! ## Quoted scalars -/

/-- Reads a scalar between single quotes, from after the first; a quote inside is written twice. -/
def readSingleQuoted (column : Nat) (read : Draft) : List Char → Option Scalar
  | [] => none
  | '\'' :: '\'' :: rest => readSingleQuoted (column + 2) (read.pass.push '\'') rest
  | c :: rest =>
    if column == 0 && isAnyDocumentMark (c :: rest) then none
    else if c == '\'' then some read.close
    else if isBlank c || isBreak c then
      readSingleQuoted (Draft.columnAfter c column) (read.space c) rest
    else readSingleQuoted (column + 1) (read.push c) rest

/-- The character that a one-letter escape names. -/
def ofEscape? : Char → Option Char
  | '0' => some '\x00'
  | 'a' => some '\x07'
  | 'b' => some '\x08'
  | 't' | '\t' => some '\t'
  | 'n' => some '\n'
  | 'v' => some '\x0b'
  | 'f' => some '\x0c'
  | 'r' => some '\r'
  | 'e' => some '\x1b'
  | ' ' => some ' '
  | '"' => some '"'
  | '/' => some '/'
  | '\\' => some '\\'
  | 'N' => some '\u0085'
  | '_' => some '\u00a0'
  | 'L' => some '\u2028'
  | 'P' => some '\u2029'
  | _ => none

/-- The number of hexadecimal digits after the letter of an escape. -/
def escapeDigits? : Char → Option Nat
  | 'x' => some 2
  | 'u' => some 4
  | 'U' => some 8
  | _ => none

/-- Where a reader stands in a scalar between double quotes. -/
inductive QuotePlace
  /-- Among its characters. -/
  | among
  /-- After the backslash of an escape. -/
  | escape
  /-- Among the digits of an escape, of which `missing` are still to come. -/
  | code (value missing : Nat)

/-- The character of a code point that is no surrogate. -/
def charOfCode? (value : Nat) : Option Char :=
  if value.isValidChar then some (Char.ofNat value) else none

/-- Reads a scalar between double quotes, from after the first.  An escaped line break leaves no
trace, and neither do the blanks after it. -/
def readDoubleQuoted (column : Nat) (read : Draft) (place : QuotePlace) :
    List Char → Option Scalar
  | [] => none
  | c :: rest =>
    match place with
    | .among =>
      if column == 0 && isAnyDocumentMark (c :: rest) then none
      else if c == '"' then some read.close
      else if isBlank c || isBreak c then
        readDoubleQuoted (Draft.columnAfter c column) (read.space c) .among rest
      else if c == '\\' then
        readDoubleQuoted (column + 1) read.settle.pass .escape rest
      else readDoubleQuoted (column + 1) (read.push c) .among rest
    | .escape =>
      if isBreak c then
        readDoubleQuoted 0 { read.pass with gap := .afterEscape [] } .among rest
      else match escapeDigits? c with
        | some digits => readDoubleQuoted (column + 1) read.pass (.code 0 digits) rest
        | none => do
          let named ← ofEscape? c
          readDoubleQuoted (column + 1) (read.push named) .among rest
    | .code value missing => do
      let value := value * 16 + (← digitValue? c)
      if missing ≤ 1 then
        readDoubleQuoted (column + 1) (read.push (← charOfCode? value)) .among rest
      else readDoubleQuoted (column + 1) read.pass (.code value (missing - 1)) rest

/-! ## Block scalars -/

/-- What becomes of the line breaks at the end of a block. -/
inductive Chomping
  | strip | clip | keep

/-- The header of a block: whether it is folded, how it ends, and its indentation if it is given. -/
structure BlockHeader where
  folded : Bool
  chomping : Chomping := .clip
  indentation : Option Nat := none

/-- The sign of a header that says how the block ends. -/
def chompingOf? : Char → Option Chomping
  | '+' => some .keep
  | '-' => some .strip
  | _ => none

/-- The digit of a header that gives the indentation. -/
def indentationOf? (c : Char) : Option Nat :=
  if c.isDigit && c != '0' then some (c.toNat - '0'.toNat) else none

/-- The header that the line after the sign of a block is.  The sign that says how the block ends and
the digit of its indentation come first, in either order and each at most once; after them there are
only blanks and a comment. -/
def BlockHeader.ofLine? (folded : Bool) (line : List Char) : Option BlockHeader :=
  let isSign (c : Char) : Bool := !isBlank c && c != '#'
  let word := line.takeWhile isSign
  let comment := (line.dropWhile isSign).dropWhile isBlank
  if !comment.isEmpty && comment.head? != some '#' then none
  else match word with
    | [] => some { folded }
    | [a] =>
      match chompingOf? a, indentationOf? a with
      | some chomping, _ => some { folded, chomping }
      | none, some digit => some { folded, indentation := some digit }
      | none, none => none
    | [a, b] =>
      match chompingOf? a, indentationOf? b, indentationOf? a, chompingOf? b with
      | some chomping, some digit, _, _ | _, _, some digit, some chomping =>
        some { folded, chomping, indentation := some digit }
      | _, _, _, _ => none
    | _ => none

/-- The widest column that spaces reach on the empty lines of a text and on the first line after
them; a tab must not follow them. -/
def widestMargin? (column widest : Nat) : List Char → Option Nat
  | [] => some (max column widest)
  | c :: rest =>
    if c == ' ' then widestMargin? (column + 1) widest rest
    else if c == '\t' then none
    else if isBreak c then widestMargin? 0 (max column widest) rest
    else some (max column widest)

/-- What is read of a block; lists are kept last first. -/
structure BlockDraft where
  text : List Char := []
  /-- The break at the end of the last line with text. -/
  lineEnd : List Char := []
  /-- The breaks of the empty lines after it. -/
  emptyLines : List Char := []
  /-- Whether the last line with text starts with a blank. -/
  startsBlank : Bool := false
  /-- The number of characters of the text read. -/
  used : Nat := 0

namespace BlockDraft

/-- Starts a line with text.  In a folded block the break before it is a space, or nothing if empty
lines follow it, unless either line starts with a blank. -/
def startLine (folded : Bool) (c : Char) (read : BlockDraft) : BlockDraft :=
  let folds := folded && read.lineEnd == ['\n'] && !read.startsBlank && !isBlank c
  let ending :=
    if folds then (if read.emptyLines.isEmpty then [' '] else []) else read.lineEnd
  { text := c :: (read.emptyLines ++ ending ++ read.text), startsBlank := isBlank c
    used := read.used + 1 }

/-- Goes on by a space of an indentation. -/
def addMargin (read : BlockDraft) : BlockDraft := { read with used := read.used + 1 }

/-- Goes on by a character of a line with text. -/
def addChar (c : Char) (read : BlockDraft) : BlockDraft :=
  { read with text := c :: read.text, used := read.used + 1 }

/-- Goes on by the break that ends a line with text. -/
def endLine (c : Char) (read : BlockDraft) : BlockDraft :=
  { read with lineEnd := [c], used := read.used + 1 }

/-- Goes on by the break that ends an empty line. -/
def endEmptyLine (c : Char) (read : BlockDraft) : BlockDraft :=
  { read with emptyLines := c :: read.emptyLines, used := read.used + 1 }

/-- The scalar of a block that is complete. -/
def finish (chomping : Chomping) (read : BlockDraft) : Scalar :=
  let kept := match chomping with
    | .strip => []
    | .clip => read.lineEnd
    | .keep => read.emptyLines ++ read.lineEnd
  { chars := (kept ++ read.text).reverse, used := read.used, endsLine := true }

end BlockDraft

/-- Reads the lines of a block, which are indented by `indent`; `margin` is the column reached in the
indentation of a line, and nothing inside its text. -/
def readBlock (chomping : Chomping) (folded : Bool) (indent : Nat) (margin : Option Nat)
    (read : BlockDraft) : List Char → Option Scalar
  | [] => some (read.finish chomping)
  | c :: rest =>
    match margin with
    | none =>
      if isBreak c then readBlock chomping folded indent (some 0) (read.endLine c) rest
      else readBlock chomping folded indent none (read.addChar c) rest
    | some column =>
      if column < indent && c == ' ' then
        readBlock chomping folded indent (some (column + 1)) read.addMargin rest
      else if column < indent && c == '\t' then none
      else if isBreak c then readBlock chomping folded indent (some 0) (read.endEmptyLine c) rest
      else if column == indent then
        readBlock chomping folded indent none (read.startLine folded c) rest
      else some (read.finish chomping)

/-- Reads a block scalar, from after the sign that starts it, inside lines that are indented by one
less than `least`.  Where the header gives no indentation, the first lines do. -/
def readBlockScalar (folded : Bool) (least : Nat) (text : List Char) : Option Scalar := do
  let line := text.takeWhile (!isBreak ·)
  let lines := (text.dropWhile (!isBreak ·)).drop 1
  let header ← BlockHeader.ofLine? folded line
  let indent ← match header.indentation with
    | some digit => pure (least - 1 + digit)
    | none => do
      let margin ← widestMargin? 0 0 lines
      pure (max margin (max least 1))
  readBlock header.chomping folded indent (some 0) { used := line.length + 1 } lines

end Clearance.Yaml
