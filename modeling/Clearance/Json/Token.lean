import Clearance.Digit

/-!
# Tokens of JSON text

JSON text is a sequence of tokens with blanks between them.  A token is kept as it is written: a
string holds its characters and the code units that its escapes name, and a word holds the letters
of a literal or of a numeral.  `Token.scan` cuts a text into tokens, `Token.chars` spells one.
-/

namespace Clearance.Json

/-! ## Strings as written -/

/-- One piece of a string as written: a character, or a code unit of sixteen bits named by an
escape. -/
inductive Piece
  | char (c : Char)
  | unit (value : Nat)
  deriving DecidableEq, Inhabited

namespace Piece

/-- The first half of a surrogate pair. -/
def isHighSurrogate (value : Nat) : Bool := 0xD800 ≤ value && value ≤ 0xDBFF

/-- The second half of a surrogate pair. -/
def isLowSurrogate (value : Nat) : Bool := 0xDC00 ≤ value && value ≤ 0xDFFF

/-- The characters of a string; a surrogate that is not part of a pair names none. -/
def decode : List Piece → Option (List Char)
  | [] => some []
  | char c :: rest => (decode rest).map (c :: ·)
  | unit high :: unit low :: rest =>
    if isHighSurrogate high then
      if isLowSurrogate low then
        (decode rest).map
          (Char.ofNat (0x10000 + (high - 0xD800) * 0x400 + (low - 0xDC00)) :: ·)
      else none
    else if isLowSurrogate high then none
    else (decode (unit low :: rest)).map (Char.ofNat high :: ·)
  | unit value :: rest =>
    if isHighSurrogate value || isLowSurrogate value then none
    else (decode rest).map (Char.ofNat value :: ·)

/-- The text of a string, if every surrogate in it is paired. -/
def text? (pieces : List Piece) : Option String := (decode pieces).map String.ofList

/-- A text as pieces: every character stands for itself. -/
def ofText (text : String) : List Piece := text.toList.map char

end Piece

/-! ## Tokens -/

/-- A token of JSON text. -/
inductive Token
  | openArray | closeArray | openObject | closeObject | comma | colon
  /-- A literal or a numeral, not yet told apart. -/
  | word (letters : List Char)
  | string (pieces : List Piece)
  deriving DecidableEq, Inhabited

namespace Token

/-- The four blanks between tokens. -/
def isBlank (c : Char) : Bool := c == ' ' || c == '\t' || c == '\n' || c == '\r'

/-- The characters of literals and numerals. -/
def isWordChar (c : Char) : Bool := c.isAlphanum || c == '+' || c == '-' || c == '.'

/-- The token that a single character makes. -/
def ofPunctuation? : Char → Option Token
  | '[' => some openArray
  | ']' => some closeArray
  | '\x7b' => some openObject
  | '\x7d' => some closeObject
  | ',' => some comma
  | ':' => some colon
  | _ => none

/-- The character that a one-letter escape names. -/
def ofEscape? : Char → Option Char
  | '"' => some '"'
  | '\\' => some '\\'
  | '/' => some '/'
  | 'b' => some '\x08'
  | 'f' => some '\x0c'
  | 'n' => some '\n'
  | 'r' => some '\r'
  | 't' => some '\t'
  | _ => none

/-! ## Scanning -/

/-- Where a scan stands in the text; what has been read of a token is kept last first. -/
inductive Place
  /-- Between two tokens. -/
  | between
  /-- In a literal or a numeral. -/
  | inWord (letters : List Char)
  /-- In a string. -/
  | inString (pieces : List Piece)
  /-- After the backslash of an escape. -/
  | inEscape (pieces : List Piece)
  /-- Among the four digits of an escape, of which `missing` are still to come. -/
  | inUnit (pieces : List Piece) (value missing : Nat)
  deriving Inhabited

/-- Reads a character that stands between two tokens. -/
def stepBetween (c : Char) : Option (List Token × Place) :=
  if isBlank c then some ([], .between)
  else if c == '"' then some ([], .inString [])
  else if isWordChar c then some ([], .inWord [c])
  else (ofPunctuation? c).map fun token => ([token], .between)

/-- Reads one character: the tokens that end with it or before it, and the place after it. -/
def step : Place → Char → Option (List Token × Place)
  | .between, c => stepBetween c
  | .inWord letters, c =>
    if isWordChar c then some ([], .inWord (c :: letters))
    else (stepBetween c).map fun (tokens, place) => (word letters.reverse :: tokens, place)
  | .inString pieces, c =>
    if c == '"' then some ([string pieces.reverse], .between)
    else if c == '\\' then some ([], .inEscape pieces)
    else if c.toNat < 0x20 then none
    else some ([], .inString (.char c :: pieces))
  | .inEscape pieces, c =>
    if c == 'u' then some ([], .inUnit pieces 0 4)
    else (ofEscape? c).map fun named => ([], .inString (.char named :: pieces))
  | .inUnit pieces value missing, c => do
    let value := value * 16 + (← digitValue? c)
    if missing ≤ 1 then pure ([], .inString (.unit value :: pieces))
    else pure ([], .inUnit pieces value (missing - 1))

/-- The tokens of the rest of a text, if it ends between two tokens or in a word. -/
def scanFrom : Place → List Char → Option (List Token)
  | .between, [] => some []
  | .inWord letters, [] => some [word letters.reverse]
  | _, [] => none
  | place, c :: rest => do
    let (tokens, next) ← step place c
    return tokens ++ (← scanFrom next rest)

/-- The tokens of a text. -/
def scan (text : List Char) : Option (List Token) := scanFrom .between text

/-! ## Spelling -/

/-- The letter of a hexadecimal digit, in lower case. -/
def hexChar (digit : Nat) : Char :=
  if digit < 10 then Char.ofNat (48 + digit) else Char.ofNat (87 + digit)

/-- The last four hexadecimal digits of a number. -/
def hexChars (value : Nat) : List Char :=
  [hexChar (value / 4096 % 16), hexChar (value / 256 % 16), hexChar (value / 16 % 16),
    hexChar (value % 16)]

/-- A character inside a string: the quote, the backslash and control characters are escaped, with
one letter where there is one; all others stand for themselves. -/
def escape (c : Char) : List Char :=
  if c = '"' then ['\\', '"']
  else if c = '\\' then ['\\', '\\']
  else if c = '\x08' then ['\\', 'b']
  else if c = '\x0c' then ['\\', 'f']
  else if c = '\n' then ['\\', 'n']
  else if c = '\r' then ['\\', 'r']
  else if c = '\t' then ['\\', 't']
  else if c.toNat < 0x20 then '\\' :: 'u' :: hexChars c.toNat
  else [c]

/-- One piece of a string in its shortest spelling. -/
def pieceChars : Piece → List Char
  | .char c => escape c
  | .unit value => '\\' :: 'u' :: hexChars value

/-- The spelling of a token. -/
def chars : Token → List Char
  | openArray => ['[']
  | closeArray => [']']
  | openObject => ['\x7b']
  | closeObject => ['\x7d']
  | comma => [',']
  | colon => [':']
  | word letters => letters
  | string pieces => '"' :: (pieces.flatMap pieceChars ++ ['"'])

end Token

end Clearance.Json
