/-!
# Characters of YAML text

The classes of characters that the layout of YAML text rests on, and the form in which a text is
read: every character in it is allowed, and lines end alike.
-/

namespace Clearance.Yaml

/-- A line break.  The two Unicode separators are breaks as well, and are kept as they are. -/
def isBreak (c : Char) : Bool := c == '\n' || c == '\u2028' || c == '\u2029'

/-- A blank. -/
def isBlank (c : Char) : Bool := c == ' ' || c == '\t'

/-- The byte order mark, which may stand at the start of every line. -/
def byteOrderMark : Char := '\ufeff'

/-- Whether a text is at an end, a line break or a blank. -/
def startsBlank : List Char → Bool
  | [] => true
  | c :: _ => isBlank c || isBreak c

/-- The characters that end a plain scalar inside brackets. -/
def isFlowIndicator (c : Char) : Bool := c == ',' || c == '[' || c == ']' || c == '\x7b' || c == '\x7d'

/-- The characters that cannot start a plain scalar, or only before certain others. -/
def isIndicator (c : Char) : Bool :=
  isFlowIndicator c || ['-', '?', ':', '#', '&', '*', '!', '|', '>', '\'', '"', '%', '@', '\x60'].contains c

/-- The characters of the name of an anchor. -/
def isNameChar (c : Char) : Bool := c.isAlphanum || c == '_' || c == '-'

/-- Whether a line that starts with this text is the mark of a document, three of one character. -/
def isDocumentMark (mark : Char) : List Char → Bool
  | a :: b :: c :: rest => a == mark && b == mark && c == mark && startsBlank rest
  | _ => false

/-- Whether a line that starts with this text begins or ends a document. -/
def isAnyDocumentMark (text : List Char) : Bool :=
  isDocumentMark '-' text || isDocumentMark '.' text

/-! ## Normal form -/

/-- The characters that a text can hold: no control characters but the tab and line breaks, and not
the two code points before the supplementary planes. -/
def isAllowed (c : Char) : Bool :=
  let n := c.toNat
  n == 0x09 || n == 0x0A || n == 0x0D || (0x20 ≤ n && n ≤ 0x7E) || n == 0x85
    || (0xA0 ≤ n && n ≤ 0xFFFD) || 0x10000 ≤ n

/-- Ends every line with a line feed, whether it ended with that, a carriage return, both, or the
control character for the next line. -/
def joinBreaks : List Char → List Char
  | [] => []
  | '\r' :: '\n' :: rest => '\n' :: joinBreaks rest
  | c :: rest => (if c == '\r' || c == '\u0085' then '\n' else c) :: joinBreaks rest

/-- The characters of a text in normal form, if all of them are allowed. -/
def normalize? (text : String) : Option (List Char) :=
  if text.toList.all isAllowed then some (joinBreaks text.toList) else none

end Clearance.Yaml
