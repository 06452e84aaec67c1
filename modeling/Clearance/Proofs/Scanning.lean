import Clearance.Json.Text
import Mathlib.Tactic.Common

/-!
# Scanning spelled tokens

Tokens are scanned back from their spelling, as long as no word is followed by a character of words.
A control character without a letter of its own is escaped by its number, and what is scanned there
is the code unit, not the character; the text of the string is the same.
-/

namespace Clearance.Json

/-! ## Escapes -/

/-- The characters that are escaped by one letter. -/
def lettered : List Char := ['"', '\\', '\x08', '\x0c', '\n', '\r', '\t']

namespace Token

/-- Every one of these characters is escaped by a letter that names it. -/
theorem escape_of_lettered {c : Char} (hc : c ∈ lettered) :
    ∃ letter, escape c = ['\\', letter] ∧ letter ≠ 'u' ∧ ofEscape? letter = some c := by
  simp only [lettered, List.mem_cons, List.not_mem_nil, or_false] at hc
  rcases hc with rfl | rfl | rfl | rfl | rfl | rfl | rfl
  · exact ⟨'"', rfl, by decide, rfl⟩
  · exact ⟨'\\', rfl, by decide, rfl⟩
  · exact ⟨'b', rfl, by decide, rfl⟩
  · exact ⟨'f', rfl, by decide, rfl⟩
  · exact ⟨'n', rfl, by decide, rfl⟩
  · exact ⟨'r', rfl, by decide, rfl⟩
  · exact ⟨'t', rfl, by decide, rfl⟩

/-- A character that is escaped by no letter is escaped by its number if it is a control character,
and stands for itself otherwise. -/
theorem escape_of_not_lettered {c : Char} (hc : c ∉ lettered) :
    escape c = if c.toNat < 0x20 then '\\' :: 'u' :: hexChars c.toNat else [c] := by
  simp only [lettered, List.mem_cons, List.not_mem_nil, or_false, not_or] at hc
  obtain ⟨hquote, hbackslash, hb, hf, hn, hr, ht⟩ := hc
  rw [escape, if_neg hquote, if_neg hbackslash, if_neg hb, if_neg hf, if_neg hn, if_neg hr,
    if_neg ht]

/-- A hexadecimal letter is the digit it spells. -/
theorem digitValue?_hexChar : ∀ digit < 16, digitValue? (hexChar digit) = some digit := by
  decide

end Token

namespace Piece

/-- The piece that is scanned where a piece is spelled. -/
def scanned : Piece → Piece
  | char c => if c ∉ lettered ∧ c.toNat < 0x20 then unit c.toNat else char c
  | unit value => unit value

/-- A code unit that is no surrogate names a character by itself. -/
theorem decode_unit {value : Nat} (hhigh : isHighSurrogate value = false)
    (hlow : isLowSurrogate value = false) (rest : List Piece) :
    decode (unit value :: rest) = (decode rest).map (Char.ofNat value :: ·) := by
  -- a pair of code units is tried first, so that the next piece has to be known
  rcases rest with - | ⟨- | low, rest⟩
  · simp [decode, hhigh, hlow]
  · simp [decode, hhigh, hlow]
  · simp [decode, hhigh, hlow]

/-- The piece that is scanned for a character names that character. -/
theorem decode_scanned (c : Char) (rest : List Piece) :
    decode (scanned (char c) :: rest) = (decode rest).map (c :: ·) := by
  rw [scanned]
  split
  · rename_i hc
    have hhigh : isHighSurrogate c.toNat = false := by
      rw [isHighSurrogate, decide_eq_false (by omega), Bool.false_and]
    have hlow : isLowSurrogate c.toNat = false := by
      rw [isLowSurrogate, decide_eq_false (by omega), Bool.false_and]
    rw [decode_unit hhigh hlow, Char.ofNat_toNat]
  · rfl

/-- The pieces that are scanned for a text have that text. -/
theorem text?_scanned (text : String) : text? ((ofText text).map scanned) = some text := by
  have hdecode : ∀ characters : List Char,
      decode ((characters.map char).map scanned) = some characters := by
    intro characters
    induction characters with
    | nil => rfl
    | cons c rest ih => rw [List.map_cons, List.map_cons, decode_scanned, ih, Option.map_some]
  rw [text?, ofText, hdecode, Option.map_some, String.ofList_toList]

end Piece

namespace Token

/-! ## Steps of a scan -/

/-- The token that is scanned where a token is spelled. -/
def scanned : Token → Token
  | string pieces => string (pieces.map Piece.scanned)
  | token => token

/-- A scan goes on after a character from the place that it leads to. -/
theorem scanFrom_of_step {place next : Place} {c : Char} {tokens : List Token}
    (hstep : step place c = some (tokens, next)) (rest : List Char) :
    scanFrom place (c :: rest) = (scanFrom next rest).map (tokens ++ ·) := by
  rw [scanFrom, hstep]
  show (scanFrom next rest >>= fun others => pure (tokens ++ others)) = _
  cases scanFrom next rest <;> rfl

/-- A character that ends no token only changes the place. -/
theorem scanFrom_of_silent {place next : Place} {c : Char}
    (hstep : step place c = some ([], next)) (rest : List Char) :
    scanFrom place (c :: rest) = scanFrom next rest := by
  rw [scanFrom_of_step hstep]
  exact Option.map_id'

/-- A backslash begins an escape. -/
theorem step_backslash (pieces : List Piece) :
    step (.inString pieces) '\\' = some ([], .inEscape pieces) := rfl

/-- An escape by a letter is scanned as the character it names. -/
theorem scanFrom_letter {letter named : Char} (hu : letter ≠ 'u')
    (hnamed : ofEscape? letter = some named) (pieces : List Piece) (rest : List Char) :
    scanFrom (.inString pieces) ('\\' :: letter :: rest) =
      scanFrom (.inString (.char named :: pieces)) rest := by
  have hletter : step (.inEscape pieces) letter = some ([], .inString (.char named :: pieces)) := by
    simp [step, hu, hnamed]
  rw [scanFrom_of_silent (step_backslash pieces), scanFrom_of_silent hletter]

/-- A digit of an escape is added to its value; the last one ends the escape. -/
theorem scanFrom_digit {digit : Nat} (hdigit : digit < 16) (pieces : List Piece)
    (value missing : Nat) (rest : List Char) :
    scanFrom (.inUnit pieces value missing) (hexChar digit :: rest) =
      scanFrom (if missing ≤ 1 then .inString (.unit (value * 16 + digit) :: pieces)
        else .inUnit pieces (value * 16 + digit) (missing - 1)) rest := by
  refine scanFrom_of_silent ?_ rest
  simp only [step, digitValue?_hexChar digit hdigit]
  split <;> rfl

/-- An escape by a number of sixteen bits is scanned as that code unit. -/
theorem scanFrom_hexChars {value : Nat} (hvalue : value < 0x10000) (pieces : List Piece)
    (rest : List Char) :
    scanFrom (.inString pieces) ('\\' :: 'u' :: (hexChars value ++ rest)) =
      scanFrom (.inString (.unit value :: pieces)) rest := by
  have hu : step (.inEscape pieces) 'u' = some ([], .inUnit pieces 0 4) := rfl
  have hdigits : (((0 * 16 + value / 4096 % 16) * 16 + value / 256 % 16) * 16 +
      value / 16 % 16) * 16 + value % 16 = value := by omega
  have hdigit : ∀ n : Nat, n % 16 < 16 := fun n => Nat.mod_lt n (by decide)
  rw [scanFrom_of_silent (step_backslash pieces), scanFrom_of_silent hu, hexChars]
  simp only [List.cons_append, List.nil_append]
  rw [scanFrom_digit (hdigit _), if_neg (by decide), scanFrom_digit (hdigit _),
    if_neg (by decide), scanFrom_digit (hdigit _), if_neg (by decide), scanFrom_digit (hdigit _),
    if_pos (by decide), hdigits]

/-- A character of a string is scanned back from its spelling. -/
theorem scanFrom_escape (c : Char) (pieces : List Piece) (rest : List Char) :
    scanFrom (.inString pieces) (escape c ++ rest) =
      scanFrom (.inString (Piece.scanned (.char c) :: pieces)) rest := by
  by_cases hc : c ∈ lettered
  · obtain ⟨letter, hescape, hu, hnamed⟩ := escape_of_lettered hc
    rw [hescape, Piece.scanned, if_neg fun h => h.1 hc]
    exact scanFrom_letter hu hnamed pieces rest
  · rw [escape_of_not_lettered hc, Piece.scanned]
    by_cases hcontrol : c.toNat < 0x20
    · rw [if_pos hcontrol, if_pos ⟨hc, hcontrol⟩]
      exact scanFrom_hexChars (by omega) pieces rest
    · rw [if_neg hcontrol, if_neg fun h => hcontrol h.2]
      simp only [lettered, List.mem_cons, not_or] at hc
      refine scanFrom_of_silent ?_ rest
      simp [step, hc.1, hc.2.1, hcontrol]

/-- The characters of a string are scanned back from their spelling. -/
theorem scanFrom_characters (characters : List Char) (pieces : List Piece) (rest : List Char) :
    scanFrom (.inString pieces) ((characters.map Piece.char).flatMap pieceChars ++ rest) =
      scanFrom (.inString (((characters.map Piece.char).map Piece.scanned).reverse ++ pieces))
        rest := by
  induction characters generalizing pieces with
  | nil => rfl
  | cons c characters ih =>
      rw [List.map_cons, List.flatMap_cons, List.append_assoc, pieceChars, scanFrom_escape, ih,
        List.map_cons, List.reverse_cons, List.append_assoc, List.singleton_append]

/-! ## Tokens that are scanned back -/

/-- Whether a token is spelled by a single mark. -/
def isMark : Token → Bool
  | word _ | string _ => false
  | _ => true

/-- A text that does not go on with a word. -/
def EndsWord (text : List Char) : Prop := ∀ c ∈ text.head?, isWordChar c = false

/-- Tokens that are scanned back from their spelling, before any text that does not go on with a
word. -/
def Scans (tokens : List Token) : Prop :=
  ∀ rest, EndsWord rest → scanFrom .between (tokens.flatMap chars ++ rest) =
    (scanFrom .between rest).map (tokens.map scanned ++ ·)

/-- The text after tokens that begin with a mark does not go on with a word. -/
theorem endsWord_flatMap {tokens : List Token} (hmark : ∀ token ∈ tokens.head?, token.isMark = true)
    {rest : List Char} (hrest : EndsWord rest) : EndsWord (tokens.flatMap chars ++ rest) := by
  cases tokens with
  | nil => exact hrest
  | cons token tokens =>
      have htoken := hmark token rfl
      intro c hc
      cases token with
      | word | string => cases htoken
      | openArray | closeArray | openObject | closeObject | comma | colon =>
          cases hc
          rfl

/-- Tokens are scanned back one part after another. -/
theorem Scans.append {first second : List Token} (hfirst : Scans first) (hsecond : Scans second)
    (hmark : ∀ token ∈ second.head?, token.isMark = true) : Scans (first ++ second) := by
  intro rest hrest
  rw [List.flatMap_append, List.append_assoc, hfirst _ (endsWord_flatMap hmark hrest),
    hsecond rest hrest, Option.map_map, List.map_append]
  simp only [Function.comp_def, List.append_assoc]

/-- A mark is scanned back before anything. -/
theorem Scans.mark {token : Token} (hmark : token.isMark = true) {tokens : List Token}
    (htokens : Scans tokens) : Scans (token :: tokens) := by
  intro rest hrest
  have hstep : scanFrom .between (token.chars ++ (tokens.flatMap chars ++ rest)) =
      (scanFrom .between (tokens.flatMap chars ++ rest)).map ([token.scanned] ++ ·) := by
    cases token with
    | word | string => cases hmark
    | openArray | closeArray | openObject | closeObject | comma | colon =>
        exact scanFrom_of_step rfl _
  rw [List.flatMap_cons, List.append_assoc, hstep, htokens rest hrest, Option.map_map]
  rfl

/-- No token is scanned from no text. -/
theorem scans_nil : Scans [] := by
  intro rest _
  exact Option.map_id'.symm

/-- A text in quotes is scanned back before anything. -/
theorem Scans.string (text : String) {tokens : List Token} (htokens : Scans tokens) :
    Scans (.string (Piece.ofText text) :: tokens) := by
  intro rest hrest
  have hopen : step .between '"' = some ([], .inString []) := rfl
  have hclose : ∀ pieces, step (.inString pieces) '"' =
      some ([.string pieces.reverse], .between) := fun _ => rfl
  rw [List.flatMap_cons, chars, List.cons_append, List.cons_append, List.append_assoc,
    List.append_assoc, scanFrom_of_silent hopen, Piece.ofText, scanFrom_characters,
    List.append_nil, List.singleton_append, scanFrom_of_step (hclose _), htokens rest hrest,
    Option.map_map, List.reverse_reverse]
  rfl

/-- Letters are added to the word that is being scanned. -/
theorem scanFrom_letters {letters : List Char} (hletters : ∀ c ∈ letters, isWordChar c = true)
    (before rest : List Char) :
    scanFrom (.inWord before) (letters ++ rest) =
      scanFrom (.inWord (letters.reverse ++ before)) rest := by
  induction letters generalizing before with
  | nil => rfl
  | cons c letters ih =>
      obtain ⟨hc, hletters⟩ := List.forall_mem_cons.1 hletters
      have hstep : step (.inWord before) c = some ([], .inWord (c :: before)) := by
        rw [step, if_pos hc]
      rw [List.cons_append, scanFrom_of_silent hstep, ih hletters, List.reverse_cons,
        List.append_assoc, List.singleton_append]

/-- A word ends before a text that does not go on with a word. -/
theorem scanFrom_inWord {rest : List Char} (hrest : EndsWord rest) (letters : List Char) :
    scanFrom (.inWord letters) rest =
      (scanFrom .between rest).map (.word letters.reverse :: ·) := by
  cases rest with
  | nil => rfl
  | cons c rest =>
      have hc : isWordChar c = false := hrest c rfl
      -- the character that ends a word is read as if it stood between two tokens
      have hinWord : step (.inWord letters) c =
          (stepBetween c).map fun read => (.word letters.reverse :: read.1, read.2) := by
        rw [step, if_neg (by simp [hc])]
      cases hbetween : stepBetween c with
      | none =>
          rw [hbetween] at hinWord
          rw [scanFrom, scanFrom, hinWord, step, hbetween]
          rfl
      | some read =>
          rw [hbetween] at hinWord
          have hstep : step .between c = some read := hbetween
          rw [scanFrom_of_step hinWord, scanFrom_of_step hstep, Option.map_map]
          rfl

/-- A character of words is the first letter of one. -/
theorem step_between_of_isWordChar {c : Char} (hc : isWordChar c = true) :
    step .between c = some ([], .inWord [c]) := by
  -- neither blanks nor the quote are characters of words
  have hother : ∀ other, isWordChar other = false → c ≠ other := by
    rintro other hother rfl
    rw [hother] at hc
    cases hc
  simp [step, stepBetween, isBlank, hother ' ' rfl, hother '\t' rfl, hother '\n' rfl,
    hother '\r' rfl, hother '"' rfl, hc]

/-- A word is scanned back. -/
theorem scans_word {letters : List Char} (hne : letters ≠ [])
    (hletters : letters.all isWordChar = true) : Scans [.word letters] := by
  intro rest hrest
  rw [List.all_eq_true] at hletters
  cases letters with
  | nil => exact absurd rfl hne
  | cons c letters =>
      obtain ⟨hc, hletters⟩ := List.forall_mem_cons.1 hletters
      rw [List.flatMap_singleton, chars, List.cons_append,
        scanFrom_of_silent (step_between_of_isWordChar hc), scanFrom_letters hletters,
        scanFrom_inWord hrest, List.reverse_append, List.reverse_reverse]
      rfl

end Token

end Clearance.Json
