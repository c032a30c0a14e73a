import DocCoverage.Pattern.Anchor
import DocCoverage.Pattern.Reader

/-!
# Atoms of patterns

An atom is the smallest part of a pattern: a character, a dot, an anchor or an escape. An escape
is a backslash and what belongs to it, and stands for a character, a set or an anchor.

The escapes are those that the documentation of the regex library lists. Properties of characters
(`\p`) and the Unicode sets are parts of it that are not built in, and asking for them is refused.
-/

namespace DocCoverage.Pattern

open Text (CharSet)

/-- What an atom stands for. -/
inductive Atom where
  /-- A character. It is a byte if it is written as two hexadecimal digits, and stands for no
  character then without Unicode, unless it is in ASCII. -/
  | char (value : Char) (byte : Bool)
  | set (set : CharSet)
  /-- A condition on a place, which may be an edge of words that are not of ASCII alone. -/
  | anchor (condition : Anchor) (wideEdge : Bool)
  | dot

/-- An atom and where it stands. -/
structure PlacedAtom where
  atom : Atom
  extent : Extent

namespace Reader

/-- The atom that has just been read, from the given place on. -/
def placed (start : Nat) (atom : Atom) : Reader PlacedAtom := return ⟨atom, start, ← place⟩

/-- Whether the character is a hexadecimal digit. -/
def isHexDigit (char : Char) : Bool :=
  char.isDigit || ('a' ≤ char && char ≤ 'f') || ('A' ≤ char && char ≤ 'F')

/-- The number that hexadecimal digits stand for. -/
def hexValue (digits : List Char) : Nat :=
  digits.foldl (fun value digit =>
    let digitValue := if digit.isDigit then digit.toNat - '0'.toNat
      else digit.toLower.toNat - 'a'.toNat + 10
    16 * value + digitValue) 0

/-- The character with the number that hexadecimal digits stand for. -/
def hexChar (digits : List Char) (start stop : Nat) : Reader Char := do
  let value := hexValue digits
  if value.isValidChar then return Char.ofNat value
  else fail .hexNotCharacter start stop

/-- Reads the given number of hexadecimal digits. -/
def hexDigits : Nat → Reader (List Char)
  | 0 => return []
  | count + 1 => do
    match ← peek with
    | none => failHere .escapeCut
    | some digit =>
      if isHexDigit digit then
        stepOver
        return digit :: (← hexDigits count)
      else failAtNext .hexDigit

/-- Reads hexadecimal digits between braces. -/
def bracedHex : Reader Char := do
  let brace ← place
  stepOver
  let digits ← takeWhile isHexDigit
  let stop ← place
  match ← peek with
  | none => fail .escapeCut brace stop
  | some '\x7d' =>
    stepOver
    if digits.isEmpty then fail .hexEmpty brace (← place)
    else hexChar digits (brace + 1) stop
  | some _ => failAtNext .hexDigit

/-- Reads a character by its number, from the letter that says how many digits there are. -/
def hexEscape (start count : Nat) : Reader PlacedAtom := do
  stepOver
  match ← peek with
  | none => failHere .escapeCut
  | some '\x7b' =>
    let char ← bracedHex
    placed start (.char char false)
  | some _ =>
    let first ← place
    let digits ← hexDigits count
    let char ← hexChar digits first (← place)
    placed start (.char char (count == 2))

/-- The name of a property without what does not count when names are compared: case, spaces,
hyphens, underscores, characters beyond ASCII and a leading "is". -/
def propertyName (name : List Char) : String :=
  let bare := match name with
    | first :: second :: rest =>
      if first.toLower = 'i' ∧ second.toLower = 's' then rest else name
    | _ => name
  let counts (char : Char) : Bool :=
    char.toNat < 0x80 && char != ' ' && char != '-' && char != '_'
  String.ofList ((bare.filter counts).map Char.toLower)

/-- The names of properties that are taken for values of the general category. -/
def categoryNames : List String := ["cf", "sc", "lc"]

/-- What is wrong with asking for a property: no property is known. -/
def propertyCause (name : List Char) (unicode : Bool) : Cause :=
  if !unicode then .unicodeOff
  else if categoryNames.contains (propertyName name) then .valueUnknown
  else .propertyUnknown

/-- Ends the request for a property that begins at the given place. -/
def finishProperty (start : Nat) (name : List Char) : Reader PlacedAtom := do
  let extent : Extent := ⟨start, ← place⟩
  complain (propertyCause name (← flags).unicode) extent
  return ⟨.set .empty, extent⟩

/-- Reads the request for a property, from the letter that begins it. -/
def propertyEscape (start : Nat) : Reader PlacedAtom := do
  stepOver
  match ← peek with
  | none => failHere .escapeCut
  | some '\x7b' =>
    stepOver
    let name ← takeWhile (· != '\x7d')
    if (← peek).isNone then failHere .escapeCut
    step
    finishProperty start name
  | some '\\' => failAtNext .propertyInvalid
  | some letter =>
    stepOver
    finishProperty start [letter]

/-- The set that a letter names behind a backslash, if there is one, and whether its complement is
meant. -/
def letterSet? (letter : Char) : Option (CharSet × Bool) :=
  match letter with
  | 'd' => some (.digits, false)
  | 'D' => some (.digits, true)
  | 's' => some (.blanks, false)
  | 'S' => some (.blanks, true)
  | 'w' => some (.word, false)
  | 'W' => some (.word, true)
  | _ => none

/-- The set that a letter names. It is known for ASCII only, and there its complement is no
text. -/
def letterSet (set : CharSet) (negated : Bool) (extent : Extent) : Reader PlacedAtom := do
  if (← flags).unicode then complain .setUnavailable extent
  else if negated then complain .notText extent
  return ⟨.set (if negated then .complement set else set), extent⟩

/-- The control character that a letter names behind a backslash. -/
def control? (letter : Char) : Option Char :=
  match letter with
  | 'a' => some '\x07'
  | 'f' => some '\x0c'
  | 't' => some '\t'
  | 'n' => some '\n'
  | 'r' => some '\r'
  | 'v' => some '\x0b'
  | _ => none

/-- Whether a backslash before the character makes it stand for itself. -/
def isQuotable (char : Char) : Bool :=
  char.toNat < 0x80 && !char.isAlphanum && char != '<' && char != '>'

/-- An edge of words. -/
def wordEdge (edge : WordEdge) : Reader Atom := do
  return .anchor (.word edge) (← flags).unicode

/-- The edges that have names. -/
def edgeNames : List (String × WordEdge) :=
  [("start", .start), ("end", .stop), ("start-half", .startHalf), ("end-half", .stopHalf)]

/-- Reads the name of an edge between braces. What stands between the braces may also be the count
of a repetition, and is then left to be read as such. -/
def namedEdge (start : Nat) : Reader WordEdge := do
  let before ← get
  let brace ← place
  let isNameChar (char : Char) : Bool := char.isAlpha || char == '-'
  stepOver
  match ← peek with
  | none => fail .edgeCut start (← place)
  | some char =>
    if !isNameChar char then
      set before
      return .boundary
    let first ← place
    let name ← takeWhile isNameChar
    let stop ← place
    if (← peek) != some '\x7d' then fail .edgeUnclosed brace stop
    step
    match edgeNames.lookup (String.ofList name) with
    | some edge => return edge
    | none => fail .edgeUnknown first stop

/-- The anchor that a letter names behind a backslash, where the letter has been read. -/
def anchor? (start : Nat) (letter : Char) : Reader (Option Atom) :=
  match letter with
  | 'A' => return some (.anchor .textStart false)
  | 'z' => return some (.anchor .textStop false)
  | 'b' => do
    let edge ← if (← peek) = some '\x7b' then namedEdge start else pure .boundary
    return some (← wordEdge edge)
  | 'B' => return some (← wordEdge .noBoundary)
  | '<' => return some (← wordEdge .start)
  | '>' => return some (← wordEdge .stop)
  | _ => return none

/-- Reads an escape, from its backslash. -/
def escape : Reader PlacedAtom := do
  let start ← place
  step
  match ← peek with
  | none => fail .escapeCut start (← place)
  | some 'x' => hexEscape start 2
  | some 'u' => hexEscape start 4
  | some 'U' => hexEscape start 8
  | some 'p' | some 'P' => propertyEscape start
  | some letter =>
    step
    let stop ← place
    if letter.isDigit then fail .backreference start stop
    if isQuotable letter then return ⟨.char letter false, start, stop⟩
    if let some char := control? letter then return ⟨.char char false, start, stop⟩
    if let some (set, negated) := letterSet? letter then
      return ← letterSet set negated ⟨start, stop⟩
    if let some atom ← anchor? start letter then return ← placed start atom
    fail .escapeUnknown start stop

end Reader

end DocCoverage.Pattern
