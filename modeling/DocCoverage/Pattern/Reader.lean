import DocCoverage.Pattern.Fault
import DocCoverage.Source.Cursor
import DocCoverage.Text.Blank
import DocCoverage.Text.CharSet

/-!
# Reading patterns

A reader goes through the text of a pattern and stops at the first fault in its form. What a
pattern says may be at fault as well, for instance when it asks for a property of characters. The
first such complaint is kept, and counts only if the form of the whole pattern is good.

Flags say how what follows is to be taken. In verbose mode blanks, and comments from a number sign
up to the end of the line, are not part of the pattern. Both are as the documentation of the regex
library has them under grouping and flags.
-/

namespace DocCoverage.Pattern

open Text (CharSet)

/-- How what is read is to be taken. -/
structure Flags where
  ignoreCase : Bool
  /-- Line anchors hold at all lines, and not only at the ends of the text. -/
  multiLine : Bool
  /-- A dot stands for line ends as well. -/
  dotAll : Bool
  /-- Named sets, words and case are meant as in Unicode, and not as in ASCII. They are known for
  ASCII only, so asking for them is complained about. -/
  unicode : Bool
  /-- A carriage return ends a line as well. -/
  crlf : Bool
  verbose : Bool
deriving DecidableEq, Repr

/-- The flags at the beginning of a pattern. -/
def Flags.initial : Flags := ⟨false, false, false, true, false, false⟩

/-- How far a pattern has been read. -/
structure Reading where
  cursor : Cursor Char
  flags : Flags
  /-- The names of groups, with the places where they stand. -/
  names : List (List Char × Extent)
  complaint : Option Fault

/-- A computation that reads a part of a pattern. -/
abbrev Reader := StateT Reading (Except Fault)

namespace Reader

/-- How many characters are left. -/
def left : Reader Nat := return (← get).cursor.left

/-- The place that has been reached. -/
def place : Reader Nat := return (← get).cursor.position

/-- The next character, if there is one. -/
def peek : Reader (Option Char) := return (← get).cursor.peek?

/-- The character behind the next one, if there is one. -/
def peekSecond : Reader (Option Char) := return (← get).cursor.next.peek?

/-- The flags that are in force. -/
def flags : Reader Flags := return (← get).flags

/-- Puts flags into force. -/
def setFlags (flags : Flags) : Reader Unit := modify fun reading => { reading with flags := flags }

/-- Stops at a fault from one place to another. -/
def fail {α : Type} (cause : Cause) (start stop : Nat) : Reader α :=
  throw ⟨cause, ⟨start, stop⟩, none⟩

/-- Stops at a fault between two characters, where reading stands. -/
def failHere {α : Type} (cause : Cause) : Reader α := do
  let place ← place
  fail cause place place

/-- Stops at a fault in the next character. -/
def failAtNext {α : Type} (cause : Cause) : Reader α := do
  let place ← place
  fail cause place (place + 1)

/-- Complains about what characters say, unless there has been a complaint before. -/
def complain (cause : Cause) (extent : Extent) : Reader Unit :=
  modify fun reading =>
    { reading with complaint := reading.complaint <|> some ⟨cause, extent, none⟩ }

/-- Goes past a number of characters. -/
def advance (count : Nat) : Reader Unit :=
  modify fun reading => { reading with cursor := reading.cursor.advance count }

/-- Goes past the next character. -/
def step : Reader Unit := advance 1

/-- How many characters at the beginning are blank or in a comment. -/
def ignorable (inComment : Bool) : List Char → Nat
  | [] => 0
  | char :: rest =>
    if inComment then ignorable (char != '\n') rest + 1
    else if char = '#' then ignorable true rest + 1
    else if Text.isBlank char then ignorable false rest + 1
    else 0

/-- Goes past what does not count in verbose mode. -/
def skipIgnored : Reader Unit := do
  if (← flags).verbose then
    advance (ignorable false (← get).cursor.rest)

/-- Goes past the next character and what does not count behind it. -/
def stepOver : Reader Unit := do
  step
  skipIgnored

/-- Goes past the given text, if it comes next. -/
def accept (text : String) : Reader Bool := do
  let cursor := (← get).cursor
  if cursor.upTo (cursor.advance text.length) = text.toList then
    advance text.length
    return true
  else return false

/-- Goes past the first of the given texts that comes next. -/
def acceptAny : List String → Reader Bool
  | [] => return false
  | text :: texts => do
    if ← accept text then return true
    else acceptAny texts

/-- Reads up to `count` characters for as long as the test holds. -/
def takeUpTo (test : Char → Bool) : Nat → Reader (List Char)
  | 0 => return []
  | count + 1 => do
    match ← peek with
    | some char =>
      if test char then
        stepOver
        return char :: (← takeUpTo test count)
      else return []
    | none => return []

/-- Reads characters for as long as the test holds. -/
def takeWhile (test : Char → Bool) : Reader (List Char) := do takeUpTo test (← left)

/-- The set that is written at some characters, as it is meant under the flags in force, where case
may not count. -/
def respectCase (set : CharSet) (extent : Extent) : Reader CharSet := do
  let flags ← flags
  if !flags.ignoreCase then return set
  else
    if flags.unicode && set.mentions then complain .caseUnavailable extent
    return .caseless set

/-- The set that is written at some characters, or all characters but those of the set. Without
Unicode the characters that are not in an ASCII set are no longer text. -/
def finishSet (set : CharSet) (negated : Bool) (extent : Extent) : Reader CharSet := do
  let set ← respectCase set extent
  if !negated then return set
  else
    if !(← flags).unicode then complain .notText extent
    return .complement set

end Reader

end DocCoverage.Pattern
