import DocCoverage.Pattern.Reader
import DocCoverage.Text.Alphanumeric

/-!
# Groups

A parenthesis opens a group, which may have a name or flags of its own, or only changes the flags
from there on up to the end of the group around it. The forms of a group are those that the regex
library documents; it has no look-around.
-/

namespace DocCoverage.Pattern

/-- What a parenthesis begins. -/
inductive Opening where
  /-- Other flags for what follows. -/
  | change (flags : Flags)
  /-- A group with the given flags, of which the place may have to be remembered. -/
  | group (flags : Flags) (remembered : Bool)

/-- The flags with those switched on, or off, that a letter stands for. -/
def Flags.switch (flags : Flags) (letter : Char) (on : Bool) : Flags :=
  match letter with
  | 'i' => { flags with ignoreCase := on }
  | 'm' => { flags with multiLine := on }
  | 's' => { flags with dotAll := on }
  | 'u' => { flags with unicode := on }
  | 'R' => { flags with crlf := on }
  | 'x' => { flags with verbose := on }
  | _ => flags

/-- The letters of flags and the hyphen that stands before flags to be switched off. The letter `U`
says which of several stretches is preferred, which does not matter for finding one. -/
def Flags.letters : List Char := ['i', 'm', 's', 'u', 'R', 'x', 'U', '-']

/-- The flags with the letters applied, up to a hyphen to switch on, behind it to switch off. -/
def Flags.apply (flags : Flags) (letters : List Char) : Flags :=
  let on := letters.takeWhile (· != '-')
  let off := letters.drop on.length
  let raised := on.foldl (fun flags letter => flags.switch letter true) flags
  off.foldl (fun flags letter => flags.switch letter false) raised

namespace Reader

/-- Reads the letters of flags, up to a colon or a closing parenthesis, with the places where they
stand. Every letter may come once. -/
def flagLetters : Nat → List (Char × Nat) → Reader (List (Char × Nat))
  | 0, _ => failHere .flagsCut
  | rounds + 1, found => do
    match ← peek with
    | none => failHere .flagsCut
    | some letter =>
      if letter = ':' ∨ letter = ')' then return found
      if !Flags.letters.contains letter then failAtNext .flagUnknown
      let place ← place
      match found.lookup letter with
      | some earlier =>
        let cause := if letter = '-' then .negationTwice else .flagTwice
        throw ⟨cause, ⟨place, place + 1⟩, some ⟨earlier, earlier + 1⟩⟩
      | none =>
        step
        flagLetters rounds (found ++ [(letter, place)])

/-- Reads flags and the character that ends them. -/
def flagOpening (parenthesis inner : Nat) : Reader Opening := do
  if (← peek).isNone then fail .groupUnclosed parenthesis (parenthesis + 1)
  let found ← flagLetters ((← left) + 1) []
  if let some ('-', place) := found.getLast? then fail .negationDangling place (place + 1)
  let changed := (← flags).apply (found.map Prod.fst)
  let closed := (← peek) == some ')'
  step
  if !closed then return .group changed false
  else if found.isEmpty then fail .repetitionAlone inner inner
  else return .change changed

/-- Whether a character may stand in the name of a group. -/
def isNameChar (char : Char) (first : Bool) : Bool :=
  char == '_' ||
    if first then Text.isAlphabetic char
    else Text.isAlphanumeric char || ['.', '[', ']'].contains char

/-- Reads the characters of a name, up to the angle bracket behind it. -/
def nameChars : Nat → Bool → Reader (List Char)
  | 0, _ => failHere .nameCut
  | rounds + 1, first => do
    match ← peek with
    | none => failHere .nameCut
    | some '>' => return []
    | some char =>
      if isNameChar char first then
        step
        return char :: (← nameChars rounds false)
      else failAtNext .nameInvalid

/-- Reads the name of a group. No two groups have the same name. -/
def groupName : Reader Unit := do
  let start ← place
  let name ← nameChars ((← left) + 1) true
  let extent : Extent := ⟨start, ← place⟩
  step
  if name.isEmpty then fail .nameEmpty start start
  let reading ← get
  match reading.names.lookup name with
  | some earlier => throw ⟨.nameTwice, extent, some earlier⟩
  | none => set { reading with names := (name, extent) :: reading.names }

/-- Reads what a parenthesis begins. -/
def opening : Reader Opening := do
  let parenthesis ← place
  stepOver
  let inner ← place
  if ← acceptAny ["?=", "?!", "?<=", "?<!"] then
    fail .lookAround parenthesis (← place)
  if ← acceptAny ["?P<", "?<"] then
    groupName
    return .group (← flags) true
  if ← accept "?" then flagOpening parenthesis inner
  else return .group (← flags) true

end Reader

end DocCoverage.Pattern
