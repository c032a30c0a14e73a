import DocCoverage.Pattern.Atom
import DocCoverage.Pattern.Part

/-!
# Sets in brackets

A set in brackets lists characters, ranges, escapes and further sets. Lists are combined by
operators, of which an earlier one is applied before a later one. A caret behind the opening
bracket asks for the characters that are not in the set. Lists and operators are as the
documentation of the regex library has them under character classes.
-/

namespace DocCoverage.Pattern

open Text (CharSet)

/-- How two lists of a set are combined. -/
inductive SetOperator where
  | inter
  | difference
  | exclusive
deriving DecidableEq, Repr

/-- The combined set. -/
def SetOperator.apply (operator : SetOperator) (left right : CharSet) : CharSet :=
  match operator with
  | .inter => .inter left right
  | .difference => .inter left (.complement right)
  | .exclusive => .exclusive left right

/-- The operator that is written as a character twice. -/
def SetOperator.ofChar? (char : Char) : Option SetOperator :=
  match char with
  | '&' => some .inter
  | '-' => some .difference
  | '~' => some .exclusive
  | _ => none

/-- A part of a set in brackets. -/
structure Members where
  set : CharSet
  extent : Extent
  outline : Outline

namespace Members

/-- A character, a range or another set that holds no further parts. -/
def ofSet (set : CharSet) (extent : Extent) : Members := ⟨set, extent, .leaf⟩

/-- A list of parts, which is to stand at the given place if there are none. -/
def ofList (parts : List Members) (place : Nat) : Members :=
  match parts, parts.getLast? with
  | [only], _ => only
  | first :: _, some last =>
    let extent : Extent := ⟨first.extent.start, last.extent.stop⟩
    ⟨parts.foldl (fun set part => .union set part.set) .empty, extent,
      .around extent (.row (parts.map Members.outline))⟩
  | _, _ => .ofSet .empty ⟨place, place⟩

/-- The combination of two lists. Where case does not count, it does not count in either of them. -/
def combine (operator : SetOperator) (left right : Members) : Reader Members := do
  let rightSet ← Reader.respectCase right.set right.extent
  let leftSet ← Reader.respectCase left.set left.extent
  let extent : Extent := ⟨left.extent.start, right.extent.stop⟩
  return ⟨operator.apply leftSet rightSet, extent,
    .around extent (.beside left.outline right.outline)⟩

end Members

/-- A set in brackets of which the closing bracket has not been read. -/
structure Bracket where
  /-- The opening bracket with what belongs to it. -/
  opening : Extent
  negated : Bool
  /-- What is to be combined with the list that is being read. -/
  pending : Option (Members × SetOperator)
  /-- Where the list that is being read begins. -/
  listStart : Nat
  /-- The parts of the list that is being read, the last one first. -/
  list : List Members

namespace Bracket

/-- Adds a part to the list. -/
def add (bracket : Bracket) (part : Members) : Bracket :=
  { bracket with list := part :: bracket.list }

/-- What has been read, negation apart. -/
def combined (bracket : Bracket) : Reader Members := do
  let list := Members.ofList bracket.list.reverse bracket.listStart
  match bracket.pending with
  | none => return list
  | some (left, operator) => Members.combine operator left list

/-- Goes on at a place behind an operator. -/
def operate (bracket : Bracket) (operator : SetOperator) (place : Nat) : Reader Bracket := do
  let left ← bracket.combined
  return { bracket with pending := some (left, operator), listStart := place, list := [] }

/-- Stops because the closing bracket is missing. -/
def failUnclosed {α : Type} (bracket : Bracket) : Reader α :=
  Reader.fail .classUnclosed bracket.opening.start bracket.opening.stop

end Bracket

namespace Reader

/-- Stops if nothing is left of a set that begins at the given place. -/
def needMore (start : Nat) : Reader Unit := do
  if (← peek).isNone then fail .classUnclosed start (← place)

/-- Reads hyphens, each of which is a member of a set, behind those that have been read. -/
def hyphens (start : Nat) : Nat → List Members → Reader (List Members)
  | 0, found => return found
  | rounds + 1, found => do
    if (← peek) != some '-' then return found
    let place ← place
    stepOver
    if (← peek).isNone then fail .classUnclosed start start
    hyphens start rounds (.ofSet (.single '-') ⟨place, place + 1⟩ :: found)

/-- Reads the beginning of a set: the bracket, a caret, and the hyphens or the closing bracket that
are members of the set because they come first. -/
def openBracket : Reader Bracket := do
  let start ← place
  stepOver
  needMore start
  let negated := (← peek) == some '^'
  if negated then
    stepOver
    needMore start
  let listStart ← place
  let found ← hyphens start (← left) []
  if found.isEmpty && (← peek) == some ']' then
    stepOver
    needMore start
    let bracket := Members.ofSet (.single ']') ⟨listStart, listStart + 1⟩
    return ⟨⟨start, ← place⟩, negated, none, listStart, [bracket]⟩
  else return ⟨⟨start, ← place⟩, negated, none, listStart, found⟩

/-- Reads the end of a set. -/
def closeBracket (bracket : Bracket) : Reader Members := do
  let inner ← bracket.combined
  step
  let extent : Extent := ⟨bracket.opening.start, ← place⟩
  return ⟨← finishSet inner.set bracket.negated extent, extent, .around extent inner.outline⟩

/-- A named set at the beginning of a text, whether it is negated, and the length of its name with
what encloses it. -/
def namedSet? (text : List Char) : Option (CharSet × Bool × Nat) :=
  match text with
  | '[' :: ':' :: rest =>
    let negated := rest.head? == some '^'
    let rest := if negated then rest.tail else rest
    let name := rest.takeWhile (· != ':')
    match rest.drop name.length, CharSet.named.lookup (String.ofList name) with
    | ':' :: ']' :: _, some set => some (set, negated, name.length + (if negated then 5 else 4))
    | _, _ => none
  | _ => none

/-- Reads a named set, if there is one. -/
def namedSet : Reader (Option Members) := do
  match namedSet? (← get).cursor.rest with
  | none => return none
  | some (set, negated, length) =>
    let start ← place
    advance length
    let extent : Extent := ⟨start, ← place⟩
    return some (.ofSet (← finishSet set negated extent) extent)

/-- Reads a character or an escape. -/
def memberAtom : Reader PlacedAtom := do
  match ← peek with
  | some '\\' => escape
  | some char =>
    let start ← place
    step
    placed start (.char char false)
  | none => failHere .escapeCut

/-- Complains about a character that only Unicode or only bytes could mean. -/
def checkMember (char : Char) (byte : Bool) (extent : Extent) : Reader Unit := do
  if !(← flags).unicode && !char.toNat < 0x80 then
    complain (if byte then .notText else .unicodeOff) extent

/-- The member that one atom stands for. -/
def single (member : PlacedAtom) : Reader Members := do
  match member.atom with
  | .char char byte =>
    checkMember char byte member.extent
    return .ofSet (.single char) member.extent
  | .set set => return .ofSet set member.extent
  | _ => fail .classEscape member.extent.start member.extent.stop

/-- The character at one end of a range. -/
def rangeBound (member : PlacedAtom) : Reader (Char × Bool) :=
  match member.atom with
  | .char char byte => return (char, byte)
  | _ => fail .classRangeBound member.extent.start member.extent.stop

/-- The characters from one atom to another. -/
def range (first last : PlacedAtom) : Reader Members := do
  let (low, lowByte) ← rangeBound first
  let (high, highByte) ← rangeBound last
  let extent : Extent := ⟨first.extent.start, last.extent.stop⟩
  if !low ≤ high then fail .classRangeOrder extent.start extent.stop
  checkMember low lowByte first.extent
  checkMember high highByte last.extent
  return .ofSet (.range low high) extent

/-- The character behind the next one that is not ignored. A comment counts for its first character
that is not blank. -/
def peekBeyond : Reader (Option Char) := do
  if !(← flags).verbose then peekSecond
  else
    let rest := (← get).cursor.rest.tail
    let visible := rest.dropWhile Text.isBlank
    let shown := match visible with
      | '#' :: comment => comment.dropWhile Text.isBlank
      | _ => visible
    return (shown ++ rest).head?

/-- Reads a member or a range. A hyphen before a closing bracket or another hyphen makes no
range. -/
def member (bracket : Bracket) : Reader Members := do
  let first ← memberAtom
  skipIgnored
  match ← peek with
  | none => bracket.failUnclosed
  | some next =>
    let beyond ← peekBeyond
    if next != '-' || beyond == some ']' || beyond == some '-' then single first
    else
      stepOver
      if (← peek).isNone then bracket.failUnclosed
      range first (← memberAtom)

/-- Reads the rest of a set, and of the sets around it. Every round reads a character or more. -/
def bracketRest : Nat → Bracket → List Bracket → Reader Members
  | 0, bracket, _ => bracket.failUnclosed
  | rounds + 1, bracket, outer => do
    skipIgnored
    match ← peek with
    | none => bracket.failUnclosed
    | some '[' =>
      match ← namedSet with
      | some set => bracketRest rounds (bracket.add set) outer
      | none => bracketRest rounds (← openBracket) (bracket :: outer)
    | some ']' =>
      let set ← closeBracket bracket
      match outer with
      | [] => return set
      | parent :: further => bracketRest rounds (parent.add set) further
    | some char =>
      match SetOperator.ofChar? char with
      | some operator =>
        if (← peekSecond) = some char then
          advance 2
          bracketRest rounds (← bracket.operate operator (← place)) outer
        else bracketRest rounds (bracket.add (← member bracket)) outer
      | none => bracketRest rounds (bracket.add (← member bracket)) outer

/-- Reads a set in brackets. -/
def bracketed : Reader Members := do
  let bracket ← openBracket
  bracketRest ((← left) + 1) bracket []

end Reader

end DocCoverage.Pattern
