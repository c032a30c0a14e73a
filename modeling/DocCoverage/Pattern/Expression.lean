import DocCoverage.Pattern.Bracket
import DocCoverage.Pattern.Group

/-!
# Expressions

A pattern is written as alternatives between bars. An alternative is a sequence of items: atoms,
sets, groups, and repetitions of the item before. `Pattern.read` reads a whole pattern, or says why
the text is refused.

A text is refused for the first of these reasons that the regex library finds: a fault in form,
parts that are nested too deep, something that is not available, the size of the automaton, and the
edges of words beyond ASCII.
-/

namespace DocCoverage.Pattern

open Text (CharSet)

/-- The alternatives of a group that have been read so far. -/
structure Branches where
  /-- Where the first alternative begins. -/
  start : Nat
  /-- The alternatives before the last bar, the last one first. -/
  earlier : List Part
  /-- Where the last alternative begins. -/
  lineStart : Nat
  /-- The items of the last alternative, the last one first. A change of flags is an item without a
  part, which cannot be repeated. -/
  items : List (Option Part)

namespace Branches

/-- Nothing has been read, at the given place. -/
def begin (place : Nat) : Branches := ⟨place, [], place, []⟩

/-- The last alternative, which ends at the given place. -/
def line (branches : Branches) (stop : Nat) : Part :=
  let extent : Extent := ⟨branches.lineStart, stop⟩
  let parts := branches.items.reverse.filterMap id
  let outline := Outline.row (parts.map Part.outline)
  .sequence parts extent (if branches.items.length ≤ 1 then outline else .around extent outline)

/-- What has been read up to the given place. -/
def toPart (branches : Branches) (stop : Nat) : Part :=
  match branches.earlier.reverse with
  | [] => branches.line stop
  | first :: others =>
    .either first (others ++ [branches.line stop]) ⟨branches.start, stop⟩

/-- Adds an item. -/
def push (branches : Branches) (part : Part) : Branches :=
  { branches with items := some part :: branches.items }

/-- Adds a change of flags. -/
def settle (branches : Branches) : Branches :=
  { branches with items := none :: branches.items }

/-- Begins another alternative behind a bar at the given place. -/
def bar (branches : Branches) (place : Nat) : Branches :=
  ⟨branches.start, branches.line place :: branches.earlier, place + 1, []⟩

end Branches

/-- A group around the part that is being read. -/
structure Enclosing where
  parenthesis : Nat
  remembered : Bool
  /-- What stands before the group. -/
  outside : Branches
  /-- The flags that are in force again behind the group. -/
  flags : Flags

/-- Where reading stands among groups. -/
structure Nest where
  branches : Branches
  /-- The groups that have not been closed, the innermost first. -/
  enclosing : List Enclosing

namespace Reader

/-- The largest number that can be written in a repetition. -/
def largestCount : Nat := 4294967295

/-- Reads a number. What is wrong with it may be passed over for something else. -/
def count : Reader (Except Fault Nat) := do
  let _ ← takeWhile Text.isBlank
  let start ← place
  let digits ← takeWhile Char.isDigit
  let stop ← place
  let _ ← takeWhile Text.isBlank
  let value := Nat.ofDigitChars 10 digits 0
  if digits.isEmpty then return .error ⟨.countMissing, ⟨start, stop⟩, none⟩
  else if largestCount < value then return .error ⟨.countTooLarge, ⟨start, stop⟩, none⟩
  else return .ok value

/-- Reads how often an item is repeated, from the opening brace. -/
def counts : Reader (Nat × Option Nat) := do
  let start ← place
  let needMore : Reader Unit := do
    if (← peek).isNone then fail .countUnclosed start (← place)
  stepOver
  needMore
  let least ← count
  needMore
  let range ← do
    if (← peek) = some ',' then
      stepOver
      needMore
      let least ← liftExcept least
      if (← peek) = some '\x7d' then pure (least, none)
      else
        let most ← liftExcept (← count)
        pure (least, some most)
    else
      let least ← liftExcept least
      pure (least, some least)
  if (← peek) != some '\x7d' then fail .countUnclosed start (← place)
  stepOver
  let _ ← accept "?"
  match range with
  | (least, some most) =>
    if most < least then fail .countOrder start (← place)
    return range
  | (_, none) => return range

/-- Reads how often an item is repeated. A question mark behind it does not matter for whether the
pattern is found. -/
def repetition (mark : Char) : Reader (Nat × Option Nat) := do
  let range : Nat × Option Nat := match mark with
    | '?' => (0, some 1)
    | '*' => (0, none)
    | _ => (1, none)
  if mark = '\x7b' then counts
  else
    step
    let _ ← accept "?"
    return range

/-- Repeats the last item. -/
def repeatLast (branches : Branches) (mark : Char) : Reader Branches := do
  match branches.items with
  | some body :: before =>
    let (least, most) ← repetition mark
    let part := body.repeated least most ⟨body.extent.start, ← place⟩
    return { branches with items := some part :: before }
  | _ => failHere .repetitionAlone

/-- The part of one character. -/
def charPart (char : Char) (byte : Bool) (extent : Extent) : Reader Part := do
  let flags ← flags
  let set := CharSet.single char
  if !flags.unicode && !char.toNat < 0x80 then
    if byte then complain .notText extent
    else if flags.ignoreCase then complain .unicodeOff extent
    return .ofChar char set extent
  else return .ofChar char (← respectCase set extent) extent

/-- The part of a dot. -/
def dotPart (extent : Extent) : Reader Part := do
  let flags ← flags
  if !flags.unicode then complain .notText extent
  let set : CharSet :=
    if flags.dotAll then .all
    else if flags.crlf then .complement (.ofRanges [('\n', '\n'), ('\r', '\r')])
    else .complement (.single '\n')
  return .ofSet set extent .leaf

/-- The part of an atom. -/
def atomPart (read : PlacedAtom) : Reader Part :=
  match read.atom with
  | .char char byte => charPart char byte read.extent
  | .set set => return .ofSet set read.extent .leaf
  | .anchor condition wideEdge => return .ofAnchor condition wideEdge read.extent
  | .dot => dotPart read.extent

/-- Reads an atom; all characters without a meaning of their own stand for themselves. -/
def atom (char : Char) : Reader PlacedAtom := do
  let start ← place
  let flags ← flags
  match char with
  | '\\' => escape
  | '.' => step; placed start .dot
  | '^' =>
    step
    placed start (.anchor (if flags.multiLine then .lineStart flags.crlf else .textStart) false)
  | '$' =>
    step
    placed start (.anchor (if flags.multiLine then .lineStop flags.crlf else .textStop) false)
  | _ => step; placed start (.char char false)

/-- Reads what a parenthesis begins. -/
def openGroup (nest : Nest) : Reader Nest := do
  let before ← flags
  let parenthesis ← place
  match ← opening with
  | .change changed =>
    setFlags changed
    return { nest with branches := nest.branches.settle }
  | .group inner remembered =>
    setFlags inner
    let group : Enclosing := ⟨parenthesis, remembered, nest.branches, before⟩
    return ⟨.begin (← place), group :: nest.enclosing⟩

/-- Reads the end of a group. -/
def closeGroup (nest : Nest) : Reader Nest := do
  match nest.enclosing with
  | [] => failAtNext .groupUnopened
  | group :: further =>
    setFlags group.flags
    let inner := nest.branches.toPart (← place)
    step
    return ⟨group.outside.push (inner.group group.remembered ⟨group.parenthesis, ← place⟩), further⟩

/-- Reads one item, bar or mark that begins with the given character. -/
def item (nest : Nest) (char : Char) : Reader Nest := do
  let replace (branches : Branches) : Nest := { nest with branches := branches }
  match char with
  | '(' => openGroup nest
  | ')' => closeGroup nest
  | '|' =>
    let place ← place
    step
    return replace (nest.branches.bar place)
  | '[' =>
    let members ← bracketed
    return replace (nest.branches.push (.ofSet members.set members.extent members.outline))
  | '?' | '*' | '+' | '\x7b' => return replace (← repeatLast nest.branches char)
  | _ => return replace (nest.branches.push (← atomPart (← atom char)))

/-- Reads items up to the end of the text. Every round reads a character or more. -/
def items : Nat → Nest → Reader Nest
  | 0, nest => return nest
  | rounds + 1, nest => do
    skipIgnored
    match ← peek with
    | none => return nest
    | some char => items rounds (← item nest char)

/-- Reads a whole pattern. What is nested too deep counts as a fault in form, and is found last. -/
def expression : Reader Part := do
  let nest ← items ((← left) + 1) ⟨.begin (← place), []⟩
  if let group :: _ := nest.enclosing then
    fail .groupUnclosed group.parenthesis (group.parenthesis + 1)
  let whole := nest.branches.toPart (← place)
  if let some extent := whole.outline.beyond? depthLimit then
    fail .nestedTooDeep extent.start extent.stop
  match (← get).complaint with
  | some complaint => throw complaint
  | none => return whole

end Reader

/-- Why a text is refused as a pattern. -/
inductive Refusal where
  | fault (reason : Fault)
  /-- The automaton would take more than is allowed. -/
  | tooCostly
  /-- The edges of words that are not of ASCII alone are not known. -/
  | wideEdge
deriving DecidableEq, Repr

/-- The reason in words, about the given pattern. -/
def Refusal.render (refusal : Refusal) (pattern : String) : String :=
  match refusal with
  | .fault reason => reason.render pattern
  | .tooCostly => s!"Compiled regex exceeds size limit of {costLimit} bytes."
  | .wideEdge => "error building NFA"

end DocCoverage.Pattern

namespace DocCoverage

/-- Reads a pattern, or finds a reason to refuse the text. -/
def Pattern.read (text : String) : Except Pattern.Refusal Pattern :=
  let reading : Pattern.Reading := ⟨.start text.toList.toArray, .initial, [], none⟩
  match Pattern.Reader.expression.run reading with
  | .error fault => .error (.fault fault)
  | .ok (part, _) =>
    if Pattern.costLimit < part.totalCost then .error .tooCostly
    else if part.wideEdge then .error .wideEdge
    else .ok part.pattern

end DocCoverage
