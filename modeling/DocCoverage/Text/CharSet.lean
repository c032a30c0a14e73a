/-!
# Sets of characters

A set of characters is written down as data and has its members by `contains`, with one equation
for each way to write a set. Case is a matter of ASCII here: no other letters are compared without
regard to it.
-/

namespace DocCoverage.Text

/-- A set of characters. -/
inductive CharSet where
  | empty
  /-- From the first to the last character, both included. -/
  | range (first last : Char)
  | union (left right : CharSet)
  | inter (left right : CharSet)
  /-- The members of one of the sets that are not members of the other. -/
  | exclusive (left right : CharSet)
  | complement (set : CharSet)
  /-- The characters that differ from a member in the case of an ASCII letter at most. -/
  | caseless (set : CharSet)
deriving DecidableEq, Repr

namespace CharSet

/-- Whether a character is in the set. -/
def contains : CharSet → Char → Bool
  | .empty, _ => false
  | .range first last, char => first ≤ char && char ≤ last
  | .union left right, char => left.contains char || right.contains char
  | .inter left right, char => left.contains char && right.contains char
  | .exclusive left right, char => left.contains char != right.contains char
  | .complement set, char => !set.contains char
  | .caseless set, char =>
    set.contains char || set.contains char.toLower || set.contains char.toUpper

/-- Whether characters are mentioned where the set is written down. A set that mentions none has
all characters or no character. -/
def mentions : CharSet → Bool
  | .empty => false
  | .range _ _ => true
  | .union left right | .inter left right | .exclusive left right =>
    left.mentions || right.mentions
  | .complement set | .caseless set => set.mentions

/-- Whether it can be seen from the way the set is written that all members are in ASCII. -/
def isAscii : CharSet → Bool
  | .empty => true
  | .range _ last => last.toNat < 0x80
  | .union left right | .exclusive left right => left.isAscii && right.isAscii
  | .inter left right => left.isAscii || right.isAscii
  | .complement _ => false
  | .caseless set => set.isAscii

/-- The set of one character. -/
def single (char : Char) : CharSet := .range char char

@[simp] theorem contains_single {char other : Char} :
    (single char).contains other = true ↔ other = char := by
  simp only [single, contains, Bool.and_eq_true, decide_eq_true_eq]
  exact ⟨fun ⟨above, below⟩ => Char.le_antisymm below above, fun same => by simp [same]⟩

/-- The set of the characters in some ranges. -/
def ofRanges (ranges : List (Char × Char)) : CharSet :=
  ranges.foldl (fun set range => .union set (.range range.1 range.2)) .empty

/-- All characters. -/
def all : CharSet := .complement .empty

/-- The decimal digits. -/
def digits : CharSet := .range '0' '9'

/-- White space. -/
def blanks : CharSet := ofRanges [('\t', '\r'), (' ', ' ')]

/-- The characters that may stand in a word. -/
def word : CharSet := ofRanges [('0', '9'), ('A', 'Z'), ('_', '_'), ('a', 'z')]

/-- The sets that have names. All their members are in ASCII. -/
def named : List (String × CharSet) :=
  [("alnum", ofRanges [('0', '9'), ('A', 'Z'), ('a', 'z')]),
    ("alpha", ofRanges [('A', 'Z'), ('a', 'z')]),
    ("ascii", .range '\x00' '\x7f'),
    ("blank", ofRanges [('\t', '\t'), (' ', ' ')]),
    ("cntrl", ofRanges [('\x00', '\x1f'), ('\x7f', '\x7f')]),
    ("digit", digits),
    ("graph", .range '!' '~'),
    ("lower", .range 'a' 'z'),
    ("print", .range ' ' '~'),
    ("punct", ofRanges [('!', '/'), (':', '@'), ('[', '\x60'), ('\x7b', '~')]),
    ("space", blanks),
    ("upper", .range 'A' 'Z'),
    ("word", word),
    ("xdigit", ofRanges [('0', '9'), ('A', 'F'), ('a', 'f')])]

end CharSet

end DocCoverage.Text
