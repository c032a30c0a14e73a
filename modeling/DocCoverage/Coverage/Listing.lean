import DocCoverage.Token.Written

/-!
# Listings

Source text that is nothing but public functions, each with a comment of its own in front of it or
without one.
-/

namespace DocCoverage

/-- A public function in a listing. -/
structure Listed where
  /-- The comment on the lines in front of the function. -/
  comment : Option String
  name : String
  /-- What stands behind the opening parenthesis, up to the last line break. -/
  rest : String

namespace Listed

/-- The comment and a line feed. -/
def heading (listed : Listed) : List Char :=
  match listed.comment with
  | some comment => comment.toList ++ ['\n']
  | none => []

/-- The declaration and a line feed. -/
def declaration (listed : Listed) : List Char :=
  "public func ".toList ++ (listed.name.toList ++ '(' :: (listed.rest.toList ++ ['\n']))

def render (listed : Listed) : List Char := listed.heading ++ listed.declaration

/-- The source text of a listing. -/
def source (listing : List Listed) : String := String.ofList (listing.flatMap render)

/-- Whether the function has a documentation comment of its own. -/
def isDocumented (listed : Listed) : Bool :=
  listed.comment.any fun comment =>
    "///".toList.isPrefixOf comment.toList || "/**".toList.isPrefixOf comment.toList

/-- The comment ends where it should, and what stands outside of it has no marks of other tokens
and declares just the one function. -/
structure WellFormed (listed : Listed) : Prop where
  comment : ∀ comment ∈ listed.comment, Token.WholeComment comment.toList
  name : '<' ∉ listed.name.toList ∧ '(' ∉ listed.name.toList ∧ Token.Calm listed.name.toList
  solid : Text.Solid listed.name.toList
  rest : Token.Calm listed.rest.toList
  undeclaring : ¬ "public".toList <:+: listed.rest.toList

end Listed

end DocCoverage
