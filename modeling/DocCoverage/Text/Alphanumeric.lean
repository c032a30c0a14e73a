/-!
# Letters and numbers

Which characters Unicode counts as alphabetic, and which others it counts as numbers. The code
points are cut into runs of characters of one kind, which are written down in order.
-/

namespace DocCoverage.Text

/-- What a character counts as in a name. -/
inductive CharKind where
  | letter
  /-- A digit or another number that is no letter. -/
  | number
  | other
deriving DecidableEq, Repr

/-- The runs of all code points in order. A run is written as `a` for letters, `n` for numbers or
`o` for others, with its length behind it if it is longer than one. -/
def alphanumericRuns : List String :=
  ["o48n10o7a26o6a26o47ao7n2oao3naon3oa23oa31oa458o4a12o14a5o7aoao86ao42a5oa2o2a4oao6aoa3oaoa20o",
    "a83oa139o8a166oa38o2ao6a41o39a14oaoa2oa2oao8a27o4a4o29a11o5a56oa7n10o4a102oa8o4a8o4a3n10a3o2",
    "ao16a48o13a101o14n10a33o9a2o4ao5a24o2a19o19a25o7a11o5a24oa6o17a42o10a12o3a7o6a76oa16oa3o4a15",
    "o2n10oa19oa8o2a2o2a22oa7oao3a4o3a8o2a2o2a2oao8ao4a2oa5o2n10a2o2n6o2ao4a3oa6o4a2o2a22oa7oa2o",
    "a2oa2o4a5o4a2o2a2o4ao7a4oao7n10a6o11a3oa9oa3oa22oa7oa2oa5o3a9oa3oa2o3ao15a4o2n10o9a4o4a3oa8",
    "o2a2o2a22oa7oa2oa5o3a8o2a2o2a2o9a2o4a2oa5o2n10oan6o10a2oa6o3a3oa4o3a2oaoa2o3a2o3a3o3a12o4a5",
    "o3a3oa3o3ao6ao14n13o13a13oa3oa23oa16o3a8oa3oa3o8a2oa3o2ao2a4o2n10o8n7oa4oa8oa3oa23oa10oa5o3",
    "a8oa3oa3o8a2o6a2oa4o2n10oa3o12a13oa3oa41o2a8oa3oa3oao5a4n7a5o2n19oa6oa3oa18o3a24oa9oao2a7o8",
    "a6oaoa8o6n10o2a2o13a58o5a7o6ao2n10o39a2oaoa5oa24oaoa19oa3o2a5oao6ao2n10o2a4o32ao31n20o12a8o",
    "a36o4a19o4a16oa36o67a55oao2a5n10o6a64n10a4o2a38oao5ao2a43oa333oa4o2a7oaoa4o2a41oa4o2a33oa4o2",
    "a7oaoa4o2a15oa57oa4o2a67o14n20o3a16o16a86o2a6o3a620o2a17oa26o5a75o3a11o7a20o11a21o12a20o12",
    "a13oa3oa2o12a52o2a19o14ao4ao3n10o6n10o22n10o6a89o7a43o5a70o10a31oa12o4a9o13n10a30o2a5o11a44",
    "o4a26o6n11o37a28o4a63o2a20o11n10o6n10o13ao23a2o11a3o49a52oa15oa8o3n10o38a42o2a4n10a44oa11o14",
    "a55o9n10o3a3n10a36o2a9o7a43o2a3o41a4oa6oa2o3ao5a192o39a14o11a278o2a6o2a38o2a6o2a8oaoaoaoa31",
    "o2a53oa7oao3a3oa7o3a4o2a6o4a13o5a3oa7o115nao2n6o5an10o6a13o101ao4ao2a10oao3a5o6aoaoaoa4oa11",
    "o2a4o5a5o4aon16a41no726n60o26a52n22o630n30o1132a229o6a4o3a2o9no2a38oao5ao2a56o7ao16a23o9a7o",
    "a7oa7oa7oa7oa7oa7oa7oa32o47ao469a3o25a9o7a5o2a5o4a86o6a3oa90oa4o5a43oa94o3n4o10a32o48a16o32",
    "n10o30n8on15o32n10o39n15o320a6592o64a22157o67a46o2a269o3a16n10a2o20a47o5a8o3a113o39a9o2a103",
    "o2a64o5a2oaoa5o24a20oa33o8n6o10a52o12a68oao10n10o24a6o3aoa3n10a33o5a35o13a29o3a51oa12o15an10",
    "o6a16n10a5oa55o9a14o2n10o6a23o3a69oaoao24a3o2a16o2a4o11a6o2a6o2a6o9a7oa7oa43oa14o6a123o5n10",
    "o6a11172o12a23o4a49o8452a366o2a106o38a7o12a5o5a12oa13oa5oaoa2oa2oa108o33a363o18a64o2a54o40",
    "a12o116a5oa135o19n10o7a26o6a26o11a89o3a6o2a6o2a6o2a3o35a12oa26oa19oa2oa15o2a14o34a123o12n45",
    "o12a53n4o17n2o244a29o3a49o16n27o4a32n4o9a30o5a43o5a30o2a36o4a8oa5o42a158o2n10o6a36o4a36o4a40",
    "o8a52o12a11oa15oa7oa2oa11oa15oa7oa2o67a311o9a22o10a8o24a6oa42oa9o69a6o2aoa44oa2o3ao2a23o2n8",
    "a23o2n7a31o8n9o48a19oa2o5n5a22n6o4a26o70a56o4n2a2n16o2n46a4oa2o5a8oa3oa29o10n9o23a29n2oa29n3",
    "o32a8oa28o6n5o16a54o10a22o2n8a19o5n8a18o23n7o80a73o55a51o13a51o7n6a40o8n10o294n31oa42oa2o3a2",
    "o78a29n10ao8a22o11n4o27a18o46a21n7o20a23o9a70o12n30oa5o10a57o9ao13a25o7n10o6a51o3n10o4a4o8",
    "a35o3ao9a64oa4o9a2n10aoao4n20o11a18oa34o2ao6a4o62a7oaoa4oa15oa10o7a57o7n10o6a4oa8o2a2o2a22o",
    "a7oa2oa5o3a8o2a2o2a2o3ao6ao5a7o156a66oa3oa4o5n10o5a3o30a66o2a2oao8n10o166a54o2a7o25a6o34a63o",
    "ao3ao11n10o38a54o2ao7n10o54a27o2a14o5n12o4a7o185a57o103a64n19o12a8o2ao2a8oa2oa30oa2o2a2o2a4",
    "o13n10o70a8o2a46o2a6oaoa2o27a51o2a10o17a72o5ao18a73o263a9oa45oa7oao15n29o5a30o2a22oa14o73a7o",
    "a2oa44o3aoa2oa3oao2a2o8n10o6a6oa2oa37oa2oa4oao7n10o310a23o9a17oa41o3a3o15n10o86ao15n21o43",
    "a922o102a111o17a196o2636a97o15a1072o17a6o4025a583o8633a569o7a31on10o6a79on10o6a30o18a48o16a4",
    "o12n10on7oa21o5a19o688a64n23o105a75o4a57o7a17o64a2oao12a2o14a6136o8a1238o42a9o8935a4oa7oa2o",
    "a291o15ao29a3o2ao14a4o8a396o2308a107o5a13o3a9o7a10o4ao5665n20o12n20o108n25o135a85oa71oa2o2a",
    "o2a2o2a4oa12oaoa7oa65oa4o2a8oa7oa28oa4oa5oao3a7oa340o2a25oa25oa31oa25oa31oa25oa31oa25oa31o",
    "a25oa8o2n50o1792a31o6a6o213a7oa17o2a7oa2oa5o5a62o33ao112a45o10a7o2n10o4ao321a30o18a44o4n10",
    "o470a28o4n10o742a7oa4oa2oa15oa197o2n9o48a68o3ao3ao4n10o791n59on3on4o76n45on15o194a4oa27oa2oa",
    "o2aoa10oa4oaoao6ao4aoaoaoa3oa2oao2aoaoaoaoaoa2oao2a4oa7oa4oa4oaoa10oa17o5a3oa5oa17o580n13o35",
    "a26o6a26o6a26o2662n10o1030a42720o32a4154o6a222o2a5762o14a7473o3103a542o1506a4939o5a4192",
    "o908368"]

namespace CharKind

/-- The kind that a sign stands for in the list of runs. -/
def ofSign (sign : Char) : CharKind :=
  match sign with
  | 'a' => .letter
  | 'n' => .number
  | _ => .other

/-- Reads runs: their kinds and lengths. -/
def readRuns : List Char → List (CharKind × Nat)
  | [] => []
  | sign :: rest =>
    let digits := rest.takeWhile Char.isDigit
    let length := if digits.isEmpty then 1 else Nat.ofDigitChars 10 digits 0
    (ofSign sign, length) :: readRuns (rest.dropWhile Char.isDigit)
termination_by text => text.length
decreasing_by
  have shorter := (List.dropWhile_suffix Char.isDigit (l := rest)).length_le
  simp only [List.length_cons]
  omega

/-- The kinds of all code points in order, with the lengths of their runs. -/
def runs : List (CharKind × Nat) := readRuns (alphanumericRuns.flatMap String.toList)

/-- The kind at a place of a list of runs; behind all of them there is nothing but others. -/
def locate : List (CharKind × Nat) → Nat → CharKind
  | [], _ => .other
  | (kind, length) :: rest, place => if place < length then kind else locate rest (place - length)

/-- The kind of a character. -/
def of (char : Char) : CharKind := locate runs char.toNat

end CharKind

/-- Whether the character is alphabetic. -/
def isAlphabetic (char : Char) : Bool := CharKind.of char == .letter

/-- Whether the character is alphabetic or a number. -/
def isAlphanumeric (char : Char) : Bool := CharKind.of char != .other

end DocCoverage.Text
