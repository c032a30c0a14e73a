/-!
# UTF-8

Bytes are cut into pieces from left to right: a character, a run of bytes that starts no
character, or a character that the end of the input cuts off. Strict decoding stops at the first
piece that is not a character and says where it stands; lenient decoding puts one replacement
character in its place.
-/

namespace DocCoverage.Text.Utf8

/-- One step of a left-to-right reading of bytes. -/
inductive Piece where
  /-- A well-formed character. -/
  | char (value : Char) (width : Nat)
  /-- Bytes that no continuation turns into a character. -/
  | invalid (width : Nat)
  /-- The beginning of a character at the very end of the input. -/
  | incomplete (width : Nat)
deriving DecidableEq, Repr

/-- How many bytes the piece covers. -/
def Piece.width : Piece → Nat
  | .char _ width | .invalid width | .incomplete width => width

/-- What a leading byte asks for: how many bytes follow it, the range of the first of them, and
the bits that it contributes itself. -/
structure Lead where
  following : Nat
  low : Nat
  high : Nat
  bits : Nat

/-- The leading bytes of characters of more than one byte. The narrowed ranges exclude
overlong forms, surrogates, and code points above the last one. -/
def lead? (byte : Nat) : Option Lead :=
  if 0xC2 ≤ byte ∧ byte ≤ 0xDF then some ⟨1, 0x80, 0xBF, byte - 0xC0⟩
  else if byte = 0xE0 then some ⟨2, 0xA0, 0xBF, 0⟩
  else if byte = 0xED then some ⟨2, 0x80, 0x9F, 0xD⟩
  else if 0xE1 ≤ byte ∧ byte ≤ 0xEF then some ⟨2, 0x80, 0xBF, byte - 0xE0⟩
  else if byte = 0xF0 then some ⟨3, 0x90, 0xBF, 0⟩
  else if 0xF1 ≤ byte ∧ byte ≤ 0xF3 then some ⟨3, 0x80, 0xBF, byte - 0xF0⟩
  else if byte = 0xF4 then some ⟨3, 0x80, 0x8F, 4⟩
  else none

/-- Reads the bytes that a leading byte asks for; `width` bytes have been read before. -/
def continuation : (following low high bits width : Nat) → List UInt8 → Piece
  | 0, _, _, bits, width, _ => .char (Char.ofNat bits) width
  | _ + 1, _, _, _, width, [] => .incomplete width
  | following + 1, low, high, bits, width, byte :: rest =>
    if low ≤ byte.toNat ∧ byte.toNat ≤ high then
      continuation following 0x80 0xBF (bits * 64 + (byte.toNat - 0x80)) (width + 1) rest
    else .invalid width

/-- The piece that starts with a given byte. -/
def piece (byte : UInt8) (rest : List UInt8) : Piece :=
  if byte.toNat < 0x80 then .char (Char.ofNat byte.toNat) 1
  else match lead? byte.toNat with
    | some lead => continuation lead.following lead.low lead.high lead.bits 1 rest
    | none => .invalid 1

/-- All pieces of the input, in order. -/
def pieces : List UInt8 → List Piece
  | [] => []
  | byte :: rest =>
    let first := piece byte rest
    first :: pieces (rest.drop (first.width - 1))
termination_by bytes => bytes.length
decreasing_by
  simp only [List.length_drop, List.length_cons]
  omega

/-- Why bytes are not UTF-8, and where the first piece at fault begins. -/
inductive Defect where
  | invalid (width index : Nat)
  | incomplete (index : Nat)
deriving DecidableEq, Repr

/-- The defect in words. -/
def Defect.message : Defect → String
  | .invalid width index => s!"invalid utf-8 sequence of {width} bytes from index {index}"
  | .incomplete index => s!"incomplete utf-8 byte sequence from index {index}"

/-- The characters of the pieces, if all of them are characters; `index` is where they begin. -/
def characters (index : Nat) : List Piece → Except Defect (List Char)
  | [] => .ok []
  | .char value width :: rest => (characters (index + width) rest).map (value :: ·)
  | .invalid width :: _ => .error (.invalid width index)
  | .incomplete _ :: _ => .error (.incomplete index)

/-- Strict decoding. -/
def decode (bytes : List UInt8) : Except Defect String :=
  (characters 0 (pieces bytes)).map String.ofList

/-- What lenient decoding writes for a piece. -/
def Piece.replaced : Piece → Char
  | .char value _ => value
  | .invalid _ | .incomplete _ => '\uFFFD'

/-- Lenient decoding: one replacement character for every piece at fault. -/
def decodeLossy (bytes : List UInt8) : String :=
  String.ofList ((pieces bytes).map Piece.replaced)

/-- The bytes of a text. -/
def encode (text : String) : List UInt8 :=
  text.toList.flatMap String.utf8EncodeChar

end DocCoverage.Text.Utf8
