import DocCoverage.Text.Utf8

/-!
# Elements of an input

A parser reads a sequence of elements: characters of a text, or bytes. `Element` is what reporting
a failure needs to know about them; the parsers themselves only compare elements.
-/

namespace DocCoverage

/-- A kind of element, with its line break and the ways it is written in messages. -/
class Element (ε : Type) where
  /-- The element that ends a line. -/
  lineFeed : ε
  /-- The character with the element's code. -/
  toChar : ε → Char
  /-- One element, as a message quotes it. -/
  spell : ε → String
  /-- A run of elements, read as text. -/
  decode : List ε → String
  /-- A text, as a run of elements. -/
  encode : String → List ε

/-- Characters stand for themselves. -/
instance : Element Char where
  lineFeed := '\n'
  toChar := id
  spell := String.singleton
  decode := String.ofList
  encode := String.toList

/-- Bytes are quoted as decimal numbers, and a run of them is read as UTF-8. -/
instance : Element UInt8 where
  lineFeed := 10
  toChar byte := Char.ofNat byte.toNat
  spell byte := toString byte.toNat
  decode := Text.Utf8.decodeLossy
  encode := Text.Utf8.encode

end DocCoverage
