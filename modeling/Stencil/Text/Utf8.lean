import Stencil.Text.Basic

/-!
# Texts as bytes

A text is written as UTF-8, character by character. Bytes from outside need not be text; one by one
they can still be looked at, each as the character that has its number.
-/

namespace Stencil.Text

/-- The bytes of a text that is written as UTF-8. -/
def utf8 (text : Text) : List UInt8 := text.flatMap String.utf8EncodeChar

/-- The text that some bytes are written for, if they are UTF-8. -/
def ofUtf8? (bytes : List UInt8) : Option Text :=
  (String.fromUTF8? bytes.toByteArray).map String.toList

/-- The text with one character for each byte. -/
def ofBytes (bytes : List UInt8) : Text := bytes.map Char.ofUInt8

end Stencil.Text
