import ArchReview.Outline.Basic

/-!
# Source files

A source file is a path, a language and bytes. The bytes are text in UTF-8, with or without a byte
order mark; bytes that are no UTF-8 are read one character to a byte.
-/

namespace ArchReview

structure SourceFile where
  path : Path
  language : Language
  content : ByteArray
  deriving Inhabited

namespace SourceFile

/-- The file at a path, in the language of its extension. -/
def ofPath? (path : Path) (content : ByteArray) : Option SourceFile :=
  (Language.ofPath? path).map fun language => ⟨path, language, content⟩

end SourceFile

/-- One character to a byte. -/
def decodeBytes (bytes : List UInt8) : String :=
  String.ofList (bytes.map fun b => Char.ofNat b.toNat)

def dropByteOrderMark (text : String) : String :=
  match text.toList with
  | '\ufeff' :: rest => String.ofList rest
  | _                => text

def decode (content : ByteArray) : String :=
  match String.fromUTF8? content with
  | some text => dropByteOrderMark text
  | none      => decodeBytes content.toList

end ArchReview
