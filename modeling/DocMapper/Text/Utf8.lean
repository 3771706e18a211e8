/-!
# UTF-8

The bytes of a text, and texts without the mark of byte order that may stand at
their front.
-/

namespace DocMapper.Text

def utf8 (s : String) : List UInt8 := s.toList.flatMap String.utf8EncodeChar

def ofUtf8? (bytes : List UInt8) : Option String := String.fromUTF8? ⟨bytes.toArray⟩

def byteOrderMark : Char := '\ufeff'

def withoutByteOrderMark : List Char → List Char
  | [] => []
  | c :: rest => if c = byteOrderMark then rest else c :: rest

end DocMapper.Text
