/-! # UTF-8

Text as bytes and back, on lists. -/

namespace AvatarPool.Text

/-- The bytes of a text. -/
def utf8 (text : String) : List UInt8 := text.toList.flatMap String.utf8EncodeChar

/-- The text of valid bytes. -/
def ofUtf8? (bytes : List UInt8) : Option String := String.fromUTF8? (ByteArray.mk bytes.toArray)

end AvatarPool.Text
