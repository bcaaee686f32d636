namespace Telemetry

abbrev Bytes := List UInt8

namespace Bytes

def ofText (text : String) : Bytes := text.toUTF8.data.toList

def toByteArray (bytes : Bytes) : ByteArray := ⟨bytes.toArray⟩

def toText? (bytes : Bytes) : Option String := String.fromUTF8? bytes.toByteArray

/-- The bytes of a text of ASCII characters; anything else would be cut to its low byte. -/
def ofAscii (text : List Char) : Bytes := text.map fun c => c.toNat.toUInt8

theorem toByteArray_ofText (text : String) : (ofText text).toByteArray = text.toUTF8 := rfl

@[simp] theorem toText?_ofText (text : String) : (ofText text).toText? = some text := by
  simp [toText?, toByteArray_ofText, String.fromUTF8?, text.isValidUTF8, String.fromUTF8]

theorem ofText_of_toText? {bytes : Bytes} {text : String} (read : bytes.toText? = some text) :
    ofText text = bytes := by
  unfold toText? String.fromUTF8? at read
  split at read
  · cases read; rfl
  · cases read

end Bytes
end Telemetry
