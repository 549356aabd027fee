/-
# Text as bytes

Names stand in headers as UTF-8.  Every text has one such form, and a byte string is the form of at
most one text.
-/
import Envelope.Bytes

namespace Envelope.Bytes

/-- The UTF-8 form of a text. -/
def ofText (s : String) : Bytes := s.toByteArray.data.toList

/-- The text whose UTF-8 form this is, if there is one. -/
def toText? (bs : Bytes) : Option String :=
  String.fromUTF8? ⟨bs.toArray⟩

/-- The length of a text in bytes. -/
@[simp] theorem length_ofText (s : String) : (ofText s).length = s.utf8ByteSize := by
  rw [ofText, Array.length_toList]
  rfl

/-- **Reading undoes writing.** -/
@[simp] theorem toText?_ofText (s : String) : toText? (ofText s) = some s := by
  have h : (⟨(ofText s).toArray⟩ : ByteArray) = s.toByteArray := by
    rw [ofText, Array.toArray_toList]
  rw [toText?, h, String.fromUTF8?]
  split
  · rfl
  · rename_i h'
    exact absurd s.isValidUTF8 h'

end Envelope.Bytes
