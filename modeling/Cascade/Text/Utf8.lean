import Cascade.Text.Basic

/-!
# The UTF-8 form of a text

* `bytes`: the UTF-8 form of a text.
* `ofBytes?`: the text that has a given UTF-8 form, if there is one.
-/

namespace Cascade.Text

/-- The UTF-8 form of a text. -/
def bytes (text : Text) : List UInt8 :=
  text.flatMap String.utf8EncodeChar

/-- The text whose UTF-8 form these bytes are; none if they are not well formed. -/
def ofBytes? (form : List UInt8) : Option Text :=
  (ByteArray.utf8Decode? ⟨form.toArray⟩).map Array.toList

end Cascade.Text
