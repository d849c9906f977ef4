import Cascade.Text.Utf8
import Cascade.Text.Numeral

/-!
# Tokens

A token stands for a match inside the text that contained it. It is written with private-use
characters only: an opening mark, the rule name, a separator, the occurrence, a separator, the
sequence number and a closing mark, where each byte of the three fields is one *glyph*.

* `mint`: the token with given fields.
* `decode`: the fields of a text that is exactly one token.
* `unglyph?_glyph`: a glyph stands for one byte only.
-/

namespace Cascade

namespace Token

/-- The character that opens a token. -/
def openMark : Char := '\uE000'

/-- The character between two fields of a token. -/
def separator : Char := '\uE001'

/-- The character that closes a token. -/
def closeMark : Char := '\uE002'

/-- The glyph of the byte 0; those of the other bytes follow it. -/
def glyphBase : Nat := 0xF000

/-- The private-use character that stands for a byte. -/
def glyph (byte : UInt8) : Char :=
  Char.ofNat (glyphBase + byte.toNat)

/-- The byte that a glyph stands for. -/
def unglyph? (c : Char) : Option UInt8 :=
  if glyphBase ≤ c.toNat ∧ c.toNat ≤ glyphBase + 0xFF then
    some (UInt8.ofNat (c.toNat - glyphBase))
  else none

/-- The code point of a glyph. -/
theorem toNat_glyph (byte : UInt8) : (glyph byte).toNat = glyphBase + byte.toNat := by
  have hb := byte.toNat_lt
  have hv : (glyphBase + byte.toNat).isValidChar := by
    unfold glyphBase
    exact Or.inr ⟨by omega, by omega⟩
  exact congrArg Char.toNat (dif_pos hv)

/-- A glyph stands for the one byte it was made from. -/
theorem unglyph?_glyph (byte : UInt8) : unglyph? (glyph byte) = some byte := by
  have hb := byte.toNat_lt
  simp only [unglyph?, toNat_glyph]
  rw [if_pos ⟨by omega, by omega⟩]
  simp

/-- The glyphs of the UTF-8 bytes of a text. -/
def glyphs (text : Text) : Text :=
  text.bytes.map glyph

/-- The three fields of a token. -/
structure Parts where
  /-- The name of the rule that matched. -/
  rule : Text
  /-- How many matches of that rule there had been, this one included. -/
  occurrence : Nat
  /-- How many matches there had been of any rule, this one included. -/
  sequence : Nat
  deriving DecidableEq, Repr

/-- The token with the given fields. -/
def mint (rule : Text) (occurrence sequence : Nat) : Text :=
  openMark :: glyphs rule ++ separator :: glyphs (Text.decimal occurrence) ++
    separator :: glyphs (Text.decimal sequence) ++ [closeMark]

/-- The text that a field of a token encodes: at least one glyph, and well formed UTF-8. -/
def readField (field : Text) : Option Text := do
  let bytes ← field.mapM unglyph?
  if bytes.isEmpty then none else Text.ofBytes? bytes

/-- What stands between the two marks of a text that starts with the one and ends with the
other. -/
def body? : Text → Option Text
  | [] => none
  | c :: rest => if c = openMark then Text.dropEnding? [closeMark] rest else none

/-- The fields of a text that is exactly one token. -/
def decode (text : Text) : Option Parts := do
  let body ← body? text
  match Text.fields separator body with
  | [rule, occurrence, sequence] =>
    let rule ← readField rule
    let occurrence ← (← readField occurrence) |> Text.numeral?
    let sequence ← (← readField sequence) |> Text.numeral?
    return { rule, occurrence, sequence }
  | _ => none

/-- Whether a text is exactly one token. -/
def isToken (text : Text) : Bool :=
  (decode text).isSome

/-- A token as people read it, the rule and the occurrence in braces. -/
def Parts.display (parts : Parts) : Text :=
  '\x7b' :: parts.rule ++ '#' :: Text.decimal parts.occurrence ++ ['\x7d']

/-- Whether a character can be part of a token. -/
def isTokenChar (c : Char) : Bool :=
  c = openMark || c = separator || c = closeMark || (unglyph? c).isSome

end Token

end Cascade
