import Cascade.Token.Basic

/-!
# Patterns for tokens

Regular expressions that match tokens, to be used inside the patterns of rules, and the names that
rules may have. Glyphs have no special meaning in a pattern, so nothing needs escaping.
-/

namespace Cascade.Token

/-- Matches one character that is never part of a token. -/
def nonTokenCharPattern : Text :=
  "[^\uE000-\uE002\uF000-\uF0FF]".toList

/-- Matches the glyphs of a decimal numeral. -/
def digitsPattern : Text :=
  "[\uF030-\uF039]+".toList

/-- Matches any token, whatever its rule. -/
def anyTokenPattern : Text :=
  openMark :: "[\uF000-\uF0FF]+".toList ++ separator :: digitsPattern ++
    separator :: digitsPattern ++ [closeMark]

/-- Matches the tokens of one rule. -/
def fragment (rule : Text) : Text :=
  openMark :: glyphs rule ++ separator :: digitsPattern ++ separator :: digitsPattern ++ [closeMark]

/-- Whether a character may start the name of a rule: an ASCII letter or an underscore. -/
def isNameStart (c : Char) : Bool :=
  c.isAlpha || c = '_'

/-- Whether a character may follow in the name of a rule: an ASCII letter or digit, an underscore
or a hyphen. -/
def isNameChar (c : Char) : Bool :=
  c.isAlphanum || c = '_' || c = '-'

/-- Whether a text may name a rule. -/
def isRuleName : Text → Bool
  | [] => false
  | c :: rest => isNameStart c && rest.all isNameChar

/-- A name of a rule is not empty. -/
theorem ne_nil_of_isRuleName {name : Text} (h : isRuleName name) : name ≠ [] := by
  rintro rfl
  contradiction

/-- What a name may start with may stand anywhere in it. -/
theorem isNameChar_of_isNameStart {c : Char} (h : isNameStart c) : isNameChar c := by
  simp only [isNameStart, Bool.or_eq_true] at h
  simp only [isNameChar, Char.isAlphanum, Bool.or_eq_true]
  rcases h with h | h
  · exact .inl (.inl (.inl h))
  · exact .inl (.inr h)

/-- All characters of the name of a rule may stand in names. -/
theorem isNameChar_of_isRuleName {name : Text} (h : isRuleName name) :
    ∀ c ∈ name, isNameChar c := by
  cases name with
  | nil => simp
  | cons first rest =>
    rw [isRuleName, Bool.and_eq_true, List.all_eq_true] at h
    rintro c (_ | ⟨_, hc⟩)
    · exact isNameChar_of_isNameStart h.1
    · exact h.2 c hc

end Cascade.Token
