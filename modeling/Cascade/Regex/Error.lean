import Cascade.Text.Basic

/-!
# Faults in patterns

What can be wrong with a pattern, and what is said about it. A fault in the name of a group shows
the name, or the beginning of it; if the beginning ends inside a character there is nothing to show.
-/

namespace Cascade.Regex

/-- What makes a pattern unusable. -/
inductive Error where
  /-- A group is not closed. -/
  | unclosedGroup
  /-- A closing parenthesis without a group. -/
  | unopenedGroup
  /-- The pattern ends inside the opening of a group. -/
  | unfinishedGroup
  /-- An option letter without a meaning. -/
  | unknownOption
  /-- A parenthesis and an asterisk that do not name anything known. -/
  | unknownVerb
  /-- A parenthesis and an asterisk without a name behind them. -/
  | badVerb
  /-- Groups, classes or loops are nested too deeply. -/
  | tooDeep
  /-- A class is not closed. -/
  | unclosedClass
  /-- A class without characters. -/
  | emptyClass
  /-- A range whose first character is behind its last. -/
  | emptyRange
  /-- A range that ends with a class. -/
  | classEndsRange
  /-- A range that starts with a class. -/
  | classStartsRange
  /-- Brackets and colons around a name that no class has. -/
  | unknownClass
  /-- There is nothing to repeat. -/
  | nothingToRepeat
  /-- What should be repeated is a place between characters. -/
  | placeRepeated
  /-- A bound of a loop is too large. -/
  | boundTooLarge
  /-- A number is too large. -/
  | numberTooLarge
  /-- The pattern ends in a backslash. -/
  | trailingBackslash
  /-- The bytes that spell a character end too early. -/
  | shortCharacter
  /-- A number or a sequence of bytes that no character has. -/
  | badCharacter
  /-- What should stand behind a place cannot be matched backwards. -/
  | badLookBehind
  /-- A group has an empty name. -/
  | emptyGroupName
  /-- The name of a group is malformed or not closed. -/
  | badGroupName (name : Text)
  /-- The name of a group has a character that names do not have. -/
  | badGroupNameChar (name : Text)
  /-- A reference to a group that has not been named before. -/
  | unknownGroupName (name : Text)
  /-- A reference to a group that does not exist. -/
  | unknownGroupNumber
  deriving DecidableEq, Repr

namespace Error

/-- A name as it is shown: no more than twenty-seven bytes of it. None if that cuts a character. -/
def shownName? (name : Text) : Option Text :=
  if name.byteLength > 27 then
    let start := Text.takeBytes 27 name
    if start.byteLength = 27 then some (start ++ "...".toList) else none
  else some name

/-- A message around a name. -/
def aboutName (before : String) (name : Text) (behind : String) : Text :=
  match shownName? name with
  | some shown => before.toList ++ shown ++ behind.toList
  | none => "Onig error string was invalid UTF-8".toList

/-- What is said about a fault. -/
def reason : Error → Text
  | .unclosedGroup => "end pattern with unmatched parenthesis".toList
  | .unopenedGroup => "unmatched close parenthesis".toList
  | .unfinishedGroup => "end pattern in group".toList
  | .unknownOption => "undefined group option".toList
  | .unknownVerb => "undefined callout name".toList
  | .badVerb => "invalid callout name".toList
  | .tooDeep => "parse depth limit over".toList
  | .unclosedClass => "premature end of char-class".toList
  | .emptyClass => "empty char-class".toList
  | .emptyRange => "empty range in char class".toList
  | .classEndsRange => "char-class value at end of range".toList
  | .classStartsRange => "unmatched range specifier in char-class".toList
  | .unknownClass => "invalid POSIX bracket type".toList
  | .nothingToRepeat => "target of repeat operator is not specified".toList
  | .placeRepeated => "target of repeat operator is invalid".toList
  | .boundTooLarge => "too big number for repeat range".toList
  | .numberTooLarge => "too big number".toList
  | .trailingBackslash => "end pattern at escape".toList
  | .shortCharacter => "too short multibyte code string".toList
  | .badCharacter => "invalid code point value".toList
  | .badLookBehind => "invalid pattern in look-behind".toList
  | .emptyGroupName => "group name is empty".toList
  | .badGroupName name => aboutName "invalid group name <" name ">"
  | .badGroupNameChar name => aboutName "invalid char in group name <" name ">"
  | .unknownGroupName name => aboutName "undefined name <" name "> reference"
  | .unknownGroupNumber => "invalid backref number/name".toList

/-- The message for a fault. -/
def message (e : Error) : Text :=
  "Oniguruma error: ".toList ++ e.reason

end Error

end Cascade.Regex
