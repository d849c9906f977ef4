import Cascade.Grammar.Compile
import Cascade.Grammar.Replacement
import Cascade.Json.Reader

/-!
# Grammars as data

A grammar can be written as JSON: an object with the name of the grammar, the name of the root, the
rules and the wiring. A rule has a name, a pattern under `match`, a replacement template under
`replace`, and may be inline. Grammars and rules may also be arrays that give the fields in this
order, where those that have a default may be left out at the end. In objects, fields that are not
known are passed over.

* `DataGrammar.parse`: the grammar that bytes spell, or the kind of the first fault.
* `DataGrammar.compile`: the grammar ready for use.
-/

namespace Cascade

/-- A rule given by a template. -/
structure DataRule where
  name : Text
  /-- What the rule matches; none if it never matches by itself. -/
  pattern? : Option Text
  /-- The template of the modified text. -/
  replacement? : Option Text
  /-- Whether the working text itself takes the place of a match, and not a token. -/
  inline : Bool
  deriving DecidableEq, Repr

/-- A grammar all of whose rules are given by templates. -/
structure DataGrammar where
  name : Text
  root : Text
  rules : List DataRule
  wiring : Text
  deriving DecidableEq, Repr

/-- A rule as a definition. -/
def DataRule.definition (r : DataRule) : Definition :=
  { name := r.name, pattern? := r.pattern?, hooks := Replacement.hooks r.replacement? r.inline }

/-- The grammar ready for use, its patterns being compiled by an engine. -/
def DataGrammar.compile (compiler : PatternCompiler) (g : DataGrammar) :
    Except GrammarError Grammar :=
  Grammar.compile compiler (g.rules.map DataRule.definition) g.root g.wiring

namespace Json.Reader

/-- A string. -/
def text : Reader Text := do
  match ← peek with
  | none => throw .ended
  | some b =>
    if b = byte '\x22' then
      advance
      string
    else mismatch b

/-- A string or null. -/
def optionalText : Reader (Option Text) := do
  match ← peek with
  | none => throw .ended
  | some b =>
    if b = byte 'n' then
      advance
      expect ['u', 'l', 'l']
      return none
    else some <$> text

/-- A truth value. -/
def boolean : Reader Bool := do
  match ← peek with
  | none => throw .ended
  | some b =>
    if b = byte 't' then
      advance
      expect ['r', 'u', 'e']
      return true
    else if b = byte 'f' then
      advance
      expect ['a', 'l', 's', 'e']
      return false
    else mismatch b

/-- An array. -/
def list {α : Type} (item : Reader α) : Reader (List α) := do
  match ← peek with
  | none => throw .ended
  | some b =>
    if b = byte '[' then
      advance
      items item (← remaining) true
    else mismatch b

/-- Reads the members of an object up to its closing brace, each changing what has been read so far.
At most `fuel` members are read. -/
def fields {σ : Type} (field : σ → Text → Reader σ) : (fuel : Nat) → (first : Bool) → σ → Reader σ
  | 0, _, _ => throw .malformed
  | fuel + 1, first, soFar => do
    if ← moreKeys first then
      advance
      let key ← string
      fields field fuel false (← field soFar key)
    else
      closeMembers
      return soFar

/-- The value of a member that must not have come before. -/
def once {α : Type} (before : Option α) (value : Reader α) : Reader (Option α) := do
  -- the key alone is the fault, whatever follows it
  if before.isSome then throw .mismatch
  colon
  some <$> value

/-- The next item of an array, if there is one. -/
def item? {α : Type} (first : Bool) (value : Reader α) : Reader (Option α) := do
  if ← moreItems first then some <$> value else return none

/-- Reads a record: `object` reads on from an opening brace, `array` from an opening bracket up to
the closing one. -/
def record {α : Type} (object array : Reader α) : Reader α := do
  match ← peek with
  | none => throw .ended
  | some b =>
    if b = byte '\x7b' then
      advance
      object
    else if b = byte '[' then
      advance
      let result ← array
      closeItems
      return result
    else mismatch b

end Json.Reader

open Json

namespace DataRule

/-- The fields of a rule that have been read. -/
structure Fields where
  name : Option Text
  pattern : Option (Option Text)
  replacement : Option (Option Text)
  inline : Option Bool

/-- A rule in which the fields that are missing have their defaults. -/
def Fields.rule (f : Fields) : DataRule :=
  { name := f.name.getD []
    pattern? := f.pattern.getD none
    replacement? := f.replacement.getD none
    inline := f.inline.getD false }

/-- Reads the value of one field. -/
def readField (f : Fields) (key : Text) : Reader Fields := do
  if key = "name".toList then
    return { f with name := ← Reader.once f.name Reader.text }
  else if key = "match".toList then
    return { f with pattern := ← Reader.once f.pattern Reader.optionalText }
  else if key = "replace".toList then
    return { f with replacement := ← Reader.once f.replacement Reader.optionalText }
  else if key = "inline".toList then
    return { f with inline := ← Reader.once f.inline Reader.boolean }
  else
    Reader.colon
    Reader.skipValue (← Reader.remaining)
    return f

/-- Reads a rule. -/
def reader : Reader DataRule :=
  Reader.record
    (do return (← Reader.fields readField (← Reader.remaining) true ⟨none, none, none, none⟩).rule)
    (do
      let name ← Reader.item? true Reader.text
      let pattern ← Reader.item? false Reader.optionalText
      let replacement ← Reader.item? false Reader.optionalText
      let inline ← Reader.item? false Reader.boolean
      return Fields.rule { name, pattern, replacement, inline })

end DataRule

namespace DataGrammar

/-- The fields of a grammar that have been read. -/
structure Fields where
  name : Option Text
  root : Option Text
  rules : Option (List DataRule)
  wiring : Option Text

/-- A grammar in which the fields that are missing have their defaults. There is none for the root.
-/
def Fields.grammar (f : Fields) : Except Fault DataGrammar :=
  match f.root with
  | none => .error .mismatch
  | some root =>
    .ok { name := f.name.getD [], root, rules := f.rules.getD [], wiring := f.wiring.getD [] }

/-- Reads the value of one field. -/
def readField (f : Fields) (key : Text) : Reader Fields := do
  if key = "name".toList then
    return { f with name := ← Reader.once f.name Reader.text }
  else if key = "root".toList then
    return { f with root := ← Reader.once f.root Reader.text }
  else if key = "rules".toList then
    return { f with rules := ← Reader.once f.rules (Reader.list DataRule.reader) }
  else if key = "wiring".toList then
    return { f with wiring := ← Reader.once f.wiring Reader.text }
  else
    Reader.colon
    Reader.skipValue (← Reader.remaining)
    return f

/-- Reads a grammar. -/
def reader : Reader DataGrammar :=
  Reader.record
    (do
      let f ← Reader.fields readField (← Reader.remaining) true ⟨none, none, none, none⟩
      f.grammar)
    (do
      let name ← Reader.item? true Reader.text
      match ← Reader.item? false Reader.text with
      | none => throw .mismatch
      | some root =>
        let rules ← Reader.item? false (Reader.list DataRule.reader)
        let wiring ← Reader.item? false Reader.text
        Fields.grammar { name, root := some root, rules, wiring })

/-- The grammar that bytes spell. -/
def parse (bytes : List UInt8) : Except Fault DataGrammar := do
  let (g, rest) ← reader bytes
  let _ ← Reader.finish rest
  return g

end DataGrammar

end Cascade
