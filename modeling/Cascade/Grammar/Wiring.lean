import Cascade.Text.Blank
import Cascade.Text.Numeral

/-!
# Wiring

The wiring of a grammar says which rules are the children of which. It is an outline of names: a
header `Name:` at the margin opens a block, and the items `- name` below it, indented by two spaces
a level, are the children of the name they are indented under, which must end in a colon. Blank
lines and lines that start with `#` are passed over.

* `parse`: the edges of an outline in the order of its lines, or its first malformed line.
-/

namespace Cascade.Wiring

/-- A child under its parent. -/
structure Edge where
  parent : Text
  child : Text
  /-- The line on which the child is written, counted from one. -/
  line : Nat
  deriving DecidableEq, Repr

/-- What can be wrong with a line. -/
inductive Malformation where
  /-- A tab stands where the line is indented. -/
  | tab
  /-- The number of spaces is odd. -/
  | oddIndent
  /-- A line at the margin does not end in a colon. -/
  | noHeader
  /-- A header has no name. -/
  | blankHeader
  /-- An indented line does not start with a hyphen and a space. -/
  | noItem
  /-- An item comes before any header. -/
  | noBlock
  /-- An item is more than one level deeper than the item before it. -/
  | tooDeep
  /-- The item that an item is indented under does not end in a colon. -/
  | closedParent
  /-- An item has no name. -/
  | blankItem
  deriving DecidableEq, Repr

/-- What is said about a malformed line. -/
def Malformation.reason : Malformation → Text
  | .tab => "tabs are not allowed for indentation".toList
  | .oddIndent => "indentation must be a multiple of two spaces".toList
  | .noHeader => "expected a `Name:` header".toList
  | .blankHeader => "empty header name".toList
  | .noItem => "expected a `- name` item".toList
  | .noBlock => "item outside of any `Name:` block".toList
  | .tooDeep => "indented deeper than its parent item".toList
  | .closedParent => "parent item must end with `:` to have children".toList
  | .blankItem => "empty item name".toList

/-- A malformed line. -/
structure Fault where
  /-- The line, counted from one. -/
  line : Nat
  malformation : Malformation
  deriving DecidableEq, Repr

/-- A name that children can be indented under. -/
structure Level where
  name : Text
  /-- Whether it ends in a colon. -/
  isOpen : Bool
  deriving DecidableEq, Repr

/-- What a line says by itself. -/
inductive Line where
  /-- Nothing: it is blank or a comment. -/
  | ignored
  /-- A header. -/
  | header (name : Text)
  /-- An item at a depth of at least one. -/
  | item (depth : Nat) (entry : Level)
  deriving DecidableEq, Repr

/-- The name of an item, and whether it ends in a colon. -/
def Level.ofItem (text : Text) : Level :=
  match Text.dropEnding? [':'] (Text.trim text) with
  | some name => ⟨Text.trim name, true⟩
  | none => ⟨Text.trim text, false⟩

/-- What a line says by itself. -/
def Line.read (raw : Text) : Except Malformation Line :=
  let line := Text.trimEnd raw
  let content := line.dropWhile (· = ' ')
  let indent := line.length - content.length
  match content with
  -- a comment may be indented in any way
  | [] | '#' :: _ => .ok .ignored
  | '\t' :: _ => .error .tab
  | content =>
    if indent % 2 ≠ 0 then .error .oddIndent
    else if indent = 0 then
      match Text.dropEnding? [':'] content with
      | none => .error .noHeader
      | some name =>
        let name := Text.trim name
        if name.isEmpty then .error .blankHeader else .ok (.header name)
    else
      match ['-', ' '].isPrefixOf? content with
      | none => .error .noItem
      | some text => .ok (.item (indent / 2) (Level.ofItem text))

/-- The name that an item at depth `depth` is indented under, `levels` being the open header and the
last item of each depth below it. -/
def parentOf (levels : List Level) (depth : Nat) (entry : Level) : Except Malformation Level :=
  if levels.isEmpty then .error .noBlock
  else
    -- what is wrong with the place of an item comes before what is wrong with its name
    match levels[depth - 1]? with
    | none => .error .tooDeep
    | some parent =>
      if !parent.isOpen then .error .closedParent
      else if entry.name.isEmpty then .error .blankItem
      else .ok parent

/-- The edges of lines from number `number` on, below the given levels. -/
def parseLines (number : Nat) (levels : List Level) : List Text → Except Fault (List Edge)
  | [] => .ok []
  | raw :: rest =>
    match Line.read raw with
    | .error m => .error ⟨number, m⟩
    | .ok .ignored => parseLines (number + 1) levels rest
    | .ok (.header name) => parseLines (number + 1) [⟨name, true⟩] rest
    | .ok (.item depth entry) =>
      match parentOf levels depth entry with
      | .error m => .error ⟨number, m⟩
      | .ok parent =>
        -- deeper levels are closed by an item, and the item opens its own
        match parseLines (number + 1) (levels.take depth ++ [entry]) rest with
        | .error fault => .error fault
        | .ok edges => .ok (⟨parent.name, entry.name, number⟩ :: edges)

/-- The edges of an outline. -/
def parse (source : Text) : Except Fault (List Edge) :=
  parseLines 1 [] (Text.fields '\n' source)

end Cascade.Wiring
