import Cascade.Regex.Parser.Basic
import Cascade.Unicode.Word

/-!
# Reading the names of groups

A group is named in angle brackets or quotes. A reference names a group, or gives its number or how
many groups forward or back it is opened, and may add the level of nesting at which the group is
meant. A message about a name shows what has been read of it.
-/

namespace Cascade.Regex.Parser

/-- What a reference to a group says. -/
inductive Reference where
  /-- A name. -/
  | name (n : Text)
  /-- The number of a group. -/
  | number (n : Nat)
  /-- How many groups back it was opened. -/
  | back (n : Nat)
  /-- How many groups forward it will be opened. -/
  | forward (n : Nat)

/-- Reads the name of a new group behind its opening sign. It starts with a part of a word that is
no digit, and goes on up to the closing sign. -/
def groupName (closing : Char) : Parser Text := do
  match ← rest with
  | [] => throw .emptyGroupName
  | c :: tail =>
    if c = closing then throw .emptyGroupName
    let run := tail.takeWhile fun d => d ≠ closing && d ≠ ')'
    let behind := tail.drop run.length
    -- a sign that ends the pattern is shown with the name
    let shown := if behind.length ≤ 1 then c :: tail else c :: run
    if c.isDigit ∨ c = '-' ∨ c = '+' then throw (.badGroupName shown)
    if !Unicode.isWordPart c then throw (.badGroupNameChar shown)
    match behind with
    | [] => throw (.badGroupName (c :: run.dropLast))
    | d :: more =>
      if d ≠ closing then throw (.badGroupName (c :: run))
      setRest more
      return c :: run

/-- What is wrong with the digits of a number, if anything is: the first character that is no digit
makes it no number, and a character behind it that is no part of a word makes it no name either. -/
def numberFault? (digits shown : Text) : Option Error :=
  match digits.dropWhile Char.isDigit with
  | [] => none
  | _ :: others =>
    if others.all Unicode.isWordPart then some (.badGroupName shown)
    else some (.badGroupNameChar shown)

/-- Reads the level of a reference behind its sign, and the closing sign. `name` is what stands
before the level, and `text` all from there on. -/
def level (closing : Char) (name text more : Text) : Parser Nat := do
  setRest more
  if more.isEmpty then throw (.badGroupNameChar name)
  match ← number? with
  | none => throw (.badGroupName text)
  | some n =>
    if n > maxNumber then throw .numberTooLarge
    if ← accept [closing] then return n else throw (.badGroupName text)

/-- Reads a reference behind its opening sign, and its level. -/
def reference (closing : Char) : Parser (Reference × Nat) := do
  let text ← rest
  match text with
  | [] => throw .emptyGroupName
  | c :: tail =>
    if c = closing then throw .emptyGroupName
    let run := tail.takeWhile fun d => d ≠ closing && d ≠ ')' && d ≠ '+' && d ≠ '-'
    let behind := tail.drop run.length
    let name := c :: run
    let shown := if behind.isEmpty then c :: run.dropLast else name
    let signed := c = '-' || c = '+'
    let digits := if signed then run else name
    if signed || c.isDigit then
      match numberFault? digits shown with
      | some fault => throw fault
      | none => if digits.isEmpty && !behind.isEmpty then throw (.badGroupName shown)
    else if !name.all Unicode.isWordPart then throw (.badGroupNameChar shown)
    let depth ← match behind with
      | [] => throw (if signed && tail.isEmpty then .badGroupNameChar text else .badGroupName text)
      | d :: more =>
        if d = closing then
          setRest more
          pure 0
        else if d = ')' then throw (.badGroupName text)
        else level closing name text more
    if !(signed || c.isDigit) then return (.name name, depth)
    let n := valueOf 10 digits
    if n > maxNumber then throw .numberTooLarge
    if !signed then return (.number n, depth)
    if n = 0 then throw (.badGroupName name)
    return (if c = '-' then .back n else .forward n, depth)

/-- Adds a group to the groups of a name. Names stay sorted. -/
def addName (name : Text) (group : Nat) : List (Text × List Nat) → List (Text × List Nat)
  | [] => [(name, [group])]
  | (n, groups) :: rest =>
    match compare name n with
    | .lt => (name, [group]) :: (n, groups) :: rest
    | .eq => (n, groups ++ [group]) :: rest
    | .gt => (n, groups) :: addName name group rest

/-- The names of groups that have been opened, sorted, each with its groups in order. -/
def nameTable (openings : List Opening) : List (Text × List Nat) :=
  (openings.zipIdx 1).foldl (fun table (opening, number) =>
    match opening.name? with
    | some name => addName name number table
    | none => table) []

/-- Opens a new group, named or not, with `behind` characters behind its parenthesis, and gives its
number. -/
def openGroup (behind : Nat) (name? : Option Text) : Parser Nat := do
  let openings := (← get).openings
  modify fun p => { p with openings := openings ++ [{ behind, name? }] }
  return openings.length + 1

/-- The groups that a reference means. -/
def resolve (r : Reference) : Parser (List Nat) := do
  let p ← get
  match r with
  | .name n =>
    match (nameTable p.openings).lookup n with
    | some groups => return groups
    | none => throw (.unknownGroupName n)
  | .number n => if n = 0 then throw .unknownGroupNumber else return [n]
  | .back n =>
    if n ≤ p.openings.length then return [p.openings.length + 1 - n] else throw .unknownGroupNumber
  | .forward n => return [p.openings.length + n]

/-- The expression for a reference. Nothing is captured at any level of nesting but the first. -/
def backreference (o : Options) (closing : Char) : Parser Expr := do
  let (r, depth) ← reference closing
  let e := .backref (← resolve r) o.ignoreCase
  return if depth = 0 then e else .concat e (.set .none)

end Cascade.Regex.Parser
