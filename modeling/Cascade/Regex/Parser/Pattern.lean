import Cascade.Regex.Parser.Class
import Cascade.Regex.Parser.Sign
import Cascade.Regex.Plan

/-!
# Reading a whole pattern

Each of the functions here starts with a sign that has been read already and gives the sign behind
what it reads.

* `Regex.parse`: the plan for what a pattern spells, with its groups and their names.
-/

namespace Cascade

/-- A pattern that has been read. -/
structure Regex where
  /-- The pattern as it was written. -/
  source : Text
  /-- How it is matched. -/
  plan : Regex.Plan
  /-- Its groups, in the order in which they are opened and numbered. -/
  openings : List Regex.Opening
  /-- The names of its groups, sorted, each with its groups in order of definition. -/
  names : List (Text × List Nat)
  deriving Repr

namespace Regex

/-- The number of groups. -/
def groups (r : Regex) : Nat :=
  r.openings.length

namespace Parser

/-- An expression with the sign behind it. -/
abbrev Read := Expr × Sign

/-- What follows a group of options. -/
inductive OptionsEnd where
  /-- The options hold for a group. -/
  | group (o : Options)
  /-- The options hold for what is left of the group around them. -/
  | rest (o : Options)

/-- Reads option letters, those behind a hyphen switching options off. -/
def options : (fuel : Nat) → Options → (on : Bool) → Parser OptionsEnd
  | 0, _, _ => throw .unknownOption
  | fuel + 1, o, on => do
    match ← next? with
    | none => throw .unfinishedGroup
    | some ')' => return .rest o
    | some ':' => return .group o
    | some '-' => options fuel o false
    | some 'i' => options fuel { o with ignoreCase := on } on
    | some 'm' => options fuel { o with dotAll := on } on
    | some 'x' => options fuel { o with extended := on } on
    | some _ => throw .unknownOption

/-- Reads the name behind a parenthesis and an asterisk. One name alone is known: nothing matches
it. -/
def verb : Parser Expr := do
  let text ← rest
  let name := text.takeWhile fun c => c ≠ ')' && c ≠ '[' && c ≠ '\x7b'
  let behind := text.drop name.length
  if behind.isEmpty then throw .unfinishedGroup
  let isLetter (c : Char) : Bool := c.isAlphanum || c = '_'
  if name.isEmpty ∨ !name.all isLetter ∨ name.head?.any Char.isDigit then throw .badVerb
  if name ≠ "FAIL".toList ∨ behind.head? ≠ some ')' then throw .unknownVerb
  setRest (behind.drop 1)
  return .set .none

/-- Reads a body with `inner` up to the closing parenthesis. -/
def closed (inner : Options → Sign → Parser Read) (o : Options) : Parser Expr := do
  match ← inner o (← sign o) with
  | (body, .closeGroup) => return body
  | _ => throw .unclosedGroup

/-- Reads a capturing group behind its opening, there being `behind` characters behind the opening
parenthesis. -/
def capture (inner : Options → Sign → Parser Read) (o : Options) (behind : Nat)
    (name? : Option Text) : Parser Expr := do
  let number ← openGroup behind name?
  return .group number (← closed inner o)

/-- What has been read behind an opening parenthesis. -/
inductive Group where
  /-- A group that does nothing but hold its body together. -/
  | plain (body : Expr)
  /-- Another group, or a place. -/
  | whole (e : Expr)
  /-- Options, and all that they hold for, with the sign behind it. -/
  | options (body : Expr) (behind : Sign)

/-- Reads a group behind its opening parenthesis. `inner` reads the alternatives in it. -/
def group (inner : Options → Sign → Parser Read) (o : Options) : Parser Group := do
  let text ← rest
  match text with
  | [] => throw .unclosedGroup
  | '*' :: more =>
    setRest more
    return .whole (← verb)
  | '?' :: more =>
    setRest more
    match ← next? with
    | none => throw .unfinishedGroup
    | some ':' => return .plain (← closed inner o)
    | some '=' => return .whole (.look true false (← closed inner o))
    | some '!' => return .whole (.look true true (← closed inner o))
    | some '>' => return .whole (.atomic (← closed inner o))
    | some '\x27' => return .whole (← capture inner o text.length (some (← groupName '\x27')))
    | some '<' =>
      if (← rest).isEmpty then throw .unclosedGroup
      if ← accept ['='] then return .whole (.look false false (← closed inner o))
      if ← accept ['!'] then return .whole (.look false true (← closed inner o))
      return .whole (← capture inner o text.length (some (← groupName '>')))
    | some c =>
      if c ≠ '-' ∧ c ≠ 'i' ∧ c ≠ 'm' ∧ c ≠ 'x' then throw .unknownOption
      -- the options begin with the character that has just been read
      setRest more
      match ← options (more.length + 1) o true with
      | .group o => return .whole (.scope (← closed inner o))
      | .rest o =>
        let (body, behind) ← inner o (← sign o)
        return .options (.scope body) behind
  | _ => return .whole (← capture inner o text.length none)

/-- Reads the loops around an expression from a sign on, the inner ones first. Behind a text that is
not `grouped`, a loop is around its last character alone. -/
def loops (o : Options) : (depth : Nat) → (grouped : Bool) → Expr → Sign → Parser Read
  | 0, _, target, .rounds _ => throw (if target.isPlace then .placeRepeated else .tooDeep)
  | depth + 1, grouped, target, .rounds r => do
    if target.isPlace then throw .placeRepeated
    -- what is repeated once stands for itself, and is no longer grouped
    if r.least = 1 ∧ r.most = some 1 then loops o depth false target (← sign o)
    else
      match grouped, target with
      | false, .text ignoreCase (first :: second :: others) =>
        let t := first :: second :: others
        let last ← r.apply (.text ignoreCase (t.drop (t.length - 1)))
        let (last, behind) ← loops o depth false last (← sign o)
        return (.concat (.text ignoreCase t.dropLast) last, behind)
      | _, _ =>
        let e ← r.apply target
        loops o depth false e (← sign o)
  | _, _, target, behind => return (target, behind)

/-- Reads the characters from a sign on, and the sign behind them. -/
def characters (o : Options) : (fuel : Nat) → Sign → Parser (Text × Sign)
  | 0, behind => return ([], behind)
  | fuel + 1, .code n =>
    match charOf? n with
    | some c => do
      let (t, behind) ← characters o fuel (← sign o)
      return (c :: t, behind)
    | none => return ([], .code n)
  | _ + 1, behind => return ([], behind)

/-- Reads the character that begins with a byte. -/
def byteCharacter (o : Options) : (count : Nat) → (bytes : List Nat) → Parser Expr
  | 0, bytes =>
    match assemble? bytes with
    | some _ => return (charOfBytes? bytes).elim (.set .none) (.text o.ignoreCase [·])
    | none => throw .badCharacter
  | count + 1, bytes => do
    match ← sign o with
    | .byte b => byteCharacter o count (bytes ++ [b])
    | _ => throw .shortCharacter

/-- Reads what begins with a sign, with the loops around it. -/
def piece (inner : Options → Sign → Parser Read) (depth : Nat) (o : Options) (s : Sign) :
    Parser Read := do
  match s with
  | .code _ =>
    match ← characters o ((← rest).length + 1) s with
    -- no text has a character with such a number
    | ([], _) => loops o depth false (.set .none) (← sign o)
    | (t, behind) => loops o depth false (.text o.ignoreCase t) behind
  | .byte b =>
    let e ← byteCharacter o (encodedLength b - 1) [b]
    loops o depth false e (← sign o)
  | .whole e => loops o depth false e (← sign o)
  | .rounds _ => throw .nothingToRepeat
  | .openClass =>
    let e ← charClass o depth
    loops o depth false e (← sign o)
  | .openGroup =>
    match ← group inner o with
    | .plain body => loops o depth true body (← sign o)
    | .whole e => loops o depth false e (← sign o)
    -- options hold up to the end of the group around them, so that nothing can be repeated
    | .options body behind => return (body, behind)
  | .closeGroup | .bar | .stop => return (.empty, s)

/-- Reads pieces from a sign on, up to the end, a bar or a closing parenthesis. -/
def branch (inner : Options → Sign → Parser Read) (depth : Nat) (o : Options) :
    (fuel : Nat) → Sign → Parser (Option Expr × Sign)
  | _, .stop => return (none, .stop)
  | _, .bar => return (none, .bar)
  | _, .closeGroup => return (none, .closeGroup)
  | 0, _ => throw .tooDeep
  | fuel + 1, s => do
    let (first, behind) ← piece inner depth o s
    match ← branch inner depth o fuel behind with
    | (none, behind) => return (some first, behind)
    | (some others, behind) => return (some (.concat first others), behind)

/-- Reads alternatives from a sign on, up to the end or a closing parenthesis. -/
def alternatives (inner : Options → Sign → Parser Read) (depth : Nat) (o : Options) :
    (fuel : Nat) → Sign → Parser Read
  | 0, _ => throw .tooDeep
  | fuel + 1, s => do
    match ← branch inner depth o (fuel + 1) s with
    | (first, .bar) =>
      let (others, behind) ← alternatives inner depth o fuel (← sign o)
      return (.either (first.getD .empty) others, behind)
    | (first, behind) => return (first.getD .empty, behind)

/-- Reads alternatives in which groups, classes and loops are nested at most `depth` levels deep. -/
def expr : (depth : Nat) → Options → Sign → Parser Read
  | 0, _, _ => throw .tooDeep
  | depth + 1, o, s => do alternatives (expr depth) depth o ((← rest).length + 2) s

/-- Reads a pattern to its end. -/
def pattern : Parser Expr := do
  match ← expr maxDepth .none (← sign .none) with
  | (e, .stop) => return e
  | _ => throw .unopenedGroup

end Parser

/-- Reads a pattern. -/
def parse (source : Text) : Except Error Regex := do
  let (e, p) ← Parser.pattern.run ⟨source, []⟩
  let referred := e.references
  -- a group may be referred to before it is defined
  if referred.any (· > p.openings.length) then throw .unknownGroupNumber
  let e := e.joined
  let lengths := e.groupLengths
  let plan ← e.plan ⟨referred, fun number => (lengths.lookup number).getD .place⟩
  return { source, plan, openings := p.openings, names := Parser.nameTable p.openings }

end Regex

end Cascade
