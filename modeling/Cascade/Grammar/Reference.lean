import Cascade.Token.Pattern

/-!
# References in patterns

Inside a pattern, `<<name>>` refers to another rule: it matches what the pattern of that rule
matches, or one token of that rule. Text between such signs that can be no rule name stands for
itself.

* `segments`: a pattern cut into references and other characters.
* `resolve`: a pattern with its references, and those behind them, replaced.
-/

namespace Cascade.Reference

/-- A part of a pattern. -/
inductive Segment where
  /-- A character that stands for itself. -/
  | literal (c : Char)
  /-- A reference to a rule. -/
  | rule (name : Text)
  deriving DecidableEq, Repr

/-- The name of the rule that a text refers to at its start. -/
def nameAt? : Text → Option Text
  | '<' :: '<' :: rest =>
    let name := rest.takeWhile Token.isNameChar
    let behind := rest.dropWhile Token.isNameChar
    if Token.isRuleName name ∧ ['>', '>'].isPrefixOf behind then some name else none
  | _ => none

/-- The segments of a pattern, after the characters of the last reference that are still to be
passed over. -/
def segmentsFrom (skip : Nat) : Text → List Segment
  | [] => []
  | c :: rest =>
    if skip = 0 then
      match nameAt? (c :: rest) with
      | some name => .rule name :: segmentsFrom (name.length + 3) rest
      | none => .literal c :: segmentsFrom 0 rest
    else segmentsFrom (skip - 1) rest

/-- The segments of a pattern. -/
def segments (pattern : Text) : List Segment :=
  segmentsFrom 0 pattern

/-- What a reference is replaced by: a group that matches a token of the rule, or, before that, what
`literal` matches. -/
def alternatives (literal : Option Text) (name : Text) : Text :=
  "(?:".toList ++
    (match literal with
      | some text => text ++ ['|']
      | none => []) ++
    Token.fragment name ++ [')']

/-- Replaces the segments of a pattern, given what the references are replaced by. -/
def substitute (reference : Text → Except Text Text) : List Segment → Except Text Text
  | [] => .ok []
  | .literal c :: rest => do
    return c :: (← substitute reference rest)
  | .rule name :: rest => do
    let text ← reference name
    return text ++ (← substitute reference rest)

/-- A pattern with its references replaced, and those in the patterns of the rules referred to, down
to `depth` levels. `patterns` gives the pattern of a rule, if there is such a rule and it has one. A
reference back to one of the rules in `within`, or to a rule without a pattern, matches tokens only.
The error is the first name that is no rule. -/
def resolve (patterns : Text → Option (Option Text)) :
    (depth : Nat) → (within : List Text) → Text → Except Text Text
  | 0, _ => fun pattern => .ok pattern
  | depth + 1, within => fun pattern =>
    substitute
      (fun name =>
        match patterns name with
        | none => .error name
        | some none => .ok (alternatives none name)
        | some (some inner) =>
          -- the pattern would go on forever if it contained itself
          if within.contains name then .ok (alternatives none name)
          else do
            let literal ← resolve patterns depth (name :: within) inner
            return alternatives (some literal) name)
      (segments pattern)

end Cascade.Reference
