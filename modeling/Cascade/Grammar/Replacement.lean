import Cascade.Hook
import Cascade.Text.Numeral

/-!
# Replacement templates

A template is a text in which `$` followed by a digit, or by a key in braces, stands for what a
group captured, `$$` stands for a dollar sign, and any other dollar sign for itself.

* `expand?`: the text that a template stands for; none if a brace is not closed.
* `hooks`: the hooks of a rule that is given by a template.
-/

namespace Cascade

/-- The characters of a text, each with the byte position where it starts, the first one at
`offset`. -/
def Text.charIndices (offset : Nat) : Text → List (Nat × Char)
  | [] => []
  | c :: rest => (offset, c) :: charIndices (offset + c.utf8Size) rest

namespace Replacement

/-- Expands what is left of a template. When a key in braces has been looked up, its characters are
still to be passed over, and `skip?` is the position of the brace behind it. -/
def expandFrom (lookup : Text → Text) (template : Text) (skip? : Option Nat) :
    List (Nat × Char) → Option Text
  | [] => some []
  | (index, c) :: chars =>
    match skip? with
    | some last => expandFrom lookup template (if index = last then none else some last) chars
    | none =>
      if c = '$' then
        match chars with
        | [] => some ['$']
        | (start, d) :: more =>
          if d = '$' then (expandFrom lookup template none more).map ('$' :: ·)
          else if d.isDigit then (expandFrom lookup template none more).map (lookup [d] ++ ·)
          else if d = '\x7b' then
            -- the key is cut out of the template by positions
            match Text.cutAt? ['\x7d'] (Text.dropBytes (start + 1) template) with
            | none => none
            | some (key, _) =>
              (expandFrom lookup template (some (start + 1 + key.byteLength))
                ((start, d) :: more)).map (lookup key ++ ·)
          else (expandFrom lookup template none ((start, d) :: more)).map ('$' :: ·)
      else (expandFrom lookup template none chars).map (c :: ·)

/-- The text that a template stands for, `lookup` giving the texts of the keys. -/
def expand? (lookup : Text → Text) (template : Text) : Option Text :=
  expandFrom lookup template none (template.charIndices 0)

/-- What a key stands for: a numeral for the group with that number, anything else for the group
with that name. A group that is absent is blank. -/
def groupText (captures : Captures) (key : Text) : Text :=
  match Text.numeral? key with
  | some number => (captures.get? number).getD []
  | none => (captures.named? key).getD []

/-- The text of the failure for a template with a brace that is not closed. -/
def unclosedMessage (template : Text) : Text :=
  "unclosed `$\x7b` in replacement '".toList ++ template ++ ['\x27']

/-- The hook that makes the modified text from a template. Without a template the matched text is
kept; without groups, at the root, the template stands for itself. -/
def capture (template? : Option Text) : HookM Text := do
  match template? with
  | none => Hooks.keepText
  | some template =>
    match (← HookM.node).captures? with
    | none => return template
    | some captures =>
      match expand? (groupText captures) template with
      | some text => return text
      | none => HookM.fail (unclosedMessage template)

/-- The hook that puts the working text itself into the text of the parent if the rule is inline,
and the token otherwise. -/
def substitute (inline : Bool) : HookM Text := do
  if inline then return (← HookM.node).working else Hooks.maskText

/-- The hooks of a rule that is given by a template. -/
def hooks (template? : Option Text) (inline : Bool) : Hooks where
  onCapture := capture template?
  onSubstitute := substitute inline
  onResolve := pure ()

/-- Without a template, a rule keeps the text. -/
theorem capture_none : capture none = Hooks.keepText := rfl

/-- A template without dollar signs stands for itself. -/
theorem expand?_eq_some_self (lookup : Text → Text) {template : Text} (h : '$' ∉ template) :
    expand? lookup template = some template := by
  suffices hfrom : ∀ text : Text, '$' ∉ text → ∀ offset,
      expandFrom lookup template none (text.charIndices offset) = some text from hfrom _ h 0
  intro text
  induction text with
  | nil => exact fun _ _ => rfl
  | cons c rest ih =>
    intro h offset
    rw [List.mem_cons, not_or] at h
    rw [Text.charIndices, expandFrom.eq_def]
    simp [Ne.symm h.1, ih h.2]

end Replacement

end Cascade
