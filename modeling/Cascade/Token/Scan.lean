import Cascade.Token.Basic

/-!
# Finding and replacing tokens in a text

* `findTokens`: the spans of all tokens of a text, from left to right.
* `replaceTokensM`, `replaceTokens`: a text with its tokens looked up and replaced.
* `display`: a text with its tokens shown in readable form.
* `replaceTokens_eq_self_of_findTokens_eq_nil`: nothing but tokens is ever replaced.
-/

namespace Cascade.Token

/-- The tokens of a text that starts at byte position `offset`. `opened` is the last opening mark
before it with only token characters behind: its position, and the characters from it on, the last
one first. -/
def findFrom (offset : Nat) (opened : Option (Nat × Text)) : Text → List Span
  | [] => []
  | c :: rest =>
    let next := offset + c.utf8Size
    -- an opening mark makes the one before it worthless, since no token contains two
    if c = openMark then findFrom next (some (offset, [c])) rest
    else if c = closeMark then
      match opened with
      | some (start, passed) =>
        if isToken (c :: passed).reverse then ⟨start, next⟩ :: findFrom next none rest
        else findFrom next none rest
      | none => findFrom next none rest
    else if c = separator ∨ (unglyph? c).isSome then
      findFrom next (opened.map fun (start, passed) => (start, c :: passed)) rest
    else findFrom next none rest

/-- The byte spans of all tokens of a text, from left to right. -/
def findTokens (text : Text) : List Span :=
  findFrom 0 none text

/-- Looks up each token of a text, from left to right, and replaces it by the answer. A token
without an answer stays. -/
def replaceTokensM {m : Type → Type} [Monad m] (lookup : Text → m (Option Text)) (text : Text) :
    m Text := do
  let edits ← (findTokens text).mapM fun span => do
    let token := text.slice span
    return (span, (← lookup token).getD token)
  return text.splice edits

/-- A text with each token that has a replacement replaced by it. -/
def replaceTokens (lookup : Text → Option Text) (text : Text) : Text :=
  text.splice <| (findTokens text).map fun span =>
    (span, (lookup (text.slice span)).getD (text.slice span))

/-- A text with each token shown in readable form. -/
def display (text : Text) : Text :=
  replaceTokens (fun token => (decode token).map Parts.display) text

/-- A text without tokens stays as it is. -/
theorem replaceTokens_eq_self_of_findTokens_eq_nil (lookup : Text → Option Text) {text : Text}
    (h : findTokens text = []) : replaceTokens lookup text = text := by
  simp [replaceTokens, h, Text.splice_nil]

end Cascade.Token
