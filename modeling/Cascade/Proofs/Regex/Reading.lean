import Cascade.Proofs.Text.Span
import Cascade.Regex.Parser.Pattern
import Std.Tactic.Do

/-!
# What readers pass over

Readers of patterns are specified from the progress at which they start. Most of them pass over a
part of the text that is left and open no group. A reader of signs may have passed over an opening
parenthesis as its last step, which is where a group begins: `Sign.unread` is the progress before
it.

* `Passes`: some text has been passed over, and no group has been opened.
* `Yields`: what a reader returns, and where it is then, unless it fails.
* `sign_spec`, `charClass_spec`, `loops_spec`: signs, classes and loops are passed over.
-/

namespace Cascade.Regex.Parser

open Std.Do

set_option mvcgen.warning false

/-- Some of a pattern has been read, and no group has been opened. -/
@[grind]
structure Passes (p p' : Progress) : Prop where
  suffix : p'.rest <:+ p.rest
  openings : p'.openings = p.openings

/-- What a reader returns from `p₀` on, and where it is then, are in a relation, unless it fails. -/
abbrev Yields {α : Type} (p₀ : Progress) (m : Parser α) (R : α → Progress → Prop) : Prop :=
  ⦃fun p => ⌜p = p₀⌝⦄ m ⦃⇓? a p => ⌜R a p⌝⦄

variable {α : Type} {p p' p'' p₀ : Progress} {m : Parser α} {R : α → Progress → Prop}
  {o : Options} {text more : Text}

/-- A reader that does nothing passes over nothing. -/
@[grind .]
theorem Passes.refl (p : Progress) : Passes p p :=
  ⟨List.suffix_refl _, rfl⟩

/-- What two readers pass over one after the other is passed over by both together. -/
@[grind →]
theorem Passes.trans (h : Passes p p') (h' : Passes p' p'') : Passes p p'' :=
  ⟨h'.suffix.trans h.suffix, h'.openings.trans h.openings⟩

/-- A specification tells about each run that does not fail. -/
theorem Yields.of_run {a : α} (h : Yields p₀ m R) (hrun : m.run p₀ = .ok (a, p)) : R a p := by
  have hwp : (wp⟦m.run p₀⟧ (⇓? r => ⌜R r.1 r.2⌝)).down := h p₀ rfl
  rw [hrun] at hwp
  exact hwp

/-- A reader is specified by all that follows from its specification. In this form the last step of
a reader is not taken for the whole of it. -/
theorem Yields.of_forall (h : ∀ Q : α → Progress → Prop, (∀ a p, R a p → Q a p) → Yields p₀ m Q) :
    Yields p₀ m R :=
  h R fun _ _ => id

-- what is left after a step is a suffix of what was left before
local grind_pattern List.drop_suffix => List.drop i l
local grind_pattern List.dropWhile_suffix => List.dropWhile p l
local grind_pattern List.suffix_cons => a :: l

/-! ## Single steps -/

/-- A reader that fails has no result of which anything could be said. -/
@[spec high]
theorem throw_spec (e : Error) {Q : α → Assertion (.arg Progress (.except Error .pure))} :
    ⦃fun _ => ⌜True⌝⦄ (throw e : Parser α) ⦃⇓? a => Q a⦄ :=
  fun _ _ => trivial

/-- What has been computed before is given back without reading. -/
@[spec high]
theorem lift_spec (x : Except Error α) :
    Yields p₀ (MonadLift.monadLift x : Parser α) fun a p => p = p₀ ∧ x = .ok a := by
  rintro p ⟨⟩
  cases x with
  | error e => trivial
  | ok a => exact ⟨rfl, rfl⟩

/-- What is left of the pattern is looked at, not passed over. -/
@[spec]
theorem rest_spec : Yields p₀ rest fun text p => p = p₀ ∧ text = p₀.rest := by
  mvcgen [rest]
  grind

/-- What is left of the pattern is replaced, and nothing else is changed. -/
@[spec]
theorem setRest_spec (text : Text) :
    Yields p₀ (setRest text) fun _ p => p = { p₀ with rest := text } := by
  mvcgen [setRest]
  grind

/-- The next character is taken from what is left of the pattern, if there is one. -/
@[spec]
theorem next?_spec :
    Yields p₀ next? fun c? p => p.openings = p₀.openings ∧ p₀.rest = c?.toList ++ p.rest := by
  mvcgen [next?] <;> grind

/-- A text that comes next is passed over, and no other one. -/
@[spec]
theorem accept_spec (text : Text) : Yields p₀ (accept text) fun _ => Passes p₀ := by
  mvcgen [accept] <;> grind [Text.isPrefixOf?_eq_some_iff]

/-- A run of characters is passed over. -/
@[spec]
theorem takeRun_spec (limit : Nat) (test : Char → Bool) :
    Yields p₀ (takeRun limit test) fun _ => Passes p₀ := by
  mvcgen [takeRun]
  grind

/-- A number passes over its digits. -/
@[spec]
theorem number?_spec : Yields p₀ number? fun _ => Passes p₀ := by
  mvcgen [number?]
  grind

/-! ## Loops, escapes and names -/

/-- A bound of a loop passes over its digits. -/
@[spec]
theorem bound?_spec : Yields p₀ bound? fun _ => Passes p₀ := by
  mvcgen [bound?] <;> grind

/-- The sign that makes a loop lazy or possessive is passed over. -/
@[spec]
theorem mode_spec (lazyAllowed possessive : Bool) :
    Yields p₀ (mode lazyAllowed possessive) fun _ => Passes p₀ := by
  mvcgen [mode] <;> grind

/-- The bounds of a loop are passed over with their braces, or left as they are. -/
@[spec]
theorem bounds?_spec : Yields p₀ bounds? fun _ => Passes p₀ := by
  mvcgen [bounds?] <;> grind

/-- A byte in octal digits passes over these. -/
@[spec]
theorem octalByte_spec (digits : Text) : Yields p₀ (octalByte digits) fun _ => Passes p₀ := by
  mvcgen [octalByte]
  grind

/-- A character that is spelled by digits passes over these. -/
@[spec]
theorem spelled_spec (c : Char) : Yields p₀ (spelled c) fun _ => Passes p₀ := by
  refine .of_forall fun Q hQ => ?_
  unfold spelled
  mintro hstart
  mspec rest_spec
  -- a number in braces is looked at as a whole before any of it is passed over
  split
  · split <;> mvcgen <;> grind
  all_goals mvcgen <;> grind

/-- The name of a group is passed over with the sign that closes it. -/
@[spec]
theorem groupName_spec (closing : Char) : Yields p₀ (groupName closing) fun _ => Passes p₀ := by
  mvcgen [groupName]
  grind

/-- A level behind a name is passed over, as far as the text that has been cut off for it. -/
@[spec]
theorem level_spec (closing : Char) (name text more : Text) :
    Yields p₀ (level closing name text more) fun _ => Passes { p₀ with rest := more } := by
  mvcgen [level]
  grind

/-- A reference to a group is passed over with the sign that closes it. -/
@[spec]
theorem reference_spec (closing : Char) : Yields p₀ (reference closing) fun _ => Passes p₀ := by
  mvcgen [reference] <;> grind

/-- Which groups a reference means is told without reading. -/
@[spec]
theorem resolve_spec (r : Reference) : Yields p₀ (resolve r) fun _ p => p = p₀ := by
  mvcgen [resolve]

/-- A reference back to a group is passed over. -/
@[spec]
theorem backreference_spec (closing : Char) :
    Yields p₀ (backreference o closing) fun _ => Passes p₀ := by
  mvcgen [backreference]
  grind

/-! ## Signs -/

/-- The progress before a sign that has been read, if it is an opening parenthesis. -/
@[grind]
def Sign.unread (s : Sign) (p : Progress) : Progress :=
  match s with
  | .openGroup => { p with rest := '(' :: p.rest }
  | _ => p

/-- A sign that has been taken back is passed over when it is read again. -/
theorem passes_unread (s : Sign) (p : Progress) : Passes (s.unread p) p := by
  cases s <;> grind

grind_pattern passes_unread => s.unread p

/-- Behind a comment, an end of the pattern is left. -/
@[grind →]
theorem skipComment_suffix (h : skipComment text = some more) : more <:+ text := by
  fun_induction skipComment text with
  | case1 => simp at h
  | case2 rest =>
    obtain rfl : rest = more := by simpa using h
    exact List.suffix_cons ..
  | case3 => simp at h
  | case4 c rest ih => exact (ih h).trans (List.suffix_append [_, _] rest)
  | case5 c rest _ _ _ ih => exact (ih h).trans (List.suffix_cons ..)

/-- Blanks and comments are passed over where they do not count. -/
@[spec]
theorem skipTrivia_spec (fuel : Nat) : Yields p₀ (skipTrivia o fuel) fun _ => Passes p₀ := by
  -- each comment or blank is passed over in one step, and the rest by those that follow
  induction fuel generalizing p₀ with
  | zero =>
    mvcgen [skipTrivia]
    grind
  | succ fuel ih =>
    refine .of_forall fun Q hQ => ?_
    mvcgen [skipTrivia, ih] <;> grind

/-- An escape passes over what it stands for, and takes back no more than its sign. -/
@[spec]
theorem escape_spec : Yields p₀ (escape o) fun s p => Passes p₀ (s.unread p) := by
  mvcgen [escape] <;> grind

/-- Signs are passed over, and no group has been opened before a parenthesis. -/
@[spec]
theorem sign_spec : Yields p₀ (sign o) fun s p => Passes p₀ (s.unread p) := by
  refine .of_forall fun Q hQ => ?_
  mvcgen [sign] <;> grind

/-! ## Classes -/

/-- Behind the name of a class, an end of the pattern is left. -/
theorem suffix_of_findSome?_classNames {cls : CharClass}
    (h : (classNames.findSome? fun (name, cls) =>
      (name.toList.isPrefixOf? text).map fun more => (cls, more)) = some (cls, more)) :
    more <:+ text := by
  obtain ⟨⟨name, cls'⟩, -, hname⟩ := List.exists_of_findSome?_eq_some h
  obtain ⟨more', hmore, heq⟩ := Option.map_eq_some_iff.1 hname
  obtain ⟨-, rfl⟩ := Prod.mk.inj heq
  exact ⟨_, Text.isPrefixOf?_eq_some_iff.1 hmore⟩

/-- The name of a class is passed over with its brackets. -/
@[spec]
theorem namedClass_spec : Yields p₀ namedClass fun _ => Passes p₀ := by
  mvcgen [namedClass]
  next hknown _ _ _ _ _ =>
    have hsuffix := suffix_of_findSome?_classNames hknown
    grind

/-- A sign in a class is passed over. -/
@[spec]
theorem classSign_spec : Yields p₀ classSign fun _ => Passes p₀ := by
  mvcgen [classSign] <;> grind

/-- The bytes that are left of a character are passed over. -/
@[spec]
theorem moreBytes_spec (base count : Nat) :
    Yields p₀ (moreBytes base count) fun _ => Passes p₀ := by
  induction count generalizing p₀ with
  | zero =>
    mvcgen [moreBytes]
    grind
  | succ count ih => mvcgen [moreBytes, ih] <;> grind

/-- A member of a class that is spelled by its bytes is passed over. -/
@[spec]
theorem byteMember_spec (b base : Nat) : Yields p₀ (byteMember b base) fun _ => Passes p₀ := by
  mvcgen [byteMember] <;> grind

/-- The parts of a class are passed over up to its bracket, if nested classes are. -/
theorem classParts_spec {nested : Parser Content}
    (hnested : ∀ {p₀}, Yields p₀ nested fun _ => Passes p₀) (fuel : Nat) (st : ClassState)
    (s : ClassSign) : Yields p₀ (classParts nested fuel st s) fun _ => Passes p₀ := by
  induction fuel generalizing p₀ st s with
  | zero => mvcgen [classParts]
  | succ fuel ih =>
    refine .of_forall fun Q hQ => ?_
    mvcgen [classParts, ih, hnested] <;> grind

/-- A class is passed over behind its opening bracket. -/
@[spec]
theorem classBody_spec (depth : Nat) : Yields p₀ (classBody depth) fun _ => Passes p₀ := by
  induction depth generalizing p₀ with
  | zero => mvcgen [classBody]
  | succ depth ih =>
    -- the reader of a class inside has one level less left
    have hnested {p₀ : Progress} : Yields p₀
        (do let r ← classBody depth; return if r.1 then r.2.compl else r.2)
        fun _ => Passes p₀ := by
      refine .of_forall fun Q hQ => ?_
      mvcgen [ih]
      grind
    have hparts := fun {p₀} => @classParts_spec p₀ _ hnested
    mvcgen [classBody, hparts] <;> grind

/-- A class is passed over, and options are applied to it without reading. -/
@[spec]
theorem charClass_spec (depth : Nat) : Yields p₀ (charClass o depth) fun _ => Passes p₀ := by
  mvcgen [charClass]
  grind

/-! ## What stands between groups -/

/-- Options are passed over up to the sign behind them. -/
@[spec]
theorem options_spec (fuel : Nat) (on : Bool) :
    Yields p₀ (options fuel o on) fun _ => Passes p₀ := by
  induction fuel generalizing p₀ o on with
  | zero => mvcgen [options]
  | succ fuel ih =>
    refine .of_forall fun Q hQ => ?_
    mvcgen [options, ih] <;> grind

/-- A verb is passed over with its parentheses. -/
@[spec]
theorem verb_spec : Yields p₀ verb fun _ => Passes p₀ := by
  mvcgen [verb]
  grind

/-- The loops around an expression are passed over, up to a sign that belongs to none of them. -/
@[spec]
theorem loops_spec (depth : Nat) (grouped : Bool) (e : Expr) (s : Sign) :
    Yields p₀ (loops o depth grouped e s) fun r p => Passes (s.unread p₀) (r.2.unread p) := by
  induction depth generalizing p₀ grouped e s with
  | zero => cases s <;> mvcgen [loops] <;> grind
  | succ depth ih =>
    refine .of_forall fun Q hQ => ?_
    cases s <;> mvcgen [loops, ih] <;> grind

/-- Characters that stand for themselves are passed over, up to a sign that does not. -/
@[spec]
theorem characters_spec (fuel : Nat) (s : Sign) :
    Yields p₀ (characters o fuel s) fun r p => Passes (s.unread p₀) (r.2.unread p) := by
  induction fuel generalizing p₀ s with
  | zero =>
    mvcgen [characters]
    grind
  | succ fuel ih => cases s <;> mvcgen [characters, ih] <;> grind

/-- A character that is spelled by its bytes is passed over. -/
@[spec]
theorem byteCharacter_spec (count : Nat) (bytes : List Nat) :
    Yields p₀ (byteCharacter o count bytes) fun _ => Passes p₀ := by
  induction count generalizing p₀ bytes with
  | zero =>
    mvcgen [byteCharacter]
    cases charOfBytes? bytes <;> grind
  | succ count ih =>
    refine .of_forall fun Q hQ => ?_
    mvcgen [byteCharacter, ih]
    grind

end Cascade.Regex.Parser
