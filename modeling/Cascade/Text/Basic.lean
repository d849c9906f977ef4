/-!
# Texts and byte positions

A text is the list of its characters. Positions inside a text are counted in bytes of its UTF-8
form, because that is how matches are reported; a `Span` is a half-open range of such positions.

* `take_append_drop`: cutting a text at any position loses nothing.
* `splice_nil`: editing nothing returns the text itself.
* `eq_append_of_cutAt?`, `dropEnding?_eq_some_iff`: what cutting a text at a part of it gives.
-/

namespace Cascade

/-- A text, as the list of its characters. -/
abbrev Text := List Char

/-- A half-open range of byte positions. -/
structure Span where
  /-- The first byte position of the range. -/
  start : Nat
  /-- The byte position just behind the range. -/
  stop : Nat
  deriving DecidableEq, Inhabited, Repr

namespace Text

/-- The number of bytes that the UTF-8 form of a text takes. -/
def byteLength : Text → Nat
  | [] => 0
  | c :: rest => c.utf8Size + byteLength rest

/-- The longest beginning of a text that fits into `n` bytes. -/
def takeBytes : Nat → Text → Text
  | _, [] => []
  | n, c :: rest => if c.utf8Size ≤ n then c :: takeBytes (n - c.utf8Size) rest else []

/-- What `takeBytes` leaves of a text. -/
def dropBytes : Nat → Text → Text
  | _, [] => []
  | n, c :: rest => if c.utf8Size ≤ n then dropBytes (n - c.utf8Size) rest else c :: rest

/-- The part of a text between two byte positions. -/
def slice (text : Text) (span : Span) : Text :=
  takeBytes (span.stop - span.start) (dropBytes span.start text)

/-- `rest`, which starts at byte position `offset`, with each span of `edits` replaced. -/
def spliceFrom (offset : Nat) (rest : Text) : List (Span × Text) → Text
  | [] => rest
  | (span, replacement) :: edits =>
    takeBytes (span.start - offset) rest ++ replacement ++
      spliceFrom span.stop (dropBytes (span.stop - offset) rest) edits

/-- `text` with each span of `edits`, which are in order and disjoint, replaced by its text;
everything outside the spans is kept. -/
def splice (text : Text) (edits : List (Span × Text)) : Text :=
  spliceFrom 0 text edits

/-- The pieces of a text between the occurrences of a separator, the separators left out. -/
def fields (separator : Char) : Text → List Text
  | [] => [[]]
  | c :: rest =>
    if c = separator then [] :: fields separator rest
    else
      match fields separator rest with
      | [] => [[c]]
      | field :: more => (c :: field) :: more

/-- What follows the first occurrence of `needle`, with what stands before it. -/
def cutAt? (needle : Text) : Text → Option (Text × Text)
  | [] => if needle.isEmpty then some ([], []) else none
  | c :: rest =>
    match needle.isPrefixOf? (c :: rest) with
    | some behind => some ([], behind)
    | none => (cutAt? needle rest).map fun (before, behind) => (c :: before, behind)

/-- Whether `needle` occurs in a text. -/
def includes (needle text : Text) : Bool :=
  (cutAt? needle text).isSome

/-- The text without `ending`, if it ends in it. -/
def dropEnding? (ending text : Text) : Option Text :=
  (ending.reverse.isPrefixOf? text.reverse).map List.reverse

/-- Replaces the occurrences of `needle` from left to right, `skip` being how many characters of
the last occurrence are still to be passed over. An empty needle occurs before each character and
at the end. -/
def replaceFrom (needle replacement : Text) (skip : Nat) : Text → Text
  | [] => if needle.isEmpty then replacement else []
  | c :: rest =>
    if skip = 0 then
      if needle.isEmpty then replacement ++ c :: replaceFrom needle replacement 0 rest
      else if needle.isPrefixOf (c :: rest) then
        replacement ++ replaceFrom needle replacement (needle.length - 1) rest
      else c :: replaceFrom needle replacement 0 rest
    else replaceFrom needle replacement (skip - 1) rest

/-- A text with every occurrence of `needle` replaced, from left to right. -/
def replaceAll (needle replacement text : Text) : Text :=
  replaceFrom needle replacement 0 text

/-- A text filled up on the left to at least `width` characters. -/
def padLeft (filler : Char) (width : Nat) (text : Text) : Text :=
  List.replicate (width - text.length) filler ++ text

/-- Cutting a text at a byte position loses nothing. -/
theorem take_append_drop (n : Nat) (text : Text) : takeBytes n text ++ dropBytes n text = text := by
  induction text generalizing n with
  | nil => rfl
  | cons c rest ih => by_cases h : c.utf8Size ≤ n <;> simp [takeBytes, dropBytes, h, ih]

/-- No edit, no change. -/
theorem splice_nil (text : Text) : splice text [] = text := rfl

/-- The bytes of two texts add up. -/
theorem byteLength_append (a b : Text) : byteLength (a ++ b) = byteLength a + byteLength b := by
  induction a with
  | nil => simp [byteLength]
  | cons c rest ih => simp [byteLength, ih, Nat.add_assoc]

/-- What is left of a text behind its beginning. -/
theorem isPrefixOf?_eq_some_iff {beginning text rest : Text} :
    beginning.isPrefixOf? text = some rest ↔ beginning ++ rest = text := by
  induction beginning generalizing text with
  | nil =>
    change some text = some rest ↔ rest = text
    rw [Option.some.injEq, eq_comm]
  | cons c beginning ih =>
    cases text with
    | nil =>
      change none = some rest ↔ _
      simp
    | cons d text =>
      change (if c == d then beginning.isPrefixOf? text else none) = some rest ↔ _
      by_cases h : c = d <;> simp [h, ih]

/-- What is cut out of a text stands between the two parts. -/
theorem eq_append_of_cutAt? {needle text before behind : Text}
    (h : cutAt? needle text = some (before, behind)) : text = before ++ needle ++ behind := by
  induction text generalizing before behind with
  | nil => grind [cutAt?]
  | cons c rest ih =>
    rw [cutAt?] at h
    split at h
    · next found =>
      obtain ⟨rfl, rfl⟩ : [] = before ∧ _ = behind := by simpa using h
      simpa using (isPrefixOf?_eq_some_iff.1 found).symm
    · simp only [Option.map_eq_some_iff] at h
      obtain ⟨⟨b, e⟩, hb, h⟩ := h
      obtain ⟨rfl, rfl⟩ : c :: b = before ∧ e = behind := by simpa using h
      simp [ih hb]

/-- A text ends in what can be dropped from its end. -/
theorem dropEnding?_eq_some_iff {ending text rest : Text} :
    dropEnding? ending text = some rest ↔ rest ++ ending = text := by
  simp only [dropEnding?, Option.map_eq_some_iff, isPrefixOf?_eq_some_iff]
  constructor
  · rintro ⟨front, h, rfl⟩
    simpa using congrArg List.reverse h
  · rintro rfl
    exact ⟨rest.reverse, by simp, by simp⟩

end Text

end Cascade
