import Cascade.Grammar.Replacement
import Cascade.Proofs.Text.Span
import Mathlib.Data.List.Basic

/-!
# Templates as lists of segments

A template is written segment by segment: a character, a dollar sign that is escaped, a reference by
a digit or by a key in braces, or a dollar sign that stands alone because nothing else can be read
there. What a template stands for is put together from what its segments stand for, and the only
templates that are not written in this way have braces that are opened and not closed.

* `Segment`, `IsTemplate`: the segments, and which lists of them templates are written from.
* `IsOpen`: reading a template from left to right comes to braces that are not closed.
* `Segment.Fits`, `expandBehind_write_append`: one segment in front of the rest of a template.
* `isTemplate_or_isOpen`, `written_inj`: each template is read in one way.
* `segments_of_expand?`: what templates stand for.
-/

namespace Cascade.Replacement

variable {lookup : Text → Text} {rest key template : Text} {c d : Char}

/-- A piece of a template. -/
inductive Segment where
  /-- A character other than a dollar sign, which stands for itself. -/
  | plain (c : Char)
  /-- Two dollar signs, which stand for one. -/
  | escape
  /-- A dollar sign and a digit, which stand for a group. -/
  | digit (d : Char)
  /-- A dollar sign and a key in braces, which stand for a group. -/
  | key (name : Text)
  /-- A dollar sign alone, which stands for itself. -/
  | lone
  deriving DecidableEq, Repr

namespace Segment

/-- A segment as it stands in a template. -/
def write : Segment → Text
  | .plain c => [c]
  | .escape => ['$', '$']
  | .digit d => ['$', d]
  | .key name => '$' :: '\x7b' :: name ++ ['\x7d']
  | .lone => ['$']

/-- What a segment stands for, `lookup` giving the texts of the keys. -/
def value (lookup : Text → Text) : Segment → Text
  | .plain c => [c]
  | .escape => ['$']
  | .digit d => lookup [d]
  | .key name => lookup name
  | .lone => ['$']

end Segment

/-- The template that is written segment by segment. -/
def written (segments : List Segment) : Text :=
  segments.flatMap Segment.write

/-- What segments stand for one behind the other. -/
def values (lookup : Text → Text) (segments : List Segment) : Text :=
  segments.flatMap (Segment.value lookup)

/-- A text in which every dollar sign is doubled. -/
def doubled (text : Text) : Text :=
  text.flatMap fun c => if c = '$' then ['$', '$'] else [c]

/-- A character behind a dollar sign does not make up a segment with it. -/
def SparesDollar (c : Char) : Prop :=
  c ≠ '$' ∧ c.isDigit = false ∧ c ≠ '\x7b'

instance : Decidable (SparesDollar c) :=
  inferInstanceAs (Decidable (_ ∧ _ ∧ _))

/-- The lists of segments that templates are written from. A dollar sign may stand alone at the end
and before characters that do not make up a segment with it. -/
inductive IsTemplate : List Segment → Prop where
  | nil : IsTemplate []
  | plain {c : Char} {rest : List Segment} (hc : c ≠ '$') (hrest : IsTemplate rest) :
      IsTemplate (.plain c :: rest)
  | escape {rest : List Segment} (hrest : IsTemplate rest) : IsTemplate (.escape :: rest)
  | digit {d : Char} {rest : List Segment} (hd : d.isDigit) (hrest : IsTemplate rest) :
      IsTemplate (.digit d :: rest)
  | key {name : Text} {rest : List Segment} (hname : '\x7d' ∉ name) (hrest : IsTemplate rest) :
      IsTemplate (.key name :: rest)
  | last : IsTemplate [.lone]
  | lone {c : Char} {rest : List Segment} (hc : SparesDollar c)
      (hrest : IsTemplate (.plain c :: rest)) : IsTemplate (.lone :: .plain c :: rest)

/-- A template, read from left to right, comes to a dollar sign and a brace that is not closed. -/
def IsOpen (template : Text) : Prop :=
  ∃ segments key, IsTemplate segments ∧ segments.getLast? ≠ some .lone ∧ '\x7d' ∉ key ∧
    template = written segments ++ '$' :: '\x7b' :: key

/-! ## One segment in front of the rest -/

/-- A segment can be read in front of the rest of a template. -/
def Segment.Fits (next : Text) : Segment → Prop
  | .plain c => c ≠ '$'
  | .escape => True
  | .digit d => d.isDigit
  | .key name => '\x7d' ∉ name
  | .lone => ∀ c ∈ next.head?, SparesDollar c

/-- A digit is no sign of a placeholder. -/
theorem ne_of_isDigit (hd : d.isDigit) : d ≠ '$' ∧ d ≠ '\x7b' := by
  constructor <;> rintro rfl <;> contradiction

/-- A text is cut at its first character, or else where what is behind it is cut. -/
theorem cutAt?_cons (d : Char) (rest : Text) :
    Text.cutAt? [c] (d :: rest) =
      if c = d then some ([], rest)
      else (Text.cutAt? [c] rest).map fun (before, behind) => (d :: before, behind) := by
  by_cases h : c = d <;> simp [Text.cutAt?, List.isPrefixOf?, h]

/-- A text is cut at the first mark in it. -/
theorem cutAt?_append_cons (h : c ∉ key) :
    Text.cutAt? [c] (key ++ c :: rest) = some (key, rest) := by
  induction key with
  | nil => rw [List.nil_append, cutAt?_cons, if_pos rfl]
  | cons d key ih =>
    rw [List.mem_cons, not_or] at h
    rw [List.cons_append, cutAt?_cons, if_neg h.1, ih h.2]
    rfl

/-- A text without the sign is not cut. -/
theorem cutAt?_eq_none (h : c ∉ key) : Text.cutAt? [c] key = none := by
  induction key with
  | nil => rfl
  | cons d key ih =>
    rw [List.mem_cons, not_or] at h
    rw [cutAt?_cons, if_neg h.1, ih h.2]
    rfl

/-- Passing over characters ends with the one at the given position. -/
theorem expandFrom_skip (key : Text) (c : Char) (rest : Text) (offset : Nat) :
    expandFrom lookup template (some (offset + key.byteLength))
        (Text.charIndices offset (key ++ c :: rest)) =
      expandFrom lookup template none
        (Text.charIndices (offset + key.byteLength + c.utf8Size) rest) := by
  induction key generalizing offset with
  | nil => simp [Text.charIndices, expandFrom, Text.byteLength]
  | cons d key ih =>
    -- characters take up bytes, so that none of those before is at the position
    have hne : offset ≠ offset + Text.byteLength (d :: key) :=
      Nat.ne_of_lt (Nat.lt_add_of_pos_right (Nat.add_pos_left d.utf8Size_pos _))
    rw [List.cons_append, Text.charIndices, expandFrom]
    simp only [if_neg hne]
    rw [Text.byteLength, ← Nat.add_assoc, ih]

/-- What is left of a template behind `passed` is expanded. -/
def expandBehind (lookup : Text → Text) (passed rest : Text) : Option Text :=
  expandFrom lookup (passed ++ rest) none (rest.charIndices passed.byteLength)

/-- What stands behind a dollar sign and a brace is cut out of a template by where they stand. -/
theorem dropBytes_brace (passed rest : Text) :
    Text.dropBytes (passed.byteLength + 1 + 1) (passed ++ '$' :: '\x7b' :: rest) = rest := by
  have h := Text.dropBytes_append (passed ++ ['$', '\x7b']) rest
  rw [Text.byteLength_append, List.append_assoc] at h
  exact h

/-- A key that is cut out of a template is looked up, and passed over from its opening brace on. -/
theorem expandFrom_brace {index start : Nat} {chars : List (Nat × Char)} {behind : Text}
    (hcut : Text.cutAt? ['\x7d'] (Text.dropBytes (start + 1) template) = some (key, behind)) :
    expandFrom lookup template none ((index, '$') :: (start, '\x7b') :: chars) =
      (expandFrom lookup template (some (start + Text.byteLength ('\x7b' :: key)))
        ((start, '\x7b') :: chars)).map (lookup key ++ ·) := by
  have hstop : start + Text.byteLength ('\x7b' :: key) = start + 1 + key.byteLength :=
    (Nat.add_assoc ..).symm
  rw [hstop, expandFrom.eq_def]
  simp [hcut]

/-- A placeholder in braces becomes the value of its key, and expansion goes on behind the braces.
-/
theorem expandFrom_key (h : '\x7d' ∉ key) (passed : Text)
    (htemplate : passed ++ '$' :: '\x7b' :: (key ++ '\x7d' :: rest) = template) :
    expandFrom lookup template none
        (Text.charIndices passed.byteLength ('$' :: '\x7b' :: (key ++ '\x7d' :: rest))) =
      (expandFrom lookup template none
        (rest.charIndices (passed.byteLength + 1 + Text.byteLength ('\x7b' :: key) + 1))).map
          (lookup key ++ ·) := by
  have hcut : Text.cutAt? ['\x7d'] (Text.dropBytes (passed.byteLength + 1 + 1) template) =
      some (key, rest) := by
    rw [← htemplate, dropBytes_brace, cutAt?_append_cons h]
  have hskip : expandFrom lookup template
      (some (passed.byteLength + 1 + Text.byteLength ('\x7b' :: key)))
      (Text.charIndices (passed.byteLength + 1) ('\x7b' :: key ++ '\x7d' :: rest)) = _ :=
    expandFrom_skip _ _ _ _
  exact (expandFrom_brace hcut).trans (congrArg _ hskip)

/-- Where braces are not closed, a template stands for nothing. -/
theorem expandBehind_unclosed (h : '\x7d' ∉ key) (passed : Text) :
    expandBehind lookup passed ('$' :: '\x7b' :: key) = none := by
  have hnone : Text.cutAt? ['\x7d'] (Text.dropBytes (passed.byteLength + '$'.utf8Size + 1)
      (passed ++ '$' :: '\x7b' :: key)) = none :=
    (congrArg _ (dropBytes_brace passed key)).trans (cutAt?_eq_none h)
  simp only [expandBehind, Text.charIndices]
  rw [expandFrom.eq_def]
  simp [hnone]

/-- A segment is expanded for itself, and the rest behind it. -/
theorem expandBehind_write_append {s : Segment} (h : s.Fits rest) (passed : Text) :
    expandBehind lookup passed (s.write ++ rest) =
      (expandBehind lookup (passed ++ s.write) rest).map (s.value lookup ++ ·) := by
  have hlength : (passed ++ s.write).byteLength = passed.byteLength + s.write.byteLength :=
    Text.byteLength_append _ _
  rw [expandBehind, expandBehind, hlength, List.append_assoc]
  generalize htemplate : passed ++ (s.write ++ rest) = template
  cases s with
  | plain c =>
    have hc : c ≠ '$' := h
    simp only [Segment.write, List.cons_append, List.nil_append, Text.charIndices, Text.byteLength]
    rw [expandFrom.eq_def]
    simp only [if_neg hc]
    rfl
  | escape => rfl
  | digit d =>
    obtain ⟨hdollar, -⟩ := ne_of_isDigit h
    have hd : d.isDigit := h
    simp [Segment.write, Segment.value, Text.charIndices, Text.byteLength, expandFrom, hdollar, hd,
      Nat.add_assoc]
  | key name =>
    have hwrite : (Segment.key name).write ++ rest = '$' :: '\x7b' :: (name ++ '\x7d' :: rest) := by
      simp [Segment.write]
    have hbytes : (Segment.key name).write.byteLength =
        1 + Text.byteLength ('\x7b' :: name) + 1 :=
      Text.byteLength_append ('$' :: '\x7b' :: name) ['\x7d']
    -- what is expanded next stands behind the closing brace
    have hstop : passed.byteLength + (Segment.key name).write.byteLength =
        passed.byteLength + 1 + Text.byteLength ('\x7b' :: name) + 1 := by
      rw [hbytes]
      omega
    rw [hwrite] at htemplate ⊢
    rw [hstop]
    exact expandFrom_key h passed htemplate
  | lone =>
    cases rest with
    | nil => rfl
    | cons c rest =>
      -- the dollar sign stands for itself, as what follows does not go with it
      obtain ⟨hdollar, hdigit, hbrace⟩ := h c rfl
      simp only [Segment.write, List.cons_append, List.nil_append, Text.charIndices,
        Text.byteLength]
      rw [expandFrom.eq_def]
      simp [hdollar, hdigit, hbrace, Segment.value]

/-- What stands before the first of a kind of mark, and what stands behind it, are determined. -/
theorem eq_of_append_cons {a b u v : Text} (ha : c ∉ a) (hb : c ∉ b)
    (h : a ++ c :: u = b ++ c :: v) : a = b ∧ u = v := by
  rcases List.append_eq_append_iff.1 h with ⟨between, rfl, hu⟩ | ⟨between, rfl, hv⟩
  · cases between <;> simp_all
  · cases between <;> simp_all

/-- What is written tells the segment in front from the rest. -/
theorem eq_of_write_append {s s' : Segment} {rest' : Text} (h : s.Fits rest) (h' : s'.Fits rest')
    (heq : s.write ++ rest = s'.write ++ rest') : s = s' ∧ rest = rest' := by
  -- Two keys end at the first closing brace; otherwise the first two characters decide.
  cases s <;> cases s' <;>
    simp only [Segment.write, Segment.Fits, SparesDollar, List.cons_append, List.nil_append,
      List.append_assoc] at h h' heq
  case key.key name name' =>
    simp only [List.cons.injEq, true_and] at heq
    obtain ⟨rfl, rfl⟩ := eq_of_append_cons h h' heq
    exact ⟨rfl, rfl⟩
  all_goals grind [ne_of_isDigit]

/-- A template begins with a segment unless it is empty or begins with braces that are not
closed. -/
theorem exists_write_append (template : Text) :
    template = [] ∨ (∃ key, '\x7d' ∉ key ∧ template = '$' :: '\x7b' :: key) ∨
      ∃ (s : Segment) (rest : Text), s.Fits rest ∧ template = s.write ++ rest := by
  rcases template with _ | ⟨c, rest⟩
  · exact .inl rfl
  refine .inr ?_
  by_cases hc : c = '$'
  · subst hc
    rcases rest with _ | ⟨d, more⟩
    · exact .inr ⟨.lone, [], by simp [Segment.Fits], rfl⟩
    -- what stands behind the dollar sign tells which segment it is
    by_cases hdollar : d = '$'
    · exact .inr ⟨.escape, more, trivial, by rw [hdollar]; rfl⟩
    by_cases hdigit : d.isDigit
    · exact .inr ⟨.digit d, more, hdigit, rfl⟩
    by_cases hbrace : d = '\x7b'
    · subst hbrace
      by_cases hclosed : '\x7d' ∈ more
      · obtain ⟨key, rest, rfl, hkey⟩ := List.eq_append_cons_of_mem hclosed
        exact .inr ⟨.key key, rest, hkey, by simp [Segment.write]⟩
      · exact .inl ⟨more, hclosed, rfl⟩
    · refine .inr ⟨.lone, d :: more, ?_, rfl⟩
      rintro _ ⟨⟩
      exact ⟨hdollar, by simpa using hdigit, hbrace⟩
  · exact .inr ⟨.plain c, rest, hc, rfl⟩

/-! ## Lists of segments -/

variable {s : Segment} {segments others : List Segment}

@[simp]
theorem written_nil : written [] = [] := rfl

/-- Segments are written one behind the other. -/
@[simp]
theorem written_cons : written (s :: segments) = s.write ++ written segments := rfl

/-- Nothing is written for no segments only. -/
theorem written_eq_nil : written segments = [] ↔ segments = [] := by
  rcases segments with _ | ⟨s, segments⟩
  · simp
  · cases s <;> simp [Segment.write]

/-- Templates are written from segments each of which fits in front of the others. -/
theorem isTemplate_cons :
    IsTemplate (s :: segments) ↔ s.Fits (written segments) ∧ IsTemplate segments := by
  constructor
  · intro h
    cases h with
    | plain hc hrest => exact ⟨hc, hrest⟩
    | escape hrest => exact ⟨trivial, hrest⟩
    | digit hd hrest => exact ⟨hd, hrest⟩
    | key hname hrest => exact ⟨hname, hrest⟩
    | last => exact ⟨by simp [Segment.Fits], .nil⟩
    | lone hc hrest =>
      refine ⟨?_, hrest⟩
      rintro _ ⟨⟩
      exact hc
  · rintro ⟨hs, h⟩
    cases s with
    | plain c => exact .plain hs h
    | escape => exact .escape h
    | digit d => exact .digit hs h
    | key name => exact .key hs h
    | lone =>
      cases h with
      | nil => exact .last
      | plain hc hrest => exact .lone (hs _ rfl) (.plain hc hrest)
      -- every other segment begins with a dollar sign
      | escape | digit | key | last | lone => exact absurd rfl (hs '$' rfl).1

/-- What fits in front of a dollar sign. -/
theorem fits_append_dollar {next : Text} :
    s.Fits (next ++ '$' :: rest) ↔ s.Fits next ∧ (next = [] → s ≠ .lone) := by
  cases s <;> cases next <;> simp [Segment.Fits, SparesDollar]

/-- Segments are expanded one behind the other. -/
theorem expandBehind_written (h : IsTemplate segments) (passed : Text) :
    expandBehind lookup passed (written segments) = some (values lookup segments) := by
  induction segments generalizing passed with
  | nil => rfl
  | cons s segments ih =>
    obtain ⟨hs, hsegments⟩ := isTemplate_cons.1 h
    rw [written_cons, expandBehind_write_append hs, ih hsegments]
    rfl

/-- A template that is written segment by segment stands for what the segments stand for. -/
theorem expand?_written (h : IsTemplate segments) :
    expand? lookup (written segments) = some (values lookup segments) :=
  expandBehind_written h []

/-- Where braces are not closed behind segments, a template stands for nothing. -/
theorem expandBehind_eq_none (hkey : '\x7d' ∉ key) (hsegments : IsTemplate segments)
    (hlast : segments.getLast? ≠ some .lone) (passed : Text) :
    expandBehind lookup passed (written segments ++ '$' :: '\x7b' :: key) = none := by
  induction segments generalizing passed with
  | nil => exact expandBehind_unclosed hkey passed
  | cons s segments ih =>
    obtain ⟨hs, htail⟩ := isTemplate_cons.1 hsegments
    have hfits : s.Fits (written segments ++ '$' :: '\x7b' :: key) := by
      refine fits_append_dollar.2 ⟨hs, fun hnil => ?_⟩
      rw [written_eq_nil.1 hnil] at hlast
      rintro rfl
      exact hlast rfl
    have hlast' : segments.getLast? ≠ some .lone := fun heq => hlast (by
      rw [List.getLast?_cons, heq]
      rfl)
    rw [written_cons, List.append_assoc, expandBehind_write_append hfits, ih htail hlast']
    rfl

/-- A template in which a brace stays open has no expansion. -/
theorem expand?_eq_none (h : IsOpen template) : expand? lookup template = none := by
  obtain ⟨segments, key, hsegments, hlast, hkey, rfl⟩ := h
  exact expandBehind_eq_none hkey hsegments hlast []

/-- Braces that are not closed stay so behind a segment. -/
theorem IsOpen.write_append (hs : s.Fits rest) (h : IsOpen rest) : IsOpen (s.write ++ rest) := by
  obtain ⟨segments, key, hsegments, hlast, hkey, rfl⟩ := h
  obtain ⟨hfits, hlone⟩ := fits_append_dollar.1 hs
  refine ⟨s :: segments, key, isTemplate_cons.2 ⟨hfits, hsegments⟩, ?_, hkey, by simp⟩
  rcases segments with _ | ⟨s', segments⟩
  · simpa using hlone rfl
  · rwa [List.getLast?_cons_cons]

/-- Every template is written segment by segment or has braces that are not closed. -/
theorem isTemplate_or_isOpen (template : Text) :
    (∃ segments, IsTemplate segments ∧ written segments = template) ∨ IsOpen template := by
  rcases exists_write_append template with rfl | ⟨key, hkey, rfl⟩ | ⟨s, rest, hs, rfl⟩
  · exact .inl ⟨[], .nil, rfl⟩
  · exact .inr ⟨[], key, .nil, by simp, hkey, rfl⟩
  · have hpos : 0 < s.write.length := by
      cases s <;> simp [Segment.write]
    have hshorter : rest.length < (s.write ++ rest).length := by
      rw [List.length_append]
      exact Nat.lt_add_of_pos_left hpos
    rcases isTemplate_or_isOpen rest with ⟨segments, hsegments, rfl⟩ | hopen
    · exact .inl ⟨s :: segments, isTemplate_cons.2 ⟨hs, hsegments⟩, rfl⟩
    · exact .inr (hopen.write_append hs)
termination_by template.length

/-- A template is written from one list of segments only. -/
theorem written_inj (h : IsTemplate segments) (h' : IsTemplate others)
    (heq : written segments = written others) : segments = others := by
  induction segments generalizing others with
  | nil => exact (written_eq_nil.1 heq.symm).symm
  | cons s segments ih =>
    rcases others with _ | ⟨s', others⟩
    · exact written_eq_nil.1 heq
    obtain ⟨hs, hsegments⟩ := isTemplate_cons.1 h
    obtain ⟨hs', hothers⟩ := isTemplate_cons.1 h'
    obtain ⟨rfl, hrest⟩ := eq_of_write_append hs hs' heq
    rw [ih hsegments hothers hrest]

/-- A template stands for nothing exactly if it has braces that are not closed. -/
theorem expand?_eq_none_iff : expand? lookup template = none ↔ IsOpen template := by
  refine ⟨fun h => ?_, expand?_eq_none⟩
  rcases isTemplate_or_isOpen template with ⟨segments, hsegments, rfl⟩ | hopen
  · rw [expand?_written hsegments] at h
    contradiction
  · exact hopen

/-- A template stands for what the segments stand for that it is written from. -/
theorem expand?_eq_some_iff {text : Text} : expand? lookup template = some text ↔
    ∃ segments, IsTemplate segments ∧ written segments = template ∧
      values lookup segments = text := by
  constructor
  · intro h
    rcases isTemplate_or_isOpen template with ⟨segments, hsegments, rfl⟩ | hopen
    · rw [expand?_written hsegments] at h
      exact ⟨segments, hsegments, rfl, Option.some.inj h⟩
    · rw [expand?_eq_none hopen] at h
      contradiction
  · rintro ⟨segments, hsegments, rfl, rfl⟩
    exact expand?_written hsegments

/-! ## Texts in which dollar signs are doubled -/

/-- The segment that stands for a character. -/
def Segment.literal (c : Char) : Segment :=
  if c = '$' then .escape else .plain c

/-- Characters that stand for themselves make a template. -/
theorem isTemplate_literal (text : Text) : IsTemplate (text.map Segment.literal) := by
  induction text with
  | nil => exact .nil
  | cons c text ih =>
    rw [List.map_cons, Segment.literal]
    split
    · exact .escape ih
    · next hc => exact .plain hc ih

/-- Characters that stand for themselves are written with each dollar sign doubled. -/
theorem written_literal (text : Text) : written (text.map Segment.literal) = doubled text := by
  rw [written, doubled, List.flatMap_map]
  refine List.flatMap_congr fun c _ => ?_
  rw [Segment.literal]
  split <;> rfl

/-- Characters that stand for themselves have themselves as their values. -/
theorem values_literal (text : Text) : values lookup (text.map Segment.literal) = text := by
  have hvalue (c : Char) : (Segment.literal c).value lookup = [c] := by
    rw [Segment.literal]
    split
    · next hc => rw [hc, Segment.value]
    · rfl
  simp [values, List.flatMap_map, hvalue]

/-- A text in which every dollar sign is doubled, as a template, stands for the text. -/
theorem expand?_doubled (text : Text) : expand? lookup (doubled text) = some text := by
  rw [← written_literal, expand?_written (isTemplate_literal text), values_literal]

/-- What templates stand for. A template that is written segment by segment stands for what its
segments stand for, one behind the other, whatever the keys stand for. Every template is written
from exactly one list of segments, unless its braces are opened and not closed, and exactly then it
stands for nothing. A text in which every dollar sign is doubled stands for the text. -/
theorem segments_of_expand? :
    (∀ lookup segments, IsTemplate segments →
      expand? lookup (written segments) = some (values lookup segments)) ∧
    (∀ template, (∃! segments, IsTemplate segments ∧ written segments = template) ↔
      ¬ IsOpen template) ∧
    (∀ lookup template, expand? lookup template = none ↔ IsOpen template) ∧
    ∀ lookup text, expand? lookup (doubled text) = some text := by
  refine ⟨fun _ _ => expand?_written, fun template => ⟨?_, fun hclosed => ?_⟩,
    fun _ _ => expand?_eq_none_iff, fun _ => expand?_doubled⟩
  · rintro ⟨segments, ⟨hsegments, rfl⟩, -⟩ hopen
    have hnone : expand? id (written segments) = none := expand?_eq_none hopen
    rw [expand?_written hsegments] at hnone
    contradiction
  · obtain ⟨segments, hsegments, hwritten⟩ :=
      (isTemplate_or_isOpen template).resolve_right hclosed
    refine ⟨segments, ⟨hsegments, hwritten⟩, ?_⟩
    rintro others ⟨hothers, rfl⟩
    exact written_inj hothers hsegments hwritten.symm

/-- A dollar sign stands alone before a letter, behind a key that has a dollar sign and a brace in
it, and at the end. -/
theorem segments_of_expand?_alone :
    IsTemplate [.escape, .key ['$', '\x7b'], .lone, .plain 'é', .digit '1', .lone] ∧
      expand? (fun key => key ++ key)
        ['$', '$', '$', '\x7b', '$', '\x7b', '\x7d', '$', 'é', '$', '1', '$'] =
        some ['$', '$', '\x7b', '$', '\x7b', '$', 'é', '1', '1', '$'] := by
  have htemplate :
      IsTemplate [.escape, .key ['$', '\x7b'], .lone, .plain 'é', .digit '1', .lone] :=
    .escape (.key (by decide) (.lone (by decide) (.plain (by decide) (.digit rfl .last))))
  exact ⟨htemplate, segments_of_expand?.1 (fun key => key ++ key) _ htemplate⟩

end Cascade.Replacement
