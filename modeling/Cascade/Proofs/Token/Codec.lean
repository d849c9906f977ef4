import Cascade.Proofs.Text.Numeral
import Cascade.Token.Basic

/-!
# Writing and reading tokens

A token is spelled by a name and two numerals. Each such text is read as the fields that it spells,
and no other text is read. Minted tokens are those with canonical numerals, so a minted token is
read back as the fields it was made from, as long as its numbers are words. Whatever their size, no
two minted tokens with different fields are the same.

* `Token.spelled`: the token that a name and two numerals spell.
* `Token.decode_eq_some_iff`: what is read, and how.
* `Token.decode_mint`, `Token.mint_inj`: reading a minted token, whose fields are determined by it.
* `Token.decode_codec`: all of this together.
-/

namespace Cascade

namespace Text

/-- The bytes of a text are read back as the text. -/
theorem ofBytes?_bytes (text : Text) : ofBytes? (bytes text) = some text := by
  have hform : (⟨(bytes text).toArray⟩ : ByteArray) = text.utf8Encode := by
    apply ByteArray.ext
    simp [List.utf8Encode, bytes]
  rw [ofBytes?, hform, List.utf8Decode?_utf8Encode]
  rfl

/-- Texts with the same bytes are the same. -/
theorem bytes_inj {a b : Text} (h : bytes a = bytes b) : a = b := by
  have hbytes := congrArg ofBytes? h
  rw [ofBytes?_bytes, ofBytes?_bytes] at hbytes
  exact Option.some.inj hbytes

/-- A text that is not empty has bytes. -/
theorem bytes_ne_nil {text : Text} (h : text ≠ []) : bytes text ≠ [] := by
  intro hb
  exact h (bytes_inj (hb.trans rfl))

/-- Bytes that are well formed are the UTF-8 form of what they are read as. -/
theorem ofBytes?_eq_some_iff {form : List UInt8} {text : Text} :
    ofBytes? form = some text ↔ bytes text = form := by
  constructor
  · intro h
    obtain ⟨chars, hchars, rfl⟩ := Option.map_eq_some_iff.1 h
    have hvalid := ByteArray.isSome_utf8Decode?_iff.1 (Option.isSome_of_eq_some hchars)
    obtain ⟨text, hform⟩ := hvalid
    rw [hform, List.utf8Decode?_utf8Encode, Option.some.injEq] at hchars
    have hbytes := congrArg (fun b => b.data.toList) hform
    simpa [← hchars, List.utf8Encode, bytes] using hbytes.symm
  · rintro rfl
    exact ofBytes?_bytes text

/-- Cutting a text at a separator that it does not contain. -/
theorem fields_of_not_mem {separator : Char} {text : Text} (h : separator ∉ text) :
    fields separator text = [text] := by
  induction text with
  | nil => rfl
  | cons c rest ih =>
    rw [List.mem_cons, not_or] at h
    rw [fields, if_neg (Ne.symm h.1), ih h.2]

/-- The first field of a text ends where the first separator stands. -/
theorem fields_append {separator : Char} {field : Text} (h : separator ∉ field) (rest : Text) :
    fields separator (field ++ separator :: rest) = field :: fields separator rest := by
  induction field with
  | nil => simp [fields]
  | cons c field ih =>
    rw [List.mem_cons, not_or] at h
    rw [List.cons_append, fields, if_neg (Ne.symm h.1), ih h.2]

/-- The fields of a text that has been put together with separators. -/
theorem fields_intercalate {separator : Char} {pieces : List Text}
    (h : ∀ field ∈ pieces, separator ∉ field) (hne : pieces ≠ []) :
    fields separator ([separator].intercalate pieces) = pieces := by
  induction pieces with
  | nil => contradiction
  | cons field rest ih =>
    rw [List.forall_mem_cons] at h
    cases rest with
    | nil => simpa using fields_of_not_mem h.1
    | cons next rest =>
      rw [List.intercalate_cons_cons, List.append_assoc, List.singleton_append,
        fields_append h.1, ih h.2 (by simp)]

/-- The fields of a text make it up again. -/
theorem intercalate_fields (separator : Char) (text : Text) :
    [separator].intercalate (fields separator text) = text := by
  induction text with
  | nil => rfl
  | cons c rest ih =>
    -- there is a field to put the first character in
    have hne : fields separator rest ≠ [] := by
      intro hnil
      cases rest with
      | nil => contradiction
      | cons d rest =>
        rw [hnil] at ih
        contradiction
    obtain ⟨field, more, hfields⟩ := List.exists_cons_of_ne_nil hne
    rw [hfields] at ih
    rw [fields]
    split
    · next hc =>
      subst hc
      rw [hfields, List.intercalate_cons_cons, ih]
      rfl
    · rw [hfields]
      cases more with
      | nil => simpa using ih
      | cons next more =>
        rw [List.intercalate_cons_cons] at ih ⊢
        simpa using ih

end Text

namespace Token

variable {rule text field value : Text} {c : Char} {byte : UInt8} {parts : Parts}

/-- Glyphs tell bytes apart. -/
theorem glyph_inj {a b : UInt8} (h : glyph a = glyph b) : a = b := by
  have hbyte := congrArg unglyph? h
  rwa [unglyph?_glyph, unglyph?_glyph, Option.some.injEq] at hbyte

/-- Glyphs tell texts apart. -/
theorem glyphs_inj {a b : Text} (h : glyphs a = glyphs b) : a = b :=
  Text.bytes_inj (List.map_injective_iff.2 (fun _ _ => glyph_inj) h)

theorem glyphs_ne_nil (h : text ≠ []) : glyphs text ≠ [] := by
  intro hnil
  exact Text.bytes_ne_nil h (List.map_eq_nil_iff.1 hnil)

/-- A character stands for a byte exactly if it is the glyph of this byte. -/
theorem unglyph?_eq_some_iff : unglyph? c = some byte ↔ glyph byte = c := by
  constructor
  · intro h
    rw [unglyph?] at h
    split at h
    · next hc =>
      obtain rfl := Option.some.inj h
      apply Char.toNat_inj.1
      rw [toNat_glyph, UInt8.toNat_ofNat']
      omega
    · contradiction
  · rintro rfl
    exact unglyph?_glyph byte

/-- Glyphs are neither marks nor separators. -/
theorem unglyph?_of_mem_glyphs {form : List UInt8} (h : c ∈ form.map glyph) :
    (unglyph? c).isSome := by
  obtain ⟨byte, -, rfl⟩ := List.mem_map.1 h
  rw [unglyph?_glyph]
  rfl

/-- A character that is no glyph does not stand among glyphs. -/
theorem not_mem_glyphs {form : List UInt8} (h : unglyph? c = none) : c ∉ form.map glyph := by
  intro hc
  have := unglyph?_of_mem_glyphs hc
  rw [h] at this
  contradiction

theorem unglyph?_openMark : unglyph? openMark = none := by decide

theorem unglyph?_separator : unglyph? separator = none := by decide

theorem unglyph?_closeMark : unglyph? closeMark = none := by decide

/-- A separator does not stand among glyphs. -/
theorem separator_not_mem_glyphs (text : Text) : separator ∉ glyphs text :=
  not_mem_glyphs unglyph?_separator

/-- Each character of a text is read as a byte exactly if the text consists of their glyphs. -/
theorem mapM_unglyph?_eq_some_iff {form : List UInt8} :
    field.mapM unglyph? = some form ↔ form.map glyph = field := by
  induction field generalizing form with
  | nil => simp [eq_comm]
  | cons c rest ih =>
    simp only [List.mapM_cons, Option.bind_eq_bind, Option.bind_eq_some_iff, ih, Option.pure_def,
      Option.some.injEq, unglyph?_eq_some_iff]
    constructor
    · rintro ⟨byte, rfl, later, rfl, rfl⟩
      rfl
    · intro h
      obtain ⟨byte, later, rfl, hbyte, hlater⟩ := List.map_eq_cons_iff.1 h
      exact ⟨byte, hbyte, later, hlater, rfl⟩

/-- A field is read as a text exactly if it is made from it, and this is not blank. -/
theorem readField_eq_some_iff :
    readField field = some value ↔ value ≠ [] ∧ glyphs value = field := by
  simp only [readField, Option.bind_eq_bind, Option.bind_eq_some_iff, mapM_unglyph?_eq_some_iff,
    Option.ite_none_left_eq_some, Text.ofBytes?_eq_some_iff, List.isEmpty_iff]
  constructor
  · rintro ⟨form, rfl, hne, rfl⟩
    refine ⟨?_, rfl⟩
    rintro rfl
    exact hne rfl
  · rintro ⟨hne, rfl⟩
    exact ⟨value.bytes, rfl, Text.bytes_ne_nil hne, rfl⟩

/-! ## What tokens look like -/

/-- The token that a name and two numerals spell. -/
def spelled (rule occurrence sequence : Text) : Text :=
  openMark :: glyphs rule ++ separator :: glyphs occurrence ++ separator :: glyphs sequence ++
    [closeMark]

/-- What stands between the marks of a token, `name` being the glyphs of its name. -/
def tokenBody (name occurrence sequence : Text) : Text :=
  name ++ separator :: (glyphs occurrence ++ separator :: glyphs sequence)

/-- A token is spelled by its body between its marks. -/
theorem spelled_eq (rule occurrence sequence : Text) :
    spelled rule occurrence sequence =
      openMark :: (tokenBody (glyphs rule) occurrence sequence ++ [closeMark]) := by
  simp [spelled, tokenBody]

/-- A token is minted by spelling its numbers in decimals. -/
theorem mint_eq_spelled (rule : Text) (occurrence sequence : Nat) :
    mint rule occurrence sequence =
      spelled rule (Text.decimal occurrence) (Text.decimal sequence) := rfl

/-- A token is minted as a body of glyphs between marks. -/
theorem mint_eq (rule : Text) (occurrence sequence : Nat) :
    mint rule occurrence sequence =
      openMark :: (tokenBody (glyphs rule) (Text.decimal occurrence) (Text.decimal sequence) ++
        [closeMark]) := by
  rw [mint_eq_spelled, spelled_eq]

/-- The body of a token is cut into its three fields. -/
theorem fields_tokenBody {name : Text} (h : separator ∉ name) (occurrence sequence : Text) :
    Text.fields separator (tokenBody name occurrence sequence) =
      [name, glyphs occurrence, glyphs sequence] := by
  rw [tokenBody, Text.fields_append h,
    Text.fields_append (separator_not_mem_glyphs _),
    Text.fields_of_not_mem (separator_not_mem_glyphs _)]

/-- Three fields, each made from a text, are those of what stands between the marks of a token. -/
theorem fields_eq_iff {body occurrence sequence : Text} :
    Text.fields separator body = [glyphs rule, glyphs occurrence, glyphs sequence] ↔
      tokenBody (glyphs rule) occurrence sequence = body := by
  constructor
  · intro h
    rw [← Text.intercalate_fields separator body, h]
    simp [tokenBody]
  · rintro rfl
    exact fields_tokenBody (separator_not_mem_glyphs rule) occurrence sequence

/-- A text has a body if it stands between the marks. -/
theorem body?_eq_some_iff {body : Text} :
    body? text = some body ↔ openMark :: (body ++ [closeMark]) = text := by
  cases text with
  | nil => simp [body?]
  | cons c rest =>
    rw [body?]
    split
    · next hc =>
      subst hc
      simp [Text.dropEnding?_eq_some_iff]
    · next hc =>
      simp [Ne.symm hc]

/-- The body of a token tells its three fields. -/
theorem tokenBody_inj {name name' n m n' m' : Text} (hname : separator ∉ name)
    (hname' : separator ∉ name') (h : tokenBody name n m = tokenBody name' n' m') :
    name = name' ∧ n = n' ∧ m = m' := by
  have hfields := congrArg (Text.fields separator) h
  rw [fields_tokenBody hname, fields_tokenBody hname'] at hfields
  simp only [List.cons.injEq, and_true] at hfields
  exact ⟨hfields.1, glyphs_inj hfields.2.1, glyphs_inj hfields.2.2⟩

/-- A token tells the name and the two numerals that it is spelled from. -/
theorem spelled_inj {rule' n m n' m' : Text} (h : spelled rule n m = spelled rule' n' m') :
    rule = rule' ∧ n = n' ∧ m = m' := by
  rw [spelled_eq, spelled_eq, List.cons.injEq] at h
  obtain ⟨hname, hnumerals⟩ := tokenBody_inj (separator_not_mem_glyphs rule)
    (separator_not_mem_glyphs rule') (List.append_cancel_right h.2)
  exact ⟨glyphs_inj hname, hnumerals⟩

/-! ## Reading and writing -/

theorem ne_nil_of_numeral? {numeral : Text} {n : Nat} (h : Text.numeral? numeral = some n) :
    numeral ≠ [] := by
  rintro rfl
  contradiction

/-- What is read are the tokens that a name, which is not blank, and two numerals spell. -/
theorem decode_eq_some_iff : decode text = some parts ↔
    parts.rule ≠ [] ∧ ∃ occurrence sequence, Text.IsNumeral occurrence parts.occurrence ∧
      Text.IsNumeral sequence parts.sequence ∧ text = spelled parts.rule occurrence sequence := by
  simp only [decode, Option.bind_eq_bind, Option.bind_eq_some_iff, body?_eq_some_iff]
  constructor
  · rintro ⟨body, rfl, h⟩
    split at h
    · next first second third hfields =>
      simp only [Option.bind_eq_some_iff, readField_eq_some_iff, Text.numeral?_eq_some_iff,
        Option.pure_def, Option.some.injEq] at h
      obtain ⟨rule, ⟨hrule, rfl⟩, n, ⟨-, rfl⟩, occurrence, hn, m, ⟨-, rfl⟩, sequence, hm, rfl⟩ := h
      refine ⟨hrule, n, m, hn, hm, ?_⟩
      rw [spelled_eq, fields_eq_iff.1 hfields]
    · contradiction
  · rintro ⟨hrule, n, m, hn, hm, rfl⟩
    refine ⟨tokenBody (glyphs parts.rule) n m, (spelled_eq ..).symm, ?_⟩
    rw [← Text.numeral?_eq_some_iff] at hn hm
    simp [fields_tokenBody (separator_not_mem_glyphs _), readField_eq_some_iff.2 ⟨hrule, rfl⟩,
      readField_eq_some_iff.2 ⟨ne_nil_of_numeral? hn, rfl⟩,
      readField_eq_some_iff.2 ⟨ne_nil_of_numeral? hm, rfl⟩, hn, hm]

/-- A minted token is read as the fields it was made from. -/
theorem decode_mint {rule : Text} {occurrence sequence : Nat} (hrule : rule ≠ [])
    (hoccurrence : occurrence < Text.wordBound) (hsequence : sequence < Text.wordBound) :
    decode (mint rule occurrence sequence) = some ⟨rule, occurrence, sequence⟩ :=
  decode_eq_some_iff.2 ⟨hrule, _, _, Text.isNumeral_decimal hoccurrence,
    Text.isNumeral_decimal hsequence, mint_eq_spelled ..⟩

/-- Minted tokens differ if any of their fields do. -/
theorem mint_inj {rule rule' : Text} {occurrence occurrence' sequence sequence' : Nat}
    (h : mint rule occurrence sequence = mint rule' occurrence' sequence') :
    rule = rule' ∧ occurrence = occurrence' ∧ sequence = sequence' := by
  -- reading the token back would not do, as its numbers may be too large to be read
  rw [mint_eq_spelled, mint_eq_spelled] at h
  obtain ⟨hrule, hoccurrence, hsequence⟩ := spelled_inj h
  exact ⟨hrule, Text.decimal_inj hoccurrence, Text.decimal_inj hsequence⟩

/-- A token that has been read is minted again exactly if both its numerals are canonical. -/
theorem mint_eq_spelled_iff {n m : Text} {occurrence sequence : Nat}
    (hn : Text.IsNumeral n occurrence) (hm : Text.IsNumeral m sequence) :
    mint rule occurrence sequence = spelled rule n m ↔
      Text.IsCanonical n ∧ Text.IsCanonical m := by
  rw [← Text.decimal_eq_iff_isCanonical hn, ← Text.decimal_eq_iff_isCanonical hm, mint_eq_spelled]
  constructor
  · intro h
    exact (spelled_inj h).2
  · rintro ⟨hoccurrence, hsequence⟩
    rw [hoccurrence, hsequence]

/-- A minted token is read as the fields that it is made from, which are words, and no two minted
tokens are the same. What is read are the tokens that a name, which is not blank, and two numerals
spell, and such a token is the minted one if both numerals are canonical. -/
theorem decode_codec :
    (∀ rule occurrence sequence, rule ≠ [] → occurrence < Text.wordBound →
      sequence < Text.wordBound →
        decode (mint rule occurrence sequence) = some ⟨rule, occurrence, sequence⟩) ∧
    (Function.Injective fun parts : Parts => mint parts.rule parts.occurrence parts.sequence) ∧
    (∀ text parts, decode text = some parts ↔
      parts.rule ≠ [] ∧ ∃ occurrence sequence, Text.IsNumeral occurrence parts.occurrence ∧
        Text.IsNumeral sequence parts.sequence ∧
          text = spelled parts.rule occurrence sequence) ∧
    ∀ rule occurrence sequence parts,
      decode (spelled rule occurrence sequence) = some parts →
        (mint parts.rule parts.occurrence parts.sequence = spelled rule occurrence sequence ↔
          Text.IsCanonical occurrence ∧ Text.IsCanonical sequence) := by
  refine ⟨fun _ _ _ => decode_mint, fun parts parts' h => ?_, fun _ _ => decode_eq_some_iff,
    fun rule occurrence sequence parts h => ?_⟩
  · obtain ⟨hrule, hoccurrence, hsequence⟩ := mint_inj h
    cases parts
    cases parts'
    simp_all
  · obtain ⟨-, n, m, hn, hm, hspelled⟩ := decode_eq_some_iff.1 h
    -- the numerals that have been read are those that stand in the token
    obtain ⟨hrule, rfl, rfl⟩ := spelled_inj hspelled
    rw [hrule]
    exact mint_eq_spelled_iff hn hm

/-- The numeral `+07` denotes seven, and is not the one by which seven is written. -/
theorem decode_codec_signed :
    decode (spelled ['a'] ['+', '0', '7'] ['1']) = some ⟨['a'], 7, 1⟩ ∧
      decode (mint ['a'] 7 1) = some ⟨['a'], 7, 1⟩ ∧
      mint ['a'] 7 1 ≠ spelled ['a'] ['+', '0', '7'] ['1'] := by
  obtain ⟨hmint, -, hread, hcanonical⟩ := decode_codec
  have hseven : Text.IsNumeral ['+', '0', '7'] 7 :=
    .signed ⟨by decide, List.all_eq_true.1 rfl⟩ (show 7 < Text.wordBound by decide)
  have hone : Text.IsNumeral ['1'] 1 :=
    .plain ⟨by decide, List.all_eq_true.1 rfl⟩ (show 1 < Text.wordBound by decide)
  have hdecode : decode (spelled ['a'] ['+', '0', '7'] ['1']) = some ⟨['a'], 7, 1⟩ :=
    (hread _ _).2 ⟨by decide, _, _, hseven, hone, rfl⟩
  refine ⟨hdecode, hmint _ _ _ (by decide) (by decide) (by decide), fun h => ?_⟩
  exact ((hcanonical _ _ _ _ hdecode).1 h).1.1 rfl

end Token

end Cascade
