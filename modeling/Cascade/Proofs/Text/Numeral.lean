import Cascade.Text.Numeral
import Mathlib.Data.List.Basic
import Mathlib.Tactic.IntervalCases

/-!
# What numerals denote

A numeral is a run of digits, a plus sign before it or not, that denotes a word. Each word has many
numerals, and one of them is canonical: the one that numbers are written by.

* `IsNumeral`: the numerals of a number, and `numeral?_eq_some_iff`, which says that they are what
  is read.
* `decimal_eq_iff_isCanonical`: numbers are written by canonical numerals.
-/

namespace Cascade.Text

variable {digits numeral : Text} {n value : Nat} {c : Char}

/-- A text consists of decimal digits, at least one of them. -/
def IsDigits (text : Text) : Prop :=
  text ≠ [] ∧ ∀ c ∈ text, c.isDigit

/-- The number that digits denote. -/
def valueOf (digits : Text) : Nat :=
  Nat.ofDigitChars 10 digits 0

/-- A numeral of a number: digits that denote it, a plus sign before them or not. The number is a
word. -/
inductive IsNumeral : Text → Nat → Prop where
  | plain {digits : Text} (hdigits : IsDigits digits) (hword : valueOf digits < wordBound) :
      IsNumeral digits (valueOf digits)
  | signed {digits : Text} (hdigits : IsDigits digits) (hword : valueOf digits < wordBound) :
      IsNumeral ('+' :: digits) (valueOf digits)

/-- A numeral is canonical if it has no sign and no zero that could be left out. -/
def IsCanonical (numeral : Text) : Prop :=
  numeral.head? ≠ some '+' ∧ (numeral.head? = some '0' → numeral = ['0'])

/-- Decimals tell numbers apart. -/
theorem decimal_inj {m n : Nat} (h : decimal m = decimal n) : m = n := by
  have hvalue := congrArg (fun digits => Nat.ofDigitChars 10 digits 0) h
  simpa [decimal] using hvalue

theorem decimal_ne_nil (n : Nat) : decimal n ≠ [] :=
  Nat.toDigits_ne_nil

/-- A decimal consists of digits. -/
theorem isDigit_of_mem_decimal {n : Nat} {c : Char} (h : c ∈ decimal n) : c.isDigit :=
  Nat.isDigit_of_mem_toDigits (by decide) (by decide) h

/-- There is no sign among digits. -/
theorem IsDigits.plus_not_mem (h : IsDigits digits) : '+' ∉ digits :=
  fun hplus => absurd (h.2 _ hplus) (by decide)

/-- Digits do not begin with a sign. -/
theorem IsDigits.head?_ne_plus (h : IsDigits digits) : digits.head? ≠ some '+' :=
  fun hplus => h.plus_not_mem (List.mem_of_head? hplus)

/-- A decimal is a text of digits that is not empty. -/
theorem isDigits_decimal (n : Nat) : IsDigits (decimal n) :=
  ⟨decimal_ne_nil n, fun _ => isDigit_of_mem_decimal⟩

/-- A decimal has the value that it is written from. -/
theorem valueOf_decimal (n : Nat) : valueOf (decimal n) = n :=
  Nat.ofDigitChars_ten_toDigits

/-- The decimal of a word is a numeral. -/
theorem isNumeral_decimal (h : n < wordBound) : IsNumeral (decimal n) n := by
  have hnumeral := IsNumeral.plain (isDigits_decimal n) (by rwa [valueOf_decimal])
  rwa [valueOf_decimal] at hnumeral

/-- A numeral without a sign consists of digits. -/
theorem IsNumeral.isDigits_iff (h : IsNumeral numeral n) : IsDigits numeral ↔ '+' ∉ numeral := by
  refine ⟨IsDigits.plus_not_mem, fun hplus => ?_⟩
  cases h with
  | plain hdigits => exact hdigits
  | signed => simp at hplus

/-! ## Reading -/

/-- A digit has the value that its place among the digits says. -/
theorem digitValue?_of_isDigit (h : c.isDigit) :
    digitValue? c = some (c.toNat - '0'.toNat) := by
  simpa [digitValue?, Char.isDigit, Char.le_def] using h

/-- A character that is no digit has no value. -/
theorem digitValue?_of_not_isDigit (h : ¬ c.isDigit) : digitValue? c = none := by
  simpa [digitValue?, Char.isDigit, Char.le_def] using h

/-- Reading digits gives the number that they denote. -/
theorem readDigits_eq_ok (hdigits : ∀ c ∈ digits, c.isDigit)
    (h : Nat.ofDigitChars 10 digits value < wordBound) :
    readDigits value digits = .ok (Nat.ofDigitChars 10 digits value) := by
  induction digits generalizing value with
  | nil => simp [readDigits]
  | cons c rest ih =>
    -- what has been read so far is at most the number in the end, so no step leaves the range
    obtain ⟨hc, hrest⟩ := List.forall_mem_cons.1 hdigits
    rw [Nat.ofDigitChars_cons, Nat.mul_comm 10] at h ⊢
    have hle : value * 10 + (c.toNat - '0'.toNat) ≤
        Nat.ofDigitChars 10 rest (value * 10 + (c.toNat - '0'.toNat)) := by
      rw [Nat.ofDigitChars_eq_ofDigitChars_zero]
      exact Nat.le_add_right_of_le (Nat.le_mul_of_pos_left _ (Nat.pow_pos (by decide)))
    rw [readDigits, digitValue?_of_isDigit hc]
    simp only
    rw [if_pos (Nat.lt_of_le_of_lt hle h)]
    exact ih hrest h

/-- Nothing but digits is read, and the number that they denote is a word. -/
theorem ofDigitChars_of_readDigits (h : readDigits value digits = .ok n)
    (hvalue : value < wordBound) :
    (∀ c ∈ digits, c.isDigit) ∧ Nat.ofDigitChars 10 digits value = n ∧ n < wordBound := by
  induction digits generalizing value with
  | nil =>
    obtain rfl := Except.ok.inj h
    exact ⟨by simp, rfl, hvalue⟩
  | cons c rest ih =>
    by_cases hc : c.isDigit
    · rw [readDigits, digitValue?_of_isDigit hc] at h
      dsimp only at h
      split at h
      · next hlt =>
        obtain ⟨hrest, hn, hword⟩ := ih h hlt
        refine ⟨List.forall_mem_cons.2 ⟨hc, hrest⟩, ?_, hword⟩
        rw [Nat.ofDigitChars_cons, Nat.mul_comm 10, hn]
      · contradiction
    · rw [readDigits, digitValue?_of_not_isDigit hc] at h
      contradiction

/-- Digits are read as their value if that is a word. -/
theorem readDigits_eq_ok_iff (hne : digits ≠ []) :
    readDigits 0 digits = .ok n ↔ IsDigits digits ∧ valueOf digits = n ∧ n < wordBound := by
  constructor
  · intro h
    obtain ⟨hdigits, hn, hword⟩ := ofDigitChars_of_readDigits h (by decide)
    exact ⟨⟨hne, hdigits⟩, hn, hword⟩
  · rintro ⟨hdigits, rfl, hword⟩
    exact readDigits_eq_ok hdigits.2 hword

/-- A sign in front of digits is passed over. -/
theorem readNumeral_plus (hne : digits ≠ []) :
    readNumeral ('+' :: digits) = readDigits 0 digits := by
  unfold readNumeral
  split <;> simp_all

/-- Without a sign, digits are read at once. -/
theorem readNumeral_of_head?_ne (hplus : numeral.head? ≠ some '+') (hne : numeral ≠ []) :
    readNumeral numeral = readDigits 0 numeral := by
  unfold readNumeral
  split <;> simp_all

/-- What is read are numerals, and each is read as the number that it denotes. -/
theorem numeral?_eq_some_iff : numeral? numeral = some n ↔ IsNumeral numeral n := by
  have hread : numeral? numeral = some n ↔ readNumeral numeral = .ok n := by
    rw [numeral?]
    cases readNumeral numeral <;> simp [Except.toOption]
  rw [hread]
  constructor
  · intro h
    -- a sign in front is dropped before the digits are read
    by_cases hplus : numeral.head? = some '+'
    · obtain ⟨digits, rfl⟩ : ∃ digits, numeral = '+' :: digits :=
        ⟨numeral.tail, (List.cons_head?_tail hplus).symm⟩
      have hne : digits ≠ [] := by
        rintro rfl
        contradiction
      rw [readNumeral_plus hne, readDigits_eq_ok_iff hne] at h
      obtain ⟨hdigits, rfl, hword⟩ := h
      exact .signed hdigits hword
    · have hne : numeral ≠ [] := by
        rintro rfl
        contradiction
      rw [readNumeral_of_head?_ne hplus hne, readDigits_eq_ok_iff hne] at h
      obtain ⟨hdigits, rfl, hword⟩ := h
      exact .plain hdigits hword
  · rintro (⟨hdigits, hword⟩ | ⟨hdigits, hword⟩)
    · rw [readNumeral_of_head?_ne hdigits.head?_ne_plus hdigits.1, readDigits_eq_ok_iff hdigits.1]
      exact ⟨hdigits, rfl, hword⟩
    · rw [readNumeral_plus hdigits.1, readDigits_eq_ok_iff hdigits.1]
      exact ⟨hdigits, rfl, hword⟩

/-- A number in plain decimal is read as itself, unless it is out of range. -/
theorem numeral?_decimal (h : n < wordBound) : numeral? (decimal n) = some n :=
  numeral?_eq_some_iff.2 (isNumeral_decimal h)

/-! ## Writing -/

/-- The digits have the numbers from 48 to 57. -/
theorem toNat_of_isDigit (h : c.isDigit) : 48 ≤ c.toNat ∧ c.toNat ≤ 57 := by
  simpa [Char.isDigit, UInt32.le_iff_toNat_le] using h

/-- The value of a digit is less than ten. -/
theorem toNat_sub_lt (h : c.isDigit) : c.toNat - '0'.toNat < 10 := by
  have hbounds := toNat_of_isDigit h
  change c.toNat - 48 < 10
  omega

/-- A digit is the character for its value. -/
theorem digitChar_of_isDigit (h : c.isDigit) : Nat.digitChar (c.toNat - '0'.toNat) = c := by
  obtain ⟨hle, hle'⟩ := toNat_of_isDigit h
  have hc : c = Char.ofNat c.toNat := (Char.ofNat_toNat c).symm
  generalize c.toNat = code at hle hle' hc
  subst hc
  interval_cases code <;> rfl

/-- The first digit of a number that is not zero is not zero. -/
theorem head?_decimal_ne_zero (h : 0 < n) : (decimal n).head? ≠ some '0' := by
  induction n using Nat.strongRecOn with
  | _ n ih =>
    rw [decimal, Nat.toDigits_eq_if (by decide)]
    split
    · interval_cases n <;> decide
    · have hquotient : 0 < n / 10 := by omega
      rw [List.head?_append_of_ne_nil _ Nat.toDigits_ne_nil]
      exact ih (n / 10) (by omega) hquotient

/-- What is written of a number that is not zero stands before the digits that go on with it. -/
theorem toDigits_append (hvalue : 0 < value) (hdigits : ∀ c ∈ digits, c.isDigit) :
    Nat.toDigits 10 value ++ digits = Nat.toDigits 10 (Nat.ofDigitChars 10 digits value) := by
  induction digits generalizing value with
  | nil => simp
  | cons c rest ih =>
    obtain ⟨hc, hrest⟩ := List.forall_mem_cons.1 hdigits
    have hdigit : c.toNat - '0'.toNat < 10 := toNat_sub_lt hc
    have hfirst := Nat.toDigits_append_toDigits (by decide) hvalue hdigit
    rw [Nat.toDigits_of_lt_base hdigit, digitChar_of_isDigit hc] at hfirst
    calc
      Nat.toDigits 10 value ++ c :: rest = Nat.toDigits 10 value ++ [c] ++ rest := by simp
      _ = Nat.toDigits 10 (10 * value + (c.toNat - '0'.toNat)) ++ rest := by rw [hfirst]
      _ = _ := ih (by omega) hrest

/-- Digits without a zero that could be left out are those by which their value is written. -/
theorem decimal_valueOf (h : IsDigits digits) (hzero : digits.head? = some '0' → digits = ['0']) :
    decimal (valueOf digits) = digits := by
  cases digits with
  | nil => exact absurd rfl h.1
  | cons c rest =>
    obtain ⟨hc, hrest⟩ := List.forall_mem_cons.1 h.2
    by_cases hfirst : c = '0'
    · rw [hzero (by simp [hfirst])]
      rfl
    · have hvalue : 0 < c.toNat - '0'.toNat := by
        have hne : c.toNat ≠ 48 := fun heq => hfirst (Char.toNat_inj.1 heq)
        obtain ⟨hle, -⟩ := toNat_of_isDigit hc
        change 0 < c.toNat - 48
        omega
      have hwhole := toDigits_append hvalue hrest
      rw [Nat.toDigits_of_lt_base (toNat_sub_lt hc), digitChar_of_isDigit hc] at hwhole
      rw [decimal, valueOf, Nat.ofDigitChars_cons, Nat.mul_zero, Nat.zero_add, ← hwhole,
        List.singleton_append]

/-- A number is written by its canonical numeral. -/
theorem decimal_eq_iff_isCanonical (h : IsNumeral numeral n) :
    decimal n = numeral ↔ IsCanonical numeral := by
  constructor
  · rintro rfl
    refine ⟨(isDigits_decimal n).head?_ne_plus, fun hzero => ?_⟩
    obtain rfl : n = 0 := by
      by_contra hne
      exact head?_decimal_ne_zero (Nat.pos_of_ne_zero hne) hzero
    rfl
  · rintro ⟨hplus, hzero⟩
    cases h with
    | plain hdigits hword => exact decimal_valueOf hdigits hzero
    | signed => simp at hplus

end Cascade.Text
