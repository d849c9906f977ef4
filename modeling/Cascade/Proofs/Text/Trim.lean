import Cascade.Text.Blank
import Mathlib.Data.List.DropRight

/-!
# Trimming

What trimming a text at its ends removes, and what it leaves as it is.

* `trimEnd_append_of_blank`, `trimEnd_concat`: the end of a text is trimmed up to what is not blank.
* `trim_eq_self`: a text without blanks is left as it is.
* `dropEnding?_concat`: whether a text ends in a character.
-/

namespace Cascade.Text

variable {text front behind : Text} {c : Char}

theorem trimEnd_eq_rdropWhile (text : Text) : trimEnd text = text.rdropWhile isBlank := rfl

/-- Blanks at the end make no difference. -/
theorem trimEnd_append_of_blank (h : ∀ c ∈ behind, isBlank c) :
    trimEnd (text ++ behind) = trimEnd text := by
  have hdrop : (behind.reverse).dropWhile isBlank = [] :=
    List.dropWhile_eq_nil_iff.2 fun c hc => h c (List.mem_reverse.1 hc)
  rw [trimEnd, List.reverse_append, List.dropWhile_append, hdrop]
  rfl

/-- What stands in front of a character that is not blank is left as it is. -/
theorem trimEnd_append_cons (h : isBlank c = false) :
    trimEnd (front ++ c :: behind) = front ++ c :: trimEnd behind := by
  have hreverse : (front ++ c :: behind).reverse = behind.reverse ++ (c :: front.reverse) := by simp
  rw [trimEnd, trimEnd, hreverse, List.dropWhile_append]
  split
  · next hnil =>
    rw [List.isEmpty_iff.1 hnil, List.dropWhile_cons_of_neg (by simp [h])]
    simp
  · simp

theorem trimEnd_concat (h : isBlank c = false) : trimEnd (front ++ [c]) = front ++ [c] :=
  trimEnd_append_cons h

/-- A text that has been trimmed at its end is empty or ends in a character that is not blank. -/
theorem trimEnd_eq_nil_or (text : Text) :
    trimEnd text = [] ∨ ∃ front c, trimEnd text = front ++ [c] ∧ isBlank c = false := by
  rcases List.eq_nil_or_concat' (trimEnd text) with h | ⟨front, c, h⟩
  · exact .inl h
  · have hlast := List.rdropWhile_last_not isBlank text (by simp [← trimEnd_eq_rdropWhile, h])
    simp only [← trimEnd_eq_rdropWhile, h] at hlast
    exact .inr ⟨front, c, h, by simpa using hlast⟩

theorem trimStart_concat (h : isBlank c = false) :
    trimStart (front ++ [c]) = trimStart front ++ [c] := by
  rw [trimStart, trimStart, List.dropWhile_append]
  split
  · next hnil =>
    rw [List.isEmpty_iff.1 hnil, List.dropWhile_cons_of_neg (by simp [h])]
    rfl
  · rfl

/-- A character at the end that is not blank stays there. -/
theorem trim_concat (h : isBlank c = false) : trim (front ++ [c]) = trimStart front ++ [c] := by
  rw [trim, trimStart_concat h, trimEnd_concat h]

/-- A text ends in a character if that is its last one. -/
theorem dropEnding?_concat (ending : Char) :
    dropEnding? [ending] (front ++ [c]) = if c = ending then some front else none := by
  split
  · next h => exact dropEnding?_eq_some_iff.2 (by rw [h])
  · next h =>
    refine Option.eq_none_iff_forall_ne_some.2 fun rest hrest => h ?_
    simpa using (List.append_inj' (dropEnding?_eq_some_iff.1 hrest) rfl).2.symm

theorem trim_trimStart (text : Text) : trim (trimStart text) = trim text := by
  have hagain : trimStart (trimStart text) = trimStart text := List.dropWhile_idempotent ..
  rw [trim, hagain, trim]

/-- A text without blanks is left as it is. -/
theorem trim_eq_self (h : ∀ c ∈ text, isBlank c = false) : trim text = text := by
  have hdrop {l : Text} (hl : ∀ c ∈ l, isBlank c = false) : l.dropWhile isBlank = l := by
    rw [List.dropWhile_eq_self_iff]
    exact fun hlen => by simp [hl _ (List.getElem_mem hlen)]
  rw [trim, trimStart, hdrop h, trimEnd, hdrop fun c hc => h c (List.mem_reverse.1 hc),
    List.reverse_reverse]

end Cascade.Text
