import Cascade.Proofs.Pattern.Words
import Cascade.Proofs.Regex.Regular

/-!
# Searching for words

A regular expression without the empty word is searched for from left to right: each match that is
reported is a word where the next one starts.

* `hasAll_of_mem_language`: a text that is not searched has no word in it.
* `firstFrom_eq_some`, `firstFrom_eq_none`: the first place where a word stands, or none.
* `leftmost_scan`: all matches.
-/

namespace Cascade.Regex

open Cascade.Pattern
open scoped Computability

variable {stop fuel : Nat} {p : Plan} {r : Regex} {c first last : Cursor} {marks : Marks}
  {needs : List CharSet} {text u : Text}

/-! ## What every match has -/

theorem hasAll_append {a b : List CharSet} :
    hasAll (a ++ b) text = (hasAll a text && hasAll b text) :=
  List.all_append

/-- A text has all that a part of it has. -/
theorem hasAll_mono (h : hasAll needs u) (hsub : u ⊆ text) : hasAll needs text := by
  simp only [hasAll, List.all_eq_true, List.any_eq_true] at h ⊢
  intro s hs
  obtain ⟨c, hc, hcontains⟩ := h s hs
  exact ⟨c, hsub hc, hcontains⟩

/-- Each word of a plan has a character of each of the sets that the plan needs. -/
theorem hasAll_of_mem_language (h : p.IsRegular) (hu : u ∈ p.language) : hasAll p.needs u := by
  induction h generalizing u with
  | text t =>
    obtain rfl : u = t := hu
    simp [Plan.needs, hasAll, CharSet.contains]
  | set s =>
    obtain ⟨c, hc, rfl⟩ := hu
    simpa [Plan.needs, hasAll] using hc
  | @concat a b _ _ iha ihb =>
    obtain ⟨v, hv, w, hw, rfl⟩ := Language.mem_mul.1 hu
    rw [Plan.needs, hasAll_append, Bool.and_eq_true]
    exact ⟨hasAll_mono (iha hv) (List.subset_append_left v w),
      hasAll_mono (ihb hw) (List.subset_append_right v w)⟩
  | @either a b _ _ iha ihb =>
    rw [Plan.needs]
    split
    · next s _ t _ ha hb =>
      -- one character of either alternative is enough
      rw [ha] at iha
      rw [hb] at ihb
      simp only [hasAll, List.all_cons, List.all_nil, Bool.and_true, Bool.and_eq_true,
        List.any_eq_true, CharSet.contains, Bool.or_eq_true] at iha ihb ⊢
      rcases hu with hu | hu
      · obtain ⟨⟨c, hc, hcontains⟩, -⟩ := iha hu
        exact ⟨c, hc, .inl hcontains⟩
      · obtain ⟨⟨c, hc, hcontains⟩, -⟩ := ihb hu
        exact ⟨c, hc, .inr hcontains⟩
    · rfl
  | @loop body least greedy nullable watched _ _ ih =>
    rw [Plan.needs]
    split
    · rfl
    · next hleast =>
      -- at least one round is due, and it has all that is needed
      obtain ⟨v, hv, w, -, rfl⟩ := Language.mem_mul.1 hu
      obtain ⟨words, rfl, hlength, hwords⟩ := Language.mem_pow.1 hv
      obtain ⟨word, others, rfl⟩ := List.exists_cons_of_ne_nil (l := words) (by
        rintro rfl
        exact hleast hlength.symm)
      refine hasAll_mono (ih (hwords word List.mem_cons_self)) ?_
      exact fun d hd => List.mem_append_left _ (by simp [hd])

/-! ## The first match -/

/-- Where the plan does not match, no word comes next. -/
theorem not_prefix_of_run_eq_none (h : p.IsRegular) (hc : c.Within stop) (hu : u ∈ p.language)
    (hrun : run stop p (fun c marks => some (c, marks)) c [] = none) : ¬ u <+: c.behind := by
  intro hcomes
  have hsome := @(h.realizes stop).complete (fun c marks => some (c, marks)) c [] u hc hu hcomes rfl
  rw [hrun] at hsome
  contradiction

/-- A word that stands behind a text which is not empty stands behind the next character. -/
theorem prefix_behind_advance {x d : Char} {w : Text} (hx : [x] <+: c.behind)
    (hcomes : d :: w <+: c.behind) : w <+: (c.advance [x]).behind := by
  obtain ⟨hd, hw⟩ := Cursor.append_prefix_behind_iff.1 (show [d] ++ w <+: c.behind from hcomes)
  obtain ⟨rest, hrest⟩ := hx
  obtain ⟨rest', hrest'⟩ := hd
  obtain ⟨rfl, -⟩ : x = d ∧ rest = rest' := by simpa using hrest.trans hrest'.symm
  exact hw

/-- The first match stands where a word stands, and no word stands before it. -/
theorem firstFrom_eq_some (h : p.IsRegular) (hc : c.Within stop)
    (hfirst : firstFrom stop p fuel c = some (first, last, marks)) :
    ∃ x, ∃ u ∈ p.language, x ++ u <+: c.behind ∧ first = c.advance x ∧
      last = c.advance (x ++ u) ∧
        ∀ y, ∀ v ∈ p.language, y ++ v <+: c.behind → x.length ≤ y.length := by
  induction fuel generalizing c with
  | zero => contradiction
  | succ fuel ih =>
    rw [firstFrom] at hfirst
    cases hrun : run stop p (fun c marks => some (c, marks)) c [] with
    | some found =>
      -- a word stands right here
      obtain ⟨u, hu, hcomes, hfound⟩ := (h.realizes stop).sound hrun
      obtain rfl := Option.some.inj hfound
      rw [hrun] at hfirst
      obtain ⟨rfl, rfl, -⟩ : c = first ∧ c.advance u = last ∧ _ := by simpa using hfirst
      exact ⟨[], u, hu, hcomes, rfl, rfl, fun _ _ _ _ => Nat.zero_le _⟩
    | none =>
      rw [hrun] at hfirst
      dsimp only at hfirst
      split at hfirst
      · next x c' hnext =>
        obtain ⟨hx, rfl⟩ := Cursor.of_next? hnext
        -- none stands here, so each has at least the next character before it
        obtain ⟨y, u, hu, hcomes, rfl, rfl, hleast⟩ := ih (hc.advance hx) hfirst
        refine ⟨[x] ++ y, u, hu, ?_, (Cursor.advance_append ..).symm, ?_, ?_⟩
        · rw [List.append_assoc]
          exact Cursor.append_prefix_behind_iff.2 ⟨hx, hcomes⟩
        · rw [List.append_assoc, Cursor.advance_append c [x]]
        · intro z v hv hcomes'
          cases z with
          | nil => exact absurd hcomes' (not_prefix_of_run_eq_none h hc hv hrun)
          | cons d z => exact Nat.succ_le_succ (hleast z v hv (prefix_behind_advance hx hcomes'))
      · contradiction

/-- If no match is found, no word stands anywhere. -/
theorem firstFrom_eq_none (h : p.IsRegular) (hc : c.Within stop)
    (hfuel : c.behind.length < fuel) (hfirst : firstFrom stop p fuel c = none) (x : Text)
    (hu : u ∈ p.language) : ¬ x ++ u <+: c.behind := by
  induction fuel generalizing c x with
  | zero => omega
  | succ fuel ih =>
    rw [firstFrom] at hfirst
    cases hrun : run stop p (fun c marks => some (c, marks)) c [] with
    | some found =>
      rw [hrun] at hfirst
      contradiction
    | none =>
      intro hcomes
      cases x with
      | nil => exact not_prefix_of_run_eq_none h hc hu hrun hcomes
      | cons d x =>
        rw [hrun] at hfirst
        dsimp only at hfirst
        split at hfirst
        · next y c' hnext =>
          -- a word further on would have been found from behind the next character
          obtain ⟨hy, rfl⟩ := Cursor.of_next? hnext
          have hlength : (c.advance [y]).behind.length < fuel := by
            have hpos := hy.length_le
            simp only [Cursor.advance, List.length_drop, List.length_singleton] at hpos ⊢
            omega
          exact ih (hc.advance hy) hlength hfirst x (prefix_behind_advance hy hcomes)
        · next hnext =>
          rw [Cursor.of_next?_eq_none hnext] at hcomes
          simp at hcomes

/-! ## All matches -/

/-- If no word is empty, words are found from left to right. -/
theorem leftmost_scanFrom (h : r.plan.IsRegular) (hnil : [] ∉ r.plan.language)
    {ended : Option Nat} (hc : c.Within stop) (hfuel : c.behind.length < fuel) :
    Leftmost r.plan.language c.offset c.behind
      ((scanFrom stop r.plan.needs r ended fuel c).map Match.span) := by
  induction fuel generalizing c ended with
  | zero => omega
  | succ fuel ih =>
    rw [scanFrom]
    cases hfirst : if hasAll r.plan.needs c.behind then firstFrom stop r.plan (stop + 1) c
        else none with
    | none =>
      refine .done fun x u hu hcomes => ?_
      -- the search is not given up too early: a word has all the characters that are needed
      have hall : hasAll r.plan.needs c.behind :=
        hasAll_mono (hasAll_of_mem_language h hu) fun d hd =>
          hcomes.subset (List.mem_append_right x hd)
      rw [if_pos hall] at hfirst
      refine firstFrom_eq_none h hc ?_ hfirst x hu hcomes
      have hlength := Text.length_le_byteLength c.behind
      unfold Cursor.Within at hc
      omega
    | some found =>
      obtain ⟨first, last, marks⟩ := found
      rw [Option.ite_none_right_eq_some] at hfirst
      obtain ⟨x, u, hu, hcomes, rfl, rfl, hleast⟩ := firstFrom_eq_some h hc hfirst.2
      have hne : u ≠ [] := by
        rintro rfl
        exact hnil hu
      have hlt : (c.advance x).offset < (c.advance (x ++ u)).offset := by
        rw [Cursor.advance_append]
        exact Cursor.offset_lt_advance _ hne
      have hlength : (c.advance (x ++ u)).behind.length < fuel := by
        have hle := hcomes.length_le
        have hpos := List.length_pos_iff.2 hne
        simp only [Cursor.advance, List.length_drop, List.length_append] at hle ⊢
        omega
      -- as words are not empty, less of the text is left for the search to go on with
      have hmore := @ih _ (some (c.advance (x ++ u)).offset) (hc.advance hcomes) hlength
      obtain ⟨rest, hrest⟩ := hcomes
      have hbehind : (c.advance (x ++ u)).behind = rest := by simp [Cursor.advance, ← hrest]
      dsimp only
      rw [if_neg fun heq => hlt.ne heq.1, List.map_cons]
      rw [hbehind] at hmore
      rw [← hrest, List.append_assoc] at hleast ⊢
      exact .found hu hleast hmore

/-- If no word of a plan is empty, a search finds its words from left to right. -/
theorem leftmost_scan (h : r.plan.IsRegular) (hnil : [] ∉ r.plan.language) (text : Text) :
    Leftmost r.plan.language 0 text ((r.scan text).map Match.span) := by
  have hstart : (Cursor.start text).Within text.byteLength := by
    simp [Cursor.Within, Cursor.start]
  exact leftmost_scanFrom h hnil hstart (by simp [Cursor.start]; omega)

end Cascade.Regex
