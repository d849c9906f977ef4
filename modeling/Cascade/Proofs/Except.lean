import Mathlib.Logic.Basic

/-!
# Steps that can fail

What is known of the parts of a computation that has come to a result, or to an error.

* `bind_eq_ok`, `bind_eq_error`: one step behind another.
* `exists_getElem?_of_mapM`, `exists_of_mapM_eq_error`: a list of steps.
-/

namespace Cascade

variable {ε α β : Type}

theorem exists_eq_ok_of_isOk {x : Except ε α} (h : x.isOk) : ∃ a, x = .ok a := by
  cases x with
  | error e => contradiction
  | ok a => exact ⟨a, rfl⟩

theorem bind_eq_ok {x : Except ε α} {f : α → Except ε β} {b : β} :
    (x >>= f) = .ok b ↔ ∃ a, x = .ok a ∧ f a = .ok b := by
  cases x <;> simp [bind, Except.bind]

theorem bind_eq_error {x : Except ε α} {f : α → Except ε β} {e : ε} :
    (x >>= f) = .error e ↔ x = .error e ∨ ∃ a, x = .ok a ∧ f a = .error e := by
  cases x <;> simp [bind, Except.bind]

theorem map_eq_ok {x : Except ε α} {f : α → β} {b : β} :
    x.map f = .ok b ↔ ∃ a, x = .ok a ∧ f a = b := by
  cases x <;> simp [Except.map]

/-- The results of a list of steps stand at the same places. -/
theorem exists_getElem?_of_mapM {f : α → Except ε β} {as : List α} {bs : List β}
    (h : as.mapM f = .ok bs) : bs.length = as.length ∧
      ∀ (i : Nat) (a : α), as[i]? = some a → ∃ b, bs[i]? = some b ∧ f a = .ok b := by
  induction as generalizing bs with
  | nil =>
    obtain rfl : [] = bs := by simpa [pure, Except.pure] using h
    simp
  | cons a as ih =>
    simp only [List.mapM_cons, bind_eq_ok] at h
    obtain ⟨b, hb, bs', hbs, h⟩ := h
    obtain rfl : b :: bs' = bs := by simpa [pure, Except.pure] using h
    obtain ⟨hlength, hsteps⟩ := ih hbs
    refine ⟨by simp [hlength], fun i a' ha' => ?_⟩
    cases i with
    | zero =>
      obtain rfl : a = a' := by simpa using ha'
      exact ⟨b, rfl, hb⟩
    | succ i => exact hsteps i a' (by simpa using ha')

/-- The first step that fails stops a list of steps. -/
theorem exists_of_mapM_eq_error {f : α → Except ε β} {as : List α} {e : ε}
    (h : as.mapM f = .error e) : ∃ before a after, as = before ++ a :: after ∧
      (∀ a' ∈ before, ∃ b, f a' = .ok b) ∧ f a = .error e := by
  induction as with
  | nil => simp [pure, Except.pure] at h
  | cons a as ih =>
    rw [List.mapM_cons, bind_eq_error] at h
    obtain ha | ⟨b, hb, h⟩ := h
    · exact ⟨[], a, as, rfl, by simp, ha⟩
    · rw [bind_eq_error] at h
      obtain h | ⟨bs, -, h⟩ := h
      · obtain ⟨before, a', after, rfl, hbefore, ha'⟩ := ih h
        exact ⟨a :: before, a', after, rfl, List.forall_mem_cons.2 ⟨⟨b, hb⟩, hbefore⟩, ha'⟩
      · contradiction

end Cascade
