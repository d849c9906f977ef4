import Cascade.Proofs.Regex.Match
import Cascade.Proofs.Text.Span
import Mathlib.Computability.Language

/-!
# Plans that are regular expressions

A plan that neither looks around nor captures, and whose loops have no limit, is a regular
expression and has a language. At any place it matches those words of its language that come next,
and no other text. Which of them is preferred matters for what comes behind, but if what comes
behind can go on with any of them, then a match is found.

* `Plan.language`, `Plan.IsRegular`: the language of a plan, and the plans that have one.
* `Realizes`: a step of the matcher passes over the words of a language.
* `Plan.IsRegular.realizes`: the matcher passes over the words of a plan that is regular.
-/

namespace Cascade.Regex

open scoped Computability

/-! ## Places in a text -/

namespace Cursor

variable {c c' : Cursor} {u v t : Text} {x : Char} {stop : Nat}

/-- The place behind a text that comes next. -/
def advance (c : Cursor) (u : Text) : Cursor :=
  ⟨u.reverse ++ c.before, c.behind.drop u.length, c.offset + u.byteLength⟩

@[simp]
theorem advance_nil (c : Cursor) : c.advance [] = c := rfl

/-- The place behind two texts is the place behind the second one, from the place behind the first.
-/
theorem advance_append (c : Cursor) (u v : Text) :
    c.advance (u ++ v) = (c.advance u).advance v := by
  simp [advance, Text.byteLength_append, Nat.add_assoc]

/-- What is not empty leads further. -/
theorem offset_lt_advance (c : Cursor) (hu : u ≠ []) : c.offset < (c.advance u).offset :=
  Nat.lt_add_of_pos_right (Nat.pos_of_ne_zero fun hzero => hu (Text.byteLength_eq_zero hzero))

/-- One text comes next and another one behind it exactly if both together come next. -/
theorem append_prefix_behind_iff : u ++ v <+: c.behind ↔
    u <+: c.behind ∧ v <+: (c.advance u).behind := by
  constructor
  · rintro ⟨rest, hrest⟩
    rw [List.append_assoc] at hrest
    refine ⟨⟨v ++ rest, hrest⟩, rest, ?_⟩
    simp [advance, ← hrest]
  · rintro ⟨⟨rest, hrest⟩, rest', hrest'⟩
    refine ⟨rest', ?_⟩
    rw [List.append_assoc, hrest', ← hrest]
    simp [advance, ← hrest]

/-- All that is left of the text stands before the byte position `stop`. -/
def Within (stop : Nat) (c : Cursor) : Prop :=
  c.offset + c.behind.byteLength ≤ stop

/-- What is left gets shorter by what has been passed. -/
theorem byteLength_behind (h : u <+: c.behind) :
    c.behind.byteLength = u.byteLength + (c.advance u).behind.byteLength := by
  obtain ⟨rest, hrest⟩ := h
  simp [advance, ← hrest, Text.byteLength_append]

/-- The end does not move when a text is passed. -/
theorem Within.advance (h : c.Within stop) (hu : u <+: c.behind) : (c.advance u).Within stop := by
  unfold Within at h ⊢
  rw [byteLength_behind hu] at h
  simp only [Cursor.advance] at h ⊢
  omega

/-- The next character comes next, and the place behind it is what follows. -/
theorem of_next? (h : c.next? = some (x, c')) : [x] <+: c.behind ∧ c' = c.advance [x] := by
  unfold next? at h
  split at h
  · contradiction
  · next y rest hbehind =>
    obtain ⟨rfl, rfl⟩ : y = x ∧ _ := by simpa using h
    exact ⟨⟨rest, hbehind.symm⟩, by simp [advance, hbehind, Text.byteLength]⟩

/-- If there is no next character, nothing is left. -/
theorem of_next?_eq_none (h : c.next? = none) : c.behind = [] := by
  unfold next? at h
  split at h
  · assumption
  · contradiction

/-- A step passes the character that comes next. -/
theorem of_step? (h : c.step? stop = some (x, c')) : [x] <+: c.behind ∧ c' = c.advance [x] := by
  unfold step? at h
  split at h
  · exact of_next? h
  · contradiction

/-- A character that comes next can be passed. -/
theorem step?_of_prefix (h : c.Within stop) (hx : [x] <+: c.behind) :
    c.step? stop = some (x, c.advance [x]) := by
  obtain ⟨rest, hrest⟩ := hx
  have hpos : 0 < x.utf8Size := x.utf8Size_pos
  have hlt : c.offset < stop := by
    unfold Within at h
    rw [← hrest, List.singleton_append, Text.byteLength] at h
    omega
  rw [step?, if_pos hlt, next?, ← hrest]
  simp [advance, ← hrest, Text.byteLength]

/-- A text that is passed comes next. -/
theorem of_pass? (h : c.pass? stop false t = some c') : t <+: c.behind ∧ c' = c.advance t := by
  induction t generalizing c with
  | nil =>
    obtain rfl := Option.some.inj h
    exact ⟨List.nil_prefix, rfl⟩
  | cons x rest ih =>
    rw [pass?, Option.bind_eq_bind, Option.bind_eq_some_iff] at h
    obtain ⟨⟨y, next⟩, hstep, h⟩ := h
    obtain ⟨hy, rfl⟩ := of_step? hstep
    dsimp only at h
    split at h
    · next hxy =>
      obtain rfl : x = y := by simpa using hxy
      obtain ⟨hrest, rfl⟩ := ih h
      exact ⟨append_prefix_behind_iff.2 ⟨hy, hrest⟩, (advance_append c [x] rest).symm⟩
    · contradiction

/-- A text that comes next can be passed. -/
theorem pass?_of_prefix (h : c.Within stop) (ht : t <+: c.behind) :
    c.pass? stop false t = some (c.advance t) := by
  induction t generalizing c with
  | nil => rfl
  | cons x rest ih =>
    obtain ⟨hx, hrest⟩ := append_prefix_behind_iff.1 (show [x] ++ rest <+: c.behind from ht)
    rw [pass?, step?_of_prefix h hx]
    simpa [← advance_append] using ih (h.advance hx) hrest

end Cursor

/-! ## Steps that pass over the words of a language -/

/-- A step passes over words of a language. It goes on behind one of them that comes next, and it
finds a match if its continuation does behind any of them. -/
structure Realizes (stop : Nat) (step : Continuation → Continuation) (L : Language Char) :
    Prop where
  sound : ∀ ⦃k c marks out⦄, step k c marks = some out →
    ∃ u ∈ L, u <+: c.behind ∧ k (c.advance u) marks = some out
  complete : ∀ ⦃k c marks u⦄, c.Within stop → u ∈ L → u <+: c.behind →
    (k (c.advance u) marks).isSome → (step k c marks).isSome

namespace Realizes

variable {stop count : Nat} {step step' : Continuation → Continuation} {L L' : Language Char}

/-- There is an outcome of a choice if there is one of either side. -/
theorem isSome_orElse {a : Outcome} {b : Unit → Outcome} :
    (orElse a b).isSome ↔ a.isSome ∨ (b ()).isSome := by
  cases a <;> simp [orElse]

/-- Going on at once passes over the empty word. -/
protected theorem one : Realizes stop id 1 where
  sound _ c _ _ hout := ⟨[], rfl, List.nil_prefix, by rwa [Cursor.advance_nil]⟩
  complete k c marks u _ hu _ hk := by
    obtain rfl := (Language.mem_one u).1 hu
    exact hk

/-- One step behind another passes over a word of each language. -/
protected theorem mul (h : Realizes stop step L) (h' : Realizes stop step' L') :
    Realizes stop (fun k => step (step' k)) (L * L') where
  sound k c marks out hout := by
    obtain ⟨u, hu, hcomes, hrest⟩ := h.sound hout
    obtain ⟨v, hv, hcomes', hk⟩ := h'.sound hrest
    refine ⟨u ++ v, Language.append_mem_mul hu hv, ?_, ?_⟩
    · exact Cursor.append_prefix_behind_iff.2 ⟨hcomes, hcomes'⟩
    · rwa [Cursor.advance_append]
  complete k c marks w hc hw hcomes hk := by
    obtain ⟨u, hu, v, hv, rfl⟩ := Language.mem_mul.1 hw
    obtain ⟨hcomes, hcomes'⟩ := Cursor.append_prefix_behind_iff.1 hcomes
    rw [Cursor.advance_append] at hk
    exact h.complete hc hu hcomes (h'.complete (hc.advance hcomes) hv hcomes' hk)

/-- One step or another passes over a word of either language. -/
protected theorem add (h : Realizes stop step L) (h' : Realizes stop step' L') :
    Realizes stop (fun k c marks => orElse (step k c marks) fun _ => step' k c marks)
      (L + L') where
  sound k c marks out hout := by
    rcases orElse_eq_some hout with hfirst | hsecond
    · obtain ⟨u, hu, hmatch⟩ := h.sound hfirst
      exact ⟨u, .inl hu, hmatch⟩
    · obtain ⟨u, hu, hmatch⟩ := h'.sound hsecond
      exact ⟨u, .inr hu, hmatch⟩
  complete k c marks u hc hu hcomes hk := by
    refine isSome_orElse.2 (hu.imp ?_ ?_)
    · exact fun hu => h.complete hc hu hcomes hk
    · exact fun hu => h'.complete hc hu hcomes hk

/-- A fixed number of rounds passes over as many words. -/
protected theorem times (h : Realizes stop step L) (count : Nat) :
    Realizes stop (times step count) (L ^ count) := by
  induction count with
  | zero =>
    rw [pow_zero]
    exact .one
  | succ count ih =>
    rw [pow_succ']
    exact h.mul ih

/-- Rounds none of which is due pass over any number of words. None of the words is empty, so each
round makes progress, and there is no more than one round for each byte. -/
protected theorem rounds (h : Realizes stop step L) (hnil : [] ∉ L) (greedy checked : Bool)
    (watched : List Nat) (hcount : stop ≤ count) :
    Realizes stop (rounds step greedy checked watched · count 0) L∗ := by
  have hprogress {c : Cursor} {u : Text} (hu : u ∈ L) : (c.advance u).offset ≠ c.offset := by
    refine (Cursor.offset_lt_advance c ?_).ne'
    rintro rfl
    exact hnil hu
  constructor
  · intro k c marks out hout
    clear hcount
    induction count generalizing c marks with
    | zero => exact ⟨[], Language.nil_mem_kstar L, List.nil_prefix, hout⟩
    | succ count ih =>
      -- the loop has ended here, or there was one more round
      have hend {last : Prop} [Decidable last]
          (hend : (if last then k c marks else none) = some out) :
          ∃ u ∈ L∗, u <+: c.behind ∧ k (c.advance u) marks = some out := by
        split at hend
        · exact ⟨[], Language.nil_mem_kstar L, List.nil_prefix, hend⟩
        · contradiction
      rcases orElse_eq_some hout with hlazy | hout
      · exact hend hlazy
      rcases orElse_eq_some hout with hround | hgreedy
      · obtain ⟨u, hu, hcomes, hafter⟩ := h.sound hround
        simp only [hprogress hu, decide_false, Bool.and_false, Bool.false_eq_true, if_false]
          at hafter
        obtain ⟨v, hv, hcomes', hk⟩ := ih hafter
        refine ⟨u ++ v, ?_, Cursor.append_prefix_behind_iff.2 ⟨hcomes, hcomes'⟩, ?_⟩
        · have hsub : L * L∗ ≤ L∗ := mul_kstar_le_kstar
          exact hsub (Language.append_mem_mul hu hv)
        · rwa [Cursor.advance_append]
      · exact hend hgreedy
  · intro k c marks w hc hw hcomes hk
    have hbytes : c.behind.byteLength ≤ count := by
      unfold Cursor.Within at hc
      omega
    obtain ⟨words, rfl, hwords⟩ := Language.mem_kstar.1 hw
    clear hcount hw
    induction words generalizing count c with
    | nil =>
      cases count with
      | zero => exact hk
      | succ count =>
        cases greedy with
        | true => exact isSome_orElse.2 (.inr (isSome_orElse.2 (.inr hk)))
        | false => exact isSome_orElse.2 (.inl hk)
    | cons u words ih =>
      obtain ⟨hu, hwords⟩ := List.forall_mem_cons.1 hwords
      rw [List.flatten_cons] at hcomes hk
      obtain ⟨hcomes, hcomes'⟩ := Cursor.append_prefix_behind_iff.1 hcomes
      have hpos := Cursor.offset_lt_advance c (u := u) (by
        rintro rfl
        exact hnil hu)
      rw [Cursor.byteLength_behind hcomes] at hbytes
      simp only [Cursor.advance] at hpos
      cases count with
      | zero => omega
      | succ count =>
        refine isSome_orElse.2 (.inr (isSome_orElse.2 (.inl ?_)))
        refine h.complete hc hu hcomes ?_
        simp only [hprogress hu, decide_false, Bool.and_false, Bool.false_eq_true, if_false]
        rw [Cursor.advance_append] at hk
        exact ih (hc.advance hcomes) (by omega) hwords hcomes' hk

end Realizes

/-! ## Plans -/

/-- The words of a plan that is a regular expression. -/
def Plan.language : Plan → Language Char
  | .text false t => {t}
  | .set s => {u | ∃ c, s.contains c ∧ u = [c]}
  | .concat a b => a.language * b.language
  | .either a b => a.language + b.language
  | .loop body ⟨least, none, _⟩ .headed _ _ => body.language ^ least * body.language∗
  | _ => 0

/-- A loop without an upper bound has the words of its least number of rounds, with further rounds
behind them. -/
theorem Plan.language_loop (body : Plan) (least : Nat) (greedy nullable : Bool)
    (watched : List Nat) : (loop body ⟨least, none, greedy⟩ .headed nullable watched).language =
      body.language ^ least * body.language∗ := rfl

/-- A plan is a regular expression: it consists of texts and sets, one thing after the other,
alternatives, and loops without a limit around what is not empty. -/
inductive Plan.IsRegular : Plan → Prop where
  | text (t : Text) : (text false t).IsRegular
  | set (s : CharSet) : (set s).IsRegular
  | concat {a b : Plan} (ha : a.IsRegular) (hb : b.IsRegular) : (concat a b).IsRegular
  | either {a b : Plan} (ha : a.IsRegular) (hb : b.IsRegular) : (either a b).IsRegular
  | loop {body : Plan} (least : Nat) (greedy nullable : Bool) (watched : List Nat)
      (hbody : body.IsRegular) (hnil : [] ∉ body.language) :
      (loop body ⟨least, none, greedy⟩ .headed nullable watched).IsRegular

/-- The matcher passes over the words of a plan that is a regular expression. -/
theorem Plan.IsRegular.realizes {p : Plan} (h : p.IsRegular) (stop : Nat) :
    Realizes stop (run stop p) p.language := by
  induction h with
  | text t =>
    constructor
    · intro k c marks out hout
      rw [run] at hout
      split at hout
      · next c' hpass =>
        obtain ⟨hcomes, rfl⟩ := Cursor.of_pass? hpass
        exact ⟨t, rfl, hcomes, hout⟩
      · contradiction
    · rintro k c marks u hc rfl hcomes hk
      rwa [run, Cursor.pass?_of_prefix hc hcomes]
  | set s =>
    constructor
    · intro k c marks out hout
      rw [run] at hout
      split at hout
      · next x c' hstep =>
        obtain ⟨hcomes, rfl⟩ := Cursor.of_step? hstep
        split at hout
        · next hx => exact ⟨[x], ⟨x, hx, rfl⟩, hcomes, hout⟩
        · contradiction
      · contradiction
    · rintro k c marks _ hc ⟨x, hx, rfl⟩ hcomes hk
      rw [run, Cursor.step?_of_prefix hc hcomes]
      simpa [hx] using hk
  | concat _ _ iha ihb => exact iha.mul ihb
  | either _ _ iha ihb => exact iha.add ihb
  | loop least greedy nullable watched _ hnil ih =>
    -- as no round passes nothing, there are not more rounds than the matcher allows for
    have hcount : stop ≤ (stop + 1) * (watched.length + 1) :=
      Nat.le_trans (Nat.le_succ stop) (Nat.le_mul_of_pos_right _ (Nat.succ_pos _))
    exact (ih.times least).mul (ih.rounds hnil greedy nullable watched hcount)

end Cascade.Regex
