import Cascade.Grammar.Build
import Cascade.Proofs.Grammar.Wiring
import Cascade.Proofs.Token.Codec

/-!
# Outlines that are written

A forest of names is written as an outline by indenting each name under the one above it. Blank
lines, comments and blanks behind a line may be put in anywhere.

* `Forest.lines`, `Forest.pairs`: the outline of a forest, and the names with the names above them.
* `Padded`: the lines that are written, with lines and blanks put in.
* `outline`: what is read of an outline when lines are not counted.
* `outline_padded`, `outline_lines_append`: what is put in is passed over, and what is written is
  read.
* `outline_of_readWiring`: which texts are read as outlines, and that all those are that are
  written so.
-/

namespace Cascade.Wiring

open Text

/-! ## Writing outlines -/

/-- Names with the names below them. A node is a name, the forest below it, and the nodes next to
it. -/
inductive Forest where
  | nil
  | node (name : Text) (below next : Forest)
  deriving DecidableEq, Repr

namespace Forest

/-- All names are names of rules. -/
def Named : Forest → Prop
  | nil => True
  | node name below next => Token.isRuleName name ∧ below.Named ∧ next.Named

/-- A name ends in a colon at the margin, and if there are names below it. -/
def isOpen (d : Nat) (below : Forest) : Bool :=
  d = 0 || below ≠ nil

/-- The line for a name at depth `d`. -/
def line (d : Nat) (name : Text) (opened : Bool) : Text :=
  List.replicate (2 * d) ' ' ++ ((if d = 0 then [] else ['-', ' ']) ++
    (name ++ if opened then [':'] else []))

/-- The lines for a forest at depth `d`. -/
def lines (d : Nat) : Forest → List Text
  | nil => []
  | node name below next => line d name (isOpen d below) :: (below.lines (d + 1) ++ next.lines d)

/-- The names of a forest, each behind the name above it, from the first to the last line. -/
def pairs (above : Option Text) : Forest → List (Text × Text)
  | nil => []
  | node name below next =>
    (above.map (·, name)).toList ++ (below.pairs (some name) ++ next.pairs above)

end Forest

/-- Lines with blanks behind them, and with blank lines and comments between them. -/
inductive Padded : List Text → List Text → Prop
  | nil : Padded [] []
  | line {raw behind : Text} {lines padded : List Text} :
      (∀ c ∈ behind, isBlank c ∧ c ≠ '\n') → Padded lines padded →
        Padded (raw :: lines) ((raw ++ behind) :: padded)
  | blank {raw : Text} {lines padded : List Text} :
      (∀ c ∈ raw, isBlank c ∧ c ≠ '\n') → Padded lines padded → Padded lines (raw :: padded)
  | comment {n : Nat} {rest : Text} {lines padded : List Text} :
      '\n' ∉ rest → Padded lines padded →
        Padded lines ((List.replicate n ' ' ++ '#' :: rest) :: padded)

/-! ## Reading without counting lines -/

/-- The pairs of an outline, each a name with the name above it, if it is one. -/
def outline (levels : List Level) : List Text → Option (List (Text × Text))
  | [] => some []
  | raw :: rest =>
    match Line.read raw with
    | .error _ => none
    | .ok .ignored => outline levels rest
    | .ok (.header name) => outline [⟨name, true⟩] rest
    | .ok (.item d entry) =>
      match parentOf levels d entry with
      | .error _ => none
      | .ok parent =>
        (outline (levels.take d ++ [entry]) rest).map ((parent.name, entry.name) :: ·)

/-- The names of an edge. -/
def Edge.pair (edge : Edge) : Text × Text :=
  (edge.parent, edge.child)

variable {levels : List Level} {raw behind name : Text} {lines padded rest : List Text} {d n : Nat}
  {above : Option Text} {opened : Bool}

/-- The outline is what the lines are read as, without their numbers. -/
theorem outline_eq (number : Nat) (levels : List Level) (lines : List Text) :
    outline levels lines =
      (parseLines number levels lines).toOption.map (·.map Edge.pair) := by
  induction lines generalizing number levels with
  | nil => rfl
  | cons raw rest ih =>
    rw [outline, parseLines]
    cases Line.read raw with
    | error m => rfl
    | ok line =>
      cases line with
      | ignored => exact ih ..
      | header name => exact ih ..
      | item d entry =>
        dsimp only
        cases parentOf levels d entry with
        | error m => rfl
        | ok parent =>
          dsimp only
          rw [ih (number + 1)]
          cases parseLines (number + 1) (levels.take d ++ [entry]) rest <;> rfl

/-! ## Lines that are put in -/

/-- A line is read as what it is without the blanks behind it. -/
theorem read_append_of_blank (h : ∀ c ∈ behind, isBlank c) :
    Line.read (raw ++ behind) = Line.read raw := by
  rw [Line.read, Line.read, trimEnd_append_of_blank h]

/-- A blank line is ignored. -/
theorem read_of_blank (h : ∀ c ∈ raw, isBlank c) : Line.read raw = .ok .ignored := by
  rw [← List.nil_append raw, read_append_of_blank h]
  rfl

/-- Blanks in front of another character are passed over, and no more. -/
theorem dropWhile_replicate_append {c : Char} (h : c ≠ ' ') (rest : Text) :
    (List.replicate n ' ' ++ c :: rest).dropWhile (· = ' ') = c :: rest := by
  rw [List.dropWhile_append_of_pos (by simp), List.dropWhile_cons_of_neg (by simpa using h)]

/-- A comment is ignored, however far it is indented. -/
theorem read_comment (rest : Text) :
    Line.read (List.replicate n ' ' ++ '#' :: rest) = .ok .ignored := by
  rw [Line.read, trimEnd_append_cons rfl, dropWhile_replicate_append (by decide)]
  rfl

/-- What is put in between lines makes no difference. -/
theorem outline_padded (h : Padded lines padded) (levels : List Level) :
    outline levels padded = outline levels lines := by
  induction h generalizing levels with
  | nil => rfl
  | line hbehind _ ih =>
    rw [outline, outline, read_append_of_blank fun c hc => (hbehind c hc).1]
    simp only [ih]
  | blank hraw _ ih => rw [outline, read_of_blank fun c hc => (hraw c hc).1, ih]
  | comment _ _ ih => rw [outline, read_comment, ih]

/-! ## Lines that are written -/

/-- The characters of names are visible, and none of them is a sign of outlines. -/
theorem toNat_of_isNameChar {c : Char} (h : Token.isNameChar c) :
    0x20 < c.toNat ∧ c.toNat < 0x7F ∧ c.toNat ≠ 0x23 ∧ c.toNat ≠ 0x3A := by
  have hrange {a b : UInt32} (h : (decide (a ≤ c.val) && decide (c.val ≤ b)) = true) :
      a.toNat ≤ c.toNat ∧ c.toNat ≤ b.toNat := by
    rwa [← Bool.decide_and, decide_eq_true_eq] at h
  simp only [Token.isNameChar, Bool.or_eq_true, decide_eq_true_eq] at h
  rcases h with (h | rfl) | rfl
  · rcases Bool.or_eq_true_iff.1 (h : (c.isAlpha || c.isDigit) = true) with h | h
    · rcases Bool.or_eq_true_iff.1 (h : (c.isUpper || c.isLower) = true) with h | h
      · have : 0x41 ≤ c.toNat ∧ c.toNat ≤ 0x5A := of_decide_eq_true h
        omega
      · have : 0x61 ≤ c.toNat ∧ c.toNat ≤ 0x7A := hrange h
        omega
    · have : 0x30 ≤ c.toNat ∧ c.toNat ≤ 0x39 := hrange h
      omega
  · decide
  · decide

/-- Characters in the names of rules are not blank. -/
theorem isBlank_of_isNameChar {c : Char} (h : Token.isNameChar c) : isBlank c = false := by
  have := toNat_of_isNameChar h
  simp only [isBlank, Bool.or_eq_false_iff, Bool.and_eq_false_imp, decide_eq_true_eq,
    decide_eq_false_iff_not, beq_eq_false_iff_ne]
  omega

/-- Names have no blanks around them. -/
theorem trim_of_isRuleName (h : Token.isRuleName name) : trim name = name :=
  trim_eq_self fun c hc => isBlank_of_isNameChar (Token.isNameChar_of_isRuleName h c hc)

/-- The name of a rule ends in a character that is neither blank nor a colon. -/
theorem exists_concat_of_isRuleName (h : Token.isRuleName name) :
    ∃ front c, name = front ++ [c] ∧ isBlank c = false ∧ c ≠ ':' := by
  obtain ⟨front, c, rfl⟩ :=
    (List.eq_nil_or_concat' name).resolve_left (Token.ne_nil_of_isRuleName h)
  have hc := Token.isNameChar_of_isRuleName h c (by simp)
  refine ⟨front, c, rfl, isBlank_of_isNameChar hc, ?_⟩
  rintro rfl
  simpa using toNat_of_isNameChar hc

/-- A header is read as it is written. -/
theorem read_header (hname : Token.isRuleName name) :
    Line.read (Forest.line 0 name true) = .ok (.header name) := by
  have hline : Forest.line 0 name true = name ++ [':'] := by simp [Forest.line]
  rw [hline, Line.read, trimEnd_concat rfl]
  obtain ⟨c, rest, rfl⟩ := List.exists_cons_of_ne_nil (Token.ne_nil_of_isRuleName hname)
  have hc := toNat_of_isNameChar (Token.isNameChar_of_isRuleName hname c List.mem_cons_self)
  have hdrop : (c :: rest ++ [':']).dropWhile (· = ' ') = c :: rest ++ [':'] :=
    List.dropWhile_cons_of_neg (by rw [decide_eq_true_eq]; rintro rfl; simp at hc)
  simp only [hdrop, Nat.sub_self]
  split
  · contradiction
  · next hmark => cases hmark; simp at hc
  · next htab => cases htab; simp at hc
  · rw [dropEnding?_concat]
    simp [trim_of_isRuleName hname]

/-- An item as it is written says its name and whether it is open. -/
theorem ofItem_of_isRuleName (hname : Token.isRuleName name) (opened : Bool) :
    Level.ofItem (name ++ if opened then [':'] else []) = ⟨name, opened⟩ := by
  have hchars := Token.isNameChar_of_isRuleName hname
  have htrim : trim (name ++ if opened then [':'] else []) =
      name ++ if opened then [':'] else [] := by
    refine trim_eq_self fun c hc => ?_
    rcases List.mem_append.1 hc with hc | hc
    · exact isBlank_of_isNameChar (hchars c hc)
    · cases opened <;> simp at hc
      subst hc
      rfl
  rw [Level.ofItem, htrim]
  cases opened with
  | true => simp [dropEnding?_concat, trim_of_isRuleName hname]
  | false =>
    rw [show (if false then [':'] else [] : Text) = [] from rfl, List.append_nil]
    obtain ⟨front, c, rfl, -, hc⟩ := exists_concat_of_isRuleName hname
    simp [dropEnding?_concat, hc]

/-- An item is read as it is written, with its depth. -/
theorem read_item (hname : Token.isRuleName name) (opened : Bool) (hd : 1 ≤ d) :
    Line.read (Forest.line d name opened) = .ok (.item d ⟨name, opened⟩) := by
  have hline : Forest.line d name opened =
      List.replicate (2 * d) ' ' ++ '-' :: ' ' :: (name ++ if opened then [':'] else []) := by
    simp [Forest.line, Nat.one_le_iff_ne_zero.1 hd]
  have htrim : trimEnd (' ' :: (name ++ if opened then [':'] else [])) =
      ' ' :: (name ++ if opened then [':'] else []) := by
    cases opened with
    | true => exact (trimEnd_concat rfl : trimEnd ((' ' :: name) ++ [':']) = _)
    | false =>
      obtain ⟨front, c, rfl, hc, -⟩ := exists_concat_of_isRuleName hname
      simpa using (trimEnd_concat hc : trimEnd ((' ' :: front) ++ [c]) = _)
  rw [hline, Line.read, trimEnd_append_cons rfl, htrim, dropWhile_replicate_append (by decide)]
  have hdepth : 2 * d ≠ 0 := by omega
  simp [List.isPrefixOf?, hdepth, ofItem_of_isRuleName hname]

/-! ## Reading what is written -/

/-- The names at depth `d` can be written below `above`, the levels being those in hand. -/
def IsBelow (levels : List Level) (d : Nat) : Option Text → Prop
  | none => d = 0
  | some name => 1 ≤ d ∧ levels[d - 1]? = some ⟨name, true⟩

/-- A line is at most as deep as there are levels above it. -/
theorem IsBelow.le_length (h : IsBelow levels d above) : d ≤ levels.length := by
  cases above with
  | none => exact h ▸ Nat.zero_le _
  | some name =>
    have := (List.getElem?_eq_some_iff.1 h.2).1
    have := h.1
    omega

/-- Levels that are deeper than a line do not matter for what is above it. -/
theorem IsBelow.of_take_eq {levels' : List Level} (h : IsBelow levels d above)
    (htake : levels'.take d = levels.take d) : IsBelow levels' d above := by
  cases above with
  | none => exact h
  | some name =>
    refine ⟨h.1, ?_⟩
    have hd := h.1
    rw [← List.getElem?_take_of_lt (show d - 1 < d by omega), htake,
      List.getElem?_take_of_lt (by omega), h.2]

/-- One line that is written adds its level and its pair. -/
theorem outline_line_cons (hname : Token.isRuleName name) (h : IsBelow levels d above)
    (below : Forest) (rest : List Text) :
    outline levels (Forest.line d name (Forest.isOpen d below) :: rest) =
      (outline (levels.take d ++ [⟨name, Forest.isOpen d below⟩]) rest).map
        ((above.map (·, name)).toList ++ ·) := by
  rw [outline]
  cases above with
  | none =>
    obtain rfl : d = 0 := h
    rw [show Forest.isOpen 0 below = true from rfl, read_header hname]
    simp
  | some parent =>
    have hparent : parentOf levels d ⟨name, Forest.isOpen d below⟩ = .ok ⟨parent, true⟩ :=
      parentOf_eq_ok_iff.2 ⟨h.2, rfl, Token.ne_nil_of_isRuleName hname⟩
    rw [read_item hname _ h.1]
    simp [hparent]

/-- A forest that is written is read as its pairs, and the levels above it are still in hand. -/
theorem outline_lines_append (f : Forest) (hf : f.Named) (h : f ≠ .nil → IsBelow levels d above)
    (rest : List Text) :
    ∃ levels' : List Level, levels'.take d = levels.take d ∧
      outline levels (f.lines d ++ rest) = (outline levels' rest).map (f.pairs above ++ ·) := by
  induction f generalizing levels d above rest with
  | nil => exact ⟨levels, rfl, by simp [Forest.lines, Forest.pairs]⟩
  | node name below next ihbelow ihnext =>
    obtain ⟨hname, hbelow, hnext⟩ := hf
    have habove := h (by simp)
    have hlength : (levels.take d).length = d := by simp [habove.le_length]
    -- the name is the level that the names below it are put under
    have hunder : below ≠ .nil → IsBelow (levels.take d ++ [⟨name, Forest.isOpen d below⟩]) (d + 1)
        (some name) := by
      refine fun hne => ⟨by omega, ?_⟩
      rw [Nat.add_sub_cancel, List.getElem?_append_right (by omega), hlength]
      simp [Forest.isOpen, hne]
    obtain ⟨inner, hinner, hlines⟩ := ihbelow hbelow hunder (next.lines d ++ rest)
    have htake : inner.take d = levels.take d := by
      have := congrArg (List.take d) hinner
      rw [List.take_take, List.take_take, Nat.min_eq_left (Nat.le_succ d)] at this
      rw [this, List.take_left' hlength]
    obtain ⟨outer, houter, hrest⟩ := ihnext hnext (fun _ => habove.of_take_eq htake) rest
    refine ⟨outer, houter.trans htake, ?_⟩
    rw [Forest.lines, List.cons_append, List.append_assoc, outline_line_cons hname habove, hlines,
      hrest, Option.map_map, Option.map_map]
    simp [Forest.pairs, Function.comp_def]

/-- The pairs of a forest are read from its lines. -/
theorem outline_lines (f : Forest) (hf : f.Named) :
    outline [] (f.lines 0) = some (f.pairs none) := by
  have hmargin : IsBelow [] 0 none := rfl
  obtain ⟨levels, -, hread⟩ := outline_lines_append f hf (fun _ => hmargin) []
  simpa [outline] using hread

/-! ## Texts -/

/-- A line has no line feed in it. -/
theorem newline_notMem_line (hname : Token.isRuleName name) : '\n' ∉ Forest.line d name opened := by
  have hnotMem : '\n' ∉ name := fun h => by
    simpa using toNat_of_isNameChar (Token.isNameChar_of_isRuleName hname _ h)
  simp only [Forest.line, List.mem_append, List.mem_replicate, not_or]
  refine ⟨by simp, ?_, hnotMem, ?_⟩
  · split <;> simp
  · split <;> simp

/-- None of the lines of a forest has a line feed in it. -/
theorem newline_notMem_lines {f : Forest} (hf : f.Named) : ∀ raw ∈ f.lines d, '\n' ∉ raw := by
  induction f generalizing d with
  | nil => simp [Forest.lines]
  | node name below next ihbelow ihnext =>
    obtain ⟨hname, hbelow, hnext⟩ := hf
    rintro raw (_ | ⟨_, hraw⟩)
    · exact newline_notMem_line hname
    · rcases List.mem_append.1 hraw with hraw | hraw
      · exact ihbelow hbelow raw hraw
      · exact ihnext hnext raw hraw

/-- Blank lines and comments have no line feed in them. -/
theorem newline_notMem_padded (h : Padded lines padded) (hlines : ∀ raw ∈ lines, '\n' ∉ raw) :
    ∀ raw ∈ padded, '\n' ∉ raw := by
  induction h with
  | nil => exact hlines
  | line hbehind _ ih =>
    rw [List.forall_mem_cons] at hlines ⊢
    refine ⟨?_, ih hlines.2⟩
    rw [List.mem_append, not_or]
    exact ⟨hlines.1, fun hc => (hbehind _ hc).2 rfl⟩
  | blank hraw _ ih =>
    rw [List.forall_mem_cons]
    exact ⟨fun hc => (hraw _ hc).2 rfl, ih hlines⟩
  | comment hrest _ ih =>
    rw [List.forall_mem_cons]
    exact ⟨by simpa using hrest, ih hlines⟩

/-- The lines of a text are those it has been put together from. There is one even if there are none
to put together, but it is blank. -/
theorem outline_fields (h : ∀ raw ∈ lines, '\n' ∉ raw) :
    outline [] (fields '\n' (['\n'].intercalate lines)) = outline [] lines := by
  by_cases hnil : lines = []
  · subst hnil
    rfl
  · rw [fields_intercalate h hnil]

/-- A wiring text is accepted if all its lines are in order, and has the edges of its lines then. -/
theorem readWiring_eq_ok_iff {source : Text} {edges : List Edge} :
    Grammar.readWiring source = .ok edges ↔
      AllInOrder [] (fields '\n' source) ∧ edges = edgesFrom [] (fields '\n' source) := by
  have hsource := describes_parse source
  unfold Grammar.readWiring
  cases hparse : parse source with
  | ok found =>
    rw [hparse] at hsource
    obtain ⟨horder, rfl⟩ := hsource
    simp only [Except.ok.injEq, horder, true_and]
    exact eq_comm
  | error fault =>
    rw [hparse] at hsource
    obtain ⟨before, raw, after, hlines, -, hfault, -⟩ := hsource
    simp only [reduceCtorEq, false_iff, not_and]
    exact fun horder => absurd (horder before raw after hlines) hfault

/-- If a wiring text is not accepted, its first line that is not in order is reported. -/
theorem firstFault_of_readWiring {source : Text} {error : GrammarError}
    (h : Grammar.readWiring source = .error error) :
    ∃ fault, error = .malformedWiring fault ∧ FirstFault [] (fields '\n' source) fault.line := by
  have hsource := describes_parse source
  unfold Grammar.readWiring at h
  cases hparse : parse source with
  | ok found => simp [hparse] at h
  | error fault =>
    rw [hparse] at hsource
    simp only [hparse, Except.error.injEq] at h
    exact ⟨fault, h.symm, hsource⟩

/-- What is read of an outline when lines are not counted are the names of its edges. -/
theorem exists_edges_of_outline {source : Text} {found : List (Text × Text)}
    (h : outline [] (fields '\n' source) = some found) :
    ∃ edges, Grammar.readWiring source = .ok edges ∧ edges.map Edge.pair = found := by
  rw [outline_eq 1] at h
  unfold Grammar.readWiring parse
  cases hparse : parseLines 1 [] (fields '\n' source) with
  | ok edges =>
    rw [hparse] at h
    exact ⟨edges, rfl, by simpa [Except.toOption] using h⟩
  | error fault =>
    rw [hparse] at h
    simp [Except.toOption] at h

/-- A wiring text is accepted if all its lines are in order, each given those above it, and has the
edges of its lines then. If it is not accepted, its first line that is not in order is reported. In
particular, a forest of names of rules that is written as an outline is read as its pairs, whatever
blanks, blank lines and comments are put in. -/
theorem outline_of_readWiring :
    (∀ source edges, Grammar.readWiring source = .ok edges ↔
      AllInOrder [] (fields '\n' source) ∧ edges = edgesFrom [] (fields '\n' source)) ∧
    (∀ source error, Grammar.readWiring source = .error error →
      ∃ fault, error = .malformedWiring fault ∧ FirstFault [] (fields '\n' source) fault.line) ∧
    ∀ (f : Forest) (padded : List Text), f.Named → Padded (f.lines 0) padded →
      ∃ edges, Grammar.readWiring (['\n'].intercalate padded) = .ok edges ∧
        edges.map Edge.pair = f.pairs none := by
  refine ⟨fun _ _ => readWiring_eq_ok_iff, fun _ _ => firstFault_of_readWiring,
    fun f padded hf hpadded => exists_edges_of_outline ?_⟩
  calc outline [] (fields '\n' (['\n'].intercalate padded))
      = outline [] padded :=
        outline_fields (newline_notMem_padded hpadded (newline_notMem_lines hf))
    _ = outline [] (f.lines 0) := outline_padded hpadded []
    _ = some (f.pairs none) := outline_lines f hf

/-- A root with two names below it, the first of which has one below it. -/
def sprout : Forest :=
  .node "root".toList
    (.node "a".toList (.node "b".toList .nil .nil) (.node "c".toList .nil .nil)) .nil

/-- The forest has names that rules may have. -/
theorem named_sprout : sprout.Named :=
  ⟨rfl, ⟨rfl, ⟨rfl, trivial, trivial⟩, rfl, trivial, trivial⟩, trivial⟩

/-- A comment stands in front, a line ends in a blank, and a blank line stands in between. -/
theorem padded_sprout : Padded (sprout.lines 0)
    ["# names".toList, "root:".toList, "  - a: ".toList, [], "    - b".toList, "  - c".toList] := by
  have hnone : ∀ c ∈ ([] : Text), isBlank c ∧ c ≠ '\n' := by simp
  have hspace : ∀ c ∈ [' '], isBlank c ∧ c ≠ '\n' := by simp; rfl
  exact .comment (n := 0) (by decide) (.line hnone (.line hspace (.blank hnone (.line hnone
    (.line hnone .nil)))))

/-- The sprout is read in spite of what is put in. An item below one that does not end in a colon is
reported. -/
theorem outline_of_readWiring_sprout :
    (∃ edges, Grammar.readWiring "# names\nroot:\n  - a: \n\n    - b\n  - c".toList = .ok edges ∧
      edges.map Edge.pair = sprout.pairs none) ∧
    FirstFault [] (fields '\n' "root:\n  - a\n    - b".toList) 3 := by
  refine ⟨outline_of_readWiring.2.2 sprout _ named_sprout padded_sprout, ?_⟩
  obtain ⟨fault, hfault, hfirst⟩ := outline_of_readWiring.2.1 "root:\n  - a\n    - b".toList
    (.malformedWiring ⟨3, .closedParent⟩) rfl
  cases hfault
  exact hfirst

end Cascade.Wiring
