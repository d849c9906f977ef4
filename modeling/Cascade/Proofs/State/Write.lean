import Cascade.Proofs.State.Entries

/-!
# States and what has been written to them

A state is made from the empty one by writes: values that are put, and sums that are counted up from
the latest value. Each write appends one entry, so a state stands for the list of the entries that
its writes have appended. All that is read from it is read from that list, and two states are equal
exactly if their lists are.

* `Write`, `ofWrites`: the ways to append, and the state that writes make.
* `appended`: the list of all entries that writes append, told without states.
* `Reads`: what is read from a state is what a list of entries says.
* `Refines.reads`, `Refines.equals_iff`: so it is with a state that keeps the entries of a list.
* `reads_ofWrites`: reading and comparing states is reading and comparing lists.
-/

namespace Cascade

/-- What an object of arrays lists: each of its keys with each item of the array of that key. -/
def Json.listed : Json → List (Text × Json)
  | .object members => members.flatMap fun (key, value) =>
    match value with
    | .array items => items.map (key, ·)
    | _ => []
  | _ => []

namespace State

variable {s : State} {key : Text} {entries entries' : List (Text × Json)}

/-! ## What is read -/

/-- What is read from a state is what a list of entries says. -/
structure Reads (s : State) (entries : List (Text × Json)) : Prop where
  /-- No key is in the index twice. -/
  nodup_index : (s.index.map Prod.fst).Nodup
  /-- A key that occurs has its positions in the index, all of them, in ascending order. -/
  positions : ∀ key ∈ entries.map Prod.fst, ∃ positions, s.positions? key = some positions ∧
    positions.toList.Pairwise (· < ·) ∧
      ∀ i, i ∈ positions ↔ ∃ value, entries[i]? = some (key, value)
  /-- A key that does not occur is not in the index. -/
  no_positions : ∀ key, key ∉ entries.map Prod.fst → s.positions? key = none
  get? : ∀ key, s.get? key = (valuesOf key entries).getLast?
  getAll : ∀ key, s.getAll key = valuesOf key entries
  contains_iff : ∀ key, s.contains key ↔ key ∈ entries.map Prod.fst
  keys : s.keys = keysOf entries
  toList : s.toList = entries
  size : s.size = entries.length
  /-- The serialised form has each key once, in the order of the keys, with all its values. -/
  toJson : s.keys.Nodup ∧
    s.toJson = .object (s.keys.map fun key => (key, .array (valuesOf key entries)))
  /-- The serialised form has each entry as often as the list. -/
  listed : s.toJson.listed.Perm entries

/-- What the serialised form lists are the entries, gathered key by key. -/
theorem listed_object (keys : List Text) (entries : List (Text × Json)) :
    (Json.object (keys.map fun key => (key, .array (valuesOf key entries)))).listed =
      keys.flatMap fun key => entries.filter (·.1 = key) := by
  rw [Json.listed, List.flatMap_map]
  refine List.flatMap_congr fun key _ => ?_
  -- a pair with the key in place of its own is the entry itself, as its key is this one
  calc (valuesOf key entries).map (key, ·)
      = (entries.filter (·.1 = key)).map ((key, ·) ∘ Prod.snd) := by rw [valuesOf, List.map_map]
    _ = (entries.filter (·.1 = key)).map id := by
        refine List.map_congr_left fun entry hentry => ?_
        have hkey : entry.1 = key := by simpa using (List.mem_filter.1 hentry).2
        rw [← hkey]
        rfl
    _ = entries.filter (·.1 = key) := List.map_id _

theorem Refines.reads (h : Refines s entries) : Reads s entries where
  nodup_index := by
    rw [h.index]
    exact nodup_keysOf entries
  positions key hkey := by
    refine ⟨_, (h.positions key).trans (if_pos (mem_keysOf.2 hkey)), List.pairwise_findIdxs, ?_⟩
    intro i
    rw [← mem_positionsOf, List.mem_toArray]
  no_positions key hkey := (h.positions key).trans (if_neg (mem_keysOf.not.2 hkey))
  get? := h.get?
  getAll := h.getAll
  contains_iff key := (h.contains_iff key).trans mem_keysOf
  keys := h.keys
  toList := h.toList
  size := h.size
  toJson := by
    rw [h.keys]
    exact ⟨nodup_keysOf entries, h.toJson⟩
  listed := by
    rw [h.toJson, listed_object]
    have hall : entries.filter (·.1 ∈ keysOf entries) = entries := by
      rw [List.filter_eq_self]
      intro entry hentry
      simpa using mem_keysOf.2 (List.mem_map_of_mem hentry)
    have hperm := flatMap_filter_perm (nodup_keysOf entries) entries
    rwa [hall] at hperm

/-! ## Equality -/

/-- An index without a key twice has under a key what it says it has. -/
theorem lookup_eq_of_mem {index : List (Text × Array Nat)} (h : (index.map Prod.fst).Nodup)
    {positions : Array Nat} (hmem : (key, positions) ∈ index) :
    index.lookup key = some positions := by
  obtain ⟨front, behind, rfl⟩ := List.append_of_mem hmem
  refine List.lookup_eq_some_iff.2 ⟨front, behind, rfl, fun entry hentry => ?_⟩
  rw [List.map_append, List.map_cons, List.nodup_append] at h
  rw [bne_iff_ne]
  exact (h.2.2 entry.1 (List.mem_map_of_mem hentry) key List.mem_cons_self).symm

/-- The keys of the entries alone determine the index. -/
theorem sameIndex_of_keys {s' : State} (h : Refines s entries) (h' : Refines s' entries')
    (hkeys : entries.map Prod.fst = entries'.map Prod.fst) : sameIndex s.index s'.index := by
  -- neither the distinct keys nor their positions depend on the values
  have hkeysOf : keysOf entries = keysOf entries' := by rw [keysOf, keysOf, hkeys]
  have hpositions (key : Text) : s.positions? key = s'.positions? key := by
    rw [h.positions, h'.positions, hkeysOf, positionsOf, positionsOf, hkeys]
  have hlength : s.index.length = s'.index.length := by
    rw [← List.length_map Prod.fst, h.index, hkeysOf, ← h'.index, List.length_map]
  rw [sameIndex, Bool.and_eq_true, decide_eq_true_iff, List.all_eq_true]
  refine ⟨hlength, fun place hmem => decide_eq_true ?_⟩
  have hlookup := lookup_eq_of_mem (h.index ▸ nodup_keysOf entries) hmem
  exact (hpositions place.1).symm.trans hlookup

theorem isEqv_iff_forall₂ {α : Type} {same : α → α → Bool} {xs ys : List α} :
    xs.isEqv ys same ↔ List.Forall₂ (fun x y => same x y) xs ys := by
  induction xs generalizing ys with
  | nil => cases ys <;> simp [List.isEqv]
  | cons x xs ih => cases ys <;> simp [List.isEqv, ih]

/-- Two states are equal exactly if their entries are, one by one. -/
theorem Refines.equals_iff {s' : State} (h : Refines s entries) (h' : Refines s' entries')
    (sameValue : Json → Json → Bool) :
    s.equals sameValue s' ↔
      List.Forall₂ (fun entry entry' => entry.1 = entry'.1 ∧ sameValue entry.2 entry'.2)
        entries entries' := by
  have hentries : s.entries.toList = entries := h.toList
  have hentries' : s'.entries.toList = entries' := h'.toList
  rw [equals, ← Array.isEqv_toList, hentries, hentries', Bool.and_eq_true, isEqv_iff_forall₂]
  simp only [Bool.and_eq_true, decide_eq_true_iff]
  constructor
  · exact And.left
  · intro hsame
    have hkeys : List.Forall₂ (fun entry entry' => entry.1 = entry'.1) entries entries' :=
      hsame.imp fun _ _ => And.left
    rw [← List.forall₂_map_right_iff, ← List.forall₂_map_left_iff, List.forall₂_eq_eq_eq] at hkeys
    exact ⟨hsame, sameIndex_of_keys h h' hkeys⟩

/-! ## Writes -/

/-- One of the ways to append to a state. -/
inductive Write where
  /-- A value is put into a state. -/
  | put (key : Text) (value : Json)
  /-- A state is handed on with one more value. -/
  | seed (key : Text) (value : Json)
  /-- A sum is counted up from the latest integer. -/
  | increment (key : Text) (delta : Int)

namespace Write

/-- A state with one more write. -/
def apply (s : State) : Write → State
  | put key value | seed key value => s.put key value
  | increment key delta => (s.increment key delta).2

/-- The entry that a write appends behind those of a list. A sum starts from the last value of its
key in the list if that is an integer that counters work with, or from zero. Sums have no bound
here; counters of 64 bits hold the same as long as they do not overflow. -/
def entry (entries : List (Text × Json)) : Write → Text × Json
  | put key value | seed key value => (key, value)
  | increment key delta =>
    let latest := (valuesOf key entries).getLast?.bind Json.counter?
    (key, .number (.integer (latest.getD 0 + delta)))

/-- A write puts the entry that it appends to the list. -/
theorem apply_eq_put (h : Refines s entries) (write : Write) :
    write.apply s = s.put (write.entry entries).1 (write.entry entries).2 := by
  cases write with
  | put key value => rfl
  | seed key value => rfl
  | increment key delta => simp only [apply, entry, State.increment, counter?, h.get?]

end Write

/-- The state that writes make, one after the other. -/
def ofWrites (writes : List Write) : State :=
  writes.foldl Write.apply empty

/-- All entries that writes append, one after the other. -/
def appended (writes : List Write) : List (Text × Json) :=
  writes.foldl (fun entries write => entries ++ [write.entry entries]) []

theorem ofWrites_eq (writes : List Write) : ofWrites writes = empty.putAll (appended writes) := by
  induction writes using List.reverseRecOn with
  | nil => rfl
  | append_singleton writes write ih =>
    -- what the last write appends is read from the state, and so from the list so far
    have happended : appended (writes ++ [write]) =
        appended writes ++ [write.entry (appended writes)] := by
      rw [appended, List.foldl_append]
      rfl
    have hlast : ofWrites (writes ++ [write]) = write.apply (ofWrites writes) := by
      rw [ofWrites, List.foldl_append]
      rfl
    rw [hlast, ih, Write.apply_eq_put (refines_putAll _), happended, putAll_append]
    rfl

/-- A state that is written to has the entries that were appended. -/
theorem refines_ofWrites (writes : List Write) : Refines (ofWrites writes) (appended writes) := by
  rw [ofWrites_eq]
  exact refines_putAll _

/-- Whatever has been written, all that is read from a state is what the list of all appended
entries says. Two states are equal exactly if their lists are, however values are compared. -/
theorem reads_ofWrites :
    (∀ writes, Reads (ofWrites writes) (appended writes)) ∧
      ∀ writes writes',
        (ofWrites writes = ofWrites writes' ↔ appended writes = appended writes') ∧
        ∀ sameValue : Json → Json → Bool,
          (ofWrites writes).equals sameValue (ofWrites writes') ↔
            List.Forall₂ (fun entry entry' => entry.1 = entry'.1 ∧ sameValue entry.2 entry'.2)
              (appended writes) (appended writes') := by
  refine ⟨fun writes => (refines_ofWrites writes).reads, fun writes writes' => ⟨⟨?_, ?_⟩, ?_⟩⟩
  · intro h
    rw [← (refines_ofWrites writes).toList, h, (refines_ofWrites writes').toList]
  · intro h
    rw [ofWrites_eq, ofWrites_eq, h]
  · exact (refines_ofWrites writes).equals_iff (refines_ofWrites writes')

example : (ofWrites [.seed ['a'] .null, .put ['b'] .null, .increment ['a'] 2]).toJson =
    .object [(['a'], .array [.null, .number (.integer 2)]), (['b'], .array [.null])] := rfl

end State

end Cascade
