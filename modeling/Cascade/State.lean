import Cascade.Json.Basic

/-!
# States

A state is an append-only store of JSON values under keys: a new value never replaces an old one,
and the latest value of a key is the one that counts. Beside the entries in order of insertion, a
state keeps the positions of each key, so that a key is looked up without a walk over the entries.

* `size_put`: each `put` appends one entry.
-/

namespace Cascade

/-- An append-only store of values under keys. -/
structure State where
  /-- All entries, oldest first. -/
  entries : Array (Text × Json)
  /-- The distinct keys, each with the positions of its entries, the oldest first. -/
  index : List (Text × Array Nat)
  deriving DecidableEq, Repr

namespace State

/-- The state without entries. -/
def empty : State :=
  ⟨#[], []⟩

instance : Inhabited State := ⟨empty⟩

instance : EmptyCollection State := ⟨empty⟩

/-- The index with one more position for a key. -/
def addPosition (key : Text) (position : Nat) : List (Text × Array Nat) → List (Text × Array Nat)
  | [] => [(key, #[position])]
  | (k, positions) :: rest =>
    if k = key then (k, positions.push position) :: rest
    else (k, positions) :: addPosition key position rest

/-- Appends a value for a key. -/
def put (s : State) (key : Text) (value : Json) : State :=
  { entries := s.entries.push (key, value)
    index := addPosition key s.entries.size s.index }

/-- The positions of the entries of a key, oldest first. -/
def positions? (s : State) (key : Text) : Option (Array Nat) :=
  s.index.lookup key

/-- The latest value of a key. -/
def get? (s : State) (key : Text) : Option Json := do
  let position ← (← s.positions? key).back?
  let (_, value) ← s.entries[position]?
  return value

/-- All values of a key, oldest first. -/
def getAll (s : State) (key : Text) : List Json :=
  ((s.positions? key).getD #[]).toList.filterMap fun position =>
    s.entries[position]?.map Prod.snd

/-- The latest value of a key, if it is a string. -/
def text? (s : State) (key : Text) : Option Text :=
  (s.get? key).bind Json.text?

/-- The latest value of a key, if it is an integer that counters work with. -/
def counter? (s : State) (key : Text) : Option Int :=
  (s.get? key).bind Json.counter?

/-- The latest value of a key, if it is a boolean. -/
def bool? (s : State) (key : Text) : Option Bool :=
  (s.get? key).bind Json.bool?

/-- Adds to the latest integer of a key, or to zero if there is none, and appends the sum. -/
def increment (s : State) (key : Text) (delta : Int) : Int × State :=
  let sum := (s.counter? key).getD 0 + delta
  (sum, s.put key (.number (.integer sum)))

/-- Whether a key has a value. -/
def contains (s : State) (key : Text) : Bool :=
  (s.positions? key).isSome

/-- The distinct keys in order of first insertion: those of the entries that are the first ones of
their keys. -/
def keys (s : State) : List Text :=
  (s.entries.toList.zipIdx.filter fun ((key, _), position) =>
    (s.positions? key).bind (·[0]?) = some position).map fun ((key, _), _) => key

/-- All entries, oldest first. -/
def toList (s : State) : List (Text × Json) :=
  s.entries.toList

/-- How many values have been put. -/
def size (s : State) : Nat :=
  s.entries.size

/-- Whether a key is set as a flag: its latest value is neither null nor false. -/
def isSet (s : State) (key : Text) : Bool :=
  match s.get? key with
  | none | some .null | some (.bool false) => false
  | some _ => true

/-- The key of the flag that keeps one rule from matching. -/
def skipKey (rule : Text) : Text :=
  "skip:".toList ++ rule

/-- The key of the flag that keeps all rules from matching. -/
def skipAllKey : Text :=
  skipKey ['*']

/-- Whether the flags keep a rule from matching. -/
def skips (s : State) (rule : Text) : Bool :=
  s.isSet skipAllKey || s.isSet (skipKey rule)

/-- Whether two indexes have the same keys, in whatever order, each with the same positions. -/
def sameIndex (index index' : List (Text × Array Nat)) : Bool :=
  index.length = index'.length &&
    index.all fun (key, positions) => index'.lookup key = some positions

/-- Whether two states are equal, given which values are: the same entries in the same order, and
the same index. -/
def equals (sameValue : Json → Json → Bool) (s s' : State) : Bool :=
  (s.entries.isEqv s'.entries fun (key, value) (key', value') =>
    key = key' && sameValue value value') && sameIndex s.index s'.index

/-- The serialised form: each key once, with all its values. -/
def toJson (s : State) : Json :=
  .object (s.keys.map fun key => (key, .array (s.getAll key)))

/-- Each `put` appends one entry. -/
theorem toList_put (s : State) (key : Text) (value : Json) :
    (s.put key value).toList = s.toList ++ [(key, value)] := by
  simp [put, toList]

/-- Each `put` makes a state larger by one. -/
theorem size_put (s : State) (key : Text) (value : Json) : (s.put key value).size = s.size + 1 := by
  simp [put, size]

end State

end Cascade
