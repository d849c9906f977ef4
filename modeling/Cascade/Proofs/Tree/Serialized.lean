import Cascade.Proofs.Token.Display
import Cascade.Proofs.Tree.Preorder
import Cascade.Tree.Serialized

/-!
# Reading the serialised form of a tree

The serialised form of a node says in its members what the node is, and has the serialised forms of
its children in another one. Whoever reads a serialised tree and goes on with what is nested there
meets the nodes in preorder.

* `Json.nested`, `Json.preorder`: the values that are nested in a value, and all that are met in it.
* `Json.Shows`, `Node.shows_toJson`: what a value says of a node.
* `Linked.nodeJson_eq`: the serialised form of a node is not cut off at any depth.
* `Linked.preorder_nodeJson`: what is met in a serialised node.
* `Minted.nodeJson_inj`: nodes are told apart by their serialised forms.
-/

namespace Cascade

namespace Json

variable {j c : Json} {key : Text}

/-- The value of a member of an object. -/
def member? (key : Text) : Json → Option Json
  | .object members => members.lookup key
  | _ => none

/-- The values that are listed in the member for the children of a node. -/
def nested (j : Json) : List Json :=
  match j.member? "children".toList with
  | some (.array items) => items
  | _ => []

theorem mem_of_lookup {members : List (Text × Json)} (h : members.lookup key = some c) :
    (key, c) ∈ members := by
  induction members with
  | nil => contradiction
  | cons m members ih =>
    rw [List.lookup_cons] at h
    split at h
    · next hkey =>
      rw [eq_of_beq hkey, ← Option.some.inj h]
      exact List.mem_cons_self
    · exact List.mem_cons_of_mem _ (ih h)

theorem sizeOf_lt_of_member? (h : j.member? key = some c) : sizeOf c < sizeOf j := by
  cases j with
  | object members =>
    have hlt := List.sizeOf_lt_of_mem (mem_of_lookup h)
    simp only [Prod.mk.sizeOf_spec] at hlt
    simp only [object.sizeOf_spec]
    omega
  | null | bool | number | string | array => contradiction

/-- What is nested in a value is smaller than the value. -/
theorem sizeOf_lt_of_mem_nested (h : c ∈ j.nested) : sizeOf c < sizeOf j := by
  rw [nested] at h
  split at h
  · next items hitems =>
    have hlt := sizeOf_lt_of_member? hitems
    have hc := List.sizeOf_lt_of_mem h
    simp only [array.sizeOf_spec] at hlt
    omega
  · contradiction

/-- A value and all that are nested in it, a value before what is nested in it. -/
def preorder (j : Json) : List Json :=
  j :: j.nested.attach.flatMap fun ⟨c, _⟩ => c.preorder
termination_by sizeOf j
decreasing_by exact sizeOf_lt_of_mem_nested ‹_›

/-- A value comes before all that is nested in it. -/
theorem preorder_eq (j : Json) : j.preorder = j :: j.nested.flatMap preorder := by
  rw [preorder]
  simp

end Json

/-! ## What is said of a node -/

/-- A value says what a node is. Tokens are shown in readable form, in the texts of the node as well
as its own. -/
structure Json.Shows (j : Json) (n : Node) : Prop where
  rule : j.member? "rule".toList = some (.string n.rule.name)
  span : j.member? "span".toList = some (.array [.ofNat n.span.start, .ofNat n.span.stop])
  token : j.member? "token".toList = some (.ofOption .ofMasked n.token?)
  matched : j.member? "original_text".toList = some (.ofMasked n.matched)
  modified : j.member? "modified_text".toList = some (.ofMasked n.modified)
  working : j.member? "working_text".toList = some (.ofMasked n.working)
  /-- The texts of all groups are listed, and null for a group that took no part. -/
  captures : (j.member? "captures".toList).bind (Json.member? "groups".toList) =
    n.captures?.map fun captures =>
      .array (captures.groups.map (.ofOption fun group => .string group.text))
  localState : j.member? "local_state".toList = some n.localState.toJson

/-- The serialised form of a node says what the node is. -/
theorem Node.shows_toJson (n : Node) (children : List Json) : (n.toJson children).Shows n where
  rule := rfl
  span := rfl
  token := rfl
  matched := rfl
  modified := rfl
  working := rfl
  captures := by
    change (some (Json.ofOption Captures.toJson n.captures?)).bind _ = _
    cases n.captures? <;> rfl
  localState := rfl

/-- The serialised forms of the children of a node are nested in its own. -/
theorem Node.nested_toJson (n : Node) (children : List Json) :
    (n.toJson children).nested = children := rfl

namespace Json.Shows

variable {j : Json} {n n' : Node} {token : Text}

/-- A value says to which rule a node belongs. -/
theorem rule_name_eq (h : j.Shows n) (h' : j.Shows n') : n.rule.name = n'.rule.name := by
  simpa using h.rule.symm.trans h'.rule

/-- A value says which token a node has, in readable form. -/
theorem token?_eq (h : j.Shows n) (h' : j.Shows n') :
    n.token?.map Token.display = n'.token?.map Token.display := by
  have heq : Json.ofOption .ofMasked n.token? = Json.ofOption .ofMasked n'.token? :=
    Option.some.inj (h.token.symm.trans h'.token)
  revert heq
  cases n.token? <;> cases n'.token? <;> simp [Json.ofOption, Json.ofMasked]

end Json.Shows

namespace Tree

variable {t : Tree} {n : NodeId}

/-- Where there is no node, the empty one is serialised. -/
theorem nodeJsonTo_of_size_le (hn : t.size ≤ n) (depth : Nat) :
    t.nodeJsonTo depth n = (default : Node).toJson [] := by
  have hnone : t.node n = default := node_of_size_le hn
  cases depth with
  | zero => rw [nodeJsonTo, hnone]
  | succ depth =>
    rw [nodeJsonTo, hnone]
    rfl

namespace Linked

variable (h : t.Linked)

include h

/-- Below a node, all levels are shown that there can be. -/
theorem nodeJsonTo_eq {depth depth' : Nat} (hdepth : t.size ≤ n + depth)
    (hdepth' : t.size ≤ n + depth') : t.nodeJsonTo depth n = t.nodeJsonTo depth' n := by
  induction depth generalizing depth' n with
  | zero =>
    have hn : t.size ≤ n := hdepth
    rw [nodeJsonTo_of_size_le hn, nodeJsonTo_of_size_le hn]
  | succ depth ih =>
    cases depth' with
    | zero =>
      have hn : t.size ≤ n := hdepth'
      rw [nodeJsonTo_of_size_le hn, nodeJsonTo_of_size_le hn]
    | succ depth' =>
      -- from a node to its children, the numbers go up, so that fewer levels are needed
      have hlevel {depth : Nat} (hdepth : t.size ≤ n + (depth + 1)) {i : NodeId}
          (hi : i ∈ (t.node n).children) : t.size ≤ i + depth := by
        have hni : n + 1 ≤ i := h.parent_lt (h.mem_children.1 hi)
        rw [Nat.add_comm depth, ← Nat.add_assoc] at hdepth
        exact hdepth.trans (Nat.add_le_add_right hni depth)
      rw [nodeJsonTo, nodeJsonTo]
      congr 1
      exact List.map_congr_left fun i hi => ih (hlevel hdepth hi) (hlevel hdepth' hi)

/-- The serialised form of a node shows those of all its children. -/
theorem nodeJson_eq (n : NodeId) :
    t.nodeJson n = (t.node n).toJson ((t.node n).children.map t.nodeJson) := by
  have hdeeper : t.nodeJson n = t.nodeJsonTo (t.size + 1) n :=
    h.nodeJsonTo_eq (Nat.le_add_left _ _) (Nat.le_add_left_of_le (Nat.le_succ _))
  rw [hdeeper]
  rfl

/-- The serialised form of a node in its tree says what the node is. -/
theorem shows_nodeJson (n : NodeId) : (t.nodeJson n).Shows (t.node n) := by
  rw [h.nodeJson_eq]
  exact Node.shows_toJson _ _

/-- What is nested in the serialised form of a node are those of its children, in their order. -/
theorem nested_nodeJson (n : NodeId) :
    (t.nodeJson n).nested = (t.node n).children.map t.nodeJson := by
  rw [h.nodeJson_eq]
  exact Node.nested_toJson _ _

/-- Read in preorder, the serialised form of a node shows those of all nodes from the node on. -/
theorem preorder_nodeJson (n : NodeId) :
    (t.nodeJson n).preorder = (t.preorder n).map t.nodeJson := by
  induction n using preorder.induct t with
  | case1 n ih =>
    simp only [h.younger_eq] at ih
    rw [Json.preorder_eq, h.nested_nodeJson, h.preorder_eq, List.map_cons, List.flatMap_map,
      List.map_flatMap]
    exact congrArg _ (List.flatMap_congr ih)

end Linked

/-! ## Telling nodes apart -/

variable {i j : NodeId}

/-- The token of a node is shown as the name of its rule and how many nodes of the rule there are up
to it, if these numbers are words. -/
theorem display_tokenOf (hname : (t.node i).rule.name ≠ []) (hi : i < Text.wordBound) :
    Token.display (t.tokenOf i) = '\x7b' :: (t.node i).rule.name ++
      '#' :: Text.decimal (t.countRule (t.node i).rule.id i) ++ ['\x7d'] := by
  have hcount : t.countRule (t.node i).rule.id i < Text.wordBound := (countRule_le _ i).trans_lt hi
  have hdecode := Token.decode_mint hname hcount hi
  have hnil : Token.display [] = [] := rfl
  simpa [tokenOf, Token.Parts.display, hnil] using Token.display_append hdecode [] []

/-- Nodes are told apart by their serialised forms, if rules are told apart by their names. The
numbers in tokens are words, so this takes that there are no more nodes than words. -/
theorem Minted.nodeJson_inj (h : t.Minted) (hlinked : t.Linked) (hsize : t.size ≤ Text.wordBound)
    (hnames : ∀ i, i ≠ root → i < t.size → (t.node i).rule.name ≠ [])
    (hrules : ∀ i j, i ≠ root → i < t.size → j ≠ root → j < t.size →
      (t.node i).rule.name = (t.node j).rule.name → (t.node i).rule.id = (t.node j).rule.id)
    (hi : i < t.size) (hj : j < t.size) (heq : t.nodeJson i = t.nodeJson j) : i = j := by
  wlog hle : i ≤ j generalizing i j
  · exact (this hj hi heq.symm (Nat.le_of_not_le hle)).symm
  by_contra hne
  have hlt : i < j := Nat.lt_of_le_of_ne hle hne
  have hj0 : j ≠ root := (Nat.zero_lt_of_lt hlt).ne'
  have hshows : (t.nodeJson i).Shows (t.node j) := heq ▸ hlinked.shows_nodeJson j
  have hname := (hlinked.shows_nodeJson i).rule_name_eq hshows
  have htoken := (hlinked.shows_nodeJson i).token?_eq hshows
  by_cases hi0 : i = root
  · -- the root has no token
    rw [hi0, h.root_bare, h.token j hj0 hj] at htoken
    contradiction
  · rw [h.token i hi0 hi, h.token j hj0 hj, Option.map_some, Option.map_some, Option.some_inj,
      display_tokenOf (hnames i hi0 hi) (hi.trans_le hsize),
      display_tokenOf (hnames j hj0 hj) (hj.trans_le hsize), hname] at htoken
    -- the same name is shown with the same count, but the later node is counted higher
    have hcount := countRule_lt hlt (hrules i j hi0 hi hj0 hj hname)
    have hsame : Text.decimal (t.countRule (t.node i).rule.id i) =
        Text.decimal (t.countRule (t.node j).rule.id j) := by simpa using htoken
    exact absurd (Text.decimal_inj hsame) hcount.ne

end Tree

end Cascade
