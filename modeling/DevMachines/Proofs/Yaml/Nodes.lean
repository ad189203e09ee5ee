import DevMachines.Proofs.Results
import DevMachines.Yaml.Node.Reader
import Mathlib.Data.List.Basic
import Mathlib.Data.List.Perm.Subperm

/-!
# The nodes of a document and their labels

Every node of a document but an alias has a label, and labels are given in the order in which nodes
begin.  So they grow along the document, no two nodes share one, and the node that an alias stands for
is the only one with that label.

Main statements: `Node.IsNumbered.find?_eq` and `isNumbered_of_readNode`.
-/

namespace DevMachines.Yaml
namespace Node

/-! ## The nodes of a tree -/

/-- The label of a node, unless it is an alias. -/
def label? : Node → Option Nat
  | .scalar label _ _ | .sequence label _ _ | .mapping label _ _ => some label
  | .alias _ => none

mutual

/-- A node and the nodes below it, in the order in which they begin. -/
def parts : Node → List Node
  | .scalar label tag text => [.scalar label tag text]
  | .sequence label tag items => .sequence label tag items :: itemParts items
  | .mapping label tag entries => .mapping label tag entries :: entryParts entries
  | .alias label => [.alias label]

/-- The nodes of items. -/
def itemParts : List Node → List Node
  | [] => []
  | n :: rest => parts n ++ itemParts rest

/-- The nodes of entries. -/
def entryParts : List (Node × Node) → List Node
  | [] => []
  | (k, v) :: rest => parts k ++ (parts v ++ entryParts rest)

end

/-- The labels of a tree, in the order in which its nodes begin. -/
def labels (n : Node) : List Nat := n.parts.filterMap label?

/-- Do labels grow along a tree? -/
def IsNumbered (n : Node) : Prop := n.labels.Pairwise (· < ·)

theorem self_mem_parts (n : Node) : n ∈ n.parts := by
  cases n <;> exact List.mem_cons_self ..

theorem itemParts_eq (items : List Node) : itemParts items = items.flatMap parts := by
  induction items with
  | nil => rfl
  | cons n items ih => rw [itemParts, ih, List.flatMap_cons]

theorem entryParts_eq (entries : List (Node × Node)) :
    entryParts entries = entries.flatMap fun e => e.1.parts ++ e.2.parts := by
  induction entries with
  | nil => rfl
  | cons e entries ih => rw [entryParts, ih, List.flatMap_cons, List.append_assoc]

theorem infix_itemParts {n : Node} {items : List Node} (h : n ∈ items) :
    n.parts <:+: itemParts items := by
  rw [itemParts_eq]
  exact List.infix_flatMap_of_mem h parts

theorem infix_entryParts {e : Node × Node} {entries : List (Node × Node)} (h : e ∈ entries) :
    e.1.parts ++ e.2.parts <:+: entryParts entries := by
  rw [entryParts_eq]
  exact List.infix_of_mem_flatten
    (List.mem_map_of_mem (f := fun e : Node × Node => e.1.parts ++ e.2.parts) h)

mutual

/-- The nodes below a node of a tree stand together in the tree. -/
theorem parts_isInfix : {n m : Node} → m ∈ n.parts → m.parts <:+: n.parts
  | .scalar .., m, h | .alias _, m, h => by
    obtain rfl := List.mem_singleton.mp h
    exact List.infix_rfl
  | .sequence label tag items, m, h => by
    rcases List.mem_cons.mp h with rfl | h
    · exact List.infix_rfl
    · exact (itemParts_isInfix h).trans (List.suffix_cons _ _).isInfix
  | .mapping label tag entries, m, h => by
    rcases List.mem_cons.mp h with rfl | h
    · exact List.infix_rfl
    · exact (entryParts_isInfix h).trans (List.suffix_cons _ _).isInfix

theorem itemParts_isInfix : {items : List Node} → {m : Node} → m ∈ itemParts items →
    m.parts <:+: itemParts items
  | n :: rest, m, h => by
    rcases List.mem_append.mp h with h | h
    · exact (parts_isInfix h).trans (List.prefix_append _ _).isInfix
    · exact (itemParts_isInfix h).trans (List.suffix_append _ _).isInfix

theorem entryParts_isInfix : {entries : List (Node × Node)} → {m : Node} → m ∈ entryParts entries →
    m.parts <:+: entryParts entries
  | (k, v) :: rest, m, h => by
    rcases List.mem_append.mp h with h | h
    · exact (parts_isInfix h).trans (List.prefix_append _ _).isInfix
    rw [entryParts, ← List.append_assoc]
    rcases List.mem_append.mp h with h | h
    · exact (parts_isInfix h).trans (List.infix_append _ _ _)
    · exact (entryParts_isInfix h).trans (List.suffix_append _ _).isInfix

end

/-! ## Finding a node by its label -/

mutual

/-- The node with a label is the first one of the tree that has it. -/
theorem find?_eq_find? (label : Nat) : (n : Node) →
    n.find? label = n.parts.find? fun m => m.label? == some label
  | .scalar l t s => by
    rw [find?, parts, List.find?_singleton]
    simp [label?]
  | .alias l => rfl
  | .sequence l t items => by
    rw [find?, parts, List.find?_cons, findItems?_eq_find? label items]
    by_cases h : l = label
    · simp [label?, h]
    · have hfirst : (some l == some label) = false := by simpa using h
      rw [if_neg h, label?, hfirst]
  | .mapping l t entries => by
    rw [find?, parts, List.find?_cons, findEntries?_eq_find? label entries]
    by_cases h : l = label
    · simp [label?, h]
    · have hfirst : (some l == some label) = false := by simpa using h
      rw [if_neg h, label?, hfirst]

theorem findItems?_eq_find? (label : Nat) : (items : List Node) →
    findItems? label items = (itemParts items).find? fun m => m.label? == some label
  | [] => rfl
  | n :: rest => by
    rw [findItems?, itemParts, List.find?_append, find?_eq_find? label n,
      findItems?_eq_find? label rest]
    cases n.parts.find? _ <;> rfl

theorem findEntries?_eq_find? (label : Nat) : (entries : List (Node × Node)) →
    findEntries? label entries = (entryParts entries).find? fun m => m.label? == some label
  | [] => rfl
  | (k, v) :: rest => by
    rw [findEntries?, entryParts, List.find?_append, List.find?_append, find?_eq_find? label k,
      find?_eq_find? label v, findEntries?_eq_find? label rest]
    cases k.parts.find? _ <;> cases v.parts.find? _ <;> rfl

end

section Finding

variable {document n : Node} {label : Nat}

theorem mem_parts_of_find? (h : document.find? label = some n) :
    n ∈ document.parts ∧ n.label? = some label := by
  rw [find?_eq_find?] at h
  exact ⟨List.mem_of_find?_eq_some h, by simpa using List.find?_some h⟩

/-- **In a document with growing labels the node with a label is the only one.** -/
theorem IsNumbered.find?_eq (h : document.IsNumbered) (hn : n ∈ document.parts)
    (hlabel : n.label? = some label) : document.find? label = some n := by
  rw [find?_eq_find?]
  have hnodup : (document.parts.filterMap label?).Nodup := h.imp Nat.ne_of_lt
  clear h
  generalize document.parts = parts at hn hnodup
  induction parts with
  | nil => exact absurd hn List.not_mem_nil
  | cons m parts ih =>
    rw [List.find?_cons]
    rcases List.mem_cons.mp hn with rfl | hn
    · simp [hlabel]
    · have hmem : label ∈ parts.filterMap label? := List.mem_filterMap.mpr ⟨n, hn, hlabel⟩
      have hfirst : m.label? ≠ some label := by
        intro hm
        rw [List.filterMap_cons_some hm] at hnodup
        exact (List.nodup_cons.mp hnodup).1 hmem
      have hrest : (parts.filterMap label?).Nodup :=
        hnodup.sublist ((List.sublist_cons_self m parts).filterMap label?)
      rw [beq_eq_false_iff_ne.mpr hfirst]
      exact ih hn hrest

/-- What a node stands for has a label, unless the document lacks it. -/
theorem deref_of_label? (h : n.label? = some label) : n.deref document = n := by
  cases n <;> first | rfl | cases h

theorem deref_alias (h : document.find? label = some n) : (Node.alias label).deref document = n := by
  rw [deref, h, Option.getD_some]

/-- The node that a node stands for stands for itself. -/
theorem deref_deref (n document : Node) : (n.deref document).deref document = n.deref document := by
  match n with
  | .alias label =>
    cases hfind : document.find? label with
    | none => simp [deref, hfind]
    | some n =>
      rw [deref_alias hfind]
      exact deref_of_label? (mem_parts_of_find? hfind).2
  | .scalar .. | .sequence .. | .mapping .. => rfl

theorem deref_mem_parts (h : n ∈ document.parts) : n.deref document ∈ document.parts := by
  match n with
  | .alias label =>
    cases hfind : document.find? label with
    | none => simpa [deref, hfind] using h
    | some n =>
      rw [deref_alias hfind]
      exact (mem_parts_of_find? hfind).1
  | .scalar .. | .sequence .. | .mapping .. => exact h

theorem mem_parts_of_item {tag : String} {items : List Node}
    (h : sequence label tag items ∈ document.parts) (hn : n ∈ items) : n ∈ document.parts := by
  have hinside : itemParts items <:+: (sequence label tag items).parts :=
    (List.suffix_cons _ _).isInfix
  exact (((infix_itemParts hn).trans hinside).trans (parts_isInfix h)).subset n.self_mem_parts

theorem mem_parts_of_entry {tag : String} {entries : List (Node × Node)} {e : Node × Node}
    (h : mapping label tag entries ∈ document.parts) (he : e ∈ entries) :
    e.1 ∈ document.parts ∧ e.2 ∈ document.parts := by
  have hinside : entryParts entries <:+: (mapping label tag entries).parts :=
    (List.suffix_cons _ _).isInfix
  have hall := ((infix_entryParts he).trans hinside).trans (parts_isInfix h)
  exact ⟨hall.subset (List.mem_append_left _ e.1.self_mem_parts),
    hall.subset (List.mem_append_right _ e.2.self_mem_parts)⟩

theorem IsNumbered.of_mem_parts (h : document.IsNumbered) (hn : n ∈ document.parts) :
    n.IsNumbered :=
  List.Pairwise.sublist ((parts_isInfix hn).sublist.filterMap label?) h

/-- Below a collection labels are greater. -/
theorem IsNumbered.lt_of_item {tag : String} {items : List Node} {inner : Nat}
    (h : (sequence label tag items).IsNumbered) (hn : n ∈ items) (hlabel : n.label? = some inner) :
    label < inner := by
  have hmem : inner ∈ (itemParts items).filterMap label? :=
    List.mem_filterMap.mpr ⟨n, (infix_itemParts hn).subset n.self_mem_parts, hlabel⟩
  exact (List.pairwise_cons.mp h).1 inner hmem

theorem IsNumbered.lt_of_entry {tag : String} {entries : List (Node × Node)} {e : Node × Node}
    {inner : Nat} (h : (mapping label tag entries).IsNumbered) (he : e ∈ entries)
    (hlabel : e.1.label? = some inner ∨ e.2.label? = some inner) : label < inner := by
  have hsubset := (infix_entryParts he).subset
  have hmem : inner ∈ (entryParts entries).filterMap label? := by
    rcases hlabel with hlabel | hlabel
    · exact List.mem_filterMap.mpr
        ⟨e.1, hsubset (List.mem_append_left _ e.1.self_mem_parts), hlabel⟩
    · exact List.mem_filterMap.mpr
        ⟨e.2, hsubset (List.mem_append_right _ e.2.self_mem_parts), hlabel⟩
  exact (List.pairwise_cons.mp h).1 inner hmem

end Finding

mutual

theorem length_parts : (n : Node) → n.parts.length = n.size
  | .scalar .. | .alias _ => rfl
  | .sequence _ _ items => by rw [parts, size, List.length_cons, length_itemParts items]
  | .mapping _ _ entries => by rw [parts, size, List.length_cons, length_entryParts entries]

theorem length_itemParts : (items : List Node) → (itemParts items).length = sizeItems items
  | [] => rfl
  | n :: rest => by
    rw [itemParts, sizeItems, List.length_append, length_parts n, length_itemParts rest]

theorem length_entryParts : (entries : List (Node × Node)) →
    (entryParts entries).length = sizeEntries entries
  | [] => rfl
  | (k, v) :: rest => by
    rw [entryParts, sizeEntries, List.length_append, List.length_append, length_parts k,
      length_parts v, length_entryParts rest, Nat.add_assoc]

end

/-- Different labels of a tree are not more than its nodes. -/
theorem length_le_size {path : List Nat} {n : Node} (hnodup : path.Nodup)
    (h : ∀ k ∈ path, k ∈ n.labels) : path.length ≤ n.size := by
  calc path.length ≤ n.labels.length := (hnodup.subperm h).length_le
    _ ≤ n.parts.length := List.length_filterMap_le ..
    _ = n.size := n.length_parts

end Node

/-! ## The labels that are given -/

/-- Are labels the numbers from one on, up to another? -/
def AreFrom (first after : Nat) (labels : List Nat) : Prop :=
  first ≤ after ∧ labels = List.range' first (after - first)

theorem areFrom_nil (first : Nat) : AreFrom first first [] :=
  ⟨Nat.le_refl first, by rw [Nat.sub_self, List.range'_zero]⟩

theorem AreFrom.cons {first after : Nat} {labels : List Nat} (h : AreFrom (first + 1) after labels) :
    AreFrom first after (first :: labels) := by
  obtain ⟨hle, rfl⟩ := h
  refine ⟨by omega, ?_⟩
  rw [show after - first = after - (first + 1) + 1 by omega, List.range'_succ]

theorem AreFrom.append {first middle after : Nat} {labels more : List Nat}
    (h : AreFrom first middle labels) (hmore : AreFrom middle after more) :
    AreFrom first after (labels ++ more) := by
  obtain ⟨hle, rfl⟩ := h
  obtain ⟨hle', rfl⟩ := hmore
  refine ⟨Nat.le_trans hle hle', ?_⟩
  have hmiddle : List.range' middle (after - middle) =
      List.range' (first + (middle - first)) (after - middle) := by
    rw [Nat.add_sub_cancel' hle]
  rw [hmiddle, List.range'_append_1]
  congr 1
  omega

/-- Do the nodes of a forest have the labels from one number on, up to another? -/
def HaveLabels (first after : Nat) (nodes : List Node) : Prop :=
  AreFrom first after (nodes.filterMap Node.label?)

theorem HaveLabels.append {first middle after : Nat} {nodes more : List Node}
    (h : HaveLabels first middle nodes) (hmore : HaveLabels middle after more) :
    HaveLabels first after (nodes ++ more) := by
  rw [HaveLabels, List.filterMap_append]
  exact AreFrom.append h hmore

/-- A node comes before those below it. -/
theorem HaveLabels.below {first after inner : Nat} {nodes : List Node} {n : Node}
    (h : HaveLabels inner after nodes) (hinner : inner = first + 1) (hn : n.label? = some first) :
    HaveLabels first after (n :: nodes) := by
  subst hinner
  rw [HaveLabels, List.filterMap_cons_some hn]
  exact AreFrom.cons h

namespace NodeReader

/-- Does a reader give the next labels, in order, to the nodes that it reads? -/
def GivesLabels {α : Type} (parts : α → List Node) (r : NodeReader)
    (outcome : Except ReadFault (α × NodeReader)) : Prop :=
  Always (fun read => HaveLabels r.nextLabel read.2.nextLabel (parts read.1)) outcome

theorem givesLabels_emptyNode (r : NodeReader) : GivesLabels Node.parts r (.ok r.emptyNode) :=
  always_ok (HaveLabels.below (areFrom_nil (r.nextLabel + 1)) rfl rfl)

theorem always_properties (r : NodeReader) :
    Always (fun read => read.2.nextLabel = r.nextLabel) r.properties := by
  unfold properties
  refine always_bind fun front => ?_
  split
  · refine always_bind fun front => ?_
    split <;> exact always_ok rfl
  · refine always_bind fun front => ?_
    split <;> exact always_ok rfl
  · exact always_ok rfl

theorem always_setAnchor (anchor : Option String) (label : Nat) (r : NodeReader) :
    Always (fun read => read.nextLabel = r.nextLabel) (r.setAnchor anchor label) := by
  unfold setAnchor
  split
  · exact always_ok rfl
  · split
    · exact always_error
    · exact always_ok rfl

/-- Do all readers give labels in order, with so much fuel? -/
structure GiveLabels (handles : TagHandles) (fuel : Nat) : Prop where
  node (place : NodePlace) (r : NodeReader) : GivesLabels Node.parts r (node handles place fuel r)
  blockItems (r : NodeReader) : GivesLabels Node.itemParts r (blockItems handles fuel r)
  indentlessItems (r : NodeReader) : GivesLabels Node.itemParts r (indentlessItems handles fuel r)
  blockEntries (r : NodeReader) : GivesLabels Node.entryParts r (blockEntries handles fuel r)
  blockValue (r : NodeReader) : GivesLabels Node.parts r (blockValue handles fuel r)
  flowItems (isFirst : Bool) (r : NodeReader) :
    GivesLabels Node.itemParts r (flowItems handles isFirst fuel r)
  flowEntries (isFirst : Bool) (r : NodeReader) :
    GivesLabels Node.entryParts r (flowEntries handles isFirst fuel r)
  flowValue (closing : Token) (r : NodeReader) :
    GivesLabels Node.parts r (flowValue handles closing fuel r)

theorem giveLabels_zero (handles : TagHandles) : GiveLabels handles 0 where
  node _ _ := always_error
  blockItems _ := always_error
  indentlessItems _ := always_error
  blockEntries _ := always_error
  blockValue _ := always_error
  flowItems _ _ := always_error
  flowEntries _ _ := always_error
  flowValue _ _ := always_error

namespace GiveLabels

variable {handles : TagHandles} {fuel : Nat} (h : GiveLabels handles fuel)

include h

theorem succ_node (place : NodePlace) (r : NodeReader) :
    GivesLabels Node.parts r (NodeReader.node handles place (fuel + 1) r) := by
  unfold NodeReader.node
  refine always_bind fun front => ?_
  split
  · split
    · exact always_ok (areFrom_nil _)
    · exact always_error
  refine (always_properties r).bind fun ⟨⟨anchor, written⟩, s⟩ hs => ?_
  refine always_bind fun tag => always_bind fun front => ?_
  refine (always_setAnchor anchor _ _).bind fun t ht => ?_
  have hnext : t.nextLabel = r.nextLabel + 1 := by rw [ht, ← hs]
  have hlabel : some s.nextLabel = some r.nextLabel := congrArg some hs
  split
  · exact (h.indentlessItems t).bind fun _ hitems => always_ok (hitems.below hnext hlabel)
  · exact always_ok (HaveLabels.below (areFrom_nil _) hnext hlabel)
  · exact (h.flowItems true t.advance).bind fun _ hitems => always_ok (hitems.below hnext hlabel)
  · exact (h.flowEntries true t.advance).bind fun _ hentries =>
      always_ok (hentries.below hnext hlabel)
  · exact (h.blockItems t.advance).bind fun _ hitems => always_ok (hitems.below hnext hlabel)
  · exact (h.blockItems t.advance).bind fun _ hitems => always_ok (hitems.below hnext hlabel)
  · exact (h.blockEntries t.advance).bind fun _ hentries => always_ok (hentries.below hnext hlabel)
  · exact (h.blockEntries t.advance).bind fun _ hentries => always_ok (hentries.below hnext hlabel)
  · split
    · exact always_ok (HaveLabels.below (areFrom_nil _) hnext hlabel)
    · exact always_error

/-- What is read behind a node that may be left out. -/
theorem orEmpty {β : Type} {P : β → Prop} {place : NodePlace} {isLeftOut : Prop}
    [Decidable isLeftOut] {r : NodeReader} {more : Node × NodeReader → Except ReadFault β}
    (hmore : ∀ read, HaveLabels r.nextLabel read.2.nextLabel read.1.parts → Always P (more read)) :
    Always P (if isLeftOut then pure r.emptyNode >>= more
      else NodeReader.node handles place fuel r >>= more) := by
  split
  · exact (givesLabels_emptyNode r).bind hmore
  · exact (h.node place r).bind hmore

theorem succ_blockItems (r : NodeReader) :
    GivesLabels Node.itemParts r (NodeReader.blockItems handles (fuel + 1) r) := by
  unfold NodeReader.blockItems
  refine always_bind fun front => ?_
  split
  · refine always_bind fun front => h.orEmpty fun item hitem => ?_
    exact (h.blockItems item.2).bind fun _ hmore => always_ok (hitem.append hmore)
  · exact always_ok (areFrom_nil _)
  · exact always_error

theorem succ_indentlessItems (r : NodeReader) :
    GivesLabels Node.itemParts r (NodeReader.indentlessItems handles (fuel + 1) r) := by
  unfold NodeReader.indentlessItems
  refine always_bind fun front => ?_
  split
  · refine always_bind fun front => h.orEmpty fun item hitem => ?_
    exact (h.indentlessItems item.2).bind fun _ hmore => always_ok (hitem.append hmore)
  · exact always_ok (areFrom_nil _)

theorem succ_blockValue (r : NodeReader) :
    GivesLabels Node.parts r (NodeReader.blockValue handles (fuel + 1) r) := by
  unfold NodeReader.blockValue
  refine always_bind fun front => ?_
  split
  · refine always_bind fun front => ?_
    split
    · exact givesLabels_emptyNode r.advance
    · exact h.node .inEntry r.advance
  · exact givesLabels_emptyNode r

theorem succ_flowValue (closing : Token) (r : NodeReader) :
    GivesLabels Node.parts r (NodeReader.flowValue handles closing (fuel + 1) r) := by
  unfold NodeReader.flowValue
  refine always_bind fun front => ?_
  split
  · refine always_bind fun front => ?_
    split
    · exact givesLabels_emptyNode r.advance
    · exact h.node .inFlow r.advance
  · exact givesLabels_emptyNode r

theorem succ_blockEntries (r : NodeReader) :
    GivesLabels Node.entryParts r (NodeReader.blockEntries handles (fuel + 1) r) := by
  unfold NodeReader.blockEntries
  refine always_bind fun front => ?_
  split
  · exact always_ok (areFrom_nil _)
  · extract_lets more
    have hmore : ∀ read : Node × NodeReader, HaveLabels r.nextLabel read.2.nextLabel read.1.parts →
        Always (fun all : List (Node × Node) × NodeReader =>
          HaveLabels r.nextLabel all.2.nextLabel (Node.entryParts all.1)) (more read) := by
      intro key hkey
      refine (h.blockValue key.2).bind fun value hvalue => ?_
      exact (h.blockEntries value.2).bind fun _ hmore =>
        always_ok (hkey.append (hvalue.append hmore))
    split
    · exact always_bind fun front => h.orEmpty hmore
    · exact always_error

omit h in
/-- What is read behind the comma that stands between two items. -/
theorem behindComma {β : Type} {P : β → Prop} {isFirst : Bool} {front : Token} {r : NodeReader}
    {more : NodeReader → Except ReadFault β}
    (hmore : ∀ s : NodeReader, s.nextLabel = r.nextLabel → Always P (more s)) :
    Always P (if isFirst = true then pure r >>= more
      else if front = .flowEntry then pure r.advance >>= more else malformed >>= more) := by
  split
  · exact hmore r rfl
  · split
    · exact hmore r.advance rfl
    · exact always_error

theorem succ_flowItems (isFirst : Bool) (r : NodeReader) :
    GivesLabels Node.itemParts r (NodeReader.flowItems handles isFirst (fuel + 1) r) := by
  unfold NodeReader.flowItems
  refine always_bind fun front => ?_
  split
  · exact always_ok (areFrom_nil _)
  refine behindComma fun s hs => always_bind fun front => ?_
  rw [← hs]
  split
  · refine always_bind fun front => h.orEmpty fun key hkey => ?_
    refine (h.flowValue _ key.2).bind fun value hvalue => ?_
    refine (h.flowItems false value.2).bind fun _ hmore => always_ok ?_
    have hentry : HaveLabels (s.nextLabel + 1) value.2.nextLabel
        (key.1.parts ++ (value.1.parts ++ [])) := hkey.append (hvalue.append (areFrom_nil _))
    exact (hentry.below rfl rfl).append hmore
  · exact always_ok (areFrom_nil _)
  · refine (h.node .inFlow s).bind fun item hitem => ?_
    exact (h.flowItems false item.2).bind fun _ hmore => always_ok (hitem.append hmore)

theorem succ_flowEntries (isFirst : Bool) (r : NodeReader) :
    GivesLabels Node.entryParts r (NodeReader.flowEntries handles isFirst (fuel + 1) r) := by
  unfold NodeReader.flowEntries
  refine always_bind fun front => ?_
  split
  · exact always_ok (areFrom_nil _)
  refine behindComma fun s hs => always_bind fun front => ?_
  rw [← hs]
  split
  · refine always_bind fun front => h.orEmpty fun key hkey => ?_
    refine (h.flowValue _ key.2).bind fun value hvalue => ?_
    exact (h.flowEntries false value.2).bind fun _ hmore =>
      always_ok (hkey.append (hvalue.append hmore))
  · exact always_ok (areFrom_nil _)
  · refine (h.node .inFlow s).bind fun key hkey => ?_
    have hvalue : HaveLabels key.2.nextLabel key.2.emptyNode.2.nextLabel key.2.emptyNode.1.parts :=
      HaveLabels.below (areFrom_nil _) rfl rfl
    exact (h.flowEntries false key.2.emptyNode.2).bind fun _ hmore =>
      always_ok (hkey.append (hvalue.append hmore))

theorem succ : GiveLabels handles (fuel + 1) where
  node := h.succ_node
  blockItems := h.succ_blockItems
  indentlessItems := h.succ_indentlessItems
  blockEntries := h.succ_blockEntries
  blockValue := h.succ_blockValue
  flowItems := h.succ_flowItems
  flowEntries := h.succ_flowEntries
  flowValue := h.succ_flowValue

end GiveLabels

/-- **Every reader gives the labels in the order in which nodes begin.** -/
theorem giveLabels (handles : TagHandles) (fuel : Nat) : GiveLabels handles fuel := by
  induction fuel with
  | zero => exact giveLabels_zero handles
  | succ fuel ih => exact ih.succ

theorem always_directives (versioned : Bool) (handles : TagHandles) (fuel : Nat) (r : NodeReader) :
    Always (fun read => read.2.nextLabel = r.nextLabel) (directives versioned handles fuel r) := by
  induction fuel generalizing versioned handles r with
  | zero => exact always_error
  | succ fuel ih =>
    unfold directives
    refine always_bind fun front => ?_
    split
    · split
      · exact always_error
      · exact ih _ _ r.advance
    · split
      · exact always_error
      · exact ih _ _ r.advance
    · exact ih _ _ r.advance
    · exact always_ok rfl

theorem givesLabels_markedDocument (r : NodeReader) :
    GivesLabels Node.parts r r.markedDocument := by
  unfold markedDocument
  refine (always_directives _ _ _ r).bind fun ⟨handles, s⟩ hs => always_bind fun front => ?_
  rw [← hs]
  split
  · refine always_bind fun front => ?_
    split
    all_goals first
      | exact givesLabels_emptyNode s.advance
      | exact (giveLabels handles _).node .inBlock s.advance
  · exact always_error

end NodeReader

/-- **The labels of a document grow.** -/
theorem isNumbered_of_readNode {text : List Char} {document : Node}
    (h : readNode text = .ok (some document)) : document.IsNumbered := by
  suffices hall : Always (fun read : Option Node => ∀ n ∈ read, n.IsNumbered) (readNode text) from
    hall _ h document rfl
  unfold readNode NodeReader.document
  refine always_bind fun front => ?_
  split
  · exact always_ok nofun
  extract_lets isMarked first
  have hroot : ∀ read : Node × NodeReader,
      HaveLabels 0 read.2.nextLabel read.1.parts →
        Always (fun read : Option Node => ∀ n ∈ read, n.IsNumbered) (first read) := by
    intro read hread
    refine always_bind fun _ => always_ok fun n hn => ?_
    obtain rfl := Option.some.inj hn
    rw [Node.IsNumbered, Node.labels, hread.2]
    exact List.pairwise_lt_range'
  split
  · exact (NodeReader.givesLabels_markedDocument _).bind hroot
  · exact ((NodeReader.giveLabels _ _).node .inBlock _).bind hroot

end DevMachines.Yaml
