import DevMachines.Proofs.Yaml.Page
import DevMachines.Proofs.Results
import DevMachines.Yaml.Node.Reader

/-!
# The node of a written value

The tokens of a written value are read as one node, and `Written.node` says which: labels are given
in the order in which the nodes begin, and an anchor is known behind the place where it stands.

Main statements: `Written.isParsed` and `document_tokens`.
-/

namespace DevMachines.Yaml

/-! ## The node -/

namespace Marks

/-- The full tag, if there is one. -/
def fullTag (m : Marks) : Option String :=
  m.tag.map fun name => Tag.standard "" ++ String.ofList name

/-- The anchors once the anchor of a node with a label is set; it must be new. -/
def setAnchor (m : Marks) (label : Nat) (anchors : List (String × Nat)) :
    Option (List (String × Nat)) :=
  match m.anchor with
  | Option.none => some anchors
  | some name =>
      if (anchors.lookup (String.ofList name)).isSome then Option.none
      else some ((String.ofList name, label) :: anchors)

end Marks

namespace Written

mutual

/-- The node of a value, with the anchors and the next label behind it. -/
def node (anchors : List (String × Nat)) (next : Nat) :
    Written → Option (Node × List (String × Nat) × Nat)
  | .alias name => do
      let label ← anchors.lookup (String.ofList name)
      some (.alias label, anchors, next)
  | .scalar marks isPlain text _ => do
      let anchors ← marks.setAnchor next anchors
      let tag := NodeReader.scalarTag marks.fullTag (String.ofList text) isPlain
      some (.scalar next tag (String.ofList text), anchors, next + 1)
  | .list marks items => do
      let anchors ← marks.setAnchor next anchors
      let (nodes, anchors, after) ← itemNodes anchors (next + 1) items
      some (.sequence next (NodeReader.collectionTag marks.fullTag Tag.sequence) nodes, anchors, after)
  | .map marks entries => do
      let anchors ← marks.setAnchor next anchors
      let (nodes, anchors, after) ← entryNodes anchors (next + 1) entries
      some (.mapping next (NodeReader.collectionTag marks.fullTag Tag.mapping) nodes, anchors, after)

/-- The nodes of items. -/
def itemNodes (anchors : List (String × Nat)) (next : Nat) :
    List Written → Option (List Node × List (String × Nat) × Nat)
  | [] => some ([], anchors, next)
  | w :: rest => do
      let (first, anchors, next) ← w.node anchors next
      let (others, anchors, next) ← itemNodes anchors next rest
      some (first :: others, anchors, next)

/-- The nodes of entries. -/
def entryNodes (anchors : List (String × Nat)) (next : Nat) :
    List (Bool × Written × Written) → Option (List (Node × Node) × List (String × Nat) × Nat)
  | [] => some ([], anchors, next)
  | (_, k, v) :: rest => do
      let (key, anchors, next) ← k.node anchors next
      let (value, anchors, next) ← v.node anchors next
      let (others, anchors, next) ← entryNodes anchors next rest
      some ((key, value) :: others, anchors, next)

end

end Written

/-! ## Reading the marks of a node -/

/-- A token that the contents of a node may start with. -/
def StartsContent : Token → Prop
  | .fault _ | .alias _ | .anchor _ | .tag .. => False
  | _ => True

variable {marks : Marks} {t : Token} {rest : List Token} {anchors : List (String × Nat)} {next : Nat}

namespace NodeReader

theorem front_cons (h : ∀ f, t ≠ .fault f) : front ⟨t :: rest, anchors, next⟩ = .ok t := by
  cases t <;> first | rfl | exact absurd rfl (h _)

theorem StartsContent.ne_fault (h : StartsContent t) : ∀ f, t ≠ .fault f := by
  rintro f rfl
  exact h

theorem properties_marks (ht : StartsContent t) :
    properties ⟨marks.tokens ++ t :: rest, anchors, next⟩ =
      .ok ((marks.anchor.map String.ofList, marks.tag.map fun name => (some "!!", String.ofList name)),
        ⟨t :: rest, anchors, next⟩) := by
  obtain ⟨anchor, tag⟩ := marks
  cases anchor <;> cases tag <;>
    cases t <;> first | rfl | exact absurd ht id

theorem fullTag_marks :
    fullTag standardHandles (marks.tag.map fun name => (some "!!", String.ofList name)) =
      .ok marks.fullTag := by
  obtain ⟨anchor, tag⟩ := marks
  cases tag <;> rfl

theorem setAnchor_marks {label : Nat} {tokens : List Token} {anchors' : List (String × Nat)}
    (h : marks.setAnchor label anchors = some anchors') :
    setAnchor (marks.anchor.map String.ofList) label ⟨tokens, anchors, next⟩ =
      .ok ⟨tokens, anchors', next⟩ := by
  obtain ⟨anchor, tag⟩ := marks
  cases anchor with
  | none =>
    obtain rfl := Option.some.inj h
    rfl
  | some name =>
    simp only [Marks.setAnchor] at h
    split at h
    · cases h
    · rename_i hnew
      obtain rfl := Option.some.inj h
      simp only [Option.map_some, setAnchor, hnew, Bool.false_eq_true, ↓reduceIte]


/-- The first token of a node is no alias and no fault. -/
theorem exists_front (marks : Marks) (rest : List Token) (anchors : List (String × Nat)) (next : Nat)
    (ht : StartsContent t) : ∃ u,
    front ⟨marks.tokens ++ t :: rest, anchors, next⟩ = .ok u ∧ ∀ name, u ≠ .alias name := by
  obtain ⟨anchor, tag⟩ := marks
  cases anchor <;> cases tag
  · exact ⟨t, front_cons (StartsContent.ne_fault ht), by rintro name rfl; exact ht⟩
  · exact ⟨_, rfl, nofun⟩
  · exact ⟨_, rfl, nofun⟩
  · exact ⟨_, rfl, nofun⟩

section Content

variable {place : NodePlace} {fuel : Nat} {anchors' : List (String × Nat)} {r : NodeReader}
  (h : marks.setAnchor next anchors = some anchors')

include h

theorem node_scalar {text : String} {isPlain : Bool} :
    NodeReader.node standardHandles place (fuel + 1)
        ⟨marks.tokens ++ .scalar text isPlain :: rest, anchors, next⟩ =
      .ok (.scalar next (scalarTag marks.fullTag text isPlain) text, ⟨rest, anchors', next + 1⟩) := by
  have ht : StartsContent (.scalar text isPlain) := trivial
  obtain ⟨u, hfront, hu⟩ := exists_front marks rest anchors next ht
  rw [node]
  simp only [hfront, ok_bind, properties_marks ht, fullTag_marks, fresh, setAnchor_marks h,
    front_cons (StartsContent.ne_fault ht)]
  rfl

theorem node_emptySequence :
    NodeReader.node standardHandles place (fuel + 2)
        ⟨marks.tokens ++ .flowSequenceStart :: .flowSequenceEnd :: rest, anchors, next⟩ =
      .ok (.sequence next (collectionTag marks.fullTag Tag.sequence) [], ⟨rest, anchors', next + 1⟩) := by
  have ht : StartsContent .flowSequenceStart := trivial
  obtain ⟨u, hfront, hu⟩ := exists_front marks (.flowSequenceEnd :: rest) anchors next ht
  rw [node]
  simp only [hfront, ok_bind, properties_marks ht, fullTag_marks, fresh, setAnchor_marks h,
    front_cons (StartsContent.ne_fault ht), advance, List.tail_cons]
  rw [flowItems]
  rfl

theorem node_emptyMapping :
    NodeReader.node standardHandles place (fuel + 2)
        ⟨marks.tokens ++ .flowMappingStart :: .flowMappingEnd :: rest, anchors, next⟩ =
      .ok (.mapping next (collectionTag marks.fullTag Tag.mapping) [], ⟨rest, anchors', next + 1⟩) := by
  have ht : StartsContent .flowMappingStart := trivial
  obtain ⟨u, hfront, hu⟩ := exists_front marks (.flowMappingEnd :: rest) anchors next ht
  rw [node]
  simp only [hfront, ok_bind, properties_marks ht, fullTag_marks, fresh, setAnchor_marks h,
    front_cons (StartsContent.ne_fault ht), advance, List.tail_cons]
  rw [flowEntries]
  rfl

theorem node_blockSequence {items : List Node} (hplace : place ≠ .inFlow)
    (hitems : blockItems standardHandles fuel ⟨rest, anchors', next + 1⟩ = .ok (items, r)) :
    NodeReader.node standardHandles place (fuel + 1)
        ⟨marks.tokens ++ .blockSequenceStart :: rest, anchors, next⟩ =
      .ok (.sequence next (collectionTag marks.fullTag Tag.sequence) items, r) := by
  have ht : StartsContent .blockSequenceStart := trivial
  obtain ⟨u, hfront, hu⟩ := exists_front marks rest anchors next ht
  rw [node]
  simp only [hfront, ok_bind, properties_marks ht, fullTag_marks, fresh, setAnchor_marks h,
    front_cons (StartsContent.ne_fault ht), advance, List.tail_cons]
  cases place with
  | inFlow => exact absurd rfl hplace
  | inBlock | inEntry => simp only [hitems, ok_bind]; rfl

theorem node_indentless {items : List Node}
    (hitems : indentlessItems standardHandles fuel ⟨.blockEntry :: rest, anchors', next + 1⟩ =
      .ok (items, r)) :
    NodeReader.node standardHandles .inEntry (fuel + 1)
        ⟨marks.tokens ++ .blockEntry :: rest, anchors, next⟩ =
      .ok (.sequence next (collectionTag marks.fullTag Tag.sequence) items, r) := by
  have ht : StartsContent .blockEntry := trivial
  obtain ⟨u, hfront, hu⟩ := exists_front marks rest anchors next ht
  rw [node]
  simp only [hfront, ok_bind, properties_marks ht, fullTag_marks, fresh, setAnchor_marks h,
    front_cons (StartsContent.ne_fault ht), hitems]
  rfl

theorem node_blockMapping {entries : List (Node × Node)} (hplace : place ≠ .inFlow)
    (hentries : blockEntries standardHandles fuel ⟨rest, anchors', next + 1⟩ = .ok (entries, r)) :
    NodeReader.node standardHandles place (fuel + 1)
        ⟨marks.tokens ++ .blockMappingStart :: rest, anchors, next⟩ =
      .ok (.mapping next (collectionTag marks.fullTag Tag.mapping) entries, r) := by
  have ht : StartsContent .blockMappingStart := trivial
  obtain ⟨u, hfront, hu⟩ := exists_front marks rest anchors next ht
  rw [node]
  simp only [hfront, ok_bind, properties_marks ht, fullTag_marks, fresh, setAnchor_marks h,
    front_cons (StartsContent.ne_fault ht), advance, List.tail_cons]
  cases place with
  | inFlow => exact absurd rfl hplace
  | inBlock | inEntry => simp only [hentries, ok_bind]; rfl

end Content
end NodeReader

/-! ## What is proved of every value -/

/-- The place for the reader of nodes. -/
def Place.toNodePlace : Place → NodePlace
  | .item => .inBlock
  | .part | .entry => .inEntry

/-- What stands behind a list that is not indented: something other than another item. -/
def EndsItems (rest : List Token) : Prop :=
  ∃ t more, rest = t :: more ∧ t ≠ .blockEntry ∧ ∀ f, t ≠ .fault f

namespace Written

/-- The tokens of a value are read as its node. -/
def IsParsed (w : Written) : Prop :=
  ∀ ⦃place : Place⦄ ⦃anchors : List (String × Nat)⦄ ⦃next : Nat⦄
    ⦃result : Node × List (String × Nat) × Nat⦄ ⦃fuel : Nat⦄ ⦃rest : List Token⦄,
    w.node anchors next = some result → 2 * (w.tokens place).length ≤ fuel →
    (place ≠ .item → EndsItems rest) →
    NodeReader.node standardHandles place.toNodePlace fuel ⟨w.tokens place ++ rest, anchors, next⟩ =
      .ok (result.1, ⟨rest, result.2.1, result.2.2⟩)

/-- The first token of a value. -/
theorem exists_first (w : Written) (place : Place) : ∃ t more, w.tokens place = t :: more ∧
    (∀ f, t ≠ .fault f) ∧ NodeReader.endsBlockPart t = false ∧
    (place = .item → NodeReader.endsBlockItem t = false) := by
  have hmarks (marks : Marks) (t : Token) (more : List Token) (hfault : ∀ f, t ≠ .fault f)
      (hpart : NodeReader.endsBlockPart t = false)
      (hitem : place = .item → NodeReader.endsBlockItem t = false) :
      ∃ u others, marks.tokens ++ t :: more = u :: others ∧ (∀ f, u ≠ .fault f) ∧
        NodeReader.endsBlockPart u = false ∧ (place = .item → NodeReader.endsBlockItem u = false) := by
    obtain ⟨anchor, tag⟩ := marks
    cases anchor <;> cases tag
    · exact ⟨t, more, rfl, hfault, hpart, hitem⟩
    · exact ⟨_, _, rfl, nofun, rfl, fun _ => rfl⟩
    · exact ⟨_, _, rfl, nofun, rfl, fun _ => rfl⟩
    · exact ⟨_, _, rfl, nofun, rfl, fun _ => rfl⟩
  match w with
  | .alias name => exact ⟨_, _, rfl, nofun, rfl, fun _ => rfl⟩
  | .scalar marks isPlain text _ => exact hmarks marks _ _ nofun rfl fun _ => rfl
  | .list marks [] => exact hmarks marks _ _ nofun rfl fun _ => rfl
  | .list marks (w :: ws) =>
    rw [tokens]
    simp only [List.isEmpty_cons, Bool.false_eq_true, ↓reduceIte]
    split
    · rename_i hindentless
      refine hmarks marks _ _ nofun rfl ?_
      rintro rfl
      cases hindentless
    · exact hmarks marks _ _ nofun rfl fun _ => rfl
  | .map marks [] => exact hmarks marks _ _ nofun rfl fun _ => rfl
  | .map marks (e :: entries) => exact hmarks marks _ _ nofun rfl fun _ => rfl

theorem length_tokens_pos (w : Written) (place : Place) : 0 < (w.tokens place).length := by
  obtain ⟨t, more, htokens, -⟩ := w.exists_first place
  rw [htokens]
  exact Nat.succ_pos _

variable {anchors : List (String × Nat)} {next fuel : Nat} {rest : List Token}

theorem front_tokens (w : Written) (place : Place) (rest : List Token)
    (anchors : List (String × Nat)) (next : Nat) : ∃ t,
    NodeReader.front ⟨w.tokens place ++ rest, anchors, next⟩ = .ok t ∧
      NodeReader.endsBlockPart t = false ∧ (place = .item → NodeReader.endsBlockItem t = false) := by
  obtain ⟨t, more, htokens, hfault, hpart, hitem⟩ := w.exists_first place
  refine ⟨t, ?_, hpart, hitem⟩
  rw [htokens]
  exact NodeReader.front_cons hfault

/-- The items of an indented list are read up to its end. -/
theorem blockItems_tokens {ws : List Written} (h : ∀ w ∈ ws, w.IsParsed)
    {result : List Node × List (String × Nat) × Nat} (hnodes : itemNodes anchors next ws = some result)
    (hfuel : 2 * (itemTokens ws).length + 1 ≤ fuel) :
    NodeReader.blockItems standardHandles fuel ⟨itemTokens ws ++ .blockEnd :: rest, anchors, next⟩ =
      .ok (result.1, ⟨rest, result.2.1, result.2.2⟩) := by
  induction ws generalizing anchors next result fuel with
  | nil =>
    obtain ⟨fuel, rfl⟩ : ∃ k, fuel = k + 1 := ⟨fuel - 1, by omega⟩
    obtain rfl := Option.some.inj hnodes
    rfl
  | cons w ws ih =>
    obtain ⟨fuel, rfl⟩ : ∃ k, fuel = k + 1 := ⟨fuel - 1, by omega⟩
    simp only [List.forall_mem_cons] at h
    simp only [itemNodes, Option.bind_eq_bind, Option.bind_eq_some_iff] at hnodes
    obtain ⟨first, hfirst, others, hothers, hresult⟩ := hnodes
    obtain rfl := Option.some.inj hresult
    simp only [itemTokens, List.length_cons, List.length_append] at hfuel
    obtain ⟨t, hfront, -, hitem⟩ := w.front_tokens .item (itemTokens ws ++ .blockEnd :: rest) anchors next
    have hpos := w.length_tokens_pos .item
    have hless : 2 * (itemTokens ws).length + 1 ≤ fuel := by omega
    have hvalue : NodeReader.node standardHandles .inBlock fuel
        ⟨w.tokens .item ++ (itemTokens ws ++ .blockEnd :: rest), anchors, next⟩ = _ :=
      h.1 hfirst (by omega) fun hne => absurd rfl hne
    have hmark : NodeReader.front
        ⟨.blockEntry :: (w.tokens .item ++ (itemTokens ws ++ .blockEnd :: rest)), anchors, next⟩ =
          .ok .blockEntry := rfl
    rw [itemTokens, List.cons_append, List.append_assoc, NodeReader.blockItems]
    simp only [hmark, ok_bind, NodeReader.advance, List.tail_cons, hfront, hitem, hvalue,
      Bool.false_eq_true, ↓reduceIte, ih h.2 hothers hless]
    rfl

/-- The items of a list without indentation are read up to something else. -/
theorem indentlessItems_tokens {ws : List Written} (h : ∀ w ∈ ws, w.IsParsed)
    {result : List Node × List (String × Nat) × Nat} (hnodes : itemNodes anchors next ws = some result)
    (hsome : 0 < fuel) (hfuel : 2 * (itemTokens ws).length ≤ fuel + 1) (hrest : EndsItems rest) :
    NodeReader.indentlessItems standardHandles fuel ⟨itemTokens ws ++ rest, anchors, next⟩ =
      .ok (result.1, ⟨rest, result.2.1, result.2.2⟩) := by
  induction ws generalizing anchors next result fuel with
  | nil =>
    obtain ⟨fuel, rfl⟩ : ∃ k, fuel = k + 1 := ⟨fuel - 1, by omega⟩
    obtain rfl := Option.some.inj hnodes
    obtain ⟨t, more, rfl, hentry, hfault⟩ := hrest
    have hfront : NodeReader.front ⟨t :: more, anchors, next⟩ = .ok t := NodeReader.front_cons hfault
    rw [itemTokens, List.nil_append, NodeReader.indentlessItems]
    simp only [hfront, ok_bind]
    rfl
  | cons w ws ih =>
    obtain ⟨fuel, rfl⟩ : ∃ k, fuel = k + 1 := ⟨fuel - 1, by omega⟩
    simp only [List.forall_mem_cons] at h
    simp only [itemNodes, Option.bind_eq_bind, Option.bind_eq_some_iff] at hnodes
    obtain ⟨first, hfirst, others, hothers, hresult⟩ := hnodes
    obtain rfl := Option.some.inj hresult
    simp only [itemTokens, List.length_cons, List.length_append] at hfuel
    obtain ⟨t, hfront, hpart, hitem⟩ := w.front_tokens .item (itemTokens ws ++ rest) anchors next
    have hpos := w.length_tokens_pos .item
    have hsome' : 0 < fuel := by omega
    have hless : 2 * (itemTokens ws).length ≤ fuel + 1 := by omega
    have hvalue : NodeReader.node standardHandles .inBlock fuel
        ⟨w.tokens .item ++ (itemTokens ws ++ rest), anchors, next⟩ = _ :=
      h.1 hfirst (by omega) fun hne => absurd rfl hne
    have hmark : NodeReader.front
        ⟨.blockEntry :: (w.tokens .item ++ (itemTokens ws ++ rest)), anchors, next⟩ =
          .ok .blockEntry := rfl
    rw [itemTokens, List.cons_append, List.append_assoc, NodeReader.indentlessItems]
    simp only [hmark, ok_bind, NodeReader.advance, List.tail_cons, hfront, hpart, hitem, hvalue,
      Bool.or_self, Bool.false_eq_true, ↓reduceIte, ih h.2 hothers hsome' hless]
    rfl

theorem endsItems_entryTokens (entries : List (Bool × Written × Written)) (rest : List Token) :
    EndsItems (entryTokens entries ++ .blockEnd :: rest) := by
  cases entries with
  | nil => exact ⟨.blockEnd, _, rfl, nofun, nofun⟩
  | cons e entries => exact ⟨.key, _, rfl, nofun, nofun⟩

/-- The entries of a mapping are read up to its end. -/
theorem blockEntries_tokens {entries : List (Bool × Written × Written)}
    (h : ∀ e ∈ entries, e.2.1.IsParsed ∧ e.2.2.IsParsed)
    {result : List (Node × Node) × List (String × Nat) × Nat}
    (hnodes : entryNodes anchors next entries = some result)
    (hfuel : 2 * (entryTokens entries).length + 1 ≤ fuel) :
    NodeReader.blockEntries standardHandles fuel
        ⟨entryTokens entries ++ .blockEnd :: rest, anchors, next⟩ =
      .ok (result.1, ⟨rest, result.2.1, result.2.2⟩) := by
  induction entries generalizing anchors next result fuel with
  | nil =>
    obtain ⟨fuel, rfl⟩ : ∃ k, fuel = k + 1 := ⟨fuel - 1, by omega⟩
    obtain rfl := Option.some.inj hnodes
    rfl
  | cons e entries ih =>
    obtain ⟨isSimple, k, v⟩ := e
    simp only [List.forall_mem_cons] at h
    obtain ⟨⟨hk, hv⟩, hothers⟩ := h
    simp only [entryNodes, Option.bind_eq_bind, Option.bind_eq_some_iff] at hnodes
    obtain ⟨key, hkey, value, hvalue, others, hmore, hresult⟩ := hnodes
    obtain rfl := Option.some.inj hresult
    obtain ⟨place, hplace⟩ : ∃ place : Place, place = if isSimple then .entry else .part := ⟨_, rfl⟩
    have hnode : place.toNodePlace = .inEntry := by rw [hplace]; cases isSimple <;> rfl
    simp only [entryTokens, ← hplace, List.length_cons, List.length_append] at hfuel
    obtain ⟨fuel, rfl⟩ : ∃ k, fuel = k + 2 := ⟨fuel - 2, by omega⟩
    obtain ⟨t, hfront, hpart, -⟩ := k.front_tokens .part
      (.value :: (v.tokens place ++ (entryTokens entries ++ .blockEnd :: rest))) anchors next
    obtain ⟨u, hfront', hpart', -⟩ := v.front_tokens place
      (entryTokens entries ++ .blockEnd :: rest) key.2.1 key.2.2
    have hpos := k.length_tokens_pos .part
    have hpos' := v.length_tokens_pos place
    have hless : 2 * (entryTokens entries).length + 1 ≤ fuel + 1 := by omega
    have hends : EndsItems (.value :: (v.tokens place ++ (entryTokens entries ++ .blockEnd :: rest))) :=
      ⟨.value, _, rfl, Token.noConfusion, fun _ => Token.noConfusion⟩
    have hkeyNode : NodeReader.node standardHandles Place.part.toNodePlace (fuel + 1) ⟨k.tokens .part ++
        .value :: (v.tokens place ++ (entryTokens entries ++ .blockEnd :: rest)), anchors, next⟩ = _ :=
      hk hkey (by omega) fun _ => hends
    have hvalueNode : NodeReader.node standardHandles place.toNodePlace fuel
        ⟨v.tokens place ++ (entryTokens entries ++ .blockEnd :: rest), key.2.1, key.2.2⟩ = _ :=
      hv hvalue (by omega) fun _ => endsItems_entryTokens entries rest
    have hmark (X : List Token) : NodeReader.front ⟨.key :: X, anchors, next⟩ = .ok .key := rfl
    have hmark' (X : List Token) : NodeReader.front ⟨.value :: X, key.2.1, key.2.2⟩ = .ok .value := rfl
    rw [hnode] at hvalueNode
    rw [show Place.part.toNodePlace = NodePlace.inEntry from rfl] at hkeyNode
    simp only [entryTokens, ← hplace, List.cons_append, List.append_assoc]
    rw [NodeReader.blockEntries]
    simp only [hmark, ok_bind, NodeReader.advance, List.tail_cons, hfront, hpart, hkeyNode,
      Bool.false_eq_true, ↓reduceIte]
    rw [NodeReader.blockValue]
    simp only [hmark', ok_bind, NodeReader.advance, List.tail_cons, hfront', hpart', hvalueNode,
      Bool.false_eq_true, ↓reduceIte, ih hothers hmore hless]
    rfl


/-! ## Every value -/

theorem isParsed_list {marks : Marks} {ws : List Written} (hsome : ws ≠ [])
    (h : ∀ w ∈ ws, w.IsParsed) : (list marks ws).IsParsed := by
  intro place anchors next result fuel rest hnode hfuel hrest
  simp only [node, Option.bind_eq_bind, Option.bind_eq_some_iff] at hnode
  obtain ⟨anchors', hanchor, nodes, hnodes, hresult⟩ := hnode
  obtain rfl := Option.some.inj hresult
  have hempty : ws.isEmpty = false := by simpa using hsome
  have hpos := (list marks ws).length_tokens_pos place
  obtain ⟨fuel, rfl⟩ : ∃ k, fuel = k + 1 := ⟨fuel - 1, by omega⟩
  simp only [tokens, hempty, Bool.false_eq_true, ↓reduceIte] at hfuel ⊢
  cases hindentless : place.isIndentless marks with
  | false =>
    simp only [hindentless, Bool.false_eq_true, ↓reduceIte, List.length_append, List.length_cons] at hfuel
    simp only [Bool.false_eq_true, ↓reduceIte, List.append_assoc, List.cons_append, List.nil_append]
    have hitems : NodeReader.blockItems standardHandles fuel
        ⟨itemTokens ws ++ .blockEnd :: rest, anchors', next + 1⟩ = _ :=
      blockItems_tokens h hnodes (by omega)
    exact NodeReader.node_blockSequence hanchor (by cases place <;> nofun) hitems
  | true =>
    simp only [hindentless, ↓reduceIte, List.length_append] at hfuel
    have hplace : place ≠ .item := by
      rintro rfl
      cases hindentless
    have hnode : place.toNodePlace = .inEntry := by
      cases place with
      | item => exact absurd rfl hplace
      | part | entry => rfl
    obtain ⟨w, others, rfl⟩ := List.exists_cons_of_ne_nil hsome
    have hfirst := w.length_tokens_pos .item
    simp only [itemTokens, List.length_cons, List.length_append] at hfuel
    have hitems := indentlessItems_tokens h hnodes (show 0 < fuel by omega)
      (by simp only [itemTokens, List.length_cons, List.length_append]; omega) (hrest hplace)
    simp only [↓reduceIte, List.append_assoc, hnode]
    exact NodeReader.node_indentless hanchor hitems

mutual

/-- **The tokens of a value are read as its node.** -/
theorem isParsed : (w : Written) → w.IsParsed
  | .alias name => by
    intro place anchors next result fuel rest hnode hfuel _
    obtain ⟨fuel, rfl⟩ : ∃ k, fuel = k + 1 := ⟨fuel - 1, by simp [tokens] at hfuel; omega⟩
    simp only [node, Option.bind_eq_bind, Option.bind_eq_some_iff] at hnode
    obtain ⟨label, hlabel, hresult⟩ := hnode
    obtain rfl := Option.some.inj hresult
    rw [tokens, NodeReader.node]
    simp only [NodeReader.front, List.cons_append, List.nil_append, ok_bind, hlabel]
    rfl
  | .scalar marks isPlain text spelled => by
    intro place anchors next result fuel rest hnode hfuel _
    obtain ⟨fuel, rfl⟩ : ∃ k, fuel = k + 1 := ⟨fuel - 1, by simp [tokens] at hfuel; omega⟩
    simp only [node, Option.bind_eq_bind, Option.bind_eq_some_iff] at hnode
    obtain ⟨anchors', hanchor, hresult⟩ := hnode
    obtain rfl := Option.some.inj hresult
    rw [tokens, List.append_assoc]
    exact NodeReader.node_scalar hanchor
  | .list marks [] => by
    intro place anchors next result fuel rest hnode hfuel _
    obtain ⟨fuel, rfl⟩ : ∃ k, fuel = k + 2 := ⟨fuel - 2, by simp [tokens] at hfuel; omega⟩
    simp only [node, Option.bind_eq_bind, Option.bind_eq_some_iff] at hnode
    obtain ⟨anchors', hanchor, nodes, hnodes, hresult⟩ := hnode
    obtain rfl := Option.some.inj hnodes
    obtain rfl := Option.some.inj hresult
    rw [tokens, List.append_assoc]
    exact NodeReader.node_emptySequence hanchor
  | .list marks (w :: ws) => isParsed_list (List.cons_ne_nil w ws) (isParsed_items (w :: ws))
  | .map marks [] => by
    intro place anchors next result fuel rest hnode hfuel _
    obtain ⟨fuel, rfl⟩ : ∃ k, fuel = k + 2 := ⟨fuel - 2, by simp [tokens] at hfuel; omega⟩
    simp only [node, Option.bind_eq_bind, Option.bind_eq_some_iff] at hnode
    obtain ⟨anchors', hanchor, nodes, hnodes, hresult⟩ := hnode
    obtain rfl := Option.some.inj hnodes
    obtain rfl := Option.some.inj hresult
    rw [tokens, List.append_assoc]
    exact NodeReader.node_emptyMapping hanchor
  | .map marks (e :: entries) => by
    intro place anchors next result fuel rest hnode hfuel _
    simp only [node, Option.bind_eq_bind, Option.bind_eq_some_iff] at hnode
    obtain ⟨anchors', hanchor, nodes, hnodes, hresult⟩ := hnode
    obtain rfl := Option.some.inj hresult
    obtain ⟨fuel, rfl⟩ : ∃ k, fuel = k + 1 := ⟨fuel - 1, by simp [tokens] at hfuel; omega⟩
    simp only [tokens, List.isEmpty_cons, Bool.false_eq_true, ↓reduceIte, List.length_append,
      List.length_cons] at hfuel
    simp only [tokens, List.isEmpty_cons, Bool.false_eq_true, ↓reduceIte, List.append_assoc,
      List.cons_append, List.nil_append]
    have hentries : NodeReader.blockEntries standardHandles fuel
        ⟨entryTokens (e :: entries) ++ .blockEnd :: rest, anchors', next + 1⟩ = _ :=
      blockEntries_tokens (isParsed_entries (e :: entries)) hnodes (by omega)
    exact NodeReader.node_blockMapping hanchor (by cases place <;> nofun) hentries

/-- The tokens of each item are read as its node. -/
theorem isParsed_items : (ws : List Written) → ∀ w ∈ ws, w.IsParsed
  | [] => nofun
  | w :: ws => by
    simp only [List.forall_mem_cons]
    exact ⟨w.isParsed, isParsed_items ws⟩

/-- The tokens of the key and the value of each entry are read as their nodes. -/
theorem isParsed_entries :
    (entries : List (Bool × Written × Written)) → ∀ e ∈ entries, e.2.1.IsParsed ∧ e.2.2.IsParsed
  | [] => nofun
  | (_, k, v) :: entries => by
    simp only [List.forall_mem_cons]
    exact ⟨⟨k.isParsed, v.isParsed⟩, isParsed_entries entries⟩

end

end Written

/-- **The node of a document**, which is a mapping with an entry at least. -/
theorem document_tokens {entries : List (Bool × Written × Written)}
    {result : List (Node × Node) × List (String × Nat) × Nat}
    (h : Written.entryNodes [] 1 entries = some result) :
    NodeReader.document
        ⟨.blockMappingStart :: (Written.entryTokens entries ++ [.blockEnd, .streamEnd]), [], 0⟩ =
      .ok (some (.mapping 0 Tag.mapping result.1)) := by
  obtain ⟨fuel, hfuel, hless⟩ : ∃ fuel, 2 * (Token.blockMappingStart ::
      (Written.entryTokens entries ++ [.blockEnd, .streamEnd])).length + 2 = fuel + 1 ∧
        2 * (Written.entryTokens entries).length + 1 ≤ fuel :=
    ⟨2 * (Written.entryTokens entries).length + 7, by simp; omega, by omega⟩
  have hentries : NodeReader.blockEntries standardHandles fuel
      ⟨Written.entryTokens entries ++ [.blockEnd, .streamEnd], [], 1⟩ = _ :=
    Written.blockEntries_tokens (Written.isParsed_entries entries) h hless
  have hnode : NodeReader.node standardHandles .inBlock (fuel + 1)
      ⟨Marks.none.tokens ++ .blockMappingStart :: (Written.entryTokens entries ++
        [.blockEnd, .streamEnd]), [], 0⟩ = _ :=
    NodeReader.node_blockMapping rfl nofun hentries
  rw [NodeReader.document]
  simp only [NodeReader.front, ok_bind, Bool.false_eq_true, ↓reduceIte, hfuel]
  rw [show Token.blockMappingStart :: (Written.entryTokens entries ++ [.blockEnd, .streamEnd]) =
    Marks.none.tokens ++ .blockMappingStart :: (Written.entryTokens entries ++
        [.blockEnd, .streamEnd]) from rfl, hnode]
  rfl

end DevMachines.Yaml
