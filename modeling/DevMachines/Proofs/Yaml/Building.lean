import DevMachines.Proofs.Yaml.Depicting
import DevMachines.Proofs.Yaml.Lexing
import DevMachines.Yaml.Document

/-!
# The value of a written value

The node of a written value *depicts* a value if its scalars have the tags and texts in which the value
is written, its collections depict what they contain, and where the value has an object that was met
before there is an alias of the node that depicts the object.  A document of such nodes has the value
again, with other labels, provided that every scalar of the value comes back from its tag and text and
that the keys of each map are different scalars.

Main statements: `Portrays.exists_build` and `readValue_document`.

## Why aliases need the outlines of objects

An alias is built by building its node again, from the place of the alias.  The value that stands there
is another view of the object than the one that the node was written for, because other collections
stand around it.  Both views are of one outline, so the nodes below depict the parts of both as far as
these are mentioned, and the induction goes along the value as a view of its objects (`Unfolds`), not
along the tree of nodes.
-/

namespace DevMachines.Yaml

/-! ## Values that come back -/

/-- A scalar as the node with a label has it. -/
def withLabel (label : Label) : Value → Value
  | .date _ d => .date (some label) d
  | .moment _ m => .moment (some label) m
  | v => v

/-- A scalar that its tag and text give back, with the label of the node. -/
def ComesBack (v : Value) : Prop :=
  ∃ tag text asLines, scalarForm v = some (tag, text, asLines) ∧
    ∀ label, scalarValue label tag text = .ok (withLabel label v)

theorem renamed_withLabel {v : Value} (hv : v.IsScalar) {names : Label → Option Label} {label : Label}
    (h : names label = labelOf v) : (withLabel label v).renamed names = v := by
  cases v with
  | date l d => exact congrArg (Value.date · d) h
  | moment l m => exact congrArg (Value.moment · m) h
  | list | pair | set | map | again => exact absurd hv id
  | _ => rfl

theorem comesBack_null : ComesBack .null :=
  ⟨Tag.null, "null", false, rfl, fun _ => rfl⟩

/-- Keys that are different scalars. -/
def HasKeys (keys : List Value) : Prop :=
  (∀ k ∈ keys, k.IsScalar) ∧ keys.Pairwise fun k k' => Value.eq k k' = false

/-- Can a part of a value be read back, apart from its own parts?  A scalar comes back, the keys of a map
and the elements of a set are different scalars, and there are no pairs. -/
def ReadsBack : Value → Prop
  | .list .. | .again _ => True
  | .pair .. => False
  | .set _ elements => HasKeys elements
  | .map _ entries => HasKeys (entries.map (·.1))
  | v => ComesBack v

/-- Can a value be read back? -/
def IsRestorable (v : Value) : Prop := v.Everywhere ReadsBack

theorem IsRestorable.comesBack {v : Value} (h : IsRestorable v) (hv : v.IsScalar) : ComesBack v := by
  cases v <;> first | exact h _ .self | exact absurd hv id

/-! ## Keys -/

theorem HasKeys.of_unlabelled {keys keys' : List Value} (h : HasKeys keys)
    (heq : keys'.map Value.unlabelled = keys.map Value.unlabelled) : HasKeys keys' := by
  induction keys generalizing keys' with
  | nil =>
    obtain rfl := List.map_eq_nil_iff.mp heq
    exact h
  | cons k keys ih =>
    obtain ⟨k', others, rfl⟩ := List.exists_cons_of_ne_nil fun hnil : keys' = [] => by simp [hnil] at heq
    simp only [List.map_cons, List.cons.injEq] at heq
    obtain ⟨hscalar, hdistinct⟩ := h
    simp only [List.forall_mem_cons, List.pairwise_cons] at hscalar hdistinct
    obtain ⟨hscalar', hdistinct'⟩ := ih ⟨hscalar.2, hdistinct.2⟩ heq.2
    have hk' : k'.IsScalar := by rw [← Value.isScalar_unlabelled, heq.1, Value.isScalar_unlabelled]; exact hscalar.1
    refine ⟨by simpa using ⟨hk', hscalar'⟩, ?_⟩
    rw [List.pairwise_cons]
    refine ⟨fun other' hother' => ?_, hdistinct'⟩
    have hmem : other'.unlabelled ∈ keys.map Value.unlabelled := heq.2 ▸ List.mem_map_of_mem hother'
    obtain ⟨other, hother, hsame⟩ := List.mem_map.mp hmem
    rw [Value.eq_of_unlabelled hscalar.1 (hscalar.2 other hother) heq.1 hsame.symm]
    exact hdistinct.1 other hother

theorem insertEntry_of_new {k v : Value} {entries : List (Value × Value)}
    (h : ∀ e ∈ entries, Value.eq e.1 k = false) :
    Value.insertEntry k v entries = entries ++ [(k, v)] := by
  induction entries with
  | nil => rfl
  | cons e entries ih =>
    simp only [List.forall_mem_cons] at h
    rw [Value.insertEntry, h.1, if_neg Bool.false_ne_true, ih h.2, List.cons_append]

/-- Entries with different keys are all kept, in their order. -/
theorem collectEntries_of_hasKeys {entries : List (Value × Value)}
    (h : HasKeys (entries.map (·.1))) : collectEntries entries = entries := by
  have hdistinct := h.2
  rw [List.pairwise_map] at hdistinct
  have hgo : ∀ (more before : List (Value × Value)),
      (before ++ more).Pairwise (fun a b => Value.eq a.1 b.1 = false) →
      more.foldl (fun acc e => Value.insertEntry e.1 e.2 acc) before = before ++ more := by
    intro more
    induction more with
    | nil => simp
    | cons e more ih =>
      intro before hpairwise
      have hnew : ∀ d ∈ before, Value.eq d.1 e.1 = false := fun d hd =>
        (List.pairwise_append.mp hpairwise).2.2 d hd e (List.mem_cons_self ..)
      rw [List.foldl_cons, insertEntry_of_new hnew, ih _ (by simpa using hpairwise)]
      simp
  exact hgo entries [] hdistinct

/-- Different elements are all kept, in their order. -/
theorem collectElements_of_hasKeys {elements : List Value} (h : HasKeys elements) :
    collectElements elements = elements := by
  have hgo : ∀ more before : List Value,
      (before ++ more).Pairwise (fun a b => Value.eq a b = false) →
      more.foldl (fun acc v => Value.insertElement v acc) before = before ++ more := by
    intro more
    induction more with
    | nil => simp
    | cons v more ih =>
      intro before hpairwise
      have hnew : before.any (Value.eq · v) = false := by
        rw [List.any_eq_false]
        intro d hd
        rw [(List.pairwise_append.mp hpairwise).2.2 d hd v (List.mem_cons_self ..)]
        exact Bool.false_ne_true
      rw [List.foldl_cons, Value.insertElement, hnew, if_neg Bool.false_ne_true,
        ih _ (by simpa using hpairwise)]
      simp
  exact hgo elements [] h.2

/-! ## Building one node -/

section Building

variable {number depth fuel label : Nat} {document : Node} {path : List Nat}

/-- The tags of scalars that are written. -/
def IsScalarTag (tag : String) : Prop :=
  tag ∈ [Tag.null, Tag.bool, Tag.int, Tag.float, Tag.text, Tag.binary, Tag.timestamp]

theorem isScalarTag_of_scalarForm {v : Value} {tag text : String} {asLines : Bool}
    (h : scalarForm v = some (tag, text, asLines)) : IsScalarTag tag := by
  cases v <;> simp only [scalarForm, Option.some.injEq, Prod.mk.injEq, reduceCtorEq] at h <;>
    simp [IsScalarTag, ← h.1]

theorem IsScalarTag.isKnownTag {tag : String} (h : IsScalarTag tag) : isKnownTag tag = true := by
  have hall : ∀ tag ∈ [Tag.null, Tag.bool, Tag.int, Tag.float, Tag.text, Tag.binary, Tag.timestamp],
      Yaml.isKnownTag tag = true := by decide
  exact hall tag h

theorem IsScalarTag.not_isCollectionTag {tag : String} (h : IsScalarTag tag) :
    isCollectionTag tag = false := by
  have hall : ∀ tag ∈ [Tag.null, Tag.bool, Tag.int, Tag.float, Tag.text, Tag.binary, Tag.timestamp],
      isCollectionTag tag = false := by decide
  exact hall tag h

theorem buildValue_scalar {tag text : String} {v : Value} (hpath : label ∉ path)
    (htag : IsScalarTag tag) (h : scalarValue ⟨number, label⟩ tag text = .ok v) :
    buildValue number document (fuel + 1) path depth (.scalar label tag text) = .ok v := by
  have hcontains : path.contains label = false := by simpa using hpath
  rw [buildValue]
  simp only [Node.deref, Node.tag, hcontains, htag.isKnownTag, htag.not_isCollectionTag,
    Bool.false_eq_true, Bool.not_true, Bool.not_false, ↓reduceIte]
  simp only [scalarText, Node.deref, h]
  rfl

/-- The labels around the contents of a collection. -/
def innerPath (depth label : Nat) (path : List Nat) : List Nat :=
  if depth = 0 then [] else label :: path

theorem buildValue_sequence {items : List Node} {values : List Value} (hpath : label ∉ path)
    (h : Built.all (items.map (buildValue number document fuel (innerPath depth label path) (depth + 1))) =
      .ok values) :
    buildValue number document (fuel + 1) path depth (.sequence label Tag.sequence items) =
      .ok (.list (some ⟨number, label⟩) values) := by
  have hcontains : path.contains label = false := by simpa using hpath
  have hknown : isKnownTag Tag.sequence = true := by decide
  have hcollection : isCollectionTag Tag.sequence = true := by decide
  rw [buildValue]
  simp only [Node.deref, Node.tag, hcontains, hknown, hcollection, Bool.false_eq_true, Bool.not_true,
    ↓reduceIte, show (Tag.sequence = Tag.mapping) = False by decide,
    show (Tag.sequence = Tag.set) = False by decide]
  rw [innerPath] at h
  rw [h]
  rfl

theorem buildValue_again {n : Node} (hlabel : n.label? = some label) (hpath : label ∈ path) :
    buildValue number document (fuel + 1) path depth n = .ok (.again ⟨number, label⟩) := by
  have hcontains : path.contains label = true := by simpa using hpath
  rw [buildValue]
  match n, hlabel with
  | .scalar .., rfl | .sequence .., rfl | .mapping .., rfl =>
    simp only [Node.deref, hcontains, ↓reduceIte]

/-- A node has the value of the node that it stands for. -/
theorem buildValue_deref (n : Node) : buildValue number document fuel path depth (n.deref document) =
    buildValue number document fuel path depth n := by
  cases fuel with
  | zero => rfl
  | succ fuel => rw [buildValue, buildValue, Node.deref_deref]

theorem buildEntries_deref (level : Nat) (entries : List (Node × Node)) :
    buildEntries (buildValue number document fuel path depth) level
        (entries.map fun e => (e.1.deref document, e.2)) =
      buildEntries (buildValue number document fuel path depth) level entries := by
  induction entries with
  | nil => rfl
  | cons e entries ih => rw [List.map_cons, buildEntries, buildEntries, buildValue_deref, ih]

/-- A node that stands for a scalar that is written. -/
def IsKeyNode (document n : Node) : Prop :=
  ∃ label tag text, n.deref document = .scalar label tag text ∧ IsScalarTag tag

theorem IsScalarTag.not_merge {tag : String} (h : IsScalarTag tag) : (tag == Tag.merge) = false := by
  have hall : ∀ tag ∈ [Tag.null, Tag.bool, Tag.int, Tag.float, Tag.text, Tag.binary, Tag.timestamp],
      (tag == Tag.merge) = false := by decide
  exact hall tag h

theorem IsScalarTag.ne_value {tag : String} (h : IsScalarTag tag) : tag ≠ Tag.value := by
  have hall : ∀ tag ∈ [Tag.null, Tag.bool, Tag.int, Tag.float, Tag.text, Tag.binary, Tag.timestamp],
      tag ≠ Tag.value := by decide
  exact hall tag h

/-- The entries of a mapping that merges no other one, with the keys that aliases stand for. -/
theorem mergedEntries_eq {entries : List (Node × Node)} (h : ∀ e ∈ entries, IsKeyNode document e.1)
    (merging : List (Nat × List (Node × Node))) :
    mergedEntries document (fuel + 1) merging label entries =
      .ok (entries.map fun e => (e.1.deref document, e.2)) := by
  have hmerge : ∀ e ∈ entries, ((e.1.deref document).tag == Tag.merge) = false := by
    intro e he
    obtain ⟨l, tag, text, heq, htag⟩ := h e he
    rw [heq]
    exact htag.not_merge
  have hnone : (entries.filter fun e => (e.1.deref document).tag == Tag.merge) = [] := by
    rw [List.filter_eq_nil_iff]
    intro e he
    rw [hmerge e he]
    exact Bool.false_ne_true
  have hall : (entries.filter fun e => !((e.1.deref document).tag == Tag.merge)) = entries := by
    rw [List.filter_eq_self]
    intro e he
    rw [hmerge e he]
    rfl
  have hsame : (entries.map fun e => (plainKey (e.1.deref document), e.2)) =
      entries.map fun e => (e.1.deref document, e.2) := by
    refine List.map_congr_left fun e he => ?_
    obtain ⟨l, tag, text, heq, htag⟩ := h e he
    rw [heq, plainKey, if_neg htag.ne_value]
  rw [mergedEntries]
  simp only [hnone, hall, hsame, List.mapM_nil]
  rfl

theorem buildValue_mapping {entries : List (Node × Node)} {values : List (Value × Value)}
    (hpath : label ∉ path) (hkeys : ∀ e ∈ entries, IsKeyNode document e.1)
    (h : buildEntries (buildValue number document fuel (innerPath depth label path) (depth + 1))
      (depth + 1) entries = .ok values) :
    buildValue number document (fuel + 1) path depth (.mapping label Tag.mapping entries) =
      .ok (.map (some ⟨number, label⟩) (collectEntries values)) := by
  have hcontains : path.contains label = false := by simpa using hpath
  have hknown : isKnownTag Tag.mapping = true := by decide
  have hcollection : isCollectionTag Tag.mapping = true := by decide
  have hself : (Node.mapping label Tag.mapping entries).deref document = .mapping label Tag.mapping entries := rfl
  rw [← buildEntries_deref, innerPath] at h
  rw [buildValue]
  simp only [hself, Node.tag, hcontains, hknown, hcollection, Bool.false_eq_true, Bool.not_true,
    ↓reduceIte, mergedEntries_eq hkeys]
  simp only [Except.mapError, ok_bind, h]
  rfl

theorem buildValue_set {entries : List (Node × Node)} {values : List (Value × Value)}
    (hpath : label ∉ path) (hkeys : ∀ e ∈ entries, IsKeyNode document e.1)
    (h : buildEntries (buildValue number document fuel (innerPath depth label path) (depth + 1))
      (depth + 1) entries = .ok values) :
    buildValue number document (fuel + 1) path depth (.mapping label Tag.set entries) =
      .ok (.set (some ⟨number, label⟩) (collectElements (values.map (·.1)))) := by
  have hcontains : path.contains label = false := by simpa using hpath
  have hknown : isKnownTag Tag.set = true := by decide
  have hcollection : isCollectionTag Tag.set = true := by decide
  have hself : (Node.mapping label Tag.set entries).deref document = .mapping label Tag.set entries := rfl
  rw [← buildEntries_deref, innerPath] at h
  rw [buildValue]
  simp only [hself, Node.tag, hcontains, hknown, hcollection, Bool.false_eq_true, Bool.not_true,
    ↓reduceIte, mergedEntries_eq hkeys, show (Tag.set = Tag.mapping) = False by decide]
  simp only [Except.mapError, ok_bind, h]
  rfl

end Building

/-! ## Nodes that depict objects -/

/-- Do the nodes of a document depict values of which each shows what an object is? -/
structure Portrays (objects : Label → Value → Prop) (owners : List (Option Label)) (document : Node) :
    Prop where
  labels : HaveLabels 0 owners.length document.parts
  distinct : ∀ {i j : Nat} {l : Label}, owners[i]? = some (some l) → owners[j]? = some (some l) → i = j
  functional : AreObjects objects
  shown : ∀ n ∈ document.parts, ∃ v, Depicts owners n v ∧
    (¬ IsAgain v → ∀ l, labelOf v = some l → objects l (outline v))

/-- Does a node depict a value that a collection mentions as it mentions another one? -/
def Resembles (owners : List (Option Label)) (n : Node) (v : Value) : Prop :=
  ∃ u, Depicts owners n u ∧ mention u = mention v

section Depicts

variable {owners : List (Option Label)} {n : Node} {v : Value} {k : Nat}

/-- A node that is no alias depicts the object that the list has for it, and more than its label. -/
theorem Depicts.owner (h : Depicts owners n v) (hlabel : n.label? = some k) :
    owners[k]? = some (labelOf v) ∧ ¬ IsAgain v ∧ ∀ label a b, v ≠ .pair label a b := by
  have hform : ∀ {tag text : String} {asLines : Bool}, scalarForm v = some (tag, text, asLines) →
      ¬ IsAgain v ∧ ∀ label a b, v ≠ .pair label a b := by
    intro tag text asLines hform
    constructor
    · rintro ⟨l, rfl⟩
      cases hform
    · rintro label a b rfl
      cases hform
  match n, v, h, hlabel with
  | .scalar .., v, ⟨hk, asLines, h⟩, rfl => exact ⟨hk, hform h⟩
  | .sequence .., .list .., ⟨hk, _⟩, rfl => exact ⟨hk, nofun, nofun⟩
  | .mapping .., .map .., ⟨hk, _⟩, rfl => exact ⟨hk, nofun, nofun⟩
  | .mapping .., .set .., ⟨hk, _⟩, rfl => exact ⟨hk, nofun, nofun⟩

theorem depictItems_resembles {ns : List Node} {us vs : List Value} (h : depictItems owners ns us)
    (hsame : us.map mention = vs.map mention) :
    List.Forall₂ (Resembles owners) ns vs := by
  induction ns generalizing us vs with
  | nil =>
    match us, h with
    | [], _ =>
      obtain rfl := List.map_eq_nil_iff.mp hsame.symm
      exact .nil
  | cons n ns ih =>
    match us, vs, h, hsame with
    | u :: us, v :: vs, ⟨hn, hns⟩, hsame =>
      obtain ⟨hfirst, hrest⟩ := List.cons.inj hsame
      exact .cons ⟨u, hn, hfirst⟩ (ih hns hrest)

theorem depictEntries_resembles {ns : List (Node × Node)} {us vs : List (Value × Value)}
    (h : depictEntries owners ns us)
    (hsame : us.map (fun e => (mention e.1, mention e.2)) = vs.map fun e => (mention e.1, mention e.2)) :
    List.Forall₂ (fun n v => Resembles owners n.1 v.1 ∧ Resembles owners n.2 v.2) ns vs := by
  induction ns generalizing us vs with
  | nil =>
    match us, h with
    | [], _ =>
      obtain rfl := List.map_eq_nil_iff.mp hsame.symm
      exact .nil
  | cons n ns ih =>
    match us, vs, h, hsame with
    | u :: us, v :: vs, ⟨hk, hv, hns⟩, hsame =>
      obtain ⟨hfirst, hrest⟩ := List.cons.inj hsame
      obtain ⟨hkey, hvalue⟩ := Prod.mk.inj hfirst
      exact .cons ⟨⟨_, hk, hkey⟩, _, hv, hvalue⟩ (ih hns hrest)

/-! What shows an outline is a node of the same kind. -/

theorem isScalar_of_scalarForm {v : Value} {form : String × String × Bool}
    (h : scalarForm v = some form) : v.IsScalar := by
  cases v with
  | list | pair | set | map | again => cases h
  | _ => trivial

theorem outline_ne_of_scalarForm {u v : Value} {form : String × String × Bool}
    (h : scalarForm u = some form) (hv : ¬ (outline v).IsScalar) : outline u ≠ outline v := by
  have hscalar := isScalar_of_scalarForm h
  intro houtline
  rw [← houtline, outline_of_isScalar hscalar] at hv
  exact hv hscalar

theorem Depicts.exists_scalar {u : Value} (h : Depicts owners n u) (hk : n.label? = some k)
    (houtline : outline u = outline v) (hv : v.IsScalar) :
    ∃ tag text asLines, n = .scalar k tag text ∧ scalarForm v = some (tag, text, asLines) := by
  obtain rfl : u = v := by
    cases v <;> first | exact absurd hv id | (cases u <;> first | exact houtline | cases houtline)
  match n, h, hk with
  | .scalar _ tag text, ⟨_, asLines, hform⟩, rfl => exact ⟨tag, text, asLines, rfl, hform⟩
  | .sequence .., h, _ | .mapping .., h, _ =>
    cases u <;> first | exact absurd hv id | exact absurd h id

theorem Depicts.exists_sequence {u : Value} {label : Option Label} {items : List Value}
    (h : Depicts owners n u) (hk : n.label? = some k)
    (houtline : outline u = outline (.list label items)) :
    ∃ ns, n = .sequence k Tag.sequence ns ∧ List.Forall₂ (Resembles owners) ns items := by
  match n, u, h, hk with
  | .sequence _ _ ns, .list _ us, ⟨_, rfl, hitems⟩, rfl =>
    exact ⟨ns, rfl, depictItems_resembles hitems (Value.list.inj houtline).2⟩
  | .mapping .., .map .., _, _ | .mapping .., .set .., _, _ => cases houtline
  | .scalar .., u, ⟨_, _, hform⟩, _ => exact absurd houtline (outline_ne_of_scalarForm hform id)

theorem Depicts.exists_set {u : Value} {label : Option Label} {elements : List Value}
    (h : Depicts owners n u) (hk : n.label? = some k)
    (houtline : outline u = outline (.set label elements)) :
    ∃ ns, n = .mapping k Tag.set ns ∧
      List.Forall₂ (fun n v => Resembles owners n.1 v.1 ∧ Resembles owners n.2 v.2) ns
        (elements.map (·, .null)) := by
  match n, u, h, hk with
  | .mapping _ _ ns, .set _ us, ⟨_, rfl, hentries⟩, rfl =>
    obtain rfl : us = elements := (Value.set.inj houtline).2
    exact ⟨ns, rfl, depictEntries_resembles hentries rfl⟩
  | .mapping .., .map .., _, _ | .sequence .., .list .., _, _ => cases houtline
  | .scalar .., u, ⟨_, _, hform⟩, _ => exact absurd houtline (outline_ne_of_scalarForm hform id)

theorem Depicts.exists_mapping {u : Value} {label : Option Label} {entries : List (Value × Value)}
    (h : Depicts owners n u) (hk : n.label? = some k)
    (houtline : outline u = outline (.map label entries)) :
    ∃ ns, n = .mapping k Tag.mapping ns ∧
      List.Forall₂ (fun n v => Resembles owners n.1 v.1 ∧ Resembles owners n.2 v.2) ns entries := by
  match n, u, h, hk with
  | .mapping _ _ ns, .map _ us, ⟨_, rfl, hentries⟩, rfl =>
    refine ⟨ns, rfl, depictEntries_resembles hentries ?_⟩
    have hmentioned := congrArg (List.map fun e : Value × Value => (mention e.1, e.2))
      (Value.map.inj houtline).2
    simpa only [List.map_map, Function.comp_def] using hmentioned
  | .mapping .., .set .., _, _ | .sequence .., .list .., _, _ => cases houtline
  | .scalar .., u, ⟨_, _, hform⟩, _ => exact absurd houtline (outline_ne_of_scalarForm hform id)

end Depicts

namespace Portrays

variable {objects : Label → Value → Prop} {owners : List (Option Label)} {document n : Node}
  {v : Value} (h : Portrays objects owners document)

include h

theorem isNumbered : document.IsNumbered := by
  rw [Node.IsNumbered, Node.labels, h.labels.2]
  exact List.pairwise_lt_range'

/-- A node that resembles a value stands for one that depicts the object, and shows its outline. -/
theorem exists_deref (hn : n ∈ document.parts) (hv : Resembles owners n v) :
    ∃ k, (n.deref document).label? = some k ∧ owners[k]? = some (labelOf v) ∧
      (labelOf v = none → n.label? = some k) ∧
      ((∀ l, labelOf v = some l → objects l (outline v)) →
        ∃ u, Depicts owners (n.deref document) u ∧ outline u = outline v) := by
  obtain ⟨u, hdepicts, hsame⟩ := hv
  have hlabel : labelOf u = labelOf v := by rw [← labelOf_mention, hsame, labelOf_mention]
  rw [← hlabel]
  -- a node that depicts an object with a label shows the outline of the object
  have hshows : ∀ {N : Node} {k : Nat} {l : Label}, N ∈ document.parts → N.label? = some k →
      owners[k]? = some (some l) → objects l (outline v) →
      ∃ u, Depicts owners N u ∧ outline u = outline v := by
    intro N k l hN hk howner hobject
    obtain ⟨w, hw, hshown⟩ := h.shown N hN
    obtain ⟨howner', hagain, -⟩ := hw.owner hk
    have hl : labelOf w = some l := Option.some.inj (howner'.symm.trans howner)
    exact ⟨w, hw, h.functional _ _ _ (hshown hagain l hl) hobject⟩
  match n, hdepicts with
  | .alias k, ⟨l, hl, howner⟩ =>
    have hmem : k ∈ document.labels := by
      have hlt := (List.getElem?_eq_some_iff.mp howner).1
      rw [Node.labels, h.labels.2, List.mem_range'_1]
      omega
    obtain ⟨N, hN, hk⟩ := List.mem_filterMap.mp hmem
    rw [Node.deref_alias (h.isNumbered.find?_eq hN hk), hl]
    exact ⟨k, hk, howner, fun h => absurd h (Option.some_ne_none l), fun hobject => hshows hN hk howner (hobject l rfl)⟩
  | .scalar k .., hdepicts | .sequence k .., hdepicts | .mapping k .., hdepicts =>
    obtain ⟨howner, -, hpair⟩ := hdepicts.owner rfl
    refine ⟨k, rfl, howner, fun _ => rfl, fun hobject => ?_⟩
    cases hl : labelOf u with
    | none => exact ⟨u, hdepicts, congrArg outline (eq_of_mention_of_unlabelled hsame hl hpair)⟩
    | some l => exact hshows hn rfl (hl ▸ howner) (hobject l hl)

end Portrays

/-! ## The path -/

/-- Is a node a scalar? -/
def Node.IsScalar : Node → Prop
  | .scalar .. => True
  | _ => False

/-- Are the nodes around a place those of the objects around a value? -/
structure Along (document : Node) (owners : List (Option Label)) (path : List Label)
    (nodes : List Nat) : Prop where
  nodup : nodes.Nodup
  inside : ∀ k ∈ nodes, ∃ N ∈ document.parts, N.label? = some k ∧ ¬ N.IsScalar
  same : ∀ {k : Nat} {l : Label}, owners[k]? = some (some l) → (k ∈ nodes ↔ l ∈ path)

/-- Do the labels around an object grow along the path to a node, as long as there is no object around
it? -/
def Grows (path : List Label) (nodes : List Nat) (n : Node) : Prop :=
  path = [] → ∀ k, n.label? = some k → ∀ j ∈ nodes, j < k

section Along

variable {objects : Label → Value → Prop} {owners : List (Option Label)} {path : List Label}
  {nodes : List Nat} {k : Nat} {v : Value} {document : Node}

theorem along_nil (document : Node) (owners : List (Option Label)) : Along document owners [] [] where
  nodup := List.nodup_nil
  inside := nofun
  same _ := by simp

theorem grows_nil (path : List Label) (n : Node) : Grows path [] n := fun _ _ _ => nofun

/-- What may be opened up is not the node of something around it. -/
theorem Along.not_mem (h : Along document owners path nodes) (hopens : OpensUp objects path v)
    (howner : owners[k]? = some (labelOf v)) {n : Node} (hgrows : Grows path nodes n)
    (hself : labelOf v = none → n.label? = some k) : k ∉ nodes := by
  intro hk
  cases hlabel : labelOf v with
  | none => exact Nat.lt_irrefl k (hgrows (hopens.bare hlabel) k (hself hlabel) k hk)
  | some l =>
    rw [hlabel] at howner
    exact (hopens.fresh l hlabel).1 ((h.same howner).mp hk)

/-- Below a node labels grow, if those above it did. -/
theorem Grows.step {n N : Node} (h : Grows path nodes n) (hself : labelOf v = none → n.label? = some k)
    (hbelow : ∀ j, N.label? = some j → k < j) :
    Grows ((labelOf v).toList ++ path) (k :: nodes) N := by
  intro hnil j hj
  obtain ⟨hnone, hpath⟩ := List.append_eq_nil_iff.mp hnil
  have hk := hself (by simpa using hnone)
  exact List.forall_mem_cons.mpr
    ⟨hbelow j hj, fun i hi => Nat.lt_trans (h hpath k hk i hi) (hbelow j hj)⟩

/-- One step further in. -/
theorem Along.step (h : Along document owners path nodes)
    (hdistinct : ∀ {i j : Nat} {l : Label}, owners[i]? = some (some l) → owners[j]? = some (some l) →
      i = j) {label : Option Label} (howner : owners[k]? = some label) (hk : k ∉ nodes)
    {N : Node} (hN : N ∈ document.parts) (hlabel : N.label? = some k) (hscalar : ¬ N.IsScalar) :
    Along document owners (label.toList ++ path) (k :: nodes) where
  nodup := List.nodup_cons.mpr ⟨hk, h.nodup⟩
  inside := List.forall_mem_cons.mpr ⟨⟨N, hN, hlabel, hscalar⟩, h.inside⟩
  same {j l} hj := by
    rw [List.mem_cons, List.mem_append, h.same hj, Option.mem_toList]
    refine or_congr_left ⟨?_, ?_⟩
    · rintro rfl
      exact Option.some.inj (howner.symm.trans hj)
    · rintro rfl
      exact hdistinct hj howner

end Along

/-! ## Every value -/

/-- The label of the object that a node of the document with a number depicts. -/
def ownerOf (number : Nat) (owners : List (Option Label)) (l : Label) : Option Label :=
  if l.document = number then owners[l.node]?.join else none

/-- Is a value built, with other labels? -/
def BuildsTo (number : Nat) (owners : List (Option Label)) (build : Node → Built Value) (n : Node)
    (v : Value) : Prop :=
  ∃ v', build n = .ok v' ∧ v'.renamed (ownerOf number owners) = v

section Every

variable {number : Nat} {owners : List (Option Label)} {build : Node → Built Value}

theorem ownerOf_eq {k : Nat} {label : Option Label} (h : owners[k]? = some label) :
    ownerOf number owners ⟨number, k⟩ = label := by
  rw [ownerOf, if_pos rfl, h]
  rfl

theorem exists_all {ns : List Node} {vs : List Value} (hsame : List.Forall₂ (Resembles owners) ns vs)
    (h : ∀ n ∈ ns, ∀ v ∈ vs, Resembles owners n v → BuildsTo number owners build n v) :
    ∃ vs', Built.all (ns.map build) = .ok vs' ∧ Value.renamedItems (ownerOf number owners) vs' = vs := by
  induction hsame with
  | nil => exact ⟨[], rfl, rfl⟩
  | cons hfirst hrest ih =>
    simp only [List.forall_mem_cons] at h
    obtain ⟨v', hv', hsame⟩ := h.1.1 hfirst
    obtain ⟨vs', hvs', hsame'⟩ := ih fun n hn => (h.2 n hn).2
    refine ⟨v' :: vs', ?_, by rw [Value.renamedItems, hsame, hsame']⟩
    rw [List.map_cons, Built.all, hv', hvs']
    rfl

theorem exists_entries {document : Node} {ns : List (Node × Node)} {vs : List (Value × Value)}
    (hsame : List.Forall₂ (fun n v => Resembles owners n.1 v.1 ∧ Resembles owners n.2 v.2) ns vs)
    (hscalar : ∀ v ∈ vs, v.1.IsScalar)
    (hkey : ∀ n ∈ ns, ∀ v ∈ vs, Resembles owners n.1 v.1 →
      IsKeyNode document n.1 ∧ BuildsTo number owners build n.1 v.1)
    (hvalue : ∀ n ∈ ns, ∀ v ∈ vs, Resembles owners n.2 v.2 → BuildsTo number owners build n.2 v.2)
    (level : Nat) :
    (∀ n ∈ ns, IsKeyNode document n.1) ∧ ∃ vs', buildEntries build level ns = .ok vs' ∧
      Value.renamedEntries (ownerOf number owners) vs' = vs := by
  induction hsame with
  | nil => exact ⟨nofun, [], rfl, rfl⟩
  | cons hfirst hrest ih =>
    simp only [List.forall_mem_cons] at hscalar hkey hvalue
    obtain ⟨hisKey, k', hk', hsameKey⟩ := hkey.1.1 hfirst.1
    obtain ⟨v', hv', hsameValue⟩ := hvalue.1.1 hfirst.2
    obtain ⟨hareKeys, vs', hvs', hsame'⟩ :=
      ih hscalar.2 (fun n hn => (hkey.2 n hn).2) fun n hn => (hvalue.2 n hn).2
    have hscalar' : k'.IsScalar := by
      rw [← Value.isScalar_renamed, hsameKey]
      exact hscalar.1
    refine ⟨List.forall_mem_cons.mpr ⟨hisKey, hareKeys⟩, (k', v') :: vs', ?_, ?_⟩
    · rw [buildEntries]
      simp only [hk', hscalar'.isKey, ↓reduceIte, hv', hvs']
      rfl
    · rw [Value.renamedEntries, hsameKey, hsameValue, hsame']

/-- Keys that are different scalars were so with other labels. -/
theorem hasKeys_of_renamed {names : Label → Option Label} {keys : List Value}
    (h : HasKeys (keys.map (Value.renamed names))) : HasKeys keys := by
  have hscalar : ∀ k ∈ keys, k.IsScalar := fun k hk =>
    Value.isScalar_renamed.mp (h.1 _ (List.mem_map_of_mem hk))
  refine h.of_unlabelled ?_
  rw [List.map_map]
  exact List.map_congr_left fun k hk => (Value.unlabelled_renamed_of_isScalar (hscalar k hk)).symm

end Every

namespace Portrays

variable {objects : Label → Value → Prop} {owners : List (Option Label)} {document : Node}
  (h : Portrays objects owners document)

/-- No path is longer than the document. -/
theorem exists_fuel {path : List Label} {nodes : List Nat} (halong : Along document owners path nodes) {fuel : Nat}
    (hfuel : fuel + nodes.length = document.size + 2) : ∃ rest, fuel = rest + 1 ∧
      rest + (nodes.length + 1) = document.size + 2 := by
  have hlength : nodes.length ≤ document.size := by
    refine Node.length_le_size halong.nodup fun k hk => ?_
    obtain ⟨N, hN, hlabel, -⟩ := halong.inside k hk
    exact List.mem_filterMap.mpr ⟨N, hN, hlabel⟩
  exact ⟨fuel - 1, by omega, by omega⟩

include h

/-- The node of a scalar stands for that scalar. -/
theorem exists_scalar {path : List Label} {n : Node} {v : Value} (hv : Unfolds objects path v)
    (hscalar : v.IsScalar) (hn : n ∈ document.parts) (hsame : Resembles owners n v) :
    ∃ k tag text asLines, n.deref document = .scalar k tag text ∧
      scalarForm v = some (tag, text, asLines) ∧ owners[k]? = some (labelOf v) := by
  obtain ⟨k, hk, howner, -, hshows⟩ := h.exists_deref hn hsame
  have hagain : ¬ IsAgain v := by
    rintro ⟨l, rfl⟩
    exact hscalar
  obtain ⟨u, hdepicts, houtline⟩ := hshows fun l hl => hv.objects_outline hagain hl
  obtain ⟨tag, text, asLines, hderef, hform⟩ := hdepicts.exists_scalar hk houtline hscalar
  exact ⟨k, tag, text, asLines, hderef, hform, howner⟩

theorem isKeyNode {path : List Label} {n : Node} {v : Value} (hv : Unfolds objects path v)
    (hscalar : v.IsScalar) (hn : n ∈ document.parts) (hsame : Resembles owners n v) :
    IsKeyNode document n := by
  obtain ⟨k, tag, text, asLines, hderef, hform, -⟩ := h.exists_scalar hv hscalar hn hsame
  exact ⟨k, tag, text, hderef, isScalarTag_of_scalarForm hform⟩

theorem exists_build_scalar (number : Nat) {path : List Label} {v : Value} (hv : Unfolds objects path v)
    (hscalar : v.IsScalar) (hread : ComesBack v) {n : Node} {nodes : List Nat} {fuel : Nat} (depth : Nat)
    (hn : n ∈ document.parts) (hsame : Resembles owners n v)
    (halong : Along document owners path nodes) :
    BuildsTo number owners (buildValue number document (fuel + 1) nodes depth) n v := by
  obtain ⟨k, tag, text, asLines, hderef, hform, howner⟩ := h.exists_scalar hv hscalar hn hsame
  obtain ⟨tag', text', asLines', hform', hvalue⟩ := hread
  obtain ⟨rfl, rfl, rfl⟩ : tag = tag' ∧ text = text' ∧ asLines = asLines' := by
    simpa using hform.symm.trans hform'
  have hhere : Node.scalar k tag text ∈ document.parts := hderef ▸ Node.deref_mem_parts hn
  have hnew : k ∉ nodes := by
    intro hk
    obtain ⟨N, hN, hlabel, hcollection⟩ := halong.inside k hk
    have hfound := h.isNumbered.find?_eq hhere rfl
    rw [h.isNumbered.find?_eq hN hlabel] at hfound
    rw [Option.some.inj hfound] at hcollection
    exact hcollection trivial
  refine ⟨_, ?_, renamed_withLabel hscalar (ownerOf_eq howner)⟩
  rw [← buildValue_deref, hderef]
  exact buildValue_scalar hnew (isScalarTag_of_scalarForm hform) (hvalue _)

/-- What may be opened up stands for a node that is not around it, and depicts its outline. -/
theorem exists_opened {path : List Label} {v : Value} (hopens : OpensUp objects path v) {n : Node}
    {nodes : List Nat} (hn : n ∈ document.parts) (hsame : Resembles owners n v)
    (halong : Along document owners path nodes) (hgrows : Grows path nodes n) :
    ∃ k u, (n.deref document).label? = some k ∧ owners[k]? = some (labelOf v) ∧ k ∉ nodes ∧
      (labelOf v = none → n.label? = some k) ∧ Depicts owners (n.deref document) u ∧
      outline u = outline v := by
  obtain ⟨k, hk, howner, hself, hshows⟩ := h.exists_deref hn hsame
  obtain ⟨u, hdepicts, houtline⟩ := hshows fun l hl => (hopens.fresh l hl).2
  exact ⟨k, u, hk, howner, halong.not_mem hopens howner hgrows hself, hself, hdepicts, houtline⟩

/-- The entries of a node are built if their keys and values are, wherever labels grow. -/
theorem exists_built_entries {number k level : Nat} {tag : String} {ns : List (Node × Node)}
    {vs : List (Value × Value)} {inner : List Label} {nodes : List Nat} {build : Node → Built Value}
    (hN : Node.mapping k tag ns ∈ document.parts)
    (hall : List.Forall₂ (fun n v => Resembles owners n.1 v.1 ∧ Resembles owners n.2 v.2) ns vs)
    (hgrows : ∀ n, (∀ j, n.label? = some j → k < j) → Grows inner nodes n)
    (hkeys : ∀ e ∈ vs, e.1.IsScalar ∧ Unfolds objects inner e.1)
    (hbuild : ∀ e ∈ vs, ∀ n ∈ document.parts, Grows inner nodes n →
      (Resembles owners n e.1 → BuildsTo number owners build n e.1) ∧
        (Resembles owners n e.2 → BuildsTo number owners build n e.2)) :
    (∀ n ∈ ns, IsKeyNode document n.1) ∧ ∃ vs', buildEntries build level ns = .ok vs' ∧
      Value.renamedEntries (ownerOf number owners) vs' = vs := by
  have hbelow : ∀ n ∈ ns, Grows inner nodes n.1 ∧ Grows inner nodes n.2 := fun n hn =>
    ⟨hgrows _ fun _ hj => (h.isNumbered.of_mem_parts hN).lt_of_entry hn (.inl hj),
      hgrows _ fun _ hj => (h.isNumbered.of_mem_parts hN).lt_of_entry hn (.inr hj)⟩
  refine exists_entries hall (fun e he => (hkeys e he).1) (fun n hn e he hsame => ?_)
    (fun n hn e he hsame => ?_) level
  · have hpart := (Node.mem_parts_of_entry hN hn).1
    exact ⟨h.isKeyNode (hkeys e he).2 (hkeys e he).1 hpart hsame,
      (hbuild e he _ hpart (hbelow n hn).1).1 hsame⟩
  · exact (hbuild e he _ (Node.mem_parts_of_entry hN hn).2 (hbelow n hn).2).2 hsame

/-- **A node is built into each value that it resembles**, with other labels. -/
theorem exists_build (number : Nat) {path : List Label} {v : Value} (hv : Unfolds objects path v)
    (hread : IsRestorable v) {n : Node} {nodes : List Nat} {fuel : Nat} (depth : Nat)
    (hn : n ∈ document.parts) (hsame : Resembles owners n v)
    (halong : Along document owners path nodes) (hgrows : Grows path nodes n)
    (hfuel : fuel + nodes.length = document.size + 2) :
    BuildsTo number owners (buildValue number document fuel nodes (depth + 1)) n v := by
  -- along the value: below each collection one more node stands around the place
  induction hv generalizing n nodes fuel depth with
  | @scalar path v hscalar hobject =>
    obtain ⟨rest, rfl, -⟩ := exists_fuel halong hfuel
    exact h.exists_build_scalar number (.scalar hscalar hobject) hscalar
      (hread.comesBack hscalar) _ hn hsame halong
  | @again path l hl =>
    obtain ⟨rest, rfl, -⟩ := exists_fuel halong hfuel
    obtain ⟨k, hk, howner, -, -⟩ := h.exists_deref hn hsame
    refine ⟨.again ⟨number, k⟩, ?_, ?_⟩
    · rw [← buildValue_deref]
      exact buildValue_again hk ((halong.same howner).mpr hl)
    · rw [Value.renamed, ownerOf_eq howner]
      rfl
  | pair => exact absurd (hread _ .self) id
  | @list path label items hopens hitems ih =>
    obtain ⟨rest, rfl, hrest⟩ := exists_fuel halong hfuel
    obtain ⟨k, u, hk, howner, hnew, hself, hdepicts, houtline⟩ :=
      h.exists_opened hopens hn hsame halong hgrows
    obtain ⟨ns, hderef, hall⟩ := hdepicts.exists_sequence hk houtline
    have hN : Node.sequence k Tag.sequence ns ∈ document.parts := hderef ▸ Node.deref_mem_parts hn
    have hstep := halong.step h.distinct howner hnew hN rfl id
    have hvalues := (Value.everywhere_list_iff.mp hread).2
    obtain ⟨vs', hvs', hsame'⟩ := exists_all hall fun n' hn' v hv hsame =>
      ih v hv (hvalues v hv) (depth + 1) (Node.mem_parts_of_item hN hn') hsame hstep
        (hgrows.step hself fun _ hj => (h.isNumbered.of_mem_parts hN).lt_of_item hn' hj) hrest
    refine ⟨.list (some ⟨number, k⟩) vs', ?_, ?_⟩
    · rw [← buildValue_deref, hderef]
      exact buildValue_sequence hnew hvs'
    · rw [Value.renamed, hsame']
      exact congrArg (Value.list · items) (ownerOf_eq howner)
  | @set path label elements hopens helements ih =>
    obtain ⟨rest, rfl, hrest⟩ := exists_fuel halong hfuel
    obtain ⟨k, u, hk, howner, hnew, hself, hdepicts, houtline⟩ :=
      h.exists_opened hopens hn hsame halong hgrows
    obtain ⟨ns, hderef, hall⟩ := hdepicts.exists_set hk houtline
    have hN : Node.mapping k Tag.set ns ∈ document.parts := hderef ▸ Node.deref_mem_parts hn
    have hstep := halong.step h.distinct howner hnew hN rfl id
    obtain ⟨hkeys, hvalues⟩ := Value.everywhere_set_iff.mp hread
    have hnull : ∀ n ∈ document.parts, Resembles owners n .null → BuildsTo number owners
        (buildValue number document rest (k :: nodes) (depth + 1 + 1)) n .null := by
      intro n hn hsame
      obtain ⟨rest, rfl, -⟩ := exists_fuel hstep hrest
      exact h.exists_build_scalar number unfolds_null trivial comesBack_null _ hn hsame hstep
    obtain ⟨hareKeys, vs', hvs', hsame'⟩ := h.exists_built_entries hN hall
      (fun _ => hgrows.step hself)
      (List.forall_mem_map.mpr fun v hv => ⟨hkeys.1 v hv, helements v hv⟩)
      (List.forall_mem_map.mpr fun v hv n hn hgrows =>
        ⟨fun hsame => ih v hv (hvalues v hv) (depth + 1) hn hsame hstep hgrows hrest, hnull n hn⟩)
    have hall' : (vs'.map (·.1)).map (Value.renamed (ownerOf number owners)) = elements := by
      rw [Value.renamedEntries_eq] at hsame'
      simpa [Function.comp_def] using congrArg (List.map Prod.fst) hsame'
    refine ⟨.set (some ⟨number, k⟩) (collectElements (vs'.map (·.1))), ?_, ?_⟩
    · rw [← buildValue_deref, hderef]
      exact buildValue_set hnew hareKeys hvs'
    · rw [collectElements_of_hasKeys (hasKeys_of_renamed (hall'.symm ▸ hkeys)), Value.renamed,
        Value.renamedItems_eq, hall']
      exact congrArg (Value.set · elements) (ownerOf_eq howner)
  | @map path label entries hopens hkeys hvalues ihkeys ihvalues =>
    obtain ⟨rest, rfl, hrest⟩ := exists_fuel halong hfuel
    obtain ⟨k, u, hk, howner, hnew, hself, hdepicts, houtline⟩ :=
      h.exists_opened hopens hn hsame halong hgrows
    obtain ⟨ns, hderef, hall⟩ := hdepicts.exists_mapping hk houtline
    have hN : Node.mapping k Tag.mapping ns ∈ document.parts := hderef ▸ Node.deref_mem_parts hn
    have hstep := halong.step h.distinct howner hnew hN rfl id
    obtain ⟨hself', hparts⟩ := Value.everywhere_map_iff.mp hread
    have hdistinct : HasKeys (entries.map (·.1)) := hself'
    obtain ⟨hareKeys, vs', hvs', hsame'⟩ := h.exists_built_entries hN hall
      (fun _ => hgrows.step hself)
      (fun e he => ⟨hdistinct.1 _ (List.mem_map_of_mem he), hkeys e he⟩)
      (fun e he n hn hgrows =>
        ⟨fun hsame => ihkeys e he (hparts e he).1 (depth + 1) hn hsame hstep hgrows hrest,
          fun hsame => ihvalues e he (hparts e he).2 (depth + 1) hn hsame hstep hgrows hrest⟩)
    have hall' : (vs'.map (·.1)).map (Value.renamed (ownerOf number owners)) = entries.map (·.1) := by
      rw [Value.renamedEntries_eq] at hsame'
      simpa [Function.comp_def] using congrArg (List.map Prod.fst) hsame'
    refine ⟨.map (some ⟨number, k⟩) (collectEntries vs'), ?_, ?_⟩
    · rw [← buildValue_deref, hderef]
      exact buildValue_mapping hnew hareKeys hvs'
    · rw [collectEntries_of_hasKeys (hasKeys_of_renamed (hall'.symm ▸ hdistinct)), Value.renamed, hsame']
      exact congrArg (Value.map · entries) (ownerOf_eq howner)

end Portrays

/-! ## The document -/

section Document

variable {objects : Label → Value → Prop} {owners : List (Option Label)}

mutual

/-- The nodes below a node that depicts a view of objects depict views of objects, too. -/
theorem exists_depicts : {n : Node} → {v : Value} → {path : List Label} → Depicts owners n v →
    Unfolds objects path v → ∀ m ∈ n.parts, ∃ u inner, Depicts owners m u ∧ Unfolds objects inner u
  | .scalar .., v, path, h, hv, m, hm | .alias _, v, path, h, hv, m, hm => by
    obtain rfl := List.mem_singleton.mp hm
    exact ⟨v, path, h, hv⟩
  | .sequence k tag ns, .list label vs, path, h, hv, m, hm => by
    rcases List.mem_cons.mp hm with rfl | hm
    · exact ⟨_, path, h, hv⟩
    · cases hv with
      | scalar hscalar => exact absurd hscalar id
      | list _ hitems => exact exists_depicts_items h.2.2 hitems m hm
  | .mapping k tag ns, .map label vs, path, h, hv, m, hm => by
    rcases List.mem_cons.mp hm with rfl | hm
    · exact ⟨_, path, h, hv⟩
    · cases hv with
      | scalar hscalar => exact absurd hscalar id
      | map _ hkeys hvalues =>
        exact exists_depicts_entries h.2.2 (fun e he => ⟨hkeys e he, hvalues e he⟩) m hm
  | .mapping k tag ns, .set label vs, path, h, hv, m, hm => by
    rcases List.mem_cons.mp hm with rfl | hm
    · exact ⟨_, path, h, hv⟩
    · cases hv with
      | scalar hscalar => exact absurd hscalar id
      | set _ helements =>
        have hvalues : ∀ e ∈ vs.map (·, Value.null),
            Unfolds objects (label.toList ++ path) e.1 ∧ Unfolds objects (label.toList ++ path) e.2 :=
          List.forall_mem_map.mpr fun v hv => ⟨helements v hv, unfolds_null⟩
        exact exists_depicts_entries h.2.2 hvalues m hm

theorem exists_depicts_items : {ns : List Node} → {vs : List Value} → {path : List Label} →
    depictItems owners ns vs → (∀ v ∈ vs, Unfolds objects path v) →
    ∀ m ∈ Node.itemParts ns, ∃ u inner, Depicts owners m u ∧ Unfolds objects inner u
  | n :: ns, v :: vs, path, ⟨hn, hns⟩, hv, m, hm => by
    rw [List.forall_mem_cons] at hv
    rcases List.mem_append.mp hm with hm | hm
    · exact exists_depicts hn hv.1 m hm
    · exact exists_depicts_items hns hv.2 m hm

theorem exists_depicts_entries : {ns : List (Node × Node)} → {vs : List (Value × Value)} →
    {path : List Label} → depictEntries owners ns vs →
    (∀ e ∈ vs, Unfolds objects path e.1 ∧ Unfolds objects path e.2) →
    ∀ m ∈ Node.entryParts ns, ∃ u inner, Depicts owners m u ∧ Unfolds objects inner u
  | (nk, nv) :: ns, (k, v) :: vs, path, ⟨hk, hv, hns⟩, he, m, hm => by
    rw [List.forall_mem_cons] at he
    rcases List.mem_append.mp hm with hm | hm
    · exact exists_depicts hk he.1.1 m hm
    · rcases List.mem_append.mp hm with hm | hm
      · exact exists_depicts hv he.1.2 m hm
      · exact exists_depicts_entries hns he.2 m hm

end

/-- The nodes of a document that depicts a view of objects portray the objects. -/
theorem Agrees.portrays {anchored : List Label} {o : Occurrences} {anchors : List (String × Nat)}
    (h : Agrees anchored o anchors owners) {document : Node} {v : Value}
    (hlabels : HaveLabels 0 owners.length document.parts) (hdepicts : Depicts owners document v)
    (hv : Unfolds objects [] v) (hobjects : AreObjects objects) : Portrays objects owners document where
  labels := hlabels
  distinct := h.distinct
  functional := hobjects
  shown n hn := by
    obtain ⟨u, inner, hu, hunfolds⟩ := exists_depicts hdepicts hv n hn
    exact ⟨u, hu, fun hagain l hl => hunfolds.objects_outline hagain hl⟩

/-- Two nodes of one document do not depict the same object. -/
theorem Portrays.ownerOf_inj {document : Node} (h : Portrays objects owners document) {number : Nat}
    {a b l : Label} (ha : ownerOf number owners a = some l) (hb : ownerOf number owners b = some l) :
    a = b := by
  simp only [ownerOf, Option.ite_none_right_eq_some, Option.join_eq_some_iff] at ha hb
  have hnode := h.distinct ha.2 hb.2
  obtain ⟨document, node⟩ := a
  obtain ⟨document', node'⟩ := b
  rw [Label.mk.injEq]
  exact ⟨ha.1.trans hb.1.symm, hnode⟩

/-- **A document is read as the map that it shows**, with other labels for its objects. -/
theorem readValue_document {anchored : List Label} {entries : List (Bool × Written × Written)}
    {values : List (Value × Value)} (hsome : entries ≠ []) (hread : Written.areReadableEntries 0 entries)
    (hshows : Written.showEntries anchored ⟨[], []⟩ entries values)
    (hobjects : AreObjects objects)
    (hvalues : ∀ e ∈ values, Unfolds objects [] e.1 ∧ Unfolds objects [] e.2)
    (hback : IsRestorable (.map none values)) (number : Nat) :
    ∃ names v, readValue number (Written.entryChars [] 0 entries ++ ['\n']) = .ok v ∧
      (∀ a b l, names a = some l → names b = some l → a = b) ∧ v.renamed names = .map none values := by
  have hroot : Written.Shows anchored ⟨[], []⟩ (.map .none entries) (.map none values) :=
    Written.shows_map rfl rfl nofun hshows
  obtain ⟨document, anchors, owners, hnode, -, hagrees, hlabels, hdepicts⟩ :=
    hroot (agrees_nil anchored)
  have hrootUnfolds : Unfolds objects [] (.map none values) :=
    .map ⟨fun _ => rfl, nofun⟩ (fun e he => (hvalues e he).1) fun e he => (hvalues e he).2
  have hP := hagrees.portrays hlabels hdepicts hrootUnfolds hobjects
  -- the root is a mapping, and no object is met before it
  simp only [Written.node, Option.bind_eq_bind, Option.bind_eq_some_iff] at hnode
  obtain ⟨anchors₁, hset, ⟨ns, anchors₂, after⟩, hns, hresult⟩ := hnode
  obtain rfl := Option.some.inj hset
  obtain rfl : .mapping 0 Tag.mapping ns = document := (Prod.mk.inj (Option.some.inj hresult)).1
  have hread : readNode (Written.entryChars [] 0 entries ++ ['\n']) =
      .ok (some (.mapping 0 Tag.mapping ns)) := by
    rw [readNode, tokens_document hsome hread]
    exact document_tokens hns
  obtain ⟨howner, -, hentries⟩ := hdepicts
  obtain ⟨hself, hparts⟩ := Value.everywhere_map_iff.mp hback
  have hdistinct : HasKeys (values.map (·.1)) := hself
  have hN := Node.self_mem_parts (.mapping 0 Tag.mapping ns)
  obtain ⟨hareKeys, vs', hvs', hsame'⟩ := hP.exists_built_entries
    hN (depictEntries_resembles hentries rfl) (fun n _ => grows_nil [] n)
    (fun e he => ⟨hdistinct.1 _ (List.mem_map_of_mem he), (hvalues e he).1⟩)
    (fun e he n hn hgrows =>
      have halong := along_nil (.mapping 0 Tag.mapping ns) owners
      ⟨fun hsame => hP.exists_build number (hvalues e he).1 (hparts e he).1 0 hn hsame halong hgrows rfl,
        fun hsame =>
          hP.exists_build number (hvalues e he).2 (hparts e he).2 0 hn hsame halong hgrows rfl⟩)
  have hkeys : (vs'.map (·.1)).map (Value.renamed (ownerOf number owners)) = values.map (·.1) := by
    rw [Value.renamedEntries_eq] at hsame'
    simpa [Function.comp_def] using congrArg (List.map Prod.fst) hsame'
  refine ⟨ownerOf number owners, .map (some ⟨number, 0⟩) (collectEntries vs'), ?_,
    fun _ _ _ => hP.ownerOf_inj, ?_⟩
  · rw [readValue, hread]
    simp only [Node.toValue]
    rw [buildValue_mapping List.not_mem_nil hareKeys hvs']
    rfl
  · rw [collectEntries_of_hasKeys (hasKeys_of_renamed (hkeys.symm ▸ hdistinct)), Value.renamed, hsame']
    exact congrArg (Value.map · values) (ownerOf_eq howner)

end Document

end DevMachines.Yaml
