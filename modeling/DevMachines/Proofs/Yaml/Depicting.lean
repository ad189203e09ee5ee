import DevMachines.Proofs.Yaml.Nodes
import DevMachines.Proofs.Yaml.Objects
import DevMachines.Proofs.Yaml.Parsing

/-!
# What the node of a written value depicts

A node *depicts* a value if its scalars have the tags and texts in which the value is written, its
collections depict what they contain, and an alias stands where the value has an object that some node
depicts.  Which object each node depicts is kept in a list, in the order of the labels of the nodes.

A written value *shows* a value if its node depicts it, whatever was written before: the objects that
have been met then are those that nodes depict so far, and each that is to be mentioned again has an
anchor (`Agrees`).

Main statements: `Written.shows_list`, `Written.shows_map`, `Written.shows_set` and
`Written.shows_alias`.
-/

namespace DevMachines.Yaml

/-! ## What nodes depict -/

mutual

/-- Does a node depict a value?  `owners` has the label of the object that each node depicts, in the
order of the nodes, and an alias depicts an object that has been met. -/
def Depicts (owners : List (Option Label)) : Node → Value → Prop
  | .alias k, v => ∃ l, labelOf v = some l ∧ owners[k]? = some (some l)
  | .scalar k tag text, v =>
      owners[k]? = some (labelOf v) ∧ ∃ asLines, scalarForm v = some (tag, text, asLines)
  | .sequence k tag items, .list label values =>
      owners[k]? = some label ∧ tag = Tag.sequence ∧ depictItems owners items values
  | .mapping k tag entries, .map label values =>
      owners[k]? = some label ∧ tag = Tag.mapping ∧ depictEntries owners entries values
  | .mapping k tag entries, .set label elements =>
      owners[k]? = some label ∧ tag = Tag.set ∧
        depictEntries owners entries (elements.map (·, .null))
  | _, _ => False

/-- Do nodes depict items? -/
def depictItems (owners : List (Option Label)) : List Node → List Value → Prop
  | [], [] => True
  | n :: ns, v :: vs => Depicts owners n v ∧ depictItems owners ns vs
  | _, _ => False

/-- Do nodes depict entries? -/
def depictEntries (owners : List (Option Label)) : List (Node × Node) → List (Value × Value) → Prop
  | [], [] => True
  | (nk, nv) :: ns, (k, v) :: vs =>
      Depicts owners nk k ∧ Depicts owners nv v ∧ depictEntries owners ns vs
  | _, _ => False

end

theorem getElem?_of_isPrefix {α : Type} {xs more : List α} (h : xs <+: more) {k : Nat} {x : α}
    (hk : xs[k]? = some x) : more[k]? = some x := by
  obtain ⟨rest, rfl⟩ := h
  rw [List.getElem?_append_left (List.getElem?_eq_some_iff.mp hk).1, hk]

mutual

/-- What follows changes nothing. -/
theorem Depicts.mono {owners more : List (Option Label)} (hmore : owners <+: more) :
    {n : Node} → {v : Value} → Depicts owners n v → Depicts more n v
  | .alias _, _, ⟨l, hl, hk⟩ => ⟨l, hl, getElem?_of_isPrefix hmore hk⟩
  | .scalar .., _, ⟨hk, hform⟩ => ⟨getElem?_of_isPrefix hmore hk, hform⟩
  | .sequence .., .list .., ⟨hk, htag, hitems⟩ =>
    ⟨getElem?_of_isPrefix hmore hk, htag, depictItems_mono hmore hitems⟩
  | .mapping .., .map .., ⟨hk, htag, hentries⟩ =>
    ⟨getElem?_of_isPrefix hmore hk, htag, depictEntries_mono hmore hentries⟩
  | .mapping .., .set .., ⟨hk, htag, hentries⟩ =>
    ⟨getElem?_of_isPrefix hmore hk, htag, depictEntries_mono hmore hentries⟩

theorem depictItems_mono {owners more : List (Option Label)} (hmore : owners <+: more) :
    {ns : List Node} → {vs : List Value} → depictItems owners ns vs → depictItems more ns vs
  | [], [], _ => trivial
  | _ :: _, _ :: _, ⟨hn, hns⟩ => ⟨hn.mono hmore, depictItems_mono hmore hns⟩

theorem depictEntries_mono {owners more : List (Option Label)} (hmore : owners <+: more) :
    {ns : List (Node × Node)} → {vs : List (Value × Value)} → depictEntries owners ns vs →
    depictEntries more ns vs
  | [], [], _ => trivial
  | (_, _) :: _, (_, _) :: _, ⟨hk, hv, hns⟩ =>
    ⟨hk.mono hmore, hv.mono hmore, depictEntries_mono hmore hns⟩

end

/-! ## Anchors -/

theorem zeroPadded_inj {width m n : Nat} (h : zeroPadded width m = zeroPadded width n) : m = n := by
  have hread : ∀ n, readDigits? 10 (zeroPadded width n).toList = some n := by
    intro n
    rw [zeroPadded, String.toList_ofList]
    exact readDigits?_toDigits (by decide) (by decide) _ n
  exact Option.some.inj ((hread m).symm.trans (h ▸ hread n))

theorem isDigit_of_mem_zeroPadded {width n : Nat} {c : Char}
    (h : c ∈ (zeroPadded width n).toList) : isDigit c = true := by
  rw [zeroPadded, String.toList_ofList, padLeft, List.mem_append] at h
  rcases h with h | h
  · rw [List.eq_of_mem_replicate h]
    decide
  · exact Nat.isDigit_of_mem_toDigits (by decide) (by decide) h

/-- Different labels have different anchors. -/
theorem anchorOf_inj {anchored : List Label} {l l' : Label} {name : String}
    (h : anchorOf anchored (some l) = some name) (h' : anchorOf anchored (some l') = some name) :
    l = l' := by
  simp only [anchorOf, Option.bind_eq_bind, Option.bind_some, Option.ite_none_right_eq_some,
    Option.some.injEq, List.contains_iff_mem] at h h'
  obtain ⟨hl, rfl⟩ := h
  obtain ⟨hl', hname⟩ := h'
  have hindex : anchored.idxOf l' + 1 = anchored.idxOf l + 1 :=
    zeroPadded_inj (String.append_right_inj _ |>.mp hname)
  exact ((List.idxOf_inj hl').mp (Nat.succ.inj hindex)).symm

/-- Do the anchors that are set, and the objects that nodes depict so far, agree with what has been
met? -/
structure Agrees (anchored : List Label) (o : Occurrences) (anchors : List (String × Nat))
    (owners : List (Option Label)) : Prop where
  met : ∀ l, l ∈ o.met ↔ some l ∈ owners
  distinct : ∀ {i j : Nat} {l : Label}, owners[i]? = some (some l) → owners[j]? = some (some l) → i = j
  anchors : ∀ {l : Label} {name : String}, anchorOf anchored (some l) = some name →
    ∀ k, anchors.lookup name = some k ↔ owners[k]? = some (some l)

theorem agrees_nil (anchored : List Label) : Agrees anchored ⟨[], []⟩ [] [] where
  met _ := by simp
  distinct := by simp
  anchors := by simp

theorem getElem?_concat_eq_some {α : Type} {xs : List α} {x y : α} {i : Nat} :
    (xs ++ [x])[i]? = some y ↔ xs[i]? = some y ∨ i = xs.length ∧ x = y := by
  rcases Nat.lt_trichotomy i xs.length with hlt | rfl | hgt
  · rw [List.getElem?_append_left hlt]
    simp [Nat.ne_of_lt hlt]
  · simp
  · rw [List.getElem?_eq_none (by simpa using hgt), List.getElem?_eq_none (Nat.le_of_lt hgt)]
    simp [Nat.ne_of_gt hgt]

section Begin

variable {anchored : List Label} {o : Occurrences} {anchors : List (String × Nat)}
  {owners : List (Option Label)} {marks : Marks} {l : Label}

/-- A node that depicts no object of its own has no anchor and is nothing to mention. -/
theorem Agrees.begin_none (h : Agrees anchored o anchors owners) :
    Agrees anchored o anchors (owners ++ [none]) := by
  have hsame : ∀ {k : Nat} {l : Label},
      (owners ++ [none])[k]? = some (some l) ↔ owners[k]? = some (some l) := by
    intro k l
    rw [getElem?_concat_eq_some]
    simp
  refine ⟨fun l => ?_, fun hi hj => h.distinct (hsame.mp hi) (hsame.mp hj), fun hname k => ?_⟩
  · rw [h.met l]
    simp
  · rw [h.anchors hname k, hsame]

/-- The anchors once a node with an object that was not met begins. -/
def anchorsWith (anchored : List Label) (l : Label) (k : Nat) (anchors : List (String × Nat)) :
    List (String × Nat) :=
  match anchorOf anchored (some l) with
  | some name => (name, k) :: anchors
  | none => anchors

theorem Agrees.begin_some (h : Agrees anchored o anchors owners) (hnew : l ∉ o.met) :
    Agrees anchored { o with met := l :: o.met } (anchorsWith anchored l owners.length anchors)
      (owners ++ [some l]) := by
  have hfresh : ∀ k, owners[k]? ≠ some (some l) := fun k hk =>
    hnew ((h.met l).mpr (List.mem_of_getElem? hk))
  refine ⟨fun l' => ?_, fun {i j l'} hi hj => ?_, fun {l' name} hname k => ?_⟩
  · simp [h.met l', or_comm]
  · rw [getElem?_concat_eq_some, Option.some.injEq] at hi hj
    rcases hi with hi | ⟨rfl, rfl⟩ <;> rcases hj with hj | ⟨rfl, hj⟩
    · exact h.distinct hi hj
    · exact absurd (hj ▸ hi) (hfresh i)
    · exact absurd hj (hfresh j)
    · rfl
  · rw [getElem?_concat_eq_some, Option.some.injEq, anchorsWith]
    by_cases hl : l' = l
    · subst hl
      simp only [hname, List.lookup_cons, beq_self_eq_true, Option.some.injEq]
      simp [hfresh k, eq_comm]
    · rw [← h.anchors hname k]
      have hother : ∀ other, anchorOf anchored (some l) = some other → (name == other) = false := by
        rintro other hanchor
        rw [beq_eq_false_iff_ne]
        rintro rfl
        exact hl (anchorOf_inj hname hanchor)
      cases hanchor : anchorOf anchored (some l) with
      | none => simp [Ne.symm hl]
      | some other => simp [List.lookup_cons, hother other hanchor, Ne.symm hl]

/-- A node of its own begins. -/
theorem Agrees.exists_begin (h : Agrees anchored o anchors owners) {label : Option Label}
    (hnew : ∀ l, label = some l → l ∉ o.met)
    (hanchor : marks.anchor.map String.ofList = anchorOf anchored label) :
    ∃ anchors', marks.setAnchor owners.length anchors = some anchors' ∧
      Agrees anchored (o.note label).2 anchors' (owners ++ [label]) := by
  cases label with
  | none =>
    have hnone : marks.anchor = none := by
      simpa [anchorOf] using hanchor
    exact ⟨anchors, by rw [Marks.setAnchor, hnone], h.begin_none⟩
  | some l =>
    have hnote : (o.note (some l)).2 = { o with met := l :: o.met } := by
      simp [Occurrences.note, hnew l rfl]
    rw [hnote]
    refine ⟨_, ?_, h.begin_some (hnew l rfl)⟩
    cases hname : marks.anchor with
    | none =>
      rw [hname, Option.map_none] at hanchor
      rw [Marks.setAnchor, hname, anchorsWith, ← hanchor]
    | some name =>
      rw [hname, Option.map_some] at hanchor
      have hunset : anchors.lookup (String.ofList name) = none := by
        rw [Option.eq_none_iff_forall_ne_some]
        intro k hk
        have howner := (h.anchors hanchor.symm k).mp hk
        exact hnew l rfl ((h.met l).mpr (List.mem_of_getElem? howner))
      simp only [Marks.setAnchor, hname, hunset, anchorsWith, ← hanchor]
      rfl

end Begin

/-! ## What has been met -/

/-- What was met is not entered again. -/
theorem noteLabels_of_met {v : Value} {l : Label} (hl : labelOf v = some l) {o : Occurrences}
    (hmet : l ∈ o.met) : noteLabels v o = (o.note (some l)).2 := by
  have hnote : (o.note (some l)).1 = false := by simp [Occurrences.note, hmet]
  cases v with
  | list | pair | set | map =>
    obtain rfl : _ = some l := hl
    rw [noteLabels]
    simp only [hnote, Bool.false_eq_true, ↓reduceIte]
  | date | moment | again =>
    rw [noteLabels, hl]
    all_goals nofun
  | _ => cases hl

theorem met_note_of_met {l : Label} {o : Occurrences} (hmet : l ∈ o.met) :
    (o.note (some l)).2.met = o.met := by
  simp only [Occurrences.note, List.contains_iff_mem, hmet, ↓reduceIte]
  split <;> rfl

theorem note_isFirst {label : Option Label} {o : Occurrences}
    (hnew : ∀ l, label = some l → l ∉ o.met) : (o.note label).1 = true := by
  cases label with
  | none => rfl
  | some l => simp [Occurrences.note, hnew l rfl]

theorem noteLabels_of_scalarForm {v : Value} {tag text : String} {asLines : Bool}
    (h : scalarForm v = some (tag, text, asLines)) (o : Occurrences) :
    noteLabels v o = (o.note (labelOf v)).2 := by
  cases v <;> first | rfl | cases h

theorem noteLabels_list {label : Option Label} {vs : List Value} {o : Occurrences}
    (hnew : ∀ l, label = some l → l ∉ o.met) :
    noteLabels (.list label vs) o = noteItems vs (o.note label).2 := by
  rw [noteLabels]
  simp only [note_isFirst hnew, ↓reduceIte]

theorem noteLabels_map {label : Option Label} {vs : List (Value × Value)} {o : Occurrences}
    (hnew : ∀ l, label = some l → l ∉ o.met) :
    noteLabels (.map label vs) o = noteEntries vs (o.note label).2 := by
  rw [noteLabels]
  simp only [note_isFirst hnew, ↓reduceIte]

/-- The elements of a set are noted as keys of null are. -/
theorem noteEntries_elements (elements : List Value) (o : Occurrences) :
    noteEntries (elements.map (·, .null)) o = noteItems elements o := by
  induction elements generalizing o with
  | nil => rfl
  | cons v elements ih =>
    rw [List.map_cons, noteEntries, noteItems, ih]
    rfl

theorem noteLabels_set {label : Option Label} {vs : List Value} {o : Occurrences}
    (hnew : ∀ l, label = some l → l ∉ o.met) :
    noteLabels (.set label vs) o = noteEntries (vs.map (·, .null)) (o.note label).2 := by
  rw [noteLabels, noteEntries_elements]
  simp only [note_isFirst hnew, ↓reduceIte]

/-! ## What written values show -/

/-- Do nodes get the next labels and depict something, whatever was written before?  They come from what
has been met, and lead to what has been met behind them. -/
def Yields {α : Type} (anchored : List Label) (parts : α → List Node) (o o' : Occurrences)
    (run : List (String × Nat) → Nat → Option (α × List (String × Nat) × Nat))
    (depict : List (Option Label) → α → Prop) : Prop :=
  ∀ ⦃anchors owners⦄, Agrees anchored o anchors owners →
    ∃ x anchors' owners', run anchors owners.length = some (x, anchors', owners'.length) ∧
      owners <+: owners' ∧ Agrees anchored o' anchors' owners' ∧
      HaveLabels owners.length owners'.length (parts x) ∧ depict owners' x

namespace Written

/-- Does the node of a written value depict a value? -/
def Shows (anchored : List Label) (o : Occurrences) (w : Written) (v : Value) : Prop :=
  Yields anchored Node.parts o (noteLabels v o) (fun anchors next => w.node anchors next)
    fun owners n => Depicts owners n v

/-- Do the nodes of written items depict items? -/
def showItems (anchored : List Label) (o : Occurrences) (ws : List Written) (vs : List Value) : Prop :=
  Yields anchored Node.itemParts o (noteItems vs o) (fun anchors next => itemNodes anchors next ws)
    fun owners ns => depictItems owners ns vs

/-- Do the nodes of written entries depict entries? -/
def showEntries (anchored : List Label) (o : Occurrences) (ws : List (Bool × Written × Written))
    (vs : List (Value × Value)) : Prop :=
  Yields anchored Node.entryParts o (noteEntries vs o) (fun anchors next => entryNodes anchors next ws)
    fun owners ns => depictEntries owners ns vs

variable {anchored : List Label} {o : Occurrences} {marks : Marks} {label : Option Label}

/-- An alias shows an object that has been met. -/
theorem shows_alias {v : Value} {l : Label} {name : List Char} (hl : labelOf v = some l)
    (hmet : l ∈ o.met) (hname : anchorOf anchored (some l) = some (String.ofList name)) :
    Shows anchored o (.alias name) v := by
  intro anchors owners h
  obtain ⟨k, hk⟩ := List.getElem?_of_mem ((h.met l).mp hmet)
  have hlookup := (h.anchors hname k).mpr hk
  refine ⟨.alias k, anchors, owners, ?_, List.prefix_rfl, ?_, areFrom_nil _, l, hl, hk⟩
  · simp only [node, hlookup, Option.bind_eq_bind, Option.bind_some]
  · rw [noteLabels_of_met hl hmet]
    refine ⟨fun l' => ?_, h.distinct, h.anchors⟩
    rw [met_note_of_met hmet]
    exact h.met l'

/-- A scalar shows a value of its tag and text. -/
theorem shows_scalar {v : Value} {isPlain asLines : Bool} {text spelled : List Char}
    (hanchor : marks.anchor.map String.ofList = anchorOf anchored (labelOf v))
    (hnew : ∀ l, labelOf v = some l → l ∉ o.met)
    (hform : scalarForm v =
      some (NodeReader.scalarTag marks.fullTag (String.ofList text) isPlain, String.ofList text,
        asLines)) :
    Shows anchored o (.scalar marks isPlain text spelled) v := by
  intro anchors owners h
  obtain ⟨anchors', hset, hagrees⟩ := h.exists_begin hnew hanchor
  refine ⟨.scalar owners.length _ _, anchors', owners ++ [labelOf v], ?_, List.prefix_append _ _, ?_, ?_,
    ?_, asLines, hform⟩
  · simp only [node, hset, Option.bind_eq_bind, Option.bind_some, List.length_append,
      List.length_singleton]
  · rw [noteLabels_of_scalarForm hform]
    exact hagrees
  · rw [List.length_append, List.length_singleton]
    exact HaveLabels.below (areFrom_nil _) rfl rfl
  · exact List.getElem?_concat_length ..

theorem showItems_nil (anchored : List Label) (o : Occurrences) : showItems anchored o [] [] :=
  fun _ owners h => ⟨[], _, owners, rfl, List.prefix_rfl, h, areFrom_nil _, trivial⟩

theorem showItems_cons {w : Written} {ws : List Written} {v : Value} {vs : List Value}
    (hw : Shows anchored o w v) (hws : showItems anchored (noteLabels v o) ws vs) :
    showItems anchored o (w :: ws) (v :: vs) := by
  intro anchors owners h
  obtain ⟨n, anchors₁, owners₁, hn, hprefix, h₁, hlabels, hdepicts⟩ := hw h
  obtain ⟨ns, anchors₂, owners₂, hns, hprefix', h₂, hlabels', hdepict⟩ := hws h₁
  refine ⟨n :: ns, anchors₂, owners₂, ?_, hprefix.trans hprefix', h₂, hlabels.append hlabels',
    hdepicts.mono hprefix', hdepict⟩
  simp only [itemNodes, hn, hns, Option.bind_eq_bind, Option.bind_some]

theorem showEntries_nil (anchored : List Label) (o : Occurrences) : showEntries anchored o [] [] :=
  fun _ owners h => ⟨[], _, owners, rfl, List.prefix_rfl, h, areFrom_nil _, trivial⟩

theorem showEntries_cons {isSimple : Bool} {wk wv : Written} {ws : List (Bool × Written × Written)}
    {k v : Value} {vs : List (Value × Value)} (hk : Shows anchored o wk k)
    (hv : Shows anchored (noteLabels k o) wv v)
    (hws : showEntries anchored (noteLabels v (noteLabels k o)) ws vs) :
    showEntries anchored o ((isSimple, wk, wv) :: ws) ((k, v) :: vs) := by
  intro anchors owners h
  obtain ⟨nk, anchors₁, owners₁, hnk, hprefix₁, h₁, hlabels₁, hdepicts₁⟩ := hk h
  obtain ⟨nv, anchors₂, owners₂, hnv, hprefix₂, h₂, hlabels₂, hdepicts₂⟩ := hv h₁
  obtain ⟨ns, anchors₃, owners₃, hns, hprefix₃, h₃, hlabels₃, hdepict⟩ := hws h₂
  refine ⟨(nk, nv) :: ns, anchors₃, owners₃, ?_, hprefix₁.trans (hprefix₂.trans hprefix₃), h₃,
    hlabels₁.append (hlabels₂.append hlabels₃), hdepicts₁.mono (hprefix₂.trans hprefix₃),
    hdepicts₂.mono hprefix₃, hdepict⟩
  simp only [entryNodes, hnk, hnv, hns, Option.bind_eq_bind, Option.bind_some]

/-- A list shows a list that was not met before. -/
theorem shows_list {ws : List Written} {vs : List Value}
    (hanchor : marks.anchor.map String.ofList = anchorOf anchored label)
    (htag : NodeReader.collectionTag marks.fullTag Tag.sequence = Tag.sequence)
    (hnew : ∀ l, label = some l → l ∉ o.met) (hitems : showItems anchored (o.note label).2 ws vs) :
    Shows anchored o (.list marks ws) (.list label vs) := by
  intro anchors owners h
  obtain ⟨anchors₁, hset, h₁⟩ := h.exists_begin hnew hanchor
  obtain ⟨ns, anchors₂, owners₂, hns, hprefix, h₂, hlabels, hdepict⟩ := hitems h₁
  have howner : owners₂[owners.length]? = some label :=
    getElem?_of_isPrefix hprefix (List.getElem?_concat_length ..)
  rw [List.length_append, List.length_singleton] at hns hlabels
  refine ⟨.sequence owners.length Tag.sequence ns, anchors₂, owners₂, ?_,
    (List.prefix_append _ _).trans hprefix, ?_, hlabels.below rfl rfl, howner, rfl, hdepict⟩
  · simp only [node, hset, hns, htag, Option.bind_eq_bind, Option.bind_some]
  · rw [noteLabels_list hnew]
    exact h₂

theorem yields_mapping {ws : List (Bool × Written × Written)} {tag : String}
    {o' : Occurrences} {depict : List (Option Label) → List (Node × Node) → Prop}
    (hanchor : marks.anchor.map String.ofList = anchorOf anchored label)
    (htag : NodeReader.collectionTag marks.fullTag Tag.mapping = tag)
    (hnew : ∀ l, label = some l → l ∉ o.met)
    (hentries : Yields anchored Node.entryParts (o.note label).2 o'
      (fun anchors next => entryNodes anchors next ws) depict) :
    Yields anchored Node.parts o o' (fun anchors next => (map marks ws).node anchors next)
      fun owners n => ∃ k ns, n = .mapping k tag ns ∧ owners[k]? = some label ∧ depict owners ns := by
  intro anchors owners h
  obtain ⟨anchors₁, hset, h₁⟩ := h.exists_begin hnew hanchor
  obtain ⟨ns, anchors₂, owners₂, hns, hprefix, h₂, hlabels, hdepict⟩ := hentries h₁
  have howner : owners₂[owners.length]? = some label :=
    getElem?_of_isPrefix hprefix (List.getElem?_concat_length ..)
  rw [List.length_append, List.length_singleton] at hns hlabels
  refine ⟨.mapping owners.length tag ns, anchors₂, owners₂, ?_,
    (List.prefix_append _ _).trans hprefix, h₂, hlabels.below rfl rfl, _, ns, rfl, howner, hdepict⟩
  simp only [node, hset, hns, htag, Option.bind_eq_bind, Option.bind_some]

theorem Yields.imp {α : Type} {parts : α → List Node} {o' : Occurrences}
    {run : List (String × Nat) → Nat → Option (α × List (String × Nat) × Nat)}
    {depict depict' : List (Option Label) → α → Prop} (h : Yields anchored parts o o' run depict)
    (himp : ∀ owners x, depict owners x → depict' owners x) :
    Yields anchored parts o o' run depict' := by
  intro anchors owners hagrees
  obtain ⟨x, anchors', owners', hrun, hprefix, h', hlabels, hdepict⟩ := h hagrees
  exact ⟨x, anchors', owners', hrun, hprefix, h', hlabels, himp _ _ hdepict⟩

/-- A map shows a map that was not met before. -/
theorem shows_map {ws : List (Bool × Written × Written)} {vs : List (Value × Value)}
    (hanchor : marks.anchor.map String.ofList = anchorOf anchored label)
    (htag : NodeReader.collectionTag marks.fullTag Tag.mapping = Tag.mapping)
    (hnew : ∀ l, label = some l → l ∉ o.met)
    (hentries : showEntries anchored (o.note label).2 ws vs) :
    Shows anchored o (.map marks ws) (.map label vs) := by
  rw [Shows, noteLabels_map hnew]
  refine Yields.imp (yields_mapping hanchor htag hnew hentries) ?_
  rintro owners _ ⟨k, ns, rfl, howner, hdepict⟩
  exact ⟨howner, rfl, hdepict⟩

/-- A map with the tag of sets shows a set that was not met before. -/
theorem shows_set {ws : List (Bool × Written × Written)} {vs : List Value}
    (hanchor : marks.anchor.map String.ofList = anchorOf anchored label)
    (htag : NodeReader.collectionTag marks.fullTag Tag.mapping = Tag.set)
    (hnew : ∀ l, label = some l → l ∉ o.met)
    (hentries : showEntries anchored (o.note label).2 ws (vs.map (·, .null))) :
    Shows anchored o (.map marks ws) (.set label vs) := by
  rw [Shows, noteLabels_set hnew]
  refine Yields.imp (yields_mapping hanchor htag hnew hentries) ?_
  rintro owners _ ⟨k, ns, rfl, howner, hdepict⟩
  exact ⟨howner, rfl, hdepict⟩

end Written

end DevMachines.Yaml
