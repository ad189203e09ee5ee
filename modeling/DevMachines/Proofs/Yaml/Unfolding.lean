import DevMachines.Proofs.Yaml.Building
import DevMachines.Proofs.Yaml.Kept

/-!
# Documents as objects

The value of a document is a view of objects: each node that is more than a scalar is one, and an alias
shows the node it stands for once more, opened up as far as it does not stand inside itself.

Nothing is known beforehand of what a node becomes, because mappings merge others and scalars may have
any tag.  But how far it is opened up, which is all that differs from place to place, does not matter to
what a collection *mentions* of it: that is a scalar, or the label of its own (`Becomes.mention_eq`).  So
what a node becomes has one outline wherever it stands, and the outlines are the objects.

Main statement: `exists_unfolds`.
-/

namespace DevMachines.Yaml

/-! ## What a node becomes -/

/-- What a node becomes at a path, by what its parts become. -/
inductive Becomes (number : Nat) (document : Node) (path : List Nat) (build : Nat → Node → Built Value)
    (level : Nat) : Node → Value → Prop
  | again {n : Node} {k : Nat} (hlabel : n.label? = some k) (hk : k ∈ path) :
      Becomes number document path build level n (.again ⟨number, k⟩)
  | scalar {n : Node} {k : Nat} {text : String} {v : Value} (hlabel : n.label? = some k)
      (htag : isCollectionTag n.tag = false)
      (htext : scalarText document (document.size + 1) n = .ok text)
      (hv : scalarValue ⟨number, k⟩ n.tag text = .ok v) :
      Becomes number document path build level n v
  | map {k : Nat} {tag : String} {entries nodes : List (Node × Node)} {built : List (Value × Value)}
      (hfresh : k ∉ path) (htag : tag = Tag.mapping)
      (hnodes : mergedEntries document (document.size + 1) [] k entries = .ok nodes)
      (hbuilt : buildEntries (build k) level nodes = .ok built) :
      Becomes number document path build level (.mapping k tag entries)
        (.map (some ⟨number, k⟩) (collectEntries built))
  | set {k : Nat} {tag : String} {entries nodes : List (Node × Node)} {built : List (Value × Value)}
      (hfresh : k ∉ path) (htag : tag = Tag.set)
      (hnodes : mergedEntries document (document.size + 1) [] k entries = .ok nodes)
      (hbuilt : buildEntries (build k) level nodes = .ok built) :
      Becomes number document path build level (.mapping k tag entries)
        (.set (some ⟨number, k⟩) (collectElements (built.map (·.1))))
  | list {k : Nat} {tag : String} {items : List Node} {values : List Value} (hfresh : k ∉ path)
      (htag : tag = Tag.sequence) (hvalues : Built.all (items.map (build k)) = .ok values) :
      Becomes number document path build level (.sequence k tag items)
        (.list (some ⟨number, k⟩) values)
  | pairs {k : Nat} {tag : String} {items : List Node} {values : List Value} (hfresh : k ∉ path)
      (hknown : isCollectionTag tag = true) (htag : tag ≠ Tag.sequence)
      (hvalues : buildPairs document (build k) level items = .ok values) :
      Becomes number document path build level (.sequence k tag items)
        (.list (some ⟨number, k⟩) values)

theorem isKnownTag_of_isCollectionTag {tag : String} (h : isCollectionTag tag = true) :
    isKnownTag tag = true := by
  simp only [isCollectionTag, isKnownTag, List.contains_iff_mem, List.mem_cons] at h ⊢
  tauto

/-- What is built of a node is what it becomes. -/
theorem becomes_of_buildValue {number fuel depth : Nat} {document n : Node} {path : List Nat} {v : Value}
    (hpath : ∀ k ∈ path, n.deref document ≠ .alias k)
    (h : buildValue number document (fuel + 1) path depth n = .ok v) :
    Becomes number document path
      (fun k => buildValue number document fuel (innerPath depth k path) (depth + 1)) (depth + 1)
      (n.deref document) v := by
  unfold buildValue at h
  extract_lets m node label tag path' build entriesOf at h
  have hm : m = n.deref document := rfl
  rw [← hm] at hpath ⊢
  clear_value m
  have hnode : m.label? = some node ∨ m = .alias node := by cases m <;> simp [Node.label?, node]
  split at h
  · next hagain =>
    obtain rfl := Except.ok.inj h
    rw [List.contains_iff_mem] at hagain
    exact .again (hnode.resolve_right (hpath _ hagain)) hagain
  next hfresh =>
  rw [List.contains_iff_mem] at hfresh
  split at h
  · cases h
  next hknown =>
  have hlabel : m.label? = some node := by
    refine hnode.resolve_right fun halias => hknown ?_
    simp only [tag, halias, Node.tag]
    decide
  split at h
  · next htag =>
    split at h
    · cases h
    next text htext =>
    have hscalar : scalarValue label tag text = .ok v := by
      have herror : ∀ x : Except ValueFault Value, (x.mapError fun f => (depth, f)) = .ok v → x = .ok v := by
        intro x hx
        cases x <;> cases hx
        rfl
      split at h
      · split at h
        · cases h
        · exact herror _ h
      · exact herror _ h
    exact .scalar hlabel ((Bool.not_eq_true' _).mp htag) htext hscalar
  next hcollection =>
  rw [Bool.not_eq_true', Bool.not_eq_false] at hcollection
  -- only a mapping has entries
  have hentries : ∀ f : List (Value × Value) → Value,
      (do let nodes ← entriesOf; let built ← buildEntries build (depth + 1) nodes; pure (f built)) = .ok v →
        ∃ entries nodes built, m = .mapping node tag entries ∧
          mergedEntries document (document.size + 1) [] node entries = .ok nodes ∧
          buildEntries build (depth + 1) nodes = .ok built ∧ v = f built := by
    intro f hf
    clear h
    cases m with
    | mapping l t entries =>
      cases hnodes : mergedEntries document (document.size + 1) [] l entries with
      | error fault => simp only [entriesOf, hnodes] at hf; cases hf
      | ok nodes =>
        simp only [entriesOf, hnodes] at hf
        cases hbuilt : buildEntries build (depth + 1) nodes with
        | error fault => simp only [Except.mapError, ok_bind, hbuilt] at hf; cases hf
        | ok built =>
          simp only [Except.mapError, ok_bind, hbuilt] at hf
          exact ⟨entries, nodes, built, rfl, hnodes, hbuilt, (Except.ok.inj hf).symm⟩
    | _ => cases hf
  split at h
  · next htag =>
    obtain ⟨entries, nodes, built, hmapping, hnodes, hbuilt, rfl⟩ := hentries _ h
    rw [hmapping]
    exact .map hfresh htag hnodes hbuilt
  split at h
  · next htag =>
    obtain ⟨entries, nodes, built, hmapping, hnodes, hbuilt, rfl⟩ := hentries _ h
    rw [hmapping]
    exact .set hfresh htag hnodes hbuilt
  split at h
  · split at h
    · next htag =>
      obtain ⟨values, hvalues, rfl⟩ := map_eq_ok_iff.mp h
      exact .list hfresh htag hvalues
    · next htag =>
      obtain ⟨values, hvalues, rfl⟩ := map_eq_ok_iff.mp h
      exact .pairs hfresh hcollection htag hvalues
  · cases h

/-! ## The nodes that something is built of -/

/-- Is a node one of a document, or what a key of it is used as? -/
def IsFrom (document n : Node) : Prop := ∃ m ∈ document.parts, n = m ∨ n = plainKey m

/-- Do labels belong to collections of a document? -/
def AreAround (document : Node) (path : List Nat) : Prop :=
  ∀ k ∈ path, ∃ m ∈ document.parts, m.label? = some k ∧ isCollectionTag m.tag = true

section From

variable {document n : Node}

theorem isFrom_of_mem_parts (h : n ∈ document.parts) : IsFrom document n := ⟨n, h, .inl rfl⟩

theorem label?_plainKey (n : Node) : (plainKey n).label? = n.label? := by
  cases n with
  | scalar label tag text => rw [plainKey]; split <;> rfl
  | _ => rfl

/-- A key with the value tag is used as a text. -/
theorem plainKey_eq_or (n : Node) :
    plainKey n = n ∨ ∃ k text, plainKey n = .scalar k Tag.text text := by
  cases n with
  | scalar label tag text =>
    rw [plainKey]
    split
    · exact .inr ⟨_, _, rfl⟩
    · exact .inl rfl
  | _ => exact .inl rfl

theorem IsFrom.deref (h : IsFrom document n) : IsFrom document (n.deref document) := by
  obtain ⟨m, hm, rfl | rfl⟩ := h
  · exact isFrom_of_mem_parts (Node.deref_mem_parts hm)
  · rcases plainKey_eq_or m with hsame | ⟨k, text, htext⟩
    · rw [hsame]
      exact isFrom_of_mem_parts (Node.deref_mem_parts hm)
    · rw [htext]
      exact ⟨m, hm, .inr htext.symm⟩

/-- A node that is not just used as a text is one of the document. -/
theorem IsFrom.mem_parts (h : IsFrom document n) (htext : ∀ k text, n ≠ .scalar k Tag.text text) :
    n ∈ document.parts := by
  obtain ⟨m, hm, rfl | rfl⟩ := h
  · exact hm
  · rcases plainKey_eq_or m with hsame | ⟨k, text, hplain⟩
    · rwa [hsame]
    · exact absurd hplain (htext k text)

/-- What stands around a place is none of the scalars. -/
theorem AreAround.not_mem {path : List Nat} (h : AreAround document path) (hdocument : document.IsNumbered)
    (hn : IsFrom document n) {k : Nat} (hlabel : n.label? = some k)
    (htag : isCollectionTag n.tag = false) : k ∉ path := by
  intro hk
  obtain ⟨m, hm, hmlabel, hmtag⟩ := h k hk
  obtain ⟨m', hm', hplain⟩ := hn
  have hlabel' : m'.label? = some k := by
    rcases hplain with rfl | rfl
    · exact hlabel
    · rwa [label?_plainKey] at hlabel
  obtain rfl : m = m' := Option.some.inj
    ((hdocument.find?_eq hm hmlabel).symm.trans (hdocument.find?_eq hm' hlabel'))
  rcases hplain with rfl | rfl
  · rw [htag] at hmtag
    cases hmtag
  · have hcollection : ∀ {n : Node}, isCollectionTag n.tag = true → plainKey n = n := by
      intro n hn
      cases n with
      | scalar k tag text =>
        rw [plainKey, if_neg]
        rintro rfl
        cases hn
      | _ => rfl
    rw [hcollection hmtag, hmtag] at htag
    cases htag

/-- The nodes that stand around a place are in the document, so no alias of them is without a node. -/
theorem AreAround.ne_alias {path : List Nat} (h : AreAround document path)
    (hdocument : document.IsNumbered) (n : Node) : ∀ k ∈ path, n.deref document ≠ .alias k := by
  intro k hk halias
  obtain ⟨m, hm, hlabel, -⟩ := h k hk
  have hsame : (n.deref document).deref document = m := by
    rw [halias]
    exact Node.deref_alias (hdocument.find?_eq hm hlabel)
  rw [Node.deref_deref, halias] at hsame
  rw [← hsame] at hlabel
  cases hlabel

end From

/-- The entries of a mapping, with those that it merges, are built of nodes of the document. -/
theorem always_mergedEntries {document : Node} (fuel : Nat) {merging : List (Nat × List (Node × Node))}
    (hmerging : ∀ m ∈ merging, ∀ e ∈ m.2, IsFrom document e.1 ∧ IsFrom document e.2) (label : Nat)
    {entries : List (Node × Node)} (h : ∀ e ∈ entries, e.1 ∈ document.parts ∧ e.2 ∈ document.parts) :
    Always (fun nodes => ∀ e ∈ nodes, IsFrom document e.1 ∧ IsFrom document e.2)
      (mergedEntries document fuel merging label entries) := by
  induction fuel generalizing merging label entries with
  | zero => exact always_error
  | succ fuel ih =>
    unfold mergedEntries
    extract_lets isMerge own merging' entriesOf
    have hown : ∀ e ∈ own, IsFrom document e.1 ∧ IsFrom document e.2 := by
      refine List.forall_mem_map.mpr fun e he => ?_
      obtain ⟨hkey, hvalue⟩ := h e (List.mem_of_mem_filter he)
      exact ⟨⟨_, Node.deref_mem_parts hkey, .inr rfl⟩, isFrom_of_mem_parts hvalue⟩
    have hmerging' : ∀ m ∈ merging', ∀ e ∈ m.2, IsFrom document e.1 ∧ IsFrom document e.2 :=
      List.forall_mem_cons.mpr ⟨hown, hmerging⟩
    have hentriesOf : ∀ n ∈ document.parts,
        Always (fun nodes => ∀ e ∈ nodes, IsFrom document e.1 ∧ IsFrom document e.2) (entriesOf n) := by
      intro n hn
      have hn' := Node.deref_mem_parts hn
      simp only [entriesOf]
      split
      · next l tag inner hinner =>
        rw [hinner] at hn'
        split
        · next found hfound =>
          obtain ⟨before, after, hsplit, -⟩ := List.lookup_eq_some_iff.mp hfound
          exact always_ok (hmerging' (l, found) (hsplit ▸ List.mem_append_right _ (List.mem_cons_self ..)))
        · exact ih hmerging' l fun e he => Node.mem_parts_of_entry hn' he
      · exact always_error
    refine (always_mapM (P := fun nodes => ∀ e ∈ nodes, IsFrom document e.1 ∧ IsFrom document e.2)
      fun e he => ?_).bind fun merged hmerged => ?_
    · obtain ⟨-, hsource⟩ := h e (List.mem_of_mem_filter he)
      have hsource' := Node.deref_mem_parts hsource
      dsimp only
      split
      · exact hentriesOf _ hsource
      · next l tag items hitems =>
        rw [hitems] at hsource'
        refine (always_mapM fun n hn => hentriesOf n (Node.mem_parts_of_item hsource' hn)).bind
          fun parts hparts => always_ok fun e he => ?_
        obtain ⟨nodes, hnodes, he⟩ := List.mem_flatten.mp he
        exact hparts nodes (List.mem_reverse.mp hnodes) e he
      · exact always_error
    · refine always_ok fun e he => ?_
      rcases List.mem_append.mp he with he | he
      · obtain ⟨nodes, hnodes, he⟩ := List.mem_flatten.mp he
        exact hmerged nodes hnodes e he
      · exact hown e he

theorem isFrom_of_mergedEntries {document : Node} {k : Nat} {tag : String}
    {entries nodes : List (Node × Node)} (hn : Node.mapping k tag entries ∈ document.parts)
    (h : mergedEntries document (document.size + 1) [] k entries = .ok nodes) :
    ∀ e ∈ nodes, IsFrom document e.1 ∧ IsFrom document e.2 :=
  always_mergedEntries _ (List.forall_mem_nil _) _ (fun _ => Node.mem_parts_of_entry hn) _ h

/-! ## What the parts of a collection are built of -/

section Parts

variable {ι α β γ : Type} {document : Node} {build build' : Node → Built Value} {level level' : Nat}

theorem both_eq_ok_iff {a : Built α} {b : Built β} {both : α × β} :
    Built.both a b = .ok both ↔ a = .ok both.1 ∧ b = .ok both.2 := by
  obtain ⟨x, y⟩ := both
  constructor
  · intro h
    cases a with
    | error e =>
      cases b with
      | error f =>
        rw [Built.both] at h
        split at h <;> cases h
      | ok _ => cases h
    | ok _ => cases b <;> cases h; exact ⟨rfl, rfl⟩
  · rintro ⟨rfl, rfl⟩
    rfl

theorem keyOf_eq_ok {depth : Nat} {key : Built Value} {k : Value} (h : keyOf depth key = .ok k) :
    key = .ok k ∧ k.isKey = true := by
  cases key with
  | error fault =>
    rw [keyOf] at h
    split at h <;> cases h
  | ok key =>
    rw [keyOf] at h
    split at h
    · next hkey =>
      obtain rfl := Except.ok.inj h
      exact ⟨rfl, hkey⟩
    · cases h

/-- All results are those of all items. -/
theorem forall₂_of_all {f : ι → Built α} {xs : List ι} {values : List α}
    (h : Built.all (xs.map f) = .ok values) : List.Forall₂ (fun x v => f x = .ok v) xs values := by
  induction xs generalizing values with
  | nil =>
    obtain rfl := Except.ok.inj h
    exact .nil
  | cons x xs ih =>
    rw [List.map_cons, Built.all] at h
    obtain ⟨both, hboth, rfl⟩ := map_eq_ok_iff.mp h
    obtain ⟨hx, hxs⟩ := both_eq_ok_iff.mp hboth
    exact .cons hx (ih hxs)

/-- Entries are those that keys and values are built of. -/
theorem forall₂_of_buildEntries {nodes : List (Node × Node)} {built : List (Value × Value)}
    (h : buildEntries build level nodes = .ok built) :
    List.Forall₂ (fun n e => (build n.1 = .ok e.1 ∧ e.1.isKey = true) ∧ build n.2 = .ok e.2) nodes built := by
  induction nodes generalizing built with
  | nil =>
    obtain rfl := Except.ok.inj h
    exact .nil
  | cons n nodes ih =>
    rw [buildEntries_cons] at h
    obtain ⟨all, hall, rfl⟩ := map_eq_ok_iff.mp h
    obtain ⟨hkey, hrest⟩ := both_eq_ok_iff.mp hall
    obtain ⟨hvalue, hmore⟩ := both_eq_ok_iff.mp hrest
    exact .cons ⟨keyOf_eq_ok hkey, hvalue⟩ (ih hmore)

theorem exists_of_buildPair {item : Node} {v : Value} (h : buildPair document build level item = .ok v) :
    ∃ label tag k w a b, item.deref document = .mapping label tag [(k, w)] ∧ build k = .ok a ∧
      build w = .ok b ∧ v = .pair none a b := by
  unfold buildPair at h
  split at h
  · next label tag k w hitem =>
    obtain ⟨both, hboth, rfl⟩ := map_eq_ok_iff.mp h
    obtain ⟨ha, hb⟩ := both_eq_ok_iff.mp hboth
    exact ⟨label, tag, k, w, both.1, both.2, hitem, ha, hb, rfl⟩
  · cases h

theorem exists_of_forall₂ {R : ι → α → Prop} {xs : List ι} {values : List α}
    (h : List.Forall₂ R xs values) : ∀ v ∈ values, ∃ x ∈ xs, R x v := by
  induction h with
  | nil => exact List.forall_mem_nil _
  | cons hx _ ih =>
    refine List.forall_mem_cons.mpr ⟨⟨_, List.mem_cons_self .., hx⟩, fun v hv => ?_⟩
    obtain ⟨x, hx, hv⟩ := ih v hv
    exact ⟨x, List.mem_cons_of_mem _ hx, hv⟩

/-- Two results of each item that agree make lists that agree. -/
theorem map_eq_map_of_forall₂ {R : ι → α → Prop} {f : α → γ} {xs : List ι} {values values' : List α}
    {S : ι → α → Prop} (h : List.Forall₂ R xs values) (h' : List.Forall₂ S xs values')
    (hsame : ∀ x ∈ xs, ∀ v v', R x v → S x v' → f v = f v') : values.map f = values'.map f := by
  induction h generalizing values' with
  | nil =>
    cases h'
    rfl
  | cons hx _ ih =>
    obtain ⟨hfirst, hrest⟩ := List.forall_mem_cons.mp hsame
    cases h' with
    | cons hx' h' => rw [List.map_cons, List.map_cons, hfirst _ _ hx hx', ih h' hrest]

/-- An entry as the outline of a map has it. -/
def outlined (e : Value × Value) : Value × Value := (e.1, mention e.2)

theorem collectEntries_outlined (entries : List (Value × Value)) :
    collectEntries (entries.map outlined) = (collectEntries entries).map outlined := by
  have hinsert : ∀ (k v : Value) (acc : List (Value × Value)),
      Value.insertEntry k (mention v) (acc.map outlined) = (Value.insertEntry k v acc).map outlined := by
    intro k v acc
    induction acc with
    | nil => rfl
    | cons e acc ih =>
      obtain ⟨key, value⟩ := e
      rw [List.map_cons, outlined, Value.insertEntry, Value.insertEntry, ih]
      split <;> rfl
  suffices hall : ∀ acc : List (Value × Value),
      (entries.map outlined).foldl (fun acc e => Value.insertEntry e.1 e.2 acc) (acc.map outlined) =
        (entries.foldl (fun acc e => Value.insertEntry e.1 e.2 acc) acc).map outlined from hall []
  induction entries with
  | nil => exact fun _ => rfl
  | cons e entries ih =>
    intro acc
    rw [List.map_cons, List.foldl_cons, List.foldl_cons, outlined, hinsert]
    exact ih _

end Parts

/-! ## One outline wherever it stands -/

section Becomes

variable {number : Nat} {document n : Node} {path path' : List Nat} {build build' : Nat → Node → Built Value}
  {level level' : Nat} {v v' : Value}

/-- Of a node with a collection's tag only the label is mentioned. -/
theorem Becomes.mention_of_collection (h : Becomes number document path build level n v)
    (htag : isCollectionTag n.tag = true) : ∃ k, n.label? = some k ∧ mention v = .again ⟨number, k⟩ := by
  cases h with
  | again hlabel => exact ⟨_, hlabel, rfl⟩
  | scalar _ hscalar => cases hscalar.symm.trans htag
  | map | set | list | pairs => exact ⟨_, rfl, rfl⟩

/-- A node with any other tag becomes a scalar, the same at each path. -/
theorem Becomes.scalarValue_eq (h : Becomes number document path build level n v)
    (htag : isCollectionTag n.tag = false) (hpath : ∀ k, n.label? = some k → k ∉ path) :
    ∃ k text, n.label? = some k ∧ scalarText document (document.size + 1) n = .ok text ∧
      scalarValue ⟨number, k⟩ n.tag text = .ok v := by
  cases h with
  | again hlabel hk => exact absurd hk (hpath _ hlabel)
  | scalar hlabel _ htext hv => exact ⟨_, _, hlabel, htext, hv⟩
  | map _ hmapping | set _ hmapping | list _ hmapping => subst hmapping; cases htag
  | pairs _ hknown => cases hknown.symm.trans htag

/-- What a node becomes is mentioned the same at each path. -/
theorem Becomes.mention_eq (hdocument : document.IsNumbered) (hn : IsFrom document n)
    (hpath : AreAround document path) (hpath' : AreAround document path')
    (h : Becomes number document path build level n v)
    (h' : Becomes number document path' build' level' n v') : mention v = mention v' := by
  cases htag : isCollectionTag n.tag with
  | true =>
    obtain ⟨k, hk, hv⟩ := h.mention_of_collection htag
    obtain ⟨k', hk', hv'⟩ := h'.mention_of_collection htag
    rw [hv, hv', Option.some.inj (hk.symm.trans hk')]
  | false =>
    have hscalar := fun k hk => hpath.not_mem hdocument hn (k := k) hk htag
    have hscalar' := fun k hk => hpath'.not_mem hdocument hn (k := k) hk htag
    obtain ⟨k, text, hk, htext, hv⟩ := h.scalarValue_eq htag hscalar
    obtain ⟨k', text', hk', htext', hv'⟩ := h'.scalarValue_eq htag hscalar'
    obtain rfl := Option.some.inj (hk.symm.trans hk')
    obtain rfl := Except.ok.inj (htext.symm.trans htext')
    rw [Except.ok.inj (hv.symm.trans hv')]

/-- Of scalars only days and moments have a label. -/
theorem always_scalarValue_label (label : Label) (tag text : String) :
    Always (fun v => ∀ l, labelOf v = some l → l = label ∧ tag = Tag.timestamp)
      (scalarValue label tag text) := by
  have hnone : ∀ {v : Value}, labelOf v = none →
      ∀ l, labelOf v = some l → l = label ∧ tag = Tag.timestamp := by
    intro v hv l hl
    rw [hv] at hl
    cases hl
  rw [scalarValue]
  split
  · exact always_ok (hnone rfl)
  split
  · exact always_ok (hnone rfl)
  split
  · exact always_map fun _ => hnone rfl
  split
  · exact always_map fun _ => hnone rfl
  split
  · exact always_map fun _ => hnone rfl
  split
  · next htag =>
    rw [timestampValue]
    split
    · exact always_error
    · dsimp only
      split <;> split
      all_goals first
        | exact always_ok fun l hl => ⟨(Option.some.inj hl).symm, htag⟩
        | exact always_error
  split
  · rw [octetsValue]
    split
    · split
      · exact always_ok (hnone rfl)
      · exact always_error
    · exact always_error
  · exact always_error

/-- What a node becomes has the label of the node, if it has one. -/
theorem Becomes.label (h : Becomes number document path build level n v) (hv : ¬ IsAgain v) {l : Label}
    (hlabel : labelOf v = some l) : ∃ k, l = ⟨number, k⟩ ∧ n.label? = some k ∧
      ∀ k text, n ≠ .scalar k Tag.text text := by
  cases h with
  | again => exact absurd ⟨_, rfl⟩ hv
  | scalar hk _ _ hscalar =>
    obtain ⟨hsame, htag⟩ := always_scalarValue_label _ _ _ _ hscalar l hlabel
    refine ⟨_, hsame, hk, fun k text hn => ?_⟩
    rw [hn] at htag
    exact absurd htag (by decide : Tag.text ≠ Tag.timestamp)
  | map | set | list | pairs => exact ⟨_, (Option.some.inj hlabel).symm, rfl, nofun⟩

/-- Do two ways to build mention what they build of a node of a document the same? -/
def MentionAlike (document : Node) (build build' : Node → Built Value) : Prop :=
  ∀ n, IsFrom document n → ∀ v v', build n = .ok v → build' n = .ok v' → mention v = mention v'

section MentionAlike

variable {build build' : Node → Built Value} (hsame : MentionAlike document build build')

include hsame

theorem MentionAlike.entries {nodes : List (Node × Node)}
    (hnodes : ∀ e ∈ nodes, IsFrom document e.1 ∧ IsFrom document e.2) {built built' : List (Value × Value)}
    (h : buildEntries build level nodes = .ok built)
    (h' : buildEntries build' level' nodes = .ok built') : built.map outlined = built'.map outlined := by
  refine map_eq_map_of_forall₂ (forall₂_of_buildEntries h) (forall₂_of_buildEntries h') ?_
  rintro n hn e e' ⟨⟨hkey, hisKey⟩, hvalue⟩ ⟨⟨hkey', hisKey'⟩, hvalue'⟩
  have hkeys := hsame _ (hnodes n hn).1 _ _ hkey hkey'
  rw [mention_of_isKey hisKey, mention_of_isKey hisKey'] at hkeys
  rw [outlined, outlined, hkeys, hsame _ (hnodes n hn).2 _ _ hvalue hvalue']

theorem MentionAlike.items {items : List Node} (hitems : ∀ n ∈ items, n ∈ document.parts)
    {values values' : List Value} (h : Built.all (items.map build) = .ok values)
    (h' : Built.all (items.map build') = .ok values') : values.map mention = values'.map mention :=
  map_eq_map_of_forall₂ (forall₂_of_all h) (forall₂_of_all h') fun n hn =>
    hsame n (isFrom_of_mem_parts (hitems n hn))

theorem MentionAlike.pairs {items : List Node} (hitems : ∀ n ∈ items, n ∈ document.parts)
    {values values' : List Value} (h : buildPairs document build level items = .ok values)
    (h' : buildPairs document build' level' items = .ok values') :
    values.map mention = values'.map mention := by
  refine map_eq_map_of_forall₂ (forall₂_of_all h) (forall₂_of_all h') fun n hn v v' hv hv' => ?_
  obtain ⟨label, tag, k, w, a, b, hmapping, ha, hb, rfl⟩ := exists_of_buildPair hv
  obtain ⟨_, _, _, _, a', b', hmapping', ha', hb', rfl⟩ := exists_of_buildPair hv'
  have hparts := Node.deref_mem_parts (hitems n hn)
  rw [hmapping] at hparts hmapping'
  cases hmapping'
  obtain ⟨hk, hw⟩ := Node.mem_parts_of_entry hparts (List.mem_singleton_self _)
  rw [mention, mention, hsame k (isFrom_of_mem_parts hk) _ _ ha ha',
    hsame w (isFrom_of_mem_parts hw) _ _ hb hb']

end MentionAlike

/-- **What a node becomes has one outline**, wherever it stands, if its parts are mentioned the same. -/
theorem Becomes.outline_eq (hn : n ∈ document.parts)
    (hsame : isCollectionTag n.tag = true → ∀ k, n.label? = some k →
      MentionAlike document (build k) (build' k))
    (h : Becomes number document path build level n v)
    (h' : Becomes number document path' build' level' n v') (hv : ¬ IsAgain v) (hv' : ¬ IsAgain v') :
    outline v = outline v' := by
  cases h with
  | again => exact absurd ⟨_, rfl⟩ hv
  | scalar hk htag htext hscalar =>
    cases h' with
    | again => exact absurd ⟨_, rfl⟩ hv'
    | scalar hk' _ htext' hscalar' =>
      obtain rfl := Option.some.inj (hk.symm.trans hk')
      obtain rfl := Except.ok.inj (htext.symm.trans htext')
      rw [Except.ok.inj (hscalar.symm.trans hscalar')]
    | map _ htag' | set _ htag' | list _ htag' => subst htag'; cases htag
    | pairs _ hknown => cases hknown.symm.trans htag
  | map _ htag hnodes hbuilt =>
    cases h' with
    | again => exact absurd ⟨_, rfl⟩ hv'
    | scalar _ hscalar => subst htag; cases hscalar
    | set _ htag' => exact absurd (htag.symm.trans htag') (by decide)
    | map _ _ hnodes' hbuilt' =>
      obtain rfl := Except.ok.inj (hnodes.symm.trans hnodes')
      have hentries := (hsame (htag ▸ rfl) _ rfl).entries (isFrom_of_mergedEntries hn hnodes) hbuilt hbuilt'
      show Value.map _ ((collectEntries _).map outlined) = .map _ ((collectEntries _).map outlined)
      rw [← collectEntries_outlined, ← collectEntries_outlined, hentries]
  | set _ htag hnodes hbuilt =>
    cases h' with
    | again => exact absurd ⟨_, rfl⟩ hv'
    | scalar _ hscalar => subst htag; cases hscalar
    | map _ htag' => exact absurd (htag.symm.trans htag') (by decide)
    | set _ _ hnodes' hbuilt' =>
      obtain rfl := Except.ok.inj (hnodes.symm.trans hnodes')
      have hentries := (hsame (htag ▸ rfl) _ rfl).entries (isFrom_of_mergedEntries hn hnodes) hbuilt hbuilt'
      have helements := congrArg (List.map (·.1)) hentries
      rw [List.map_map, List.map_map] at helements
      exact congrArg (fun elements => Value.set _ (collectElements elements)) helements
  | list _ htag hvalues =>
    cases h' with
    | again => exact absurd ⟨_, rfl⟩ hv'
    | scalar _ hscalar => subst htag; cases hscalar
    | pairs _ _ htag' => exact absurd htag htag'
    | list _ _ hvalues' =>
      exact congrArg (Value.list _)
        ((hsame (htag ▸ rfl) _ rfl).items (fun _ => Node.mem_parts_of_item hn) hvalues hvalues')
  | pairs _ hknown htag hvalues =>
    cases h' with
    | again => exact absurd ⟨_, rfl⟩ hv'
    | scalar _ hscalar => cases hknown.symm.trans hscalar
    | list _ htag' => exact absurd htag' htag
    | pairs _ _ _ hvalues' =>
      exact congrArg (Value.list _)
        ((hsame hknown _ rfl).pairs (fun _ => Node.mem_parts_of_item hn) hvalues hvalues')

end Becomes

/-! ## The objects of a document -/

/-- The objects of a document: the outline of what its nodes become, wherever they stand. -/
def Shows (number : Nat) (document : Node) (l : Label) (o : Value) : Prop :=
  ∃ fuel path depth n v, AreAround document path ∧ IsFrom document n ∧
    buildValue number document fuel path depth n = .ok v ∧ ¬ IsAgain v ∧ labelOf v = some l ∧
    o = outline v

section Objects

variable {number depth fuel : Nat} {document n : Node} {path : List Nat} {v : Value}

/-- The parts of a collection stand at a path again. -/
theorem AreAround.inner (h : AreAround document path) (hn : IsFrom document n) {k : Nat}
    (hlabel : n.label? = some k) (htag : isCollectionTag n.tag = true) :
    AreAround document (innerPath depth k path) := by
  rw [innerPath]
  have hn : n ∈ document.parts := by
    refine hn.mem_parts fun k text hscalar => ?_
    rw [hscalar] at htag
    cases htag
  split
  · exact List.forall_mem_nil _
  · exact List.forall_mem_cons.mpr ⟨⟨n, hn, hlabel, htag⟩, h⟩

theorem becomes_of_buildValue_ok (hdocument : document.IsNumbered) (hpath : AreAround document path)
    (h : buildValue number document fuel path depth n = .ok v) :
    ∃ inner, Becomes number document path
      (fun k => buildValue number document inner (innerPath depth k path) (depth + 1)) (depth + 1)
      (n.deref document) v := by
  cases fuel with
  | zero => cases h
  | succ fuel => exact ⟨fuel, becomes_of_buildValue (hpath.ne_alias hdocument n) h⟩

theorem mentionAlike_buildValue (hdocument : document.IsNumbered) {path' : List Nat}
    (hpath : AreAround document path) (hpath' : AreAround document path') (fuel fuel' depth depth' : Nat) :
    MentionAlike document (buildValue number document fuel path depth)
      (buildValue number document fuel' path' depth') := by
  intro n hn v v' hv hv'
  obtain ⟨_, hbecomes⟩ := becomes_of_buildValue_ok hdocument hpath hv
  obtain ⟨_, hbecomes'⟩ := becomes_of_buildValue_ok hdocument hpath' hv'
  exact hbecomes.mention_eq hdocument hn.deref hpath hpath' hbecomes'

/-- **A label of a document is that of one object.** -/
theorem areObjects_shows (hdocument : document.IsNumbered) : AreObjects (Shows number document) := by
  rintro l _ _ ⟨fuel, path, depth, n, v, hpath, hn, hbuild, hv, hlabel, rfl⟩
    ⟨fuel', path', depth', n', v', hpath', hn', hbuild', hv', hlabel', rfl⟩
  obtain ⟨inner, hbecomes⟩ := becomes_of_buildValue_ok hdocument hpath hbuild
  obtain ⟨inner', hbecomes'⟩ := becomes_of_buildValue_ok hdocument hpath' hbuild'
  obtain ⟨k, rfl, hk, hplain⟩ := hbecomes.label hv hlabel
  obtain ⟨k', hsame, hk', hplain'⟩ := hbecomes'.label hv' hlabel'
  obtain rfl : k = k' := congrArg Label.node hsame
  have hmem := hn.deref.mem_parts hplain
  have hnode : n.deref document = n'.deref document := Option.some.inj
    ((hdocument.find?_eq hmem hk).symm.trans (hdocument.find?_eq (hn'.deref.mem_parts hplain') hk'))
  rw [← hnode] at hbecomes'
  refine hbecomes.outline_eq hmem (fun htag k hk => ?_) hbecomes' hv hv'
  exact mentionAlike_buildValue hdocument (hpath.inner hn.deref hk htag)
    (hpath'.inner hn.deref hk htag) _ _ _ _

/-- What a collection contains. -/
def contents : Value → List Value
  | .list _ items | .set _ items => items
  | .map _ entries => entries.flatMap fun e => [e.1, e.2]
  | _ => []

theorem forall_mem_contents_map {P : Value → Prop} {label : Option Label} {entries : List (Value × Value)} :
    (∀ u ∈ contents (.map label entries), P u) ↔ ∀ e ∈ entries, P e.1 ∧ P e.2 := by
  rw [contents, List.forall_mem_flatMap]
  simp only [List.forall_mem_cons, List.not_mem_nil, false_imp_iff, implies_true, and_true]

/-- What all has that is built of nodes of the document, and pairs of it have, a collection contains. -/
theorem Becomes.forall_mem_contents {build : Nat → Node → Built Value} {level : Nat} {P : Value → Prop}
    (hpair : ∀ a b, P a → P b → P (.pair none a b)) (hn : IsFrom document n)
    (hbuild : isCollectionTag n.tag = true → ∀ k, n.label? = some k →
      ∀ m, IsFrom document m → Always P (build k m))
    (h : Becomes number document path build level n v) : ∀ u ∈ contents v, P u := by
  have hentries : ∀ {k : Nat} {tag : String} {entries nodes : List (Node × Node)}
      {built : List (Value × Value)}, IsFrom document (.mapping k tag entries) →
      (∀ m, IsFrom document m → Always P (build k m)) →
      mergedEntries document (document.size + 1) [] k entries = .ok nodes →
      buildEntries (build k) level nodes = .ok built → ∀ e ∈ built, P e.1 ∧ P e.2 := by
    intro k tag entries nodes built hn hbuild hnodes hbuilt e he
    obtain ⟨m, hm, ⟨hkey, -⟩, hvalue⟩ := exists_of_forall₂ (forall₂_of_buildEntries hbuilt) e he
    obtain ⟨hfirst, hsecond⟩ := isFrom_of_mergedEntries (hn.mem_parts nofun) hnodes m hm
    exact ⟨hbuild _ hfirst _ hkey, hbuild _ hsecond _ hvalue⟩
  cases h with
  | again => exact List.forall_mem_nil _
  | scalar _ _ _ hscalar =>
    have hv := always_scalarValue_isScalar _ _ _ _ hscalar
    cases v <;> first | exact List.forall_mem_nil _ | exact absurd hv id
  | map _ htag hnodes hbuilt =>
    rw [forall_mem_contents_map]
    exact forall_mem_collectEntries (hentries hn (hbuild (htag ▸ rfl) _ rfl) hnodes hbuilt)
  | set _ htag hnodes hbuilt =>
    have hall := hentries hn (hbuild (htag ▸ rfl) _ rfl) hnodes hbuilt
    exact forall_mem_collectElements (List.forall_mem_map.mpr fun e he => (hall e he).1)
  | list _ htag hvalues =>
    intro u hu
    obtain ⟨m, hm, hbuilt⟩ := exists_of_forall₂ (forall₂_of_all hvalues) u hu
    exact hbuild (htag ▸ rfl) _ rfl m (isFrom_of_mem_parts (Node.mem_parts_of_item (hn.mem_parts nofun) hm)) u hbuilt
  | pairs _ hknown _ hvalues =>
    intro u hu
    obtain ⟨m, hm, hbuilt⟩ := exists_of_forall₂ (forall₂_of_all hvalues) u hu
    obtain ⟨label, tag, k, w, a, b, hmapping, ha, hb, rfl⟩ := exists_of_buildPair hbuilt
    have hparts := Node.deref_mem_parts (Node.mem_parts_of_item (hn.mem_parts nofun) hm)
    rw [hmapping] at hparts
    obtain ⟨hk, hw⟩ := Node.mem_parts_of_entry hparts (List.mem_singleton_self _)
    exact hpair a b (hbuild hknown _ rfl k (isFrom_of_mem_parts hk) a ha)
      (hbuild hknown _ rfl w (isFrom_of_mem_parts hw) b hb)

/-- What a node of a document becomes at a path is seen of its objects from there. -/
theorem unfolds_of_buildValue (hdocument : document.IsNumbered) (hpath : AreAround document path)
    (hn : IsFrom document n) (h : buildValue number document fuel path (depth + 1) n = .ok v) :
    Unfolds (Shows number document) (path.map (Label.mk number)) v := by
  induction fuel generalizing path depth n v with
  | zero => cases h
  | succ fuel ih =>
    have hbecomes := becomes_of_buildValue (hpath.ne_alias hdocument n) h
    have hshows : ¬ IsAgain v → ∀ l, labelOf v = some l → Shows number document l (outline v) :=
      fun hv l hl => ⟨fuel + 1, path, depth + 1, n, v, hpath, hn, h, hv, hl, rfl⟩
    have hparts : ∀ u ∈ contents v, ∀ k, (n.deref document).label? = some k →
        Unfolds (Shows number document) ((k :: path).map (Label.mk number)) u := by
      refine hbecomes.forall_mem_contents (fun a b ha hb k hk => .pair (ha k hk) (hb k hk)) hn.deref ?_
      intro htag k hk m hm u hu k' hk'
      obtain rfl := Option.some.inj (hk.symm.trans hk')
      have hinner : AreAround document (innerPath (depth + 1) k path) := hpath.inner hn.deref hk htag
      exact ih hinner hm hu
    have hopens : ∀ {k : Nat}, k ∉ path → labelOf v = some ⟨number, k⟩ → ¬ IsAgain v →
        OpensUp (Shows number document) (path.map (Label.mk number)) v := by
      intro k hk hlabel hv
      refine ⟨fun hnone => (nomatch hnone.symm.trans hlabel), fun l hl => ⟨fun hmem => ?_, hshows hv l hl⟩⟩
      obtain ⟨k', hk', rfl⟩ := List.mem_map.mp hmem
      obtain rfl : k' = _ := congrArg Label.node (Option.some.inj (hl.symm.trans hlabel))
      exact hk hk'
    generalize n.deref document = m at hbecomes hparts
    cases hbecomes with
    | again _ hk => exact .again (List.mem_map_of_mem hk)
    | scalar _ _ _ hscalar =>
      have hv := always_scalarValue_isScalar _ _ _ _ hscalar
      refine .scalar hv fun l hl => outline_of_isScalar hv ▸ hshows ?_ l hl
      rintro ⟨_, rfl⟩
      exact hv
    | map hk =>
      have hentries := forall_mem_contents_map.mp fun u hu => hparts u hu _ rfl
      exact .map (hopens hk rfl nofun) (fun e he => (hentries e he).1) fun e he => (hentries e he).2
    | set hk => exact .set (hopens hk rfl nofun) fun u hu => hparts u hu _ rfl
    | list hk | pairs hk => exact .list (hopens hk rfl nofun) fun u hu => hparts u hu _ rfl

theorem Shows.document_eq (hdocument : document.IsNumbered) {l : Label} {o : Value}
    (h : Shows number document l o) : l.document = number := by
  obtain ⟨fuel, path, depth, n, v, hpath, hn, hbuild, hv, hlabel, rfl⟩ := h
  obtain ⟨inner, hbecomes⟩ := becomes_of_buildValue_ok hdocument hpath hbuild
  obtain ⟨k, rfl, -⟩ := hbecomes.label hv hlabel
  rfl

end Objects

/-- **What a document contains is a view of objects**, each with a label that names the document. -/
theorem exists_unfolds {number : Nat} {text : List Char} {v : Value} (h : readValue number text = .ok v) :
    ∃ objects : Label → Value → Prop, (∀ l o, objects l o → l.document = number) ∧
      AreObjects objects ∧ ∀ u ∈ contents v, Unfolds objects [] u := by
  rw [readValue] at h
  split at h
  · cases h
  · obtain rfl := Except.ok.inj h
    exact ⟨fun _ _ => False, fun _ _ h => h.elim, fun _ _ _ h => h.elim, List.forall_mem_nil _⟩
  · next document hread =>
    have hdocument := isNumbered_of_readNode hread
    rw [Node.toValue] at h
    cases hbuild : buildValue number document (document.size + 3) [] 0 document with
    | error fault =>
      rw [hbuild] at h
      cases h
    | ok root =>
      rw [hbuild] at h
      obtain rfl : root = v := Except.ok.inj h
      have hpath : AreAround document [] := List.forall_mem_nil _
      have hn : IsFrom document document := isFrom_of_mem_parts document.self_mem_parts
      refine ⟨Shows number document, fun _ _ => Shows.document_eq hdocument,
        areObjects_shows hdocument, ?_⟩
      -- the root is no node around what it contains
      obtain ⟨fuel, hbecomes⟩ := becomes_of_buildValue_ok hdocument hpath hbuild
      exact hbecomes.forall_mem_contents (fun _ _ => .pair) hn.deref fun _ _ _ m hm u hu =>
        unfolds_of_buildValue hdocument hpath hm hu

end DevMachines.Yaml
