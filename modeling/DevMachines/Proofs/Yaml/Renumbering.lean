import DevMachines.Proofs.Results
import DevMachines.Proofs.Value.Renumbering
import DevMachines.Yaml.Document

/-!
# A text in two documents

The number of a document goes into the labels of its values and nowhere else.  So a text that is read
under another number gives the same value, as a part of the other document, or the same fault.

Main statement: `readValue_inDocument`.
-/

namespace DevMachines.Yaml

open Value (inDocument entryInDocument)

variable {α β γ δ : Type} {number other : Nat}

/-! ## Putting results together -/

theorem both_map (f : α → γ) (g : β → δ) (a : Built α) (b : Built β) :
    Built.both (a.map f) (b.map g) = (Built.both a b).map (Prod.map f g) := by
  cases a with
  | ok x => cases b <;> rfl
  | error e =>
    cases b with
    | ok y => rfl
    | error e' =>
      simp only [Except.map, Built.both]
      split <;> rfl

theorem always_both {P : α → Prop} {Q : β → Prop} {a : Built α} {b : Built β} (ha : Always P a)
    (hb : Always Q b) : Always (fun both => P both.1 ∧ Q both.2) (Built.both a b) := by
  cases a with
  | ok x =>
    cases b with
    | ok y => exact always_ok ⟨ha x rfl, hb y rfl⟩
    | error e => exact always_error
  | error e =>
    cases b with
    | ok y => exact always_error
    | error e' =>
      rw [Built.both]
      split <;> exact always_error

theorem all_map (f : α → β) (results : List (Built α)) :
    Built.all (results.map (·.map f)) = (Built.all results).map (List.map f) := by
  induction results with
  | nil => rfl
  | cons a results ih =>
    rw [List.map_cons, Built.all, Built.all, ih, both_map]
    cases Built.both a (Built.all results) <;> rfl

/-! ## Collecting entries and elements -/

/-- Are the keys of entries all usable as keys? -/
def HaveKeys (entries : List (Value × Value)) : Prop := ∀ e ∈ entries, e.1.isKey = true

theorem insertEntry_inDocument {key value : Value} {entries : List (Value × Value)}
    (hkey : key.isKey = true) (h : HaveKeys entries) :
    Value.insertEntry (key.inDocument number) (value.inDocument number)
        (entries.map (entryInDocument number)) =
      (Value.insertEntry key value entries).map (entryInDocument number) := by
  induction entries with
  | nil => rfl
  | cons e entries ih =>
    obtain ⟨k, v⟩ := e
    obtain ⟨hk, hrest⟩ := List.forall_mem_cons.mp h
    rw [List.map_cons, entryInDocument, Value.insertEntry, Value.insertEntry,
      Value.eq_inDocument hk hkey, ih hrest]
    split <;> rfl

/-- What keys and values have, those of the entries have once one more is written. -/
theorem forall_mem_insertEntry {P Q : Value → Prop} {key value : Value}
    {entries : List (Value × Value)} (hkey : P key) (hvalue : Q value)
    (h : ∀ e ∈ entries, P e.1 ∧ Q e.2) :
    ∀ e ∈ Value.insertEntry key value entries, P e.1 ∧ Q e.2 := by
  induction entries with
  | nil => exact List.forall_mem_singleton.mpr ⟨hkey, hvalue⟩
  | cons e entries ih =>
    obtain ⟨k, v⟩ := e
    obtain ⟨hfirst, hrest⟩ := List.forall_mem_cons.mp h
    rw [Value.insertEntry]
    split
    · exact List.forall_mem_cons.mpr ⟨⟨hfirst.1, hvalue⟩, hrest⟩
    · exact List.forall_mem_cons.mpr ⟨hfirst, ih hrest⟩

theorem haveKeys_insertEntry {key : Value} {entries : List (Value × Value)}
    (hkey : key.isKey = true) (value : Value) (h : HaveKeys entries) :
    HaveKeys (Value.insertEntry key value entries) := by
  have hboth : ∀ e ∈ Value.insertEntry key value entries, e.1.isKey = true ∧ True :=
    forall_mem_insertEntry (P := fun key => key.isKey = true) (Q := fun _ => True) hkey trivial
      fun e he => ⟨h e he, trivial⟩
  exact fun e he => (hboth e he).1

theorem collectEntries_inDocument {entries : List (Value × Value)} (h : HaveKeys entries) :
    collectEntries (entries.map (entryInDocument number)) =
      (collectEntries entries).map (entryInDocument number) := by
  let insert (acc : List (Value × Value)) (e : Value × Value) := Value.insertEntry e.1 e.2 acc
  suffices hall : ∀ acc, HaveKeys acc →
      (entries.map (entryInDocument number)).foldl insert (acc.map (entryInDocument number)) =
        (entries.foldl insert acc).map (entryInDocument number) from
    hall [] fun _ => (absurd · List.not_mem_nil)
  induction entries with
  | nil => exact fun _ _ => rfl
  | cons e entries ih =>
    intro acc hacc
    obtain ⟨he, hrest⟩ := List.forall_mem_cons.mp h
    have hinsert : insert (acc.map (entryInDocument number)) (entryInDocument number e) =
        (insert acc e).map (entryInDocument number) := insertEntry_inDocument he hacc
    rw [List.map_cons, List.foldl_cons, List.foldl_cons, hinsert]
    exact ih hrest _ (haveKeys_insertEntry he e.2 hacc)

theorem insertElement_inDocument {element : Value} {elements : List Value}
    (helement : element.isKey = true) (h : ∀ v ∈ elements, v.isKey = true) :
    Value.insertElement (element.inDocument number) (elements.map (inDocument number)) =
      (Value.insertElement element elements).map (inDocument number) := by
  have hany : (elements.map (inDocument number)).any (Value.eq · (element.inDocument number)) =
      elements.any (Value.eq · element) := by
    rw [List.any_map, Bool.eq_iff_iff, List.any_eq_true, List.any_eq_true]
    refine exists_congr fun v => and_congr_right fun hv => ?_
    rw [Function.comp_apply, Value.eq_inDocument (h v hv) helement]
  rw [Value.insertElement, Value.insertElement, hany]
  split <;> simp

theorem collectElements_inDocument {elements : List Value} (h : ∀ v ∈ elements, v.isKey = true) :
    collectElements (elements.map (inDocument number)) =
      (collectElements elements).map (inDocument number) := by
  suffices hall : ∀ acc : List Value, (∀ v ∈ acc, v.isKey = true) →
      (elements.map (inDocument number)).foldl (fun acc v => Value.insertElement v acc)
          (acc.map (inDocument number)) =
        (elements.foldl (fun acc v => Value.insertElement v acc) acc).map (inDocument number) from
    hall [] fun _ => (absurd · List.not_mem_nil)
  induction elements with
  | nil => exact fun _ _ => rfl
  | cons element elements ih =>
    intro acc hacc
    obtain ⟨helement, hrest⟩ := List.forall_mem_cons.mp h
    rw [List.map_cons, List.foldl_cons, List.foldl_cons, insertElement_inDocument helement hacc]
    refine ih hrest _ ?_
    rw [Value.insertElement]
    split
    · exact hacc
    · intro v hv
      rcases List.mem_append.mp hv with hv | hv
      · exact hacc v hv
      · rw [List.mem_singleton.mp hv]
        exact helement

/-! ## Building -/

section Building

variable {build built : Node → Built Value}

/-- A value where a key should be. -/
def keyOf (depth : Nat) : Built Value → Built Value
  | .ok key => if key.isKey then .ok key else .error (depth, .malformed)
  | .error fault => if depth < fault.1 then .error (depth, .malformed) else .error fault

theorem keyOf_map (depth : Nat) (key : Built Value) :
    keyOf depth (key.map (inDocument other)) = (keyOf depth key).map (inDocument other) := by
  cases key with
  | ok key =>
    simp only [Except.map, keyOf, Value.isKey_inDocument]
    split <;> rfl
  | error fault =>
    simp only [Except.map, keyOf]
    split <;> rfl

theorem buildEntries_cons (build : Node → Built Value) (depth : Nat) (k v : Node)
    (rest : List (Node × Node)) :
    buildEntries build depth ((k, v) :: rest) =
      (Built.both (keyOf depth (build k))
        (Built.both (build v) (buildEntries build depth rest))).map
          fun e => (e.1, e.2.1) :: e.2.2 := by
  rw [buildEntries]
  cases build k <;> rfl

theorem buildEntries_inDocument (h : ∀ n, built n = (build n).map (inDocument other))
    (depth : Nat) (entries : List (Node × Node)) :
    buildEntries built depth entries =
      (buildEntries build depth entries).map (List.map (entryInDocument other)) := by
  induction entries with
  | nil => rfl
  | cons e entries ih =>
    obtain ⟨k, v⟩ := e
    rw [buildEntries_cons, buildEntries_cons, h k, h v, ih, keyOf_map, both_map, both_map]
    cases Built.both (keyOf depth (build k))
      (Built.both (build v) (buildEntries build depth entries)) <;> rfl

/-- What is built where a key should be is usable as one. -/
theorem always_keyOf {P : Value → Prop} {key : Built Value} (h : Always P key) (depth : Nat) :
    Always (fun key => key.isKey = true ∧ P key) (keyOf depth key) := by
  cases key with
  | ok key =>
    rw [keyOf]
    split
    · next hkey => exact always_ok ⟨hkey, h key rfl⟩
    · exact always_error
  | error fault =>
    rw [keyOf]
    split <;> exact always_error

/-- The keys of entries that are built are usable as keys, and what all values have that are built,
the keys and values of the entries have. -/
theorem always_buildEntries {P : Value → Prop} (h : ∀ n, Always P (build n)) (depth : Nat)
    (entries : List (Node × Node)) :
    Always (fun built => HaveKeys built ∧ ∀ e ∈ built, P e.1 ∧ P e.2)
      (buildEntries build depth entries) := by
  induction entries with
  | nil => exact always_ok ⟨List.forall_mem_nil _, List.forall_mem_nil _⟩
  | cons e entries ih =>
    obtain ⟨k, v⟩ := e
    rw [buildEntries_cons]
    refine (always_both (always_keyOf (h k) depth) (always_both (h v) ih)).map fun e he => ?_
    obtain ⟨⟨hisKey, hkey⟩, hvalue, hkeys, hrest⟩ := he
    exact ⟨List.forall_mem_cons.mpr ⟨hisKey, hkeys⟩,
      List.forall_mem_cons.mpr ⟨⟨hkey, hvalue⟩, hrest⟩⟩

theorem haveKeys_buildEntries (build : Node → Built Value) (depth : Nat)
    (entries : List (Node × Node)) : Always HaveKeys (buildEntries build depth entries) := by
  have hbuild : ∀ n, Always (fun _ => True) (build n) := fun _ _ _ => trivial
  exact fun built hbuilt => (always_buildEntries hbuild depth entries built hbuilt).1

theorem buildPair_inDocument (h : ∀ n, built n = (build n).map (inDocument other))
    (document : Node) (depth : Nat) (item : Node) :
    buildPair document built depth item =
      (buildPair document build depth item).map (inDocument other) := by
  unfold buildPair
  split
  · next k v _ =>
    rw [h, h, both_map]
    cases Built.both (build k) (build v) <;> rfl
  · rfl

end Building

/-- A scalar has a label only if it is a day or a moment. -/
theorem scalarValue_inDocument (node : Nat) (tag text : String) :
    scalarValue ⟨other, node⟩ tag text =
      (scalarValue ⟨number, node⟩ tag text).map (inDocument other) := by
  rw [scalarValue, scalarValue]
  split
  · rfl
  split
  · rfl
  split
  · cases boolValue text <;> rfl
  split
  · cases intValue text <;> rfl
  split
  · cases floatValue text <;> rfl
  split
  · rw [timestampValue, timestampValue]
    cases timestampParts? (dropFinalBreak text.toList) with
    | none => rfl
    | some parts =>
      dsimp only
      split
      · split <;> rfl
      · split <;> rfl
  split
  · rw [octetsValue]
    split
    · cases Text.Base64.decode text.toList <;> rfl
    · rfl
  · rfl

theorem list_inDocument {label label' : Label} (hlabel : label'.inDocument other = label)
    (items : Built (List Value)) :
    (items.map (List.map (inDocument other))).map (Value.list (some label)) =
      (items.map (Value.list (some label'))).map (inDocument other) := by
  cases items with
  | error fault => rfl
  | ok items =>
    rw [map_ok, map_ok, map_ok, map_ok, inDocument, Value.itemsInDocument_eq, Option.map_some,
      hlabel]

/-- **A node has the same value in another document**, or the same fault. -/
theorem buildValue_inDocument (document : Node) (fuel : Nat) (path : List Nat) (depth : Nat)
    (n : Node) :
    buildValue other document fuel path depth n =
      (buildValue number document fuel path depth n).map (inDocument other) := by
  induction fuel generalizing path depth n with
  | zero => rfl
  | succ fuel ih =>
    unfold buildValue
    extract_lets n node label tag path' build entriesOf label' build'
    have hbuild : ∀ n, build n = (build' n).map (inDocument other) := fun n => ih path' (depth + 1) n
    have hlabel : label'.inDocument other = label := rfl
    have hscalar : ∀ text, (scalarValue label tag text).mapError (fun f => (depth, f)) =
        ((scalarValue label' tag text).mapError fun f => (depth, f)).map (inDocument other) := by
      intro text
      have hsame : scalarValue label tag text =
          (scalarValue label' tag text).map (inDocument other) := scalarValue_inDocument node tag text
      rw [hsame]
      cases scalarValue label' tag text <;> rfl
    -- how the two were built does not matter any more
    clear_value label label' entriesOf build build' path' tag node n
    split
    · exact congrArg (fun l => Except.ok (Value.again l)) hlabel.symm
    split
    · rfl
    split
    · cases scalarText document (document.size + 1) n with
      | error fault => rfl
      | ok text =>
        cases n with
        | mapping =>
          dsimp only
          split
          · rfl
          · exact hscalar text
        | scalar | sequence | «alias» => exact hscalar text
    split
    · cases entriesOf with
      | error fault => rfl
      | ok entries =>
        rw [ok_bind, ok_bind, buildEntries_inDocument hbuild]
        have hkeys := haveKeys_buildEntries build' (depth + 1) entries
        cases hbuilt : buildEntries build' (depth + 1) entries with
        | error fault => rfl
        | ok built =>
          show Except.ok (Value.map (some label) (collectEntries (built.map (entryInDocument other))))
            = .ok ((Value.map (some label') (collectEntries built)).inDocument other)
          rw [collectEntries_inDocument (hkeys built hbuilt), inDocument,
            Value.entriesInDocument_eq, Option.map_some, hlabel]
    split
    · cases entriesOf with
      | error fault => rfl
      | ok entries =>
        rw [ok_bind, ok_bind, buildEntries_inDocument hbuild]
        have hkeys := haveKeys_buildEntries build' (depth + 1) entries
        cases hbuilt : buildEntries build' (depth + 1) entries with
        | error fault => rfl
        | ok built =>
          have helements : ∀ v ∈ built.map (·.1), v.isKey = true :=
            List.forall_mem_map.mpr (hkeys built hbuilt)
          have hfirst : (built.map (entryInDocument other)).map (·.1) =
              (built.map (·.1)).map (inDocument other) := by
            rw [List.map_map, List.map_map]
            rfl
          show Except.ok (Value.set (some label)
              (collectElements ((built.map (entryInDocument other)).map (·.1)))) =
            .ok ((Value.set (some label') (collectElements (built.map (·.1)))).inDocument other)
          rw [hfirst, collectElements_inDocument helements, inDocument, Value.itemsInDocument_eq,
            Option.map_some, hlabel]
    cases n with
    | sequence l t items =>
      dsimp only
      split
      · have hitems : items.map build = (items.map build').map (·.map (inDocument other)) := by
          rw [List.map_map]
          exact List.map_congr_left fun n _ => hbuild n
        rw [hitems, all_map]
        exact list_inDocument hlabel _
      · have hitems : items.map (buildPair document build (depth + 1)) =
            (items.map (buildPair document build' (depth + 1))).map (·.map (inDocument other)) := by
          rw [List.map_map]
          exact List.map_congr_left fun n _ => buildPair_inDocument hbuild document (depth + 1) n
        rw [buildPairs, buildPairs, hitems, all_map]
        exact list_inDocument hlabel _
    | scalar | mapping | «alias» => rfl

theorem readValue_inDocument (number other : Nat) (text : List Char) :
    readValue other text = (readValue number text).map (inDocument other) := by
  rw [readValue, readValue]
  split
  · rfl
  · rfl
  · next document _ =>
    rw [Node.toValue, Node.toValue, buildValue_inDocument]
    cases buildValue number document (document.size + 3) [] 0 document <;> rfl

end DevMachines.Yaml
