import DevMachines.Proofs.Results
import DevMachines.Yaml.Document

/-!
# Where the fault of a value comes from

A text that is well-formed may still have no value.  A tag can be put on any scalar, and each tag has
texts of its own that it makes no value of: there is no 30th of February, and `maybe` is no truth
value.  `ComesFromScalar` lists what can be behind a fault that is not the malformed structure of a
text, and `comesFromScalar_readValue` says that nothing else is: a collection by itself, a merge or
an alias never brings up a fault of its own.
-/

namespace DevMachines
namespace Yaml

/-- The tags of scalars that have texts without a value. -/
def partialTags : List String := [Tag.bool, Tag.int, Tag.float, Tag.timestamp]

/-- What is behind the fault of a text: its structure, or one scalar of it. -/
inductive ComesFromScalar : ValueFault → Prop
  | structure : ComesFromScalar .malformed
  /-- A scalar whose tag makes no value of its text. -/
  | scalar {label : Label} {tag text : String} {fault : ValueFault} (htag : tag ∈ partialTags)
      (h : scalarValue label tag text = .error fault) : ComesFromScalar fault
  /-- A moment that is written as a mapping. -/
  | moment : ComesFromScalar .notText
  /-- An escape in a quoted scalar that names no character. -/
  | escape (code : Nat) : ComesFromScalar (.noSuchCodePoint code)

/-- A scalar with another tag has a value, or its letters write no octets. -/
theorem comesFromScalar_scalarValue (label : Label) (tag text : String) :
    OnlyFails ComesFromScalar (scalarValue label tag text) := by
  intro fault h
  by_cases htag : tag ∈ partialTags
  · exact .scalar htag h
  · simp only [partialTags, List.mem_cons, List.not_mem_nil, or_false, not_or] at htag
    obtain ⟨hbool, hint, hfloat, htimestamp⟩ := htag
    rw [scalarValue, if_neg hbool, if_neg hint, if_neg hfloat, if_neg htimestamp] at h
    split at h
    · cases h
    split at h
    · cases h
    split at h
    · unfold octetsValue at h
      split at h
      · split at h <;> cases h
        exact .structure
      · cases h
        exact .structure
    · cases h
      exact .structure

/-- Does building fail with faults of scalars only? -/
def Blames {α : Type} (b : Built α) : Prop := OnlyFails (fun e => ComesFromScalar e.2) b

theorem blames_malformed {α : Type} (depth : Nat) : Blames (.error (depth, .malformed) : Built α) :=
  onlyFails_error .structure

theorem Blames.both {α β : Type} {a : Built α} {b : Built β} (ha : Blames a) (hb : Blames b) :
    Blames (Built.both a b) := by
  cases a with
  | ok x =>
    cases b with
    | ok y => exact onlyFails_ok
    | error f => exact onlyFails_error (hb f rfl)
  | error e =>
    cases b with
    | ok y => exact onlyFails_error (ha e rfl)
    | error f =>
      unfold Built.both
      dsimp only
      split
      · exact onlyFails_error (hb f rfl)
      · exact onlyFails_error (ha e rfl)

theorem blames_all {α : Type} {items : List (Built α)} (h : ∀ b ∈ items, Blames b) :
    Blames (Built.all items) := by
  induction items with
  | nil => exact onlyFails_ok
  | cons b items ih =>
    rw [List.forall_mem_cons] at h
    exact (h.1.both (ih h.2)).map

/-! ## Texts and merges have no fault but malformed structure -/

theorem onlyFails_scalarText (document : Node) (fuel : Nat) (n : Node) :
    OnlyFails (· = .malformed) (scalarText document fuel n) := by
  induction fuel generalizing n with
  | zero => exact onlyFails_error rfl
  | succ fuel ih =>
    unfold scalarText
    split
    · exact onlyFails_ok
    · split
      · exact ih _
      · exact onlyFails_error rfl
    · exact onlyFails_error rfl

theorem onlyFails_mergedEntries (document : Node) (fuel : Nat)
    (merging : List (Nat × List (Node × Node))) (label : Nat) (entries : List (Node × Node)) :
    OnlyFails (· = .malformed) (mergedEntries document fuel merging label entries) := by
  induction fuel generalizing merging label entries with
  | zero => exact onlyFails_error rfl
  | succ fuel ih =>
    unfold mergedEntries
    extract_lets isMerge own merging entriesOf
    have hentries : ∀ n, OnlyFails (· = .malformed) (entriesOf n) := by
      intro n
      dsimp only [entriesOf]
      split
      · split
        · exact onlyFails_ok
        · exact ih _ _ _
      · exact onlyFails_error rfl
    refine OnlyFails.bind (onlyFails_mapM fun entry _ => ?_) fun _ => onlyFails_ok
    obtain ⟨key, source⟩ := entry
    dsimp only
    split
    · exact hentries _
    · exact OnlyFails.bind (onlyFails_mapM fun n _ => hentries n) fun _ => onlyFails_ok
    · exact onlyFails_error rfl

/-! ## Building -/

theorem blames_buildEntries {build : Node → Built Value} (h : ∀ n, Blames (build n)) (depth : Nat)
    (entries : List (Node × Node)) : Blames (buildEntries build depth entries) := by
  induction entries with
  | nil => exact onlyFails_ok
  | cons entry entries ih =>
    obtain ⟨k, v⟩ := entry
    unfold buildEntries
    refine (Blames.both ?_ ((h v).both ih)).map
    have hkey := h k
    generalize build k = key at hkey ⊢
    cases key with
    | ok key =>
      dsimp only
      split
      · exact onlyFails_ok
      · exact blames_malformed depth
    | error e =>
      obtain ⟨d, f⟩ := e
      dsimp only
      split
      · exact blames_malformed depth
      · exact hkey

theorem blames_buildPairs {document : Node} {build : Node → Built Value}
    (h : ∀ n, Blames (build n)) (depth : Nat) (items : List Node) :
    Blames (buildPairs document build depth items) := by
  refine blames_all fun b hb => ?_
  obtain ⟨item, -, rfl⟩ := List.mem_map.mp hb
  unfold buildPair
  split
  · exact ((h _).both (h _)).map
  · exact blames_malformed depth

/-- **Building a node brings up no fault but those of scalars and of structure.** -/
theorem blames_buildValue (number : Nat) (document : Node) (fuel depth : Nat) (path : List Nat)
    (n : Node) : Blames (buildValue number document fuel path depth n) := by
  induction fuel generalizing path depth n with
  | zero => exact blames_malformed depth
  | succ fuel ih =>
    unfold buildValue
    extract_lets n node label tag path build entriesOf
    have hbuild : ∀ n, Blames (build n) := fun n => ih _ _ n
    have hentries : Blames entriesOf := by
      dsimp only [entriesOf]
      clear_value n
      split
      · exact OnlyFails.mapError (onlyFails_mergedEntries _ _ _ _ _) fun f hf => hf ▸ .structure
      · exact blames_malformed _
    have hscalar : ∀ text, Blames ((scalarValue label tag text).mapError fun f => (depth, f)) :=
      fun text => OnlyFails.mapError (comesFromScalar_scalarValue label tag text) fun _ hf => hf
    clear_value entriesOf build path label tag node n
    split
    · exact onlyFails_ok
    split
    · exact blames_malformed depth
    split
    · split
      · next f htext =>
        obtain rfl := onlyFails_scalarText _ _ _ f htext
        exact blames_malformed depth
      · split
        · split
          · exact onlyFails_error .moment
          · exact hscalar _
        · exact hscalar _
    split
    · exact hentries.bind fun _ => (blames_buildEntries hbuild _ _).bind fun _ => onlyFails_ok
    split
    · exact hentries.bind fun _ => (blames_buildEntries hbuild _ _).bind fun _ => onlyFails_ok
    split
    · split
      · refine OnlyFails.map (blames_all fun b hb => ?_)
        obtain ⟨item, -, rfl⟩ := List.mem_map.mp hb
        exact hbuild item
      · exact (blames_buildPairs hbuild _ _).map
    · exact blames_malformed _

/-- **A text has no value because of its structure, or because of one of its scalars.** -/
theorem comesFromScalar_readValue (number : Nat) (text : List Char) :
    OnlyFails ComesFromScalar (readValue number text) := by
  unfold readValue
  split
  · next f _ =>
    cases f with
    | malformed => exact onlyFails_error .structure
    | noSuchCodePoint code => exact onlyFails_error (.escape code)
  · exact onlyFails_ok
  · exact (blames_buildValue number _ _ _ _ _).mapError fun _ hf => hf

end Yaml
end DevMachines
