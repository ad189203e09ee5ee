import DevMachines.Proofs.Yaml.Restoring
import DevMachines.Proofs.Yaml.Spelling

/-!
# What can be written so that it is read

Two texts can be written so that they are not read again.  Whether a key may stand in front of its colon
is decided by the length of its text, but the reader gives up on a key after 1024 characters, escapes
included.  In double quotes, where lines are indented to the width of the page, two folds may follow each
other (`FoldsAt`).  A value fits at a place if it has no such text (`Fits`).  All other scalars that come
back can be spelled wherever they stand.

Main statements: `isSpellable_of_comesBack` and `Fits.of_valuePlace`.
-/

namespace DevMachines.Yaml

/-! ## Scalars -/

section HasPair

variable {p q : Char → Bool} {cs : List Char}

theorem hasPair_eq_false_of_left (h : ∀ c ∈ cs, p c = false) : hasPair p q cs = false := by
  induction cs with
  | nil => rfl
  | cons c cs ih =>
    rw [List.forall_mem_cons] at h
    cases cs with
    | nil => rfl
    | cons d cs => rw [hasPair, h.1, ih h.2, Bool.false_and, Bool.false_or]

theorem hasPair_eq_false_of_right (h : ∀ c ∈ cs, q c = false) : hasPair p q cs = false := by
  induction cs with
  | nil => rfl
  | cons c cs ih =>
    rw [List.forall_mem_cons] at h
    cases cs with
    | nil => rfl
    | cons d cs =>
      rw [hasPair, h.2 d (List.mem_cons_self ..), ih h.2, Bool.and_false, Bool.false_or]

end HasPair

theorem needsEscape_eq_false {c : Char} (h : c = '\n' ∨ TakesColumn c) : needsEscape c = false := by
  simp only [needsEscape, Bool.not_eq_false', Bool.or_eq_true, beq_iff_eq, Bool.and_eq_true,
    decide_eq_true_eq]
  exact h

theorem TakesColumn.not_isWrittenBreak {c : Char} (h : TakesColumn c) : isWrittenBreak c = false := by
  have hbounds := h.bounds
  simp only [isWrittenBreak, Bool.or_eq_false_iff, beq_eq_false_iff_ne]
  refine ⟨⟨⟨?_, ?_⟩, ?_⟩, ?_⟩ <;> rintro rfl <;> exact absurd hbounds (by decide)

/-- Single quotes hold visible characters. -/
theorem allowsSingleQuotes_of_takesColumn {cs : List Char} (h : ∀ c ∈ cs, TakesColumn c) :
    allowsSingleQuotes cs = true := by
  have hescapes : cs.any needsEscape = false :=
    List.any_eq_false.mpr fun c hc => by simp [needsEscape_eq_false (.inr (h c hc))]
  have hbreaks : ∀ c ∈ cs, isWrittenBreak c = false := fun c hc => (h c hc).not_isWrittenBreak
  rw [allowsSingleQuotes, hescapes, hasPair_eq_false_of_right hbreaks, hasPair_eq_false_of_left hbreaks]
  rfl

/-- Rows can be written as a block of lines. -/
theorem allowsLiteral_rowsText {rows : List (List Char)} (hsome : rows ≠ [])
    (hrows : ∀ row ∈ rows, IsRow row) : allowsLiteral (rowsText rows) = true := by
  have hchars : ∀ c ∈ rowsText rows, c = '\n' ∨ IsWordChar c := by
    simp only [rowsText, List.mem_flatMap, List.mem_append, List.mem_singleton]
    rintro c ⟨row, hrow, hc | rfl⟩
    · exact .inr ((hrows row hrow).2 c hc)
    · exact .inl rfl
  have hescapes : (rowsText rows).any needsEscape = false := List.any_eq_false.mpr fun c hc => by
    simp [needsEscape_eq_false ((hchars c hc).imp_right And.left)]
  have hspaces : ∀ c ∈ rowsText rows, isSpace c = false := by
    intro c hc
    rw [isSpace, beq_eq_false_iff_ne]
    rcases hchars c hc with rfl | hword
    · decide
    · exact hword.2
  have hlast : (rowsText rows).getLast? = some '\n' := by
    obtain ⟨rows, row, rfl⟩ := List.eq_nil_or_concat rows |>.resolve_left hsome
    simp [rowsText]
  have hempty : (rowsText rows).isEmpty = false := by
    rw [List.isEmpty_eq_false_iff]
    intro hnil
    rw [hnil] at hlast
    cases hlast
  rw [allowsLiteral, hempty, hescapes, hasPair_eq_false_of_left hspaces, hlast]
  rfl

/-- The rows of octets are words. -/
theorem exists_rowsText (octets : Text.Octets) : ∃ rows : List (List Char), (∀ row ∈ rows, IsRow row) ∧
    Text.Base64.lines octets = rowsText rows := by
  obtain ⟨rows, hrows, hlines⟩ := Text.Base64.exists_rows octets
  refine ⟨rows, fun row hrow => ⟨?_, fun c hc => ?_⟩, hlines⟩
  · rintro rfl
    exact hrows.nonempty hrow
  · have hletter := hrows.isLetter row hrow c hc
    refine ⟨⟨Char.le_trans (by decide) hletter.1, Char.le_trans hletter.2 (by decide)⟩, ?_⟩
    rintro rfl
    exact absurd hletter (by decide)

/-- What is written as lines is written as rows. -/
theorem exists_rows_of_scalarForm {v : Value} {tag text : String}
    (h : scalarForm v = some (tag, text, true)) :
    ∃ rows : List (List Char), (∀ row ∈ rows, IsRow row) ∧ text.toList = rowsText rows := by
  cases v with
  | octets octets =>
    cases h
    rw [String.toList_ofList]
    exact exists_rowsText octets
  | _ => cases h

theorem scalarForm_nonempty {v : Value} {tag text : String} {asLines : Bool}
    (h : scalarForm v = some (tag, text, asLines)) (hplain : tag = impliedTag text) :
    text.toList ≠ [] := by
  intro hempty
  have htext : text = "" := by simpa using hempty
  subst htext
  have hnull : impliedTag "" = Tag.null := by decide
  rw [hnull] at hplain
  subst hplain
  cases v <;> simp only [scalarForm, Option.some.injEq, Prod.mk.injEq, reduceCtorEq] at h <;>
    first | exact absurd h.1 (by decide) | exact absurd h.2.1 (by decide)

/-- Can a text be read where lines are indented, if it is put into double quotes? -/
def TextFits (indent : Nat) (s : String) : Prop :=
  styleOf Tag.text s false false = .doubleQuoted → FoldsAt indent s.toList

theorem styleOf_lines {tag text : String} {simpleKey : Bool} :
    styleOf tag text true simpleKey =
      if !simpleKey && allowsLiteral text.toList then .literal else .doubleQuoted := rfl

theorem styleOf_ne_literal (tag text : String) (simpleKey : Bool) :
    styleOf tag text false simpleKey ≠ .literal := by
  unfold styleOf
  dsimp only
  split
  · decide
  · simp only [Bool.false_eq_true, ↓reduceIte]
    split <;> decide

theorem allowsSingleQuotes_eq_false_of_styleOf {tag text : String}
    (h : styleOf tag text false false = .doubleQuoted) : allowsSingleQuotes text.toList = false := by
  unfold styleOf at h
  dsimp only at h
  split at h
  · cases h
  · simp only [Bool.false_eq_true, ↓reduceIte, Bool.false_and, Bool.not_false, Bool.and_true] at h
    split at h
    · cases h
    · next hquotes => simpa using hquotes

/-- **A scalar that comes back can be spelled**, unless it is a text that does not fit. -/
theorem isSpellable_of_comesBack {v : Value} {tag text : String} {asLines simpleKey : Bool}
    {indent : Nat} (h : scalarForm v = some (tag, text, asLines)) (hback : ComesBack v)
    (hfits : simpleKey = false → tag = Tag.text → TextFits indent text) :
    IsSpellable tag text asLines simpleKey indent where
  nonempty := scalarForm_nonempty h
  rows hstyle := by
    cases asLines with
    | false => exact absurd hstyle (styleOf_ne_literal tag text simpleKey)
    | true =>
      obtain ⟨rows, hrows, htext⟩ := exists_rows_of_scalarForm h
      refine ⟨rows, ?_, hrows, htext⟩
      rintro rfl
      rw [styleOf_lines, htext] at hstyle
      cases simpleKey <;> exact absurd hstyle (by decide)
  folds hstyle hkey := by
    subst hkey
    cases asLines with
    | false =>
      by_cases htag : tag = Tag.text
      · exact hfits rfl htag (htag ▸ hstyle)
      · have hquotes := allowsSingleQuotes_of_takesColumn (hback.takesColumn h htag)
        rw [allowsSingleQuotes_eq_false_of_styleOf hstyle] at hquotes
        cases hquotes
    | true =>
      obtain ⟨rows, hrows, htext⟩ := exists_rows_of_scalarForm h
      by_cases hsome : rows = []
      · subst hsome
        rw [htext]
        refine .inr fun before ch after heq => ?_
        cases before <;> cases heq
      · rw [styleOf_lines, htext, allowsLiteral_rowsText hsome hrows] at hstyle
        cases hstyle

/-! ## Places -/

theorem FoldsAt.mono {indent indent' : Nat} {text : List Char} (h : FoldsAt indent' text)
    (hle : indent ≤ indent') : FoldsAt indent text :=
  h.imp_left fun hless => Nat.lt_of_le_of_lt hle hless

theorem TextFits.mono {indent indent' : Nat} {s : String} (h : TextFits indent' s)
    (hle : indent ≤ indent') : TextFits indent s := fun hstyle => (h hstyle).mono hle

/-- Can a key be read where entries are indented?  Its text must not be too long in front of the colon,
with its escapes, and fit elsewhere. -/
def KeyFits (column : Nat) : Value → Prop
  | .text s =>
      if isSimpleKey [] .start (.text s) then (Ink.shown s.toList).length ≤ 1022
      else TextFits (column + 2) s
  | _ => True

/-- The place of the value behind a key.  A key with a label may be an alias, and is taken for one behind
a question mark: nothing is indented more then. -/
def valuePlace (k : Value) : Place :=
  if labelOf k = none ∧ isSimpleKey [] .start k then .entry else .part

mutual

/-- Can the texts in a value be read where they stand? -/
def Fits (indent : Nat) (place : Place) : Value → Prop
  | .text s => TextFits (indent + 2) s
  | .list _ items => itemsFit (place.itemColumn .none indent) items
  | .set _ elements => ∀ k ∈ elements, KeyFits (indent + 2) k
  | .map _ entries => entriesFit (indent + 2) entries
  | _ => True

/-- Can the texts in items be read? -/
def itemsFit (column : Nat) : List Value → Prop
  | [] => True
  | v :: rest => Fits column .item v ∧ itemsFit column rest

/-- Can the texts in entries be read? -/
def entriesFit (column : Nat) : List (Value × Value) → Prop
  | [] => True
  | (k, v) :: rest => KeyFits column k ∧ Fits column (valuePlace k) v ∧ entriesFit column rest

end

variable {indent indent' column column' : Nat} {place place' : Place} {anchored : List Label}
  {pen : Pen} {k v : Value}

theorem itemsFit_iff {vs : List Value} : itemsFit column vs ↔ ∀ v ∈ vs, Fits column .item v := by
  induction vs with
  | nil => simp [itemsFit]
  | cons v vs ih => rw [itemsFit, ih, List.forall_mem_cons]

theorem entriesFit_iff {vs : List (Value × Value)} : entriesFit column vs ↔
    ∀ e ∈ vs, KeyFits column e.1 ∧ Fits column (valuePlace e.1) e.2 := by
  induction vs with
  | nil => simp [entriesFit]
  | cons e vs ih => rw [entriesFit, ih, List.forall_mem_cons, and_assoc]

theorem KeyFits.mono (h : KeyFits column' k) (hle : column ≤ column') : KeyFits column k := by
  cases k with
  | text s =>
    rw [KeyFits] at h ⊢
    split
    · next hsimple => rwa [if_pos hsimple] at h
    · next hsimple =>
      rw [if_neg hsimple] at h
      exact h.mono (Nat.add_le_add_right hle 2)
  | _ => trivial

/-- What fits is read where less is indented, too. -/
theorem Fits.mono (h : Fits indent' place' v) (hle : indent ≤ indent')
    (hitems : place.itemColumn .none indent ≤ place'.itemColumn .none indent') : Fits indent place v := by
  induction v using Value.byParts generalizing indent indent' place place' with
  | scalar v hv =>
    cases v with
    | text s => exact TextFits.mono h (Nat.add_le_add_right hle 2)
    | list | pair | set | map | again => exact absurd hv id
    | _ => trivial
  | list label items ih =>
    rw [Fits, itemsFit_iff] at h ⊢
    have hcolumn : Place.item.itemColumn .none (place.itemColumn .none indent) ≤ _ :=
      Nat.add_le_add_right hitems 2
    exact fun v hv => ih v hv (h v hv) hitems hcolumn
  | pair | again => trivial
  | set label elements => exact fun k hk => (h k hk).mono (Nat.add_le_add_right hle 2)
  | map label entries ih =>
    rw [Fits, entriesFit_iff] at h ⊢
    have hcolumn : indent + 2 ≤ indent' + 2 := Nat.add_le_add_right hle 2
    refine fun e he => ⟨(h e he).1.mono hcolumn, (ih e he).2 (h e he).2 hcolumn ?_⟩
    rw [Place.itemColumn, Place.itemColumn]
    split <;> omega

theorem itemColumn_entry_le (place : Place) (i : Nat) :
    Place.entry.itemColumn .none i ≤ place.itemColumn .none i := by
  have hentry : Place.entry.itemColumn .none i = i := rfl
  rw [hentry, Place.itemColumn]
  split <;> omega

/-- Without a label it does not matter what has been written before. -/
theorem isSimpleKey_of_unlabelled (h : labelOf k = none) :
    isSimpleKey anchored pen k = isSimpleKey [] .start k := by
  have hanchor : ∀ anchored, anchorOf anchored none = none := fun _ => rfl
  simp only [isSimpleKey, h, hanchor, Option.isSome_none, Bool.false_and, Bool.false_eq_true, ↓reduceIte]

/-- **What fits at the place of a value fits behind its key**, wherever that has been written. -/
theorem Fits.of_valuePlace (h : Fits column (valuePlace k) v) (anchored : List Label) (pen : Pen) :
    Fits column (if isSimpleKey anchored pen k then .entry else .part) v := by
  by_cases hsimple : labelOf k = none ∧ isSimpleKey [] .start k = true
  · rw [valuePlace, if_pos hsimple] at h
    rwa [isSimpleKey_of_unlabelled hsimple.1, if_pos hsimple.2]
  · rw [valuePlace, if_neg hsimple] at h
    split
    · exact h.mono (Nat.le_refl _) (itemColumn_entry_le .part column)
    · exact h

/-- A text fits where a value that is written as it does. -/
theorem Fits.textFits {tag text : String} {asLines : Bool} (h : Fits indent place v)
    (hform : scalarForm v = some (tag, text, asLines)) (htag : tag = Tag.text) :
    TextFits (indent + 2) text := by
  cases v with
  | text s =>
    cases hform
    exact h
  | null | bool | int | float | octets | date | moment =>
    cases hform
    exact absurd htag (by decide)
  | list | pair | set | map | again => cases hform

/-- A key that does not stand in front of its colon fits behind a question mark. -/
theorem KeyFits.fits (h : KeyFits column k) (hk : k.IsScalar)
    (hsimple : isSimpleKey anchored pen k = false) : Fits column .part k := by
  cases k with
  | text s =>
    rw [isSimpleKey_of_unlabelled rfl] at hsimple
    rwa [KeyFits, hsimple, if_neg Bool.false_ne_true] at h
  | list | pair | set | map | again => exact absurd hk id
  | _ => trivial

end DevMachines.Yaml
