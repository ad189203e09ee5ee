import DevMachines.Proofs.Json.Grammar
import Mathlib.Data.Bool.AllAny

/-!
# What is written is JSON

A value that is written with every item on a line of its own is a JSON text that denotes it, and
all its characters are ASCII.

Main statements: `denotes_indented` and `isAscii_indented`.

## Why doubles are set aside

That a double is written with digits that read back is a matter of its own, and three doubles have
no JSON form at all.  So the statements are about values each of whose doubles is written exactly
(`WrittenExactly`), whatever these are.
-/

namespace DevMachines
namespace Json

/-! ## Texts in quotes -/

/-- Is this an ASCII character? -/
def IsAscii (c : Char) : Prop := c.toNat < 0x80

instance : DecidablePred IsAscii := fun c => inferInstanceAs (Decidable (c.toNat < 0x80))

/-- Is this an ASCII character that takes a column, so that it stays on its line? -/
def IsPrintable (c : Char) : Prop := 0x20 ≤ c.toNat ∧ c.toNat < 0x7f

instance : DecidablePred IsPrintable := fun c =>
  inferInstanceAs (Decidable (0x20 ≤ c.toNat ∧ c.toNat < 0x7f))

theorem IsPrintable.isAscii {c : Char} (h : IsPrintable c) : IsAscii c :=
  Nat.lt_succ_of_lt h.2

/-- The digits of a unit. -/
def unitDigits (n : Nat) : List Char :=
  List.replicate (4 - (Nat.toDigits 16 n).length) '0' ++ Nat.toDigits 16 n

theorem unitEscape_eq (n : Nat) : unitEscape n = '\\' :: 'u' :: unitDigits n := rfl

theorem spellsUnit_unitDigits {n : Nat} (h : n < 0x10000) : SpellsUnit n (unitDigits n) := by
  have hlength : (Nat.toDigits 16 n).length ≤ 4 :=
    (Nat.length_toDigits_le_iff (by decide) (by decide)).mpr h
  refine ⟨?_, readDigits?_toDigits (by decide) (by decide) _ n⟩
  simp only [unitDigits, List.length_append, List.length_replicate]
  omega

theorem isPrintable_digitChar {d : Nat} (h : d < 16) : IsPrintable d.digitChar := by
  unfold IsPrintable
  decide +revert

theorem isPrintable_of_mem_toDigits {base n : Nat} (hbase : 1 < base) (hsixteen : base ≤ 16)
    {c : Char} (h : c ∈ Nat.toDigits base n) : IsPrintable c := by
  induction n using Nat.strongRecOn with
  | _ n ih =>
    rcases Nat.lt_or_ge n base with hn | hn
    · rw [Nat.toDigits_of_lt_base hn, List.mem_singleton] at h
      exact h ▸ isPrintable_digitChar (by omega)
    · rw [Nat.toDigits_of_base_le hbase hn, List.mem_append, List.mem_singleton] at h
      rcases h with h | rfl
      · exact ih (n / base) (Nat.div_lt_self (by omega) hbase) h
      · exact isPrintable_digitChar (by have := Nat.mod_lt n (show 0 < base by omega); omega)

theorem isPrintable_unitEscape {n : Nat} {c : Char} (h : c ∈ unitEscape n) : IsPrintable c := by
  simp only [unitEscape_eq, unitDigits, List.mem_cons, List.mem_append, List.mem_replicate] at h
  rcases h with rfl | rfl | ⟨-, rfl⟩ | h
  · decide
  · decide
  · decide
  · exact isPrintable_of_mem_toDigits (by decide) (by decide) h

/-- A character beyond the basic plane is written as two units. -/
theorem spells_pair {c : Char} (hbeyond : 0x10000 ≤ c.toNat) {text cs : List Char}
    (h : Spells text cs) :
    Spells (c :: text) (unitEscape (0xd800 + (c.toNat - 0x10000) / 0x400) ++
      unitEscape (0xdc00 + (c.toNat - 0x10000) % 0x400) ++ cs) := by
  have hlt := toNat_lt c
  have hhigh : 0xd800 + (c.toNat - 0x10000) / 0x400 < 0x10000 := by omega
  have hlow : 0xdc00 + (c.toNat - 0x10000) % 0x400 < 0x10000 := by omega
  have hpair := Spells.pair hbeyond (spellsUnit_unitDigits hhigh) (spellsUnit_unitDigits hlow) h
  have hshape : ∀ high low : List Char,
      ('\\' :: 'u' :: high) ++ ('\\' :: 'u' :: low) ++ cs =
        '\\' :: 'u' :: (high ++ '\\' :: 'u' :: (low ++ cs)) := by simp
  rwa [unitEscape_eq, unitEscape_eq, hshape]

/-- A character is written as what spells it. -/
theorem spells_escapeChar (c : Char) {text cs : List Char} (h : Spells text cs) :
    Spells (c :: text) (escapeChar c ++ cs) := by
  have hshort : ∀ {letter d : Char}, c = d → (letter, d) ∈ shortEscapes →
      Spells (c :: text) ('\\' :: letter :: cs) := by
    rintro letter _ rfl hd
    exact .short hd h
  rw [escapeChar]
  split_ifs with hquote hbackslash hn hr ht hf hb hplain hbasic
  · exact hshort (eq_of_beq hquote) (by decide)
  · exact hshort (eq_of_beq hbackslash) (by decide)
  · exact hshort (eq_of_beq hn) (by decide)
  · exact hshort (eq_of_beq hr) (by decide)
  · exact hshort (eq_of_beq ht) (by decide)
  · exact hshort (eq_of_beq hf) (by decide)
  · exact hshort (eq_of_beq hb) (by decide)
  · simp only [Bool.and_eq_true, decide_eq_true_eq] at hplain
    exact .plain hplain.1 (by simpa using hquote) (by simpa using hbackslash) h
  · exact .unit (spellsUnit_unitDigits hbasic) h
  · exact spells_pair (Nat.not_lt.mp hbasic) h

theorem spells_flatMap_escapeChar (text : List Char) :
    Spells text (text.flatMap escapeChar) := by
  induction text with
  | nil => exact .nil
  | cons c text ih => exact spells_escapeChar c ih

theorem isPrintable_escapeChar {c d : Char} (h : d ∈ escapeChar c) : IsPrintable d := by
  have hshort : ∀ {letter : Char}, IsPrintable letter → d ∈ ['\\', letter] → IsPrintable d := by
    intro letter hletter hd
    simp only [List.mem_cons, List.not_mem_nil, or_false] at hd
    rcases hd with rfl | rfl
    · decide
    · exact hletter
  unfold escapeChar at h
  split_ifs at h with hquote hbackslash hn hr ht hf hb hplain hbasic
  · exact hshort (by decide) h
  · exact hshort (by decide) h
  · exact hshort (by decide) h
  · exact hshort (by decide) h
  · exact hshort (by decide) h
  · exact hshort (by decide) h
  · exact hshort (by decide) h
  · simp only [Bool.and_eq_true, decide_eq_true_eq] at hplain
    obtain rfl := List.mem_singleton.mp h
    exact ⟨hplain.1, Nat.lt_of_le_of_lt hplain.2 (by decide)⟩
  · exact isPrintable_unitEscape h
  · exact (List.mem_append.mp h).elim isPrintable_unitEscape isPrintable_unitEscape

theorem toList_quote (s : String) : (quote s).toList = '"' :: (s.toList.flatMap escapeChar ++ ['"']) :=
  String.toList_ofList

theorem denotes_quote (s : String) : Denotes (.str s) (quote s).toList := by
  rw [toList_quote]
  exact .str (spells_flatMap_escapeChar s.toList)

theorem isPrintable_quote (s : String) : ∀ c ∈ (quote s).toList, IsPrintable c := by
  rw [toList_quote]
  simp only [List.mem_cons, List.mem_append, List.mem_flatMap, List.not_mem_nil, or_false]
  rintro c (rfl | ⟨d, -, hc⟩ | rfl)
  · decide
  · exact isPrintable_escapeChar hc
  · decide

/-! ## Numbers -/

theorem areDigits_toDigits (n : Nat) : AreDigits (Nat.toDigits 10 n) := by
  refine ⟨Nat.toDigits_ne_nil, fun c hc => ?_⟩
  have hdigit := Nat.isDigit_of_mem_toDigits (by decide) (by decide) hc
  simp only [Char.isDigit, Bool.and_eq_true, decide_eq_true_eq] at hdigit
  rw [digitValue?, if_pos ⟨hdigit.1, hdigit.2⟩]
  rfl

/-- A positive number is written without a zero in front. -/
theorem head?_toDigits_ne_zero {n : Nat} (h : 0 < n) : (Nat.toDigits 10 n).head? ≠ some '0' := by
  induction n using Nat.strongRecOn with
  | _ n ih =>
    rcases Nat.lt_or_ge n 10 with hn | hn
    · rw [Nat.toDigits_of_lt_base hn]
      have hne : n.digitChar ≠ '0' := fun hzero => by
        rw [Nat.digitChar_eq_zero] at hzero
        omega
      simpa using hne
    · rw [Nat.toDigits_of_base_le (by decide) hn,
        List.head?_append_of_ne_nil _ Nat.toDigits_ne_nil]
      exact ih (n / 10) (Nat.div_lt_self (by omega) (by decide)) (by omega)

theorem isWhole_toDigits (n : Nat) : IsWhole (Nat.toDigits 10 n) := by
  refine ⟨areDigits_toDigits n, fun hzero => ?_⟩
  rcases Nat.eq_zero_or_pos n with rfl | h
  · rfl
  · exact absurd hzero (head?_toDigits_ne_zero h)

/-- An integer is written as a text that denotes it. -/
theorem denotes_intText (n : Int) : Denotes (.int n) (intText n).toList := by
  have hdigits : readDigits? 10 (Nat.toDigits 10 n.natAbs) = some n.natAbs := by
    simpa using readDigits?_toDigits (by decide) (by decide) 0 n.natAbs
  rw [intText, String.toList_ofList]
  split_ifs with hn
  · refine .int ⟨['-'], _, Or.inr rfl, isWhole_toDigits _, rfl⟩ ?_
    have hread : -((n.natAbs : Nat) : Int) = n := by omega
    simp only [readInt?, hdigits]
    exact congrArg some hread
  · refine .int ⟨[], _, Or.inl rfl, isWhole_toDigits _, rfl⟩ ?_
    rw [readInt?, hdigits]
    · simp
      omega
    · rintro digits hdigits
      have hminus := (areDigits_toDigits n.natAbs).2 '-' (by rw [hdigits]; simp)
      cases hminus

theorem isPrintable_intText (n : Int) : ∀ c ∈ (intText n).toList, IsPrintable c := by
  rw [intText, String.toList_ofList]
  split_ifs
  · rintro c (⟨⟩ | ⟨_, hc⟩)
    · decide
    · exact isPrintable_of_mem_toDigits (by decide) (by decide) hc
  · exact fun c hc => isPrintable_of_mem_toDigits (by decide) (by decide) hc

/-! ## Doubles -/

/-- Is a double written as a text that denotes it? -/
def WrittenExactly (x : Binary64) : Prop :=
  IsDecimal (floatText x).toList ∧ Binary64.ofText? (floatText x).toList = some x

theorem isAscii_of_isNumberChar {c : Char} (h : isNumberChar c = true) : IsAscii c := by
  simp only [isNumberChar, Bool.or_eq_true, beq_iff_eq] at h
  rcases h with ((((hdigit | rfl) | rfl) | rfl) | rfl) | rfl
  · rw [digitValue?] at hdigit
    split_ifs at hdigit with hrange
    · exact Nat.lt_of_le_of_lt hrange.2 (by decide)
    · cases hdigit
  all_goals decide

theorem WrittenExactly.isAscii {x : Binary64} (h : WrittenExactly x) :
    ∀ c ∈ (floatText x).toList, IsAscii c :=
  fun c hc => isAscii_of_isNumberChar (h.1.isNumberChar c hc)

mutual

/-- Does every double in a value have a property? -/
def EachFloat (p : Binary64 → Prop) : Json → Prop
  | .float x => p x
  | .arr items => EachFloatOfItems p items
  | .obj members => EachFloatOfMembers p members
  | _ => True

/-- Does every double in the items have a property? -/
def EachFloatOfItems (p : Binary64 → Prop) : List Json → Prop
  | [] => True
  | v :: rest => EachFloat p v ∧ EachFloatOfItems p rest

/-- Does every double in the members have a property? -/
def EachFloatOfMembers (p : Binary64 → Prop) : List (String × Json) → Prop
  | [] => True
  | (_, v) :: rest => EachFloat p v ∧ EachFloatOfMembers p rest

end

/-! ## Lines -/

theorem areSpaces_nil : AreSpaces [] := nofun

theorem areSpaces_blank : AreSpaces [' '] := List.forall_mem_singleton.mpr rfl

theorem areSpaces_lineStart (level : Nat) : AreSpaces (lineStart level).toList := by
  simp only [lineStart, String.toList_append, String.toList_ofList]
  intro c hc
  rcases List.mem_append.mp hc with hc | hc
  · obtain rfl := List.mem_singleton.mp hc
    rfl
  · rw [List.eq_of_mem_replicate hc]
    rfl

/-- Parts between brackets, each on a line of its own. -/
theorem toList_block {parts : List String} (h : parts ≠ []) (level : Nat)
    (opening closing : String) :
    (block level opening closing parts).toList = opening.toList ++
      ((lineStart (level + 1)).toList ++
        List.intercalate (',' :: (lineStart (level + 1)).toList) (parts.map String.toList) ++
        (lineStart level).toList ++ closing.toList) := by
  cases parts with
  | nil => exact absurd rfl h
  | cons part parts => simp [block, String.toList_intercalate]

/-- Parts with commas between them are a list of a grammar whose lists are made in that way. -/
theorem list_intercalate {α : Type} {IsPart : α → List Char → Prop}
    {IsList : List α → List Char → Prop} {start stop : List Char} (hstart : AreSpaces start)
    (single : ∀ before x part, AreSpaces before → IsPart x part →
      IsList [x] (before ++ part ++ stop))
    (cons : ∀ before x part xs cs, AreSpaces before → IsPart x part → IsList xs cs →
      IsList (x :: xs) (before ++ part ++ ',' :: cs))
    {before : List Char} (hbefore : AreSpaces before) {xs : List α} {parts : List (List Char)}
    (h : List.Forall₂ IsPart xs parts) (hne : xs ≠ []) :
    IsList xs (before ++ List.intercalate (',' :: start) parts ++ stop) := by
  induction h generalizing before with
  | nil => exact absurd rfl hne
  | @cons x part xs parts hx hxs ih =>
    cases hxs with
    | nil => simpa using single before x part hbefore hx
    | cons hy hys =>
      have hlist := cons before x part _ _ hbefore hx (ih hstart (List.cons_ne_nil _ _))
      simpa using hlist

theorem itemsDenote_intercalate {before start stop : List Char} (hbefore : AreSpaces before)
    (hstart : AreSpaces start) (hstop : AreSpaces stop) {items : List Json}
    {parts : List (List Char)} (h : List.Forall₂ Denotes items parts) (hne : items ≠ []) :
    ItemsDenote items (before ++ List.intercalate (',' :: start) parts ++ stop) := by
  refine list_intercalate hstart (fun before v part hbefore hv => .single (.mk hbefore hv hstop)) ?_
    hbefore h hne
  intro before v part items cs hbefore hv hitems
  have htext := IsText.mk hbefore hv areSpaces_nil
  rw [List.append_nil] at htext
  exact .cons htext hitems

/-- Is this a member as it is written on a line? -/
def IsMemberPart (m : String × Json) (part : List Char) : Prop :=
  ∃ cs, Denotes m.2 cs ∧ part = (quote m.1).toList ++ ':' :: ' ' :: cs

theorem memberDenotes_of_isMemberPart {start stop : List Char} (hstart : AreSpaces start)
    (hstop : AreSpaces stop) {m : String × Json} {part : List Char} (h : IsMemberPart m part) :
    MemberDenotes m (start ++ part ++ stop) := by
  obtain ⟨cs, hcs, rfl⟩ := h
  have hmember := MemberDenotes.mk hstart (spells_flatMap_escapeChar m.1.toList)
    areSpaces_nil (IsText.mk areSpaces_blank hcs hstop)
  simpa [toList_quote] using hmember

theorem membersDenote_intercalate {before start stop : List Char} (hbefore : AreSpaces before)
    (hstart : AreSpaces start) (hstop : AreSpaces stop) {members : List (String × Json)}
    {parts : List (List Char)} (h : List.Forall₂ IsMemberPart members parts) (hne : members ≠ []) :
    MembersDenote members (before ++ List.intercalate (',' :: start) parts ++ stop) := by
  refine list_intercalate hstart
    (fun before m part hbefore hm => .single (memberDenotes_of_isMemberPart hbefore hstop hm)) ?_
    hbefore h hne
  intro before m part members cs hbefore hm hmembers
  have hmember := memberDenotes_of_isMemberPart hbefore areSpaces_nil hm
  rw [List.append_nil] at hmember
  exact .cons hmember hmembers

/-! ## Values -/

mutual

/-- **A value is written as a text that denotes it**, on every level. -/
theorem denotes_indented {v : Json} (h : v.EachFloat WrittenExactly) (level : Nat) :
    Denotes v (indented level v).toList := by
  cases v with
  | null => exact .null
  | bool b => exact .bool b
  | int n => exact denotes_intText n
  | float x => exact .float h.1 h.2
  | str s => exact denotes_quote s
  | arr items =>
    have hparts := denotes_indentedItems h (level + 1)
    cases items with
    | nil =>
      have hempty : (indented level (.arr [])).toList = '[' :: ([] ++ [']']) := by
        simp [indented, indentedItems, block]
      exact hempty ▸ .emptyArr areSpaces_nil
    | cons v items =>
      rw [indented, toList_block (by simp [indentedItems])]
      have hstart := areSpaces_lineStart (level + 1)
      have hitems := itemsDenote_intercalate hstart hstart (areSpaces_lineStart level) hparts
        (List.cons_ne_nil _ _)
      simpa using Denotes.arr hitems
  | obj members =>
    have hparts := denotes_indentedMembers h (level + 1)
    cases members with
    | nil =>
      have hempty : (indented level (.obj [])).toList = '\x7b' :: ([] ++ ['\x7d']) := by
        simp [indented, indentedMembers, block]
      exact hempty ▸ .emptyObj areSpaces_nil
    | cons m members =>
      rw [indented, toList_block (by simp [indentedMembers])]
      have hstart := areSpaces_lineStart (level + 1)
      have hmembers := membersDenote_intercalate hstart hstart (areSpaces_lineStart level) hparts
        (List.cons_ne_nil _ _)
      simpa using Denotes.obj hmembers

theorem denotes_indentedItems {items : List Json} (h : EachFloatOfItems WrittenExactly items)
    (level : Nat) :
    List.Forall₂ Denotes items ((indentedItems level items).map String.toList) := by
  cases items with
  | nil => exact .nil
  | cons v items =>
    exact .cons (denotes_indented h.1 level) (denotes_indentedItems h.2 level)

theorem denotes_indentedMembers {members : List (String × Json)}
    (h : EachFloatOfMembers WrittenExactly members) (level : Nat) :
    List.Forall₂ IsMemberPart members ((indentedMembers level members).map String.toList) := by
  cases members with
  | nil => exact .nil
  | cons m members =>
    obtain ⟨name, v⟩ := m
    refine .cons ⟨_, denotes_indented h.1 level, ?_⟩ (denotes_indentedMembers h.2 level)
    simp

end

theorem isAscii_of_isSpace {c : Char} (h : isSpace c = true) : IsAscii c := by
  simp only [isSpace, Bool.or_eq_true, beq_iff_eq] at h
  rcases h with ((rfl | rfl) | rfl) | rfl <;> decide

theorem mem_intercalate {sep : List Char} {parts : List (List Char)} {c : Char}
    (h : c ∈ List.intercalate sep parts) : c ∈ sep ∨ ∃ part ∈ parts, c ∈ part := by
  induction parts with
  | nil => simp at h
  | cons part parts ih =>
    cases parts with
    | nil => exact Or.inr ⟨part, List.mem_cons_self .., by simpa using h⟩
    | cons next parts =>
      rw [List.intercalate_cons_cons, List.mem_append, List.mem_append] at h
      rcases h with (h | h) | h
      · exact Or.inr ⟨part, List.mem_cons_self .., h⟩
      · exact Or.inl h
      · rcases ih h with h | ⟨other, hother, hc⟩
        · exact Or.inl h
        · exact Or.inr ⟨other, List.mem_cons_of_mem part hother, hc⟩

/-- What stands in a block is what stands in its parts, and ASCII characters between them. -/
theorem isAscii_block {parts : List String} (hparts : ∀ part ∈ parts, ∀ c ∈ part.toList, IsAscii c)
    {opening closing : String} (hopening : ∀ c ∈ opening.toList, IsAscii c)
    (hclosing : ∀ c ∈ closing.toList, IsAscii c) (level : Nat) :
    ∀ c ∈ (block level opening closing parts).toList, IsAscii c := by
  have hline : ∀ level, ∀ c ∈ (lineStart level).toList, IsAscii c := fun level c hc =>
    isAscii_of_isSpace (areSpaces_lineStart level c hc)
  intro c hc
  rcases eq_or_ne parts [] with rfl | hne
  · simp only [block, String.toList_append, List.mem_append] at hc
    exact hc.elim (hopening c) (hclosing c)
  · rw [toList_block hne] at hc
    simp only [List.mem_append] at hc
    rcases hc with hc | ((hc | hc) | hc) | hc
    · exact hopening c hc
    · exact hline _ c hc
    · rcases mem_intercalate hc with hc | ⟨part, hpart, hc⟩
      · rcases List.mem_cons.mp hc with rfl | hc
        · decide
        · exact hline _ c hc
      · obtain ⟨part, hmem, rfl⟩ := List.mem_map.mp hpart
        exact hparts part hmem c hc
    · exact hline _ c hc
    · exact hclosing c hc

mutual

/-- **A value is written in ASCII**, on every level. -/
theorem isAscii_indented {v : Json} (h : v.EachFloat WrittenExactly) (level : Nat) :
    ∀ c ∈ (indented level v).toList, IsAscii c := by
  cases v with
  | null =>
    show ∀ c ∈ "null".toList, IsAscii c
    exact List.all_iff_forall_prop.mp (by decide)
  | bool b =>
    show ∀ c ∈ (if b then "true" else "false").toList, IsAscii c
    cases b <;> exact List.all_iff_forall_prop.mp (by decide)
  | int n => exact fun c hc => (isPrintable_intText n c hc).isAscii
  | float x => exact WrittenExactly.isAscii h
  | str s => exact fun c hc => (isPrintable_quote s c hc).isAscii
  | arr items =>
    exact isAscii_block (isAscii_indentedItems h (level + 1)) (List.all_iff_forall_prop.mp (by decide))
      (List.all_iff_forall_prop.mp (by decide)) level
  | obj members =>
    exact isAscii_block (isAscii_indentedMembers h (level + 1)) (List.all_iff_forall_prop.mp (by decide))
      (List.all_iff_forall_prop.mp (by decide)) level

theorem isAscii_indentedItems {items : List Json} (h : EachFloatOfItems WrittenExactly items)
    (level : Nat) : ∀ part ∈ indentedItems level items, ∀ c ∈ part.toList, IsAscii c := by
  cases items with
  | nil => exact nofun
  | cons v items =>
    rintro part (⟨⟩ | ⟨_, hpart⟩)
    · exact isAscii_indented h.1 level
    · exact isAscii_indentedItems h.2 level part hpart

theorem isAscii_indentedMembers {members : List (String × Json)}
    (h : EachFloatOfMembers WrittenExactly members) (level : Nat) :
    ∀ part ∈ indentedMembers level members, ∀ c ∈ part.toList, IsAscii c := by
  cases members with
  | nil => exact nofun
  | cons m members =>
    obtain ⟨name, v⟩ := m
    rintro part (⟨⟩ | ⟨_, hpart⟩)
    · intro c hc
      simp only [String.toList_append, List.mem_append] at hc
      rcases hc with (hc | hc) | hc
      · exact (isPrintable_quote name c hc).isAscii
      · exact List.all_iff_forall_prop.mp (by decide) c hc
      · exact isAscii_indented h.1 level c hc
    · exact isAscii_indentedMembers h.2 level part hpart

end

/-! ## Reading it again -/

theorem isText_indented {v : Json} (h : v.EachFloat WrittenExactly) (level : Nat) :
    IsText v (indented level v).toList := by
  simpa using IsText.mk areSpaces_nil (denotes_indented h level) areSpaces_nil

/-- What is written stands for the value and for no other. -/
theorem isText_indented_iff {v : Json} (h : v.EachFloat WrittenExactly) (level : Nat) (w : Json) :
    IsText w (indented level v).toList ↔ w = v :=
  ⟨fun hw => isText_unique hw (isText_indented h level), fun hw => hw ▸ isText_indented h level⟩

theorem parse_indented {v : Json} (h : v.EachFloat WrittenExactly) (level : Nat) :
    parse (indented level v) = some v :=
  parse_of_isText (isText_indented h level)

end Json
end DevMachines
