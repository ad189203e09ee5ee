import DevMachines.Files.Path
import Mathlib.Data.List.Basic

/-!
# The text of a path

A path that has been read is in normal form: no name in it is empty, a single dot, or has a slash.  The
text of a path in normal form is read back as that path (`ofText_toText`), so writing a text in normal
form a second time changes nothing.

Bringing a text into normal form only leaves characters out (`sublist_toText_ofText`).  The one
exception is a text of which nothing is left, which becomes a single dot.
-/

namespace DevMachines.Path

/-! ## Parts between slashes -/

/-- The first part of a text ends at the first slash. -/
theorem splitSlashes_go_append {part : List Char} (h : '/' ∉ part) (rest : List Char) :
    splitSlashes.go (part ++ '/' :: rest) = part :: splitSlashes.go rest := by
  induction part with
  | nil => rfl
  | cons c part ih =>
    obtain ⟨hc, hpart⟩ := List.ne_and_not_mem_of_not_mem_cons h
    rw [List.cons_append, splitSlashes.go, ih hpart]
    exact hc.symm

/-- A text without slashes is its own only part. -/
theorem splitSlashes_go_of_not_mem {part : List Char} (h : '/' ∉ part) :
    splitSlashes.go part = [part] := by
  induction part with
  | nil => rfl
  | cons c part ih =>
    obtain ⟨hc, hpart⟩ := List.ne_and_not_mem_of_not_mem_cons h
    rw [splitSlashes.go, ih hpart]
    exact hc.symm

theorem splitSlashes_go_ne_nil (cs : List Char) : splitSlashes.go cs ≠ [] := by
  fun_cases splitSlashes.go cs <;> simp [*]

/-- No part has a slash. -/
theorem not_mem_of_mem_splitSlashes_go {cs part : List Char} (h : part ∈ splitSlashes.go cs) :
    '/' ∉ part := by
  induction cs generalizing part with
  | nil =>
    obtain rfl := List.mem_singleton.mp h
    exact List.not_mem_nil
  | cons c cs ih =>
    by_cases hc : c = '/'
    · subst hc
      rcases List.mem_cons.mp h with rfl | h
      · exact List.not_mem_nil
      · exact ih h
    · rw [splitSlashes.go] at h
      · cases hparts : splitSlashes.go cs with
        | nil => exact absurd hparts (splitSlashes_go_ne_nil cs)
        | cons first parts =>
          simp only [hparts, List.mem_cons] at h ih
          rcases h with rfl | h
          · have hfirst := ih (Or.inl rfl)
            simp only [List.mem_cons, not_or]
            exact ⟨Ne.symm hc, hfirst⟩
          · exact ih (Or.inr h)
      · exact hc

/-- The parts make up the text. -/
theorem intercalate_splitSlashes_go (cs : List Char) :
    ['/'].intercalate (splitSlashes.go cs) = cs := by
  induction cs with
  | nil => rfl
  | cons c cs ih =>
    obtain ⟨first, parts, hparts⟩ := List.exists_cons_of_ne_nil (splitSlashes_go_ne_nil cs)
    rw [hparts] at ih
    by_cases hc : c = '/'
    · subst hc
      rw [splitSlashes.go, hparts, List.intercalate_cons_cons, ih]
      rfl
    · rw [splitSlashes.go, hparts]
      · cases parts with
        | nil => simpa using ih
        | cons second parts => simpa [List.intercalate_cons_cons] using ih
      · exact hc

/-- Parts without slashes are the parts of the text that they make up. -/
theorem splitSlashes_go_intercalate {parts : List (List Char)} (hsome : parts ≠ [])
    (h : ∀ part ∈ parts, '/' ∉ part) : splitSlashes.go (['/'].intercalate parts) = parts := by
  induction parts with
  | nil => exact absurd rfl hsome
  | cons part parts ih =>
    rw [List.forall_mem_cons] at h
    cases parts with
    | nil => simpa using splitSlashes_go_of_not_mem h.1
    | cons second parts =>
      rw [List.intercalate_cons_cons, List.append_assoc, List.singleton_append,
        splitSlashes_go_append h.1, ih (List.cons_ne_nil _ _) h.2]

/-- Slashes at the front have an empty part each in front of them. -/
theorem splitSlashes_go_replicate (count : Nat) (cs : List Char) :
    splitSlashes.go (List.replicate count '/' ++ cs) =
      List.replicate count [] ++ splitSlashes.go cs := by
  induction count with
  | zero => rfl
  | succ count ih => rw [List.replicate_succ, List.cons_append, splitSlashes.go, ih]; rfl

/-! ## Normal form -/

/-- Is a text a name that a path keeps? -/
def IsName (name : String) : Prop := name ≠ "" ∧ name ≠ "." ∧ '/' ∉ name.toList

/-- Does a path have at most two slashes in front, and only names that are kept? -/
structure IsNormal (p : Path) : Prop where
  root : p.root ≤ 2
  names : ∀ name ∈ p.names, IsName name

/-- The names among the parts of a text. -/
def namesOf (cs : List Char) : List String :=
  ((splitSlashes.go cs).map String.ofList).filter fun name => !(name.isEmpty || name == ".")

theorem ofText_eq (text : String) : ofText text = ⟨rootOf text.toList, namesOf text.toList⟩ := rfl

theorem rootOf_le (cs : List Char) : rootOf cs ≤ 2 := by
  unfold rootOf
  split <;> decide

/-- **What is read is in normal form.** -/
theorem isNormal_ofText (text : String) : (ofText text).IsNormal := by
  refine ⟨rootOf_le _, fun name hname => ?_⟩
  obtain ⟨hpart, hkept⟩ := List.mem_filter.mp hname
  obtain ⟨part, hmem, rfl⟩ := List.mem_map.mp hpart
  simp only [Bool.not_eq_true', Bool.or_eq_false_iff, String.isEmpty_eq_false_iff, beq_eq_false_iff_ne]
    at hkept
  refine ⟨hkept.1, hkept.2, ?_⟩
  rw [String.toList_ofList]
  exact not_mem_of_mem_splitSlashes_go hmem

/-- Names that are kept are the names of the text that they make up. -/
theorem namesOf_intercalate {names : List String} (h : ∀ name ∈ names, IsName name) :
    namesOf (['/'].intercalate (names.map String.toList)) = names := by
  have hkept : names.filter (fun name => !(name.isEmpty || name == ".")) = names := by
    rw [List.filter_eq_self]
    intro name hname
    obtain ⟨hempty, hdot, -⟩ := h name hname
    simp [hempty, hdot]
  cases names with
  | nil => rfl
  | cons first rest =>
    have hslash : ∀ part ∈ (first :: rest).map String.toList, '/' ∉ part :=
      List.forall_mem_map.mpr fun name hname => (h name hname).2.2
    rw [namesOf, splitSlashes_go_intercalate (by simp) hslash, List.map_map]
    simpa [Function.comp_def] using hkept

/-- Slashes at the front are no names. -/
theorem namesOf_replicate (count : Nat) (cs : List Char) :
    namesOf (List.replicate count '/' ++ cs) = namesOf cs := by
  rw [namesOf, splitSlashes_go_replicate, List.map_append, List.filter_append, List.map_replicate,
    List.filter_replicate]
  rfl

/-- Up to two slashes at the front are the root. -/
theorem rootOf_replicate {count : Nat} (hcount : count ≤ 2) {cs : List Char}
    (h : cs.head? ≠ some '/') : rootOf (List.replicate count '/' ++ cs) = count := by
  have hnone : cs.takeWhile (· == '/') = [] := by
    cases cs with
    | nil => rfl
    | cons c cs =>
      have hc : c ≠ '/' := by simpa using h
      simp [hc]
  have hslashes : (List.replicate count '/' ++ cs).takeWhile (· == '/') =
      List.replicate count '/' := by
    rw [List.takeWhile_append_of_pos (by simp +contextual), hnone, List.append_nil]
  rw [rootOf, hslashes, List.length_replicate]
  match count, hcount with
  | 0, _ => rfl
  | 1, _ => rfl
  | 2, _ => rfl

/-! ## The text of a path -/

/-- The characters of a path: its slashes and its names. -/
def written (p : Path) : List Char :=
  List.replicate p.root '/' ++ ['/'].intercalate (p.names.map String.toList)

theorem toText_eq (p : Path) :
    p.toText = if p.written = [] then "." else String.ofList p.written := by
  have hwritten : String.ofList (List.replicate p.root '/') ++ "/".intercalate p.names =
      String.ofList p.written := by
    apply String.ext
    simp [written, String.toList_intercalate]
  rw [toText, hwritten]
  simp only [String.isEmpty_iff, String.ofList_eq_empty_iff]

/-- **The text of a path in normal form is read back as that path.** -/
theorem ofText_toText {p : Path} (h : p.IsNormal) : ofText p.toText = p := by
  have hstart : (['/'].intercalate (p.names.map String.toList)).head? ≠ some '/' := by
    cases hnames : p.names with
    | nil => nofun
    | cons first rest =>
      obtain ⟨hsome, -, hslash⟩ := h.names first (hnames ▸ List.mem_cons_self ..)
      cases hfirst : first.toList with
      | nil => exact absurd (String.toList_eq_nil_iff.mp hfirst) hsome
      | cons c cs =>
        rw [hfirst] at hslash
        have hne : c ≠ '/' := fun hc => hslash (hc ▸ List.mem_cons_self ..)
        cases rest <;> simpa [List.intercalate_cons_cons, hfirst] using hne
  rw [toText_eq]
  split
  · next hnone =>
    obtain ⟨hroot, hnames⟩ := List.append_eq_nil_iff.mp hnone
    have hempty : p.names = [] := by
      have hback := namesOf_intercalate h.names
      rw [hnames] at hback
      exact hback.symm
    obtain ⟨root, names⟩ := p
    obtain rfl : root = 0 := by simpa using hroot
    obtain rfl : names = [] := hempty
    rfl
  · rw [ofText_eq, String.toList_ofList, written, rootOf_replicate h.root hstart, namesOf_replicate,
      namesOf_intercalate h.names]

/-- Leaving parts out of a text leaves characters out. -/
theorem sublist_intercalate {parts others : List (List Char)} (h : parts.Sublist others) :
    (['/'].intercalate parts).Sublist (['/'].intercalate others) := by
  induction h with
  | slnil => exact .refl _
  | @cons parts others part h ih =>
    refine ih.trans ?_
    cases others with
    | nil => exact List.nil_sublist _
    | cons second others =>
      rw [List.intercalate_cons_cons]
      exact List.sublist_append_right _ _
  | @cons_cons parts others part h ih =>
    cases others with
    | nil =>
      obtain rfl := List.sublist_nil.mp h
      exact .refl _
    | cons second others =>
      cases parts with
      | nil =>
        rw [List.intercalate_singleton, List.intercalate_cons_cons, List.append_assoc]
        exact List.sublist_append_left part _
      | cons first parts =>
        rw [List.intercalate_cons_cons, List.intercalate_cons_cons]
        exact .append (.refl _) ih

/-- **Bringing a text into normal form only leaves characters out**, unless nothing is left. -/
theorem sublist_toText_ofText (text : String) :
    (ofText text).toText = "." ∨ (ofText text).toText.toList.Sublist text.toList := by
  rw [toText_eq]
  split
  · exact Or.inl rfl
  · refine Or.inr ?_
    rw [String.toList_ofList]
    let slashes := text.toList.takeWhile (· == '/')
    let others := text.toList.dropWhile (· == '/')
    have hslashes : slashes = List.replicate slashes.length '/' :=
      List.eq_replicate_of_mem fun c hc => by
        simpa using List.all_eq_true.mp List.all_takeWhile c hc
    have htext : text.toList = List.replicate slashes.length '/' ++ others := by
      rw [← hslashes, List.takeWhile_append_dropWhile]
    have hroot : rootOf text.toList ≤ slashes.length := by
      unfold rootOf
      split
      · exact Nat.zero_le _
      · next htwo => exact Nat.le_of_eq htwo.symm
      · next hnone _ => exact Nat.pos_of_ne_zero hnone
    have hnames : (['/'].intercalate ((namesOf text.toList).map String.toList)).Sublist others := by
      have hparts : ((splitSlashes.go others).map String.ofList).map String.toList =
          splitSlashes.go others := by
        rw [List.map_map]
        simp [Function.comp_def]
      have hkept : ((namesOf others).map String.toList).Sublist (splitSlashes.go others) := by
        rw [← hparts, namesOf]
        exact List.filter_sublist.map String.toList
      have hjoined := sublist_intercalate hkept
      rw [intercalate_splitSlashes_go] at hjoined
      rw [htext, namesOf_replicate]
      exact hjoined
    have hall := ((List.replicate_sublist_replicate '/').mpr hroot).append hnames
    rwa [← htext] at hall

end DevMachines.Path
