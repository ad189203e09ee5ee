import DevMachines.Proofs.Results
import DevMachines.Proofs.Terminal.Escaping

/-!
# What a text with markup displays

`render` cuts a text into pieces, joins some of them and collects what they show.  `Displays` says the
same by rules on the text itself, one for each way in which it can go on: with a backslash, with a
character, with a tag that is text because a backslash escapes it, and with a tag that is one.  A
tag displays nothing and changes which styles are open.

Main statement: `render_eq_ok_iff`, rendering comes to a result exactly if the rules lead to it.

## Why the rules count backslashes

What a backslash means is decided behind it: before a tag two of them stand for one, and a single one
takes away the meaning of the tag; before any other opening bracket one of them is lost; elsewhere
they are all text.  So the rules carry along how many have been read.
-/

namespace DevMachines
namespace Terminal

/-! ## The rules -/

/-- What a text displays while styles are open and with a number of backslashes before it. -/
inductive Displays : List String → Nat → List Char → List Char → Prop
  | finish (opened : List String) (n : Nat) : Displays opened n [] (List.replicate n '\\')
  | backslash {opened : List String} {n : Nat} {cs shown : List Char}
      (hrest : Displays opened (n + 1) cs shown) : Displays opened n ('\\' :: cs) shown
  /-- Before a bracket that is no tag, a backslash is lost. -/
  | char {opened : List String} {n : Nat} {c : Char} {cs shown : List Char} (hslash : c ≠ '\\')
      (hnone : c = '[' → tagBody cs = none) (hrest : Displays opened 0 cs shown) :
      Displays opened n (c :: cs)
        (List.replicate (if c = '[' then n - 1 else n) '\\' ++ c :: shown)
  | escapedTag {opened : List String} {n : Nat} {cs body after shown : List Char}
      (htag : tagBody cs = some (body, after)) (hodd : n % 2 = 1)
      (hrest : Displays opened 0 after shown) :
      Displays opened n ('[' :: cs) (List.replicate (n / 2) '\\' ++ '[' :: (body ++ ']' :: shown))
  | tag {opened next : List String} {n : Nat} {cs body after shown : List Char}
      (htag : tagBody cs = some (body, after)) (heven : n % 2 = 0)
      (hnext : afterTag opened 0 body = .ok next) (hrest : Displays next 0 after shown) :
      Displays opened n ('[' :: cs) (List.replicate (n / 2) '\\' ++ shown)

section Rules

variable {opened : List String} {n : Nat} {c : Char} {cs body after shown : List Char}

theorem displays_nil_iff : Displays opened n [] shown ↔ shown = List.replicate n '\\' := by
  constructor
  · intro h
    cases h with
    | finish => rfl
  · rintro rfl
    exact .finish opened n

theorem displays_backslash_iff :
    Displays opened n ('\\' :: cs) shown ↔ Displays opened (n + 1) cs shown := by
  constructor
  · intro h
    cases h with
    | backslash hrest => exact hrest
    | char hslash => exact absurd rfl hslash
  · exact .backslash

theorem displays_char_iff (hslash : c ≠ '\\') (hnone : c = '[' → tagBody cs = none) :
    Displays opened n (c :: cs) shown ↔ ∃ rest, Displays opened 0 cs rest ∧
      shown = List.replicate (if c = '[' then n - 1 else n) '\\' ++ c :: rest := by
  constructor
  · intro h
    cases h with
    | backslash => exact absurd rfl hslash
    | char _ _ hrest => exact ⟨_, hrest, rfl⟩
    | escapedTag htag => rw [hnone rfl] at htag; cases htag
    | tag htag => rw [hnone rfl] at htag; cases htag
  · rintro ⟨rest, hrest, rfl⟩
    exact .char hslash hnone hrest

theorem displays_escapedTag_iff (htag : tagBody cs = some (body, after)) (hodd : n % 2 = 1) :
    Displays opened n ('[' :: cs) shown ↔ ∃ rest, Displays opened 0 after rest ∧
      shown = List.replicate (n / 2) '\\' ++ '[' :: (body ++ ']' :: rest) := by
  constructor
  · intro h
    cases h with
    | char _ hnone => rw [hnone rfl] at htag; cases htag
    | escapedTag hfound _ hrest =>
      obtain ⟨rfl, rfl⟩ := Prod.mk.inj (Option.some.inj (htag.symm.trans hfound))
      exact ⟨_, hrest, rfl⟩
    | tag _ heven => omega
  · rintro ⟨rest, hrest, rfl⟩
    exact .escapedTag htag hodd hrest

theorem displays_tag_iff (htag : tagBody cs = some (body, after)) (heven : n % 2 = 0) :
    Displays opened n ('[' :: cs) shown ↔ ∃ next rest, afterTag opened 0 body = .ok next ∧
      Displays next 0 after rest ∧ shown = List.replicate (n / 2) '\\' ++ rest := by
  constructor
  · intro h
    cases h with
    | char _ hnone => rw [hnone rfl] at htag; cases htag
    | escapedTag _ hodd => omega
    | tag hfound _ hnext hrest =>
      obtain ⟨rfl, rfl⟩ := Prod.mk.inj (Option.some.inj (htag.symm.trans hfound))
      exact ⟨_, _, hnext, hrest, rfl⟩
  · rintro ⟨next, rest, hnext, hrest, rfl⟩
    exact .tag htag heven hnext hrest

/-- Backslashes add to those that have been read. -/
theorem displays_replicate_iff (k : Nat) :
    Displays opened n (List.replicate k '\\' ++ cs) shown ↔ Displays opened (n + k) cs shown := by
  induction k generalizing n with
  | zero => exact Iff.rfl
  | succ k ih =>
    rw [List.replicate_succ, List.cons_append, displays_backslash_iff, ih, Nat.add_right_comm,
      Nat.add_assoc]

/-- What is displayed has no bracket that the text does not have. -/
theorem Displays.count_le (h : Displays opened n cs shown) : shown.count '[' ≤ cs.count '[' := by
  have hslashes : ∀ k, (List.replicate k '\\').count '[' = 0 := fun k =>
    List.count_replicate.trans (if_neg (by decide))
  induction h with
  | finish opened n => rw [hslashes]; exact Nat.zero_le _
  | backslash hrest ih => rwa [List.count_cons_of_ne (by decide)]
  | char hslash hnone hrest ih =>
    rw [List.count_append, hslashes, Nat.zero_add, List.count_cons, List.count_cons]
    exact Nat.add_le_add_right ih _
  | escapedTag htag hodd hrest ih =>
    obtain ⟨rfl, -⟩ := tagBody_eq_some_iff.mp htag
    rw [List.count_append, hslashes, Nat.zero_add, List.count_cons_self, List.count_cons_self,
      List.count_append, List.count_append, List.count_cons, List.count_cons]
    omega
  | tag htag heven hnext hrest ih =>
    obtain ⟨rfl, -⟩ := tagBody_eq_some_iff.mp htag
    rw [List.count_append, hslashes, Nat.zero_add, List.count_cons_self, List.count_append,
      List.count_cons]
    omega

/-- What is displayed has no characters but backslashes that the text does not have. -/
theorem Displays.mem_or (h : Displays opened n cs shown) {d : Char} (hd : d ∈ shown) :
    d = '\\' ∨ d ∈ cs := by
  induction h with
  | finish opened n => exact Or.inl (List.eq_of_mem_replicate hd)
  | backslash hrest ih => exact (ih hd).imp_right (List.mem_cons_of_mem _)
  | char hslash hnone hrest ih =>
    rcases List.mem_append.mp hd with hd | hd
    · exact Or.inl (List.eq_of_mem_replicate hd)
    · rcases List.mem_cons.mp hd with rfl | hd
      · exact Or.inr List.mem_cons_self
      · exact (ih hd).imp_right (List.mem_cons_of_mem _)
  | escapedTag htag hodd hrest ih =>
    obtain ⟨rfl, -⟩ := tagBody_eq_some_iff.mp htag
    simp only [List.mem_append, List.mem_cons] at hd ⊢
    rcases hd with hd | rfl | hd | rfl | hd
    · exact Or.inl (List.eq_of_mem_replicate hd)
    · simp
    · simp [hd]
    · simp
    · exact (ih hd).imp_right fun hd => by simp [hd]
  | tag htag heven hnext hrest ih =>
    obtain ⟨rfl, -⟩ := tagBody_eq_some_iff.mp htag
    simp only [List.mem_append, List.mem_cons] at hd ⊢
    rcases hd with hd | hd
    · exact Or.inl (List.eq_of_mem_replicate hd)
    · exact (ih hd).imp_right fun hd => by simp [hd]

end Rules

/-! ## Rendering follows the rules -/

/-- Whether a tag can be read does not depend on where it stands. -/
theorem afterTag_eq_ok_iff {opened next : List String} {body : List Char} (position : Nat) :
    afterTag opened position body = .ok next ↔ afterTag opened 0 body = .ok next := by
  rw [afterTag.eq_def, afterTag.eq_def]
  split
  · dsimp only
    split
    · split <;> simp
    · split <;> simp
  · exact Iff.rfl

theorem unescapeBrackets_of_ne {c : Char} (hslash : c ≠ '\\') (cs : List Char) :
    unescapeBrackets (c :: cs) = c :: unescapeBrackets cs := by
  rw [unescapeBrackets]
  rintro rest rfl
  exact absurd rfl hslash

/-- Of backslashes before a character one is lost, if the character is a bracket. -/
theorem unescapeBrackets_replicate {c : Char} (hslash : c ≠ '\\') (n : Nat) (cs : List Char) :
    unescapeBrackets (List.replicate n '\\' ++ c :: cs) =
      List.replicate (if c = '[' then n - 1 else n) '\\' ++ c :: unescapeBrackets cs := by
  induction n with
  | zero => simp [unescapeBrackets_of_ne hslash]
  | succ n ih =>
    rw [List.replicate_succ, List.cons_append]
    cases n with
    | zero =>
      by_cases hopen : c = '['
      · simp [hopen, unescapeBrackets]
      · have hone : unescapeBrackets ('\\' :: c :: cs) = '\\' :: unescapeBrackets (c :: cs) := by
          rw [unescapeBrackets]
          rintro rest - htail
          exact hopen (List.cons.inj htail).1
        simp [hone, unescapeBrackets_of_ne hslash, hopen]
    | succ n =>
      have hone : ∀ tail : List Char,
          unescapeBrackets ('\\' :: '\\' :: tail) = '\\' :: unescapeBrackets ('\\' :: tail) := by
        intro tail
        rw [unescapeBrackets]
        rintro rest - htail
        cases htail
      rw [List.replicate_succ, List.cons_append] at ih ⊢
      rw [hone, ih]
      split
      · rfl
      · rfl

theorem unescapeBrackets_slashes (n : Nat) :
    unescapeBrackets (List.replicate n '\\') = List.replicate n '\\' := by
  induction n with
  | zero => rfl
  | succ n ih =>
    cases n with
    | zero => rfl
    | succ n =>
      rw [List.replicate_succ, List.replicate_succ, unescapeBrackets]
      · rw [← List.replicate_succ, ih]
      · rintro rest - htail
        cases htail

/-- A character with backslashes before it shows the same by itself as joined to what follows. -/
theorem shownText_joinPieces_text {c : Char} (hslash : c ≠ '\\') (opened : List String) (n : Nat)
    (ps : List MarkupPiece) :
    shownText opened (joinPieces (.text (List.replicate n '\\' ++ [c]) :: ps)) =
      (shownText opened (joinPieces ps)).map fun rest =>
        List.replicate (if c = '[' then n - 1 else n) '\\' ++ c :: rest := by
  have hjoined := unescapeBrackets_replicate hslash n
  rw [joinPieces]
  split
  · next b more hmore =>
    rw [hmore, shownText, shownText, List.append_assoc, List.singleton_append, hjoined]
    cases shownText opened more with
    | ok rest => simp [Except.map]
    | error fault => rfl
  · next more hmore =>
    have halone := hjoined []
    rw [unescapeBrackets] at halone
    rw [shownText, halone]
    cases shownText opened (joinPieces ps) with
    | ok rest => simp [Except.map]
    | error fault => rfl

/-- **The pieces of a text show what the rules say**, if there is fuel for every character. -/
theorem shownText_pieces_iff {fuel : Nat} {cs : List Char} (hfuel : cs.length < fuel)
    (opened : List String) (position n : Nat) (shown : List Char) :
    shownText opened (joinPieces (pieces fuel position n cs)) = .ok shown ↔
      Displays opened n cs shown := by
  induction fuel generalizing cs opened position n shown with
  | zero => exact absurd hfuel (Nat.not_lt_zero _)
  | succ fuel ih =>
    cases cs with
    | nil =>
      rw [pieces, joinPieces, joinPieces, shownText, unescapeBrackets_slashes, shownText,
        displays_nil_iff, map_eq_ok_iff]
      simp
    | cons c cs =>
      have hcs : cs.length < fuel := Nat.lt_of_succ_lt_succ hfuel
      rcases head_cases c cs with rfl | ⟨rfl, body, after, htag⟩ | ⟨hslash, hnone⟩
      · rw [pieces_backslash, displays_backslash_iff]
        exact ih hcs opened (position + 1) (n + 1) shown
      · have hafter : after.length < fuel := by
          obtain ⟨rfl, -⟩ := tagBody_eq_some_iff.mp htag
          rw [List.length_append, List.length_cons] at hcs
          omega
        rcases Nat.mod_two_eq_zero_or_one n with heven | hodd
        · obtain ⟨start, hpieces⟩ := pieces_tag n fuel position htag heven
          rw [hpieces, joinPieces, joinPieces, shownText, shownText_tag, displays_tag_iff htag heven,
            map_eq_ok_iff]
          · constructor
            · rintro ⟨rest, hrest, rfl⟩
              cases hnext : afterTag opened start body with
              | error fault => rw [hnext] at hrest; cases hrest
              | ok next =>
                rw [hnext] at hrest
                exact ⟨next, rest, (afterTag_eq_ok_iff start).mp hnext,
                  (ih hafter next _ 0 rest).mp hrest, rfl⟩
            · rintro ⟨next, rest, hnext, hrest, rfl⟩
              refine ⟨rest, ?_, rfl⟩
              rw [(afterTag_eq_ok_iff start).mpr hnext]
              exact (ih hafter next _ 0 rest).mpr hrest
          · intro text h
            cases h
          · intro text h
            cases h
        · rw [pieces_escapedTag n fuel position htag hodd, joinPieces, joinPieces, shownText,
            shownText, displays_escapedTag_iff htag hodd, map_eq_ok_iff]
          · simp only [map_eq_ok_iff, ih hafter]
            constructor
            · rintro ⟨-, ⟨rest, hrest, rfl⟩, rfl⟩
              exact ⟨rest, hrest, by simp⟩
            · rintro ⟨rest, hrest, rfl⟩
              exact ⟨_, ⟨rest, hrest, rfl⟩, by simp⟩
          · intro text h
            cases h
          · intro text h
            cases h
      · rw [pieces_other n fuel position hslash hnone, shownText_joinPieces_text hslash,
          displays_char_iff hslash hnone, map_eq_ok_iff]
        simp only [ih hcs]

/-- **Rendering comes to a text exactly if the rules lead to it**, but for characters that a
terminal acts on. -/
theorem render_eq_ok_iff {markup text : List Char} :
    render markup = .ok text ↔ ∃ shown, Displays [] 0 markup shown ∧
      text = shown.filter fun c => !isTerminalControl c := by
  rw [render, map_eq_ok_iff]
  simp only [shownText_pieces_iff (Nat.lt_succ_self markup.length)]

/-- Without characters that a terminal acts on there is nothing to leave out. -/
theorem render_eq_ok_iff_displays {markup text : List Char}
    (h : ∀ c ∈ markup, isTerminalControl c = false) :
    render markup = .ok text ↔ Displays [] 0 markup text := by
  have hall : ∀ shown, Displays [] 0 markup shown →
      (shown.filter fun c => !isTerminalControl c) = shown := by
    intro shown hshown
    refine List.filter_eq_self.mpr fun c hc => ?_
    rcases hshown.mem_or hc with rfl | hc
    · rfl
    · rw [h c hc]
      rfl
  rw [render_eq_ok_iff]
  constructor
  · rintro ⟨shown, hshown, rfl⟩
    rwa [hall shown hshown]
  · exact fun hshown => ⟨text, hshown, (hall text hshown).symm⟩

end Terminal
end DevMachines
