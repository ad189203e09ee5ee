import DevMachines.Proofs.Yaml.Folding
import DevMachines.Yaml.Token.Scalar

/-!
# Plain scalars read back

A plain scalar is read word by word.  The space between two words is a row of blanks, or a new line
that is indented far enough; either way it reads as what was written folded there.

Main statement: `plainWords_folds`.
-/

namespace DevMachines.Yaml

variable {indent : Nat} {limit : Int} {c : Cursor} {text written rest : List Char}

/-! ## Words -/

/-- A folded text that begins with a solid character begins with a word. -/
theorem Folds.exists_word {spell : Char → List Char} (h : Folds indent spell text written)
    (hsome : text ≠ []) (hsolid : IsSolid (text.headD endMark)) :
    ∃ word more writtenMore, text = word ++ more ∧ written = word.flatMap spell ++ writtenMore ∧
      word ≠ [] ∧ (∀ c ∈ word, IsSolid c) ∧ Folds indent spell more writtenMore ∧
      (more = [] ∨ ¬ IsSolid (more.headD endMark)) := by
  induction h with
  | nil => exact absurd rfl hsome
  | @solid c text written hc h ih =>
    by_cases hmore : text ≠ [] ∧ IsSolid (text.headD endMark)
    · obtain ⟨word, more, writtenMore, rfl, rfl, -, hword, hfolds, hend⟩ := ih hmore.1 hmore.2
      exact ⟨c :: word, more, writtenMore, by simp, by simp, by simp, by simpa using ⟨hc, hword⟩,
        hfolds, hend⟩
    · refine ⟨[c], text, written, by simp, by simp, by simp, by simpa using hc, h, ?_⟩
      by_cases htext : text = []
      · exact .inl htext
      · exact .inr fun hhead => hmore ⟨htext, hhead⟩
  | blanks n => simp [List.replicate_succ, IsSolid] at hsolid
  | fold => simp [IsSolid] at hsolid
  | breaks n => simp [List.replicate_succ, IsSolid] at hsolid

theorem plainWord_of_blank (h : blankNext rest = true) : plainWord false rest = [] := by
  cases rest with
  | nil => rfl
  | cons d rest => simp [plainWord, show isSpaceOrEnd d = true from h]

/-- A word of a text is read up to its end, since no colon in it stands before a blank. -/
theorem plainWord_append {before : Char} {word more : List Char}
    (hsolid : ∀ c ∈ word, isSpaceOrEnd c = false)
    (hinner : hasInnerIndicator before (word ++ more) = false) (hmore : blankNext more = true)
    (hrest : plainWord false rest = []) : plainWord false (word ++ rest) = word := by
  induction word generalizing before with
  | nil => exact hrest
  | cons c word ih =>
    simp only [List.cons_append, hasInnerIndicator, Bool.or_eq_false_iff] at hinner
    have hword : ∀ d ∈ word, isSpaceOrEnd d = false := fun d hd => hsolid d (by simp [hd])
    have hcolon : (c == ':' && isSpaceOrEnd ((word ++ rest).headD endMark)) = false := by
      cases word with
      | nil =>
        have hcolon := hinner.1.1
        rw [List.nil_append, hmore, Bool.and_true] at hcolon
        rw [hcolon, Bool.false_and]
      | cons d word => simp [hword d (by simp)]
    rw [List.cons_append, plainWord]
    simp only [hsolid c (by simp), hcolon, Bool.false_and, Bool.or_false, Bool.false_eq_true,
      ↓reduceIte, ih hword hinner.2]

theorem hasInnerIndicator_append_cons {before c : Char} {cs ds : List Char}
    (h : hasInnerIndicator before (cs ++ c :: ds) = false) : hasInnerIndicator c ds = false := by
  induction cs generalizing before with
  | nil =>
    simp only [List.nil_append, hasInnerIndicator, Bool.or_eq_false_iff] at h
    exact h.2
  | cons d cs ih =>
    simp only [List.cons_append, hasInnerIndicator, Bool.or_eq_false_iff] at h
    exact ih h.2

/-- No word begins with a number sign. -/
theorem headD_ne_numberSign {cs : List Char} (h : hasInnerIndicator ' ' cs = false) :
    cs.headD endMark ≠ '#' := by
  cases cs with
  | nil => decide
  | cons c cs =>
    simp only [hasInnerIndicator, Bool.or_eq_false_iff] at h
    rintro hc
    rw [List.headD_cons] at hc
    simp [hc, isSpaceOrEnd, isBlankBreakOrEnd] at h

/-! ## The space between words -/

theorem plainSpace_blanks {n : Nat} (h : c.rest = List.replicate n ' ' ++ rest)
    (hblank : rest.headD endMark ≠ ' ') (hbreak : isBreak (rest.headD endMark) = false) :
    plainSpace c = (List.replicate n ' ', false, c.skip n) := by
  have hhere : isBreak (c.skip n).here = false := by rwa [Cursor.here, Cursor.skip_blanks h]
  rw [plainSpace, c.span_blanks h hblank]
  simp only [Cursor.lineBreak_eq_none hhere]

theorem plainBreaks_blanks {fuel n : Nat} (h : c.rest = List.replicate n ' ' ++ rest)
    (hblank : rest.headD endMark ≠ ' ') (hbreak : isBreak (rest.headD endMark) = false)
    (hfuel : n < fuel) : plainBreaks fuel c = (some [], c.skip n) := by
  induction n generalizing fuel c with
  | zero =>
    obtain ⟨fuel, rfl⟩ : ∃ k, fuel = k + 1 := ⟨fuel - 1, by omega⟩
    have hhere : c.here = rest.headD endMark := by simp [Cursor.here, h]
    rw [plainBreaks, hhere, Cursor.lineBreak_eq_none (by rwa [hhere])]
    simp only [beq_iff_eq, hblank, ↓reduceIte, Cursor.skip_zero]
  | succ n ih =>
    obtain ⟨fuel, rfl⟩ : ∃ k, fuel = k + 1 := ⟨fuel - 1, by omega⟩
    rw [List.replicate_succ, List.cons_append] at h
    have hnext : c.next.rest = List.replicate n ' ' ++ rest := by rw [Cursor.rest_next, h]; rfl
    rw [plainBreaks, Cursor.here_eq h, ih hnext (by omega), Cursor.skip_succ]
    rfl

/-- A new line on which no separator stands reads as a blank. -/
theorem plainSpace_newline {k : Nat} (h : c.rest = '\n' :: (List.replicate k ' ' ++ rest))
    (hblank : rest.headD endMark ≠ ' ') (hbreak : isBreak (rest.headD endMark) = false)
    (hseparator : c.next.atSeparator = false) : plainSpace c = ([' '], true, c.skip (k + 1)) := by
  have hspan : c.span (· == ' ') = (List.replicate 0 ' ', c.skip 0) :=
    Cursor.span_blanks rfl (by simp [h])
  rw [List.replicate_zero, Cursor.skip_zero] at hspan
  have hnext : c.next.rest = List.replicate k ' ' ++ rest := by rw [Cursor.rest_next, h]; rfl
  have hbreaks : plainBreaks (c.next.rest.length + 1) c.next = (some [], c.next.skip k) :=
    plainBreaks_blanks hnext hblank hbreak (by grind)
  simp only [plainSpace, hspan, Cursor.lineBreak_of_newline h, hseparator, hbreaks, foldBreaks,
    Bool.false_eq_true, ↓reduceIte, bne_self_eq_false, List.isEmpty_nil, Cursor.skip_succ]

/-! ## The end of a scalar -/

/-- The words of a plain scalar that is indented by `limit` columns at least end here. -/
structure EndsPlain (limit : Int) (c : Cursor) : Prop where
  no_word : plainWord false c.rest = []
  no_more : (plainSpace c).1 = [] ∨ (plainSpace c).2.2.here = '#' ∨ (plainSpace c).2.2.column < limit

theorem plainSpace_colon (h : c.rest = ':' :: rest) : plainSpace c = ([], false, c) :=
  plainSpace_blanks (n := 0) h (by simp) (by simp [isBreak])

/-- The colon of an entry ends a plain scalar. -/
theorem endsPlain_colon (h : c.rest = ':' :: rest) (hrest : blankNext rest = true) :
    EndsPlain limit c where
  no_word := by
    have hblank : isSpaceOrEnd (rest.headD endMark) = true := hrest
    rw [h, plainWord, hblank]
    simp
  no_more := .inl (by rw [plainSpace_colon h])

theorem atSeparator_next_newline {k : Nat} (h : c.rest = '\n' :: (List.replicate k ' ' ++ rest))
    (hrest : BeginsToken rest) : c.next.atSeparator = false := by
  have hnext : c.next.rest = List.replicate k ' ' ++ rest := by rw [Cursor.rest_next, h]; rfl
  cases k with
  | zero => exact Cursor.atSeparator_of_beginsToken (by simpa [hnext] using hrest)
  | succ k => exact Cursor.atSeparator_of_blank (by rw [hnext, List.replicate_succ]; rfl)

theorem plainSpace_line {k : Nat} (h : c.rest = '\n' :: (List.replicate k ' ' ++ rest))
    (hrest : BeginsToken rest) : plainSpace c = ([' '], true, c.skip (k + 1)) :=
  plainSpace_newline h hrest.not_blank hrest.not_break (atSeparator_next_newline h hrest)

/-- A line that is indented less ends a plain scalar. -/
theorem endsPlain_line {k : Nat} (h : c.rest = '\n' :: (List.replicate k ' ' ++ rest))
    (hrest : BeginsToken rest) (hk : (k : Int) < limit) : EndsPlain limit c where
  no_word := by rw [h]; exact plainWord_of_blank rfl
  no_more := .inr (.inr (by rw [plainSpace_line h hrest, Cursor.skip_newline h]; exact hk))

/-! ## The scalar -/

/-- How the space between two words is written: as it is, or a single blank as a new line. -/
def WritesSpace (indent n : Nat) (space : List Char) : Prop :=
  space = List.replicate (n + 1) ' ' ∨ n = 0 ∧ space = '\n' :: List.replicate indent ' '

/-- What is left of a folded text behind its first word, and the space there. -/
theorem Folds.exists_space {spell : Char → List Char} (h : Folds indent spell text written)
    (hbreak : ∀ c ∈ text, c ≠ '\n') (hend : text = [] ∨ ¬ IsSolid (text.headD endMark)) :
    (text = [] ∧ written = []) ∨
      ∃ n space more writtenMore, text = List.replicate (n + 1) ' ' ++ more ∧
        written = space ++ writtenMore ∧ WritesSpace indent n space ∧
        IsSolid (more.headD endMark) ∧ Folds indent spell more writtenMore := by
  cases h with
  | nil => exact .inl ⟨rfl, rfl⟩
  | solid hc h => simp [hc] at hend
  | blanks n hnext h => exact .inr ⟨n, _, _, _, rfl, rfl, .inl rfl, hnext, h⟩
  | fold hsome hnext h => exact .inr ⟨0, _, _, _, rfl, rfl, .inr ⟨rfl, rfl⟩, hnext, h⟩
  | breaks n hnext h => exact absurd rfl (hbreak '\n' (by simp [List.replicate_succ]))

theorem WritesSpace.blankNext {n : Nat} {space : List Char} (h : WritesSpace indent n space) :
    blankNext (space ++ rest) = true := by
  rcases h with rfl | ⟨-, rfl⟩ <;> rfl

/-- The space between two words is read whole, and the next word stands far enough to the right. -/
theorem exists_plainSpace {n : Nat} {space : List Char} (h : WritesSpace indent n space)
    (hindent : limit ≤ indent) (hpos : 0 < indent) (hrest : c.rest = space ++ rest)
    (hcolumn : limit ≤ c.column) (hblank : rest.headD endMark ≠ ' ')
    (hbreak : isBreak (rest.headD endMark) = false) :
    ∃ crossed, plainSpace c = (List.replicate (n + 1) ' ', crossed, c.skip space.length) ∧
      limit ≤ (c.skip space.length).column := by
  rcases h with rfl | ⟨rfl, rfl⟩
  · rw [List.length_replicate]
    refine ⟨false, plainSpace_blanks hrest hblank hbreak, ?_⟩
    rw [Cursor.skip_blanks hrest]
    push_cast
    omega
  · have hseparator : c.next.atSeparator = false := by
      obtain ⟨k, rfl⟩ : ∃ k, indent = k + 1 := ⟨indent - 1, by omega⟩
      exact Cursor.atSeparator_of_blank (by rw [Cursor.rest_next, hrest]; rfl)
    rw [List.length_cons, List.length_replicate]
    refine ⟨true, plainSpace_newline hrest hblank hbreak hseparator, ?_⟩
    rw [Cursor.skip_newline hrest]
    exact hindent

/-- What is written for a text that begins with a solid character begins with that character. -/
theorem Folds.headD_append {spell : Char → List Char} (hspell : ∀ c, (spell c).head? = some c)
    (h : Folds indent spell text written) (hsome : text ≠ [])
    (hsolid : IsSolid (text.headD endMark)) (rest : List Char) :
    (written ++ rest).headD endMark = text.headD endMark := by
  obtain ⟨word, more, writtenMore, rfl, rfl, hword, -, -, -⟩ := h.exists_word hsome hsolid
  obtain ⟨d, word, rfl⟩ := List.exists_cons_of_ne_nil hword
  simp [List.flatMap_cons, List.head?_append, hspell]

section Words

variable {fuel : Nat} {space word : List Char} {crossed : Bool}

/-- The last word is read up to the end of the scalar. -/
theorem plainWords_last (hhere : c.here ≠ '#') (hword : plainWord false c.rest = word)
    (hsome : word ≠ []) (hend : EndsPlain limit (c.skip word.length)) :
    plainWords false limit (fuel + 1) space crossed c =
      (space ++ word, (plainSpace (c.skip word.length)).2) := by
  have hstop : ((plainSpace (c.skip word.length)).1.isEmpty ||
      (plainSpace (c.skip word.length)).2.2.here == '#' ||
      (!false && (plainSpace (c.skip word.length)).2.2.column < limit)) = true := by
    rcases hend.no_more with h | h | h <;> simp [h]
  simp only [plainWords, beq_iff_eq, hhere, ↓reduceIte, hword, List.isEmpty_iff, hsome, hstop]

/-- Another word follows a space. -/
theorem plainWords_more (hhere : c.here ≠ '#') (hword : plainWord false c.rest = word)
    (hsome : word ≠ []) {gap : List Char} {crossed' : Bool} {c' : Cursor}
    (hspace : plainSpace (c.skip word.length) = (gap, crossed', c')) (hgap : gap ≠ [])
    (hhere' : c'.here ≠ '#') (hcolumn : limit ≤ c'.column) :
    plainWords false limit (fuel + 1) space crossed c =
      (space ++ word ++ (plainWords false limit fuel gap crossed' c').1,
        (plainWords false limit fuel gap crossed' c').2) := by
  have hgo : (gap.isEmpty || c'.here == '#' || (!false && c'.column < limit)) = false := by
    simp [hgap, hhere', hcolumn]
  simp only [plainWords, beq_iff_eq, hhere, ↓reduceIte, hword, List.isEmpty_iff, hsome, hspace, hgo,
    Bool.false_eq_true]

end Words

/-- **A folded plain text reads back.**  The text begins and ends with a solid character, has no
indicator that would end it, and is indented by `limit` columns at least. -/
theorem plainWords_folds {text written : List Char} {c : Cursor}
    (h : Folds indent (fun c => [c]) text written) (hsome : text ≠ [])
    (hsolid : IsSolid (text.headD endMark)) (hlast : text.getLast? ≠ some ' ')
    (hascii : ∀ c ∈ text, TakesColumn c) {before : Char}
    (hinner : hasInnerIndicator before text = false) (hnumber : text.headD endMark ≠ '#')
    (hindent : limit ≤ indent) (hpos : 0 < indent) {fuel : Nat} {space : List Char} {crossed : Bool}
    (hrest : c.rest = written ++ rest) (hcolumn : limit ≤ c.column + 1)
    (hfuel : text.length ≤ fuel)
    (hend : EndsPlain limit (c.skip written.length)) :
    plainWords false limit fuel space crossed c =
      (space ++ text, (plainSpace (c.skip written.length)).2) := by
  have hbreak : ∀ c ∈ text, c ≠ '\n' := by
    rintro c hc rfl
    exact absurd (hascii _ hc) (by decide)
  obtain ⟨word, more, writtenMore, htext, rfl, hword, hwordSolid, hmore, hstop⟩ :=
    h.exists_word hsome hsolid
  obtain ⟨fuel, rfl⟩ : ∃ k, fuel = k + 1 :=
    ⟨fuel - 1, by have := List.length_pos_of_ne_nil hsome; omega⟩
  have hspace : ∀ c ∈ word, isSpaceOrEnd c = false := fun c hc => by
    rw [(hascii c (by simp [htext, hc])).isSpaceOrEnd]
    simpa using (hwordSolid c hc).1
  have hhere : c.here ≠ '#' := by
    have hhead := h.headD_append (by simp) hsome hsolid rest
    rwa [Cursor.here, hrest, hhead]
  simp only [List.flatMap_singleton', List.append_assoc] at hrest hend ⊢
  have hafter : (c.skip word.length).rest = writtenMore ++ rest := Cursor.rest_skip_length hrest
  have hline := Cursor.skip_columns hrest fun c hc => hascii c (by simp [htext, hc])
  have hread (hblank : blankNext more = true) (hnone : plainWord false (writtenMore ++ rest) = []) :
      plainWord false c.rest = word := by
    rw [hrest]
    exact plainWord_append hspace (htext ▸ hinner) hblank hnone
  rw [List.length_append, Cursor.skip_add] at hend ⊢
  rcases hmore.exists_space (fun c hc => hbreak c (by simp [htext, hc])) hstop with
    ⟨rfl, rfl⟩ | ⟨n, gap, next, writtenNext, rfl, rfl, hgap, hnext, hfolds⟩
  · have hnone := hend.no_word
    rw [List.length_nil, Cursor.skip_zero] at hend hnone ⊢
    rw [htext, List.append_nil]
    rw [hafter] at hnone
    exact plainWords_last hhere (hread rfl hnone) hword hend
  · have hnextSome : next ≠ [] := by
      rintro rfl
      rw [htext, List.append_nil, List.getLast?_append] at hlast
      simp [List.getLast?_replicate] at hlast
    have hascii' : ∀ c ∈ next, TakesColumn c := fun c hc => hascii c (by simp [htext, hc])
    have hinner' : hasInnerIndicator ' ' next = false := by
      rw [htext, List.replicate_succ', List.append_assoc, ← List.append_assoc] at hinner
      exact hasInnerIndicator_append_cons hinner
    have hhead := hfolds.headD_append (by simp) hnextSome hnext rest
    have hbreak' : isBreak (next.headD endMark) = false := by
      obtain ⟨d, ds, rfl⟩ := List.exists_cons_of_ne_nil hnextSome
      exact (hascii' d (by simp)).not_isBreak
    rw [List.append_assoc] at hafter
    have hwordLength := List.length_pos_of_ne_nil hword
    obtain ⟨crossed', hspace', hcolumn'⟩ := exists_plainSpace hgap hindent hpos hafter
      (by rw [hline]; push_cast; omega) (hhead ▸ hnext.1) (hhead ▸ hbreak')
    have hrest' := Cursor.rest_skip_length hafter
    have hfirst : plainWords false limit (fuel + 1) space crossed c = _ := plainWords_more hhere
      (hread rfl (by rw [List.append_assoc]; exact plainWord_of_blank hgap.blankNext)) hword
      hspace' (by simp) (by rw [Cursor.here, hrest', hhead]; exact headD_ne_numberSign hinner')
      hcolumn'
    rw [List.length_append, Cursor.skip_add] at hend ⊢
    have hothers : plainWords false limit fuel (List.replicate (n + 1) ' ') crossed' _ = _ :=
      plainWords_folds hfolds hnextSome hnext
      (fun hl => hlast (by rw [htext, List.getLast?_append, List.getLast?_append, hl]; rfl))
      hascii' hinner' (headD_ne_numberSign hinner') hindent hpos hrest' (by omega)
      (by rw [htext] at hfuel; simp at hfuel; omega) hend
    rw [hfirst, hothers, htext]
    simp
termination_by text.length
decreasing_by
  rw [htext]
  simp
  omega

end DevMachines.Yaml
