import DevMachines.Session
import Mathlib.Data.List.Basic

/-!
# An escaped text inside of markup

A text from outside is shown inside of markup: a style is opened, the text follows, and a tag ends
the style.  The text is escaped, so it must not be able to close a style itself; if it could, the
closing tag behind it would have nothing to close, and showing the text would fail.

Main statement: `exists_noticeText_eq_ok`, every message can be shown as a notice.

## Why no tag comes up

A tag of the text gets an odd number of backslashes before it, so it is read as text.  What is no
tag stays none: a bracket of the text opens a tag only if a closing bracket comes before the next
opening one (`closesFirst`), and the backslashes that the escaping adds stand before opening
brackets only.  The text ends before a bracket, too, so the tag behind it cannot complete a tag of
the text.

## Why the fuel does not matter

A text whose fuel is exhausted has fewer pieces, not other ones, and fewer pieces cannot fail where
more do not.  So the statements hold for any fuel, and no induction has to carry a bound along.
-/

namespace DevMachines
namespace Terminal

/-! ## Texts that can be shown -/

/-- The open styles after a tag. -/
def afterTag (opened : List String) (position : Nat) (body : List Char) :
    Except MarkupFault (List String) :=
  match tagName body with
  | '/' :: name =>
      let name := Text.trim name
      if name.isEmpty then
        match opened with
        | _ :: opened => .ok opened
        | [] => .error (.nothingToClose position)
      else
        match closeStyle (styleSpelling name) opened with
        | some opened => .ok opened
        | none => .error (.noSuchTag (String.ofList body) position)
  | name => .ok (styleSpelling name :: opened)

/-- A tag only changes the open styles. -/
theorem shownText_tag (opened : List String) (position : Nat) (body : List Char)
    (ps : List MarkupPiece) :
    shownText opened (.tag position body :: ps) =
      (afterTag opened position body).bind fun opened => shownText opened ps := by
  rw [shownText.eq_def, afterTag.eq_def]
  dsimp only
  generalize tagName body = name
  cases name with
  | nil => rfl
  | cons c name =>
    by_cases hslash : c = '/'
    · subst hslash
      cases hempty : (Text.trim name).isEmpty with
      | true => cases opened <;> simp [hempty, Except.bind]
      | false =>
        cases hclose : closeStyle (styleSpelling (Text.trim name)) opened <;>
          simp [hempty, hclose, Except.bind]
    · simp [hslash, Except.bind]

/-- Can pieces be shown while these styles are open? -/
def Shows (opened : List String) (ps : List MarkupPiece) : Prop :=
  ∃ cs, shownText opened ps = .ok cs

theorem shows_nil (opened : List String) : Shows opened [] := ⟨[], rfl⟩

/-- Changing a result does not make it fail. -/
theorem exists_map_eq_ok {ε α β : Type} {x : Except ε α} {f : α → β} :
    (∃ b, x.map f = .ok b) ↔ ∃ a, x = .ok a := by
  cases x with
  | ok a => exact ⟨fun _ => ⟨a, rfl⟩, fun _ => ⟨f a, rfl⟩⟩
  | error fault =>
    refine ⟨?_, ?_⟩
    · rintro ⟨b, h⟩
      cases h
    · rintro ⟨a, h⟩
      cases h

theorem shows_text {opened : List String} {cs : List Char} {ps : List MarkupPiece} :
    Shows opened (.text cs :: ps) ↔ Shows opened ps := by
  rw [Shows, shownText]
  exact exists_map_eq_ok

theorem shows_verbatim {opened : List String} {cs : List Char} {ps : List MarkupPiece} :
    Shows opened (.verbatim cs :: ps) ↔ Shows opened ps := by
  rw [Shows, shownText]
  exact exists_map_eq_ok

theorem shows_tag {opened : List String} {position : Nat} {body : List Char}
    {ps : List MarkupPiece} :
    Shows opened (.tag position body :: ps) ↔
      ∃ next, afterTag opened position body = .ok next ∧ Shows next ps := by
  rw [Shows, shownText_tag]
  cases afterTag opened position body with
  | ok next =>
    refine ⟨fun h => ⟨next, rfl, h⟩, ?_⟩
    rintro ⟨other, hother, h⟩
    cases hother
    exact h
  | error fault =>
    refine ⟨?_, ?_⟩
    · rintro ⟨shown, h⟩
      cases h
    · rintro ⟨next, h, -⟩
      cases h

/-- Putting pieces of text together changes nothing about the tags. -/
theorem Shows.joinPieces {opened : List String} {ps : List MarkupPiece} (h : Shows opened ps) :
    Shows opened (joinPieces ps) := by
  induction ps generalizing opened with
  | nil => exact h
  | cons p ps ih =>
    cases p with
    | text cs =>
      have hrest := ih (shows_text.mp h)
      rw [Terminal.joinPieces]
      split
      · next more hmore =>
        rw [hmore] at hrest
        exact shows_text.mpr (shows_text.mp hrest)
      · exact shows_text.mpr hrest
    | verbatim cs => exact shows_verbatim.mpr (ih (shows_verbatim.mp h))
    | tag position body =>
      obtain ⟨next, hnext, hrest⟩ := shows_tag.mp h
      exact shows_tag.mpr ⟨next, hnext, ih hrest⟩

/-! ## Tags -/

/-- No bracket. -/
def isInside (c : Char) : Bool := c != '[' && c != ']'

/-- The inside of a tag: how a tag may begin, and then no bracket. -/
def IsTagBody (body : List Char) : Prop :=
  ∃ c rest, body = c :: rest ∧ startsTag c = true ∧ rest.all isInside = true

/-- Does a closing bracket come before any opening one? -/
def closesFirst : List Char → Bool
  | [] => false
  | c :: rest => c == ']' || (c != '[' && closesFirst rest)

/-- What stands before the first bracket, and that bracket with the rest. -/
theorem tagBody_cons (c : Char) (cs : List Char) :
    tagBody (c :: cs) =
      if startsTag c then
        match cs.dropWhile isInside with
        | ']' :: after => some (c :: cs.takeWhile isInside, after)
        | _ => none
      else none := by
  have hdrop : cs.drop (cs.takeWhile isInside).length = cs.dropWhile isInside := by
    have hsplit := List.takeWhile_append_dropWhile (p := isInside) (l := cs)
    have htaken := List.prefix_iff_eq_append.mp (List.takeWhile_prefix isInside (l := cs))
    exact List.append_cancel_left (htaken.trans hsplit.symm)
  rw [← hdrop]
  rfl

/-- A closing bracket comes first exactly if it is the first of all brackets. -/
theorem closesFirst_iff {cs : List Char} :
    closesFirst cs = true ↔ ∃ after, cs.dropWhile isInside = ']' :: after := by
  induction cs with
  | nil => simp [closesFirst]
  | cons c cs ih =>
    by_cases hopen : c = '['
    · subst hopen
      simp [closesFirst, isInside]
    by_cases hclose : c = ']'
    · subst hclose
      simp [closesFirst, isInside]
    · have hinside : isInside c = true := by simp [isInside, hopen, hclose]
      rw [List.dropWhile_cons_of_pos hinside, ← ih]
      simp [closesFirst, hopen, hclose]

/-- A tag at the front of a text is a tag's inside, a closing bracket, and what follows. -/
theorem tagBody_eq_some_iff {cs body after : List Char} :
    tagBody cs = some (body, after) ↔ cs = body ++ ']' :: after ∧ IsTagBody body := by
  constructor
  · intro h
    cases cs with
    | nil => cases h
    | cons c cs =>
      rw [tagBody_cons] at h
      split at h
      · next hstarts =>
        split at h
        · next rest hdrop =>
          obtain ⟨rfl, rfl⟩ := Prod.mk.inj (Option.some.inj h)
          refine ⟨?_, c, _, rfl, hstarts, List.all_takeWhile⟩
          rw [List.cons_append, ← hdrop, List.takeWhile_append_dropWhile]
        · cases h
      · cases h
  · rintro ⟨rfl, c, rest, rfl, hstarts, hinside⟩
    have hall : ∀ d ∈ rest, isInside d = true := List.all_eq_true.mp hinside
    have hclose : ¬ isInside ']' = true := by decide
    rw [List.cons_append, tagBody_cons, if_pos hstarts, List.dropWhile_append_of_pos hall,
      List.takeWhile_append_of_pos hall, List.dropWhile_cons_of_neg hclose,
      List.takeWhile_cons_of_neg hclose, List.append_nil]
    rfl

/-- No tag is at the front of a text whose first bracket is not a closing one. -/
theorem tagBody_eq_none_iff {c : Char} {cs : List Char} :
    tagBody (c :: cs) = none ↔ (startsTag c = true → closesFirst cs = false) := by
  rw [tagBody_cons]
  by_cases hstarts : startsTag c = true
  · rw [if_pos hstarts, ← Bool.not_eq_true, closesFirst_iff]
    split
    · next after hdrop => simp [hstarts, hdrop]
    · next hother =>
      refine ⟨fun _ _ => ?_, fun _ => rfl⟩
      rintro ⟨after, hdrop⟩
      exact hother after hdrop
  · simp [hstarts]

/-- How a text begins: with a backslash, with a tag, or with a character that is shown. -/
theorem head_cases (c : Char) (cs : List Char) :
    c = '\\' ∨ (c = '[' ∧ ∃ body after, tagBody cs = some (body, after)) ∨
      (c ≠ '\\' ∧ (c = '[' → tagBody cs = none)) := by
  by_cases hslash : c = '\\'
  · exact Or.inl hslash
  by_cases hopen : c = '['
  · cases h : tagBody cs with
    | none => exact Or.inr (Or.inr ⟨hslash, fun _ => rfl⟩)
    | some found => exact Or.inr (Or.inl ⟨hopen, found.1, found.2, rfl⟩)
  · exact Or.inr (Or.inr ⟨hslash, fun h => absurd h hopen⟩)

/-! ## One step of escaping and of cutting into pieces -/

section Steps

variable {c : Char} {cs body after : List Char} (slashes fuel position : Nat)

theorem escapeFrom_backslash :
    escapeFrom slashes (fuel + 1) ('\\' :: cs) = escapeFrom (slashes + 1) fuel cs := by
  rw [escapeFrom]

theorem escapeFrom_tag (h : tagBody cs = some (body, after)) :
    escapeFrom slashes (fuel + 1) ('[' :: cs) =
      List.replicate (2 * slashes + 1) '\\' ++ '[' :: (body ++ ']' :: escapeFrom 0 fuel after) := by
  simp [escapeFrom, h]

theorem escapeFrom_other (hslash : c ≠ '\\') (h : c = '[' → tagBody cs = none) :
    escapeFrom slashes (fuel + 1) (c :: cs) =
      List.replicate slashes '\\' ++ c :: escapeFrom 0 fuel cs := by
  rw [escapeFrom.eq_4 _ _ _ _ hslash]
  split
  · next hsome =>
    split at hsome
    · next hopen => rw [h hopen] at hsome; cases hsome
    · cases hsome
  · rfl

theorem pieces_backslash :
    pieces (fuel + 1) position slashes ('\\' :: cs) =
      pieces fuel (position + 1) (slashes + 1) cs := by
  rw [pieces]

theorem pieces_other (hslash : c ≠ '\\') (h : c = '[' → tagBody cs = none) :
    pieces (fuel + 1) position slashes (c :: cs) =
      .text (List.replicate slashes '\\' ++ [c]) :: pieces fuel (position + 1) 0 cs := by
  rw [pieces.eq_4 _ _ _ _ _ hslash]
  split
  · next hsome =>
    split at hsome
    · next hopen => rw [h hopen] at hsome; cases hsome
    · cases hsome
  · rfl

/-- An odd number of backslashes makes text of a tag. -/
theorem pieces_escapedTag (h : tagBody cs = some (body, after)) (hodd : slashes % 2 = 1) :
    pieces (fuel + 1) position slashes ('[' :: cs) =
      .verbatim (List.replicate (slashes / 2) '\\') :: .verbatim ('[' :: (body ++ [']'])) ::
        pieces fuel (position + body.length + 2) 0 after := by
  simp [pieces, h, hodd]

/-- An even number of backslashes leaves a tag what it is. -/
theorem pieces_tag (h : tagBody cs = some (body, after)) (heven : slashes % 2 = 0) :
    ∃ start, pieces (fuel + 1) position slashes ('[' :: cs) =
      .verbatim (List.replicate (slashes / 2) '\\') :: .tag start body ::
        pieces fuel (position + body.length + 2) 0 after := by
  simp [pieces, h, heven]

end Steps

/-! ## An escaped text has no tags -/

theorem closesFirst_replicate (n : Nat) (cs : List Char) :
    closesFirst (List.replicate n '\\' ++ cs) = closesFirst cs := by
  induction n with
  | zero => rfl
  | succ n ih =>
    rw [List.replicate_succ, List.cons_append, ← ih]
    rfl

/-- Escaping puts no closing bracket before the first opening one. -/
theorem closesFirst_escapeFrom {rest : List Char} (hrest : closesFirst rest = false) (fuel : Nat)
    {slashes : Nat} {cs : List Char} (h : closesFirst cs = false) :
    closesFirst (escapeFrom slashes fuel cs ++ rest) = false := by
  induction fuel generalizing slashes cs with
  | zero => exact hrest
  | succ fuel ih =>
    cases cs with
    | nil => rwa [escapeFrom, closesFirst_replicate]
    | cons c cs =>
      rcases head_cases c cs with rfl | ⟨rfl, body, after, htag⟩ | ⟨hslash, hnone⟩
      · rw [escapeFrom_backslash]
        exact ih h
      · rw [escapeFrom_tag _ _ htag, List.append_assoc, closesFirst_replicate]
        rfl
      · rw [escapeFrom_other _ _ hslash hnone, List.append_assoc, closesFirst_replicate]
        rw [closesFirst, Bool.or_eq_false_iff] at h
        rw [List.cons_append, closesFirst, h.1, Bool.false_or]
        by_cases hopen : c = '['
        · simp [hopen]
        · have hcs : closesFirst cs = false := by simpa [hopen] using h.2
          rw [ih hcs, Bool.and_false]

/-- No tag begins with a backslash. -/
theorem tagBody_replicate (n : Nat) (cs : List Char) :
    tagBody (List.replicate (n + 1) '\\' ++ cs) = none :=
  tagBody_eq_none_iff.mpr fun hstarts => absurd hstarts (by decide)

/-- Behind a backslash of the text there is no tag, either. -/
theorem tagBody_escapeFrom_succ {rest : List Char} (hnone : tagBody rest = none)
    (fuel slashes : Nat) (cs : List Char) :
    tagBody (escapeFrom (slashes + 1) fuel cs ++ rest) = none := by
  induction fuel generalizing slashes cs with
  | zero => exact hnone
  | succ fuel ih =>
    cases cs with
    | nil => exact tagBody_replicate slashes rest
    | cons c cs =>
      rcases head_cases c cs with rfl | ⟨rfl, body, after, htag⟩ | ⟨hslash, hother⟩
      · rw [escapeFrom_backslash]
        exact ih (slashes + 1) cs
      · rw [escapeFrom_tag _ _ htag, List.append_assoc]
        exact tagBody_replicate _ _
      · rw [escapeFrom_other _ _ hslash hother, List.append_assoc]
        exact tagBody_replicate slashes _

/-- What is no tag of the text is none after escaping, if what follows the text completes none. -/
theorem tagBody_escapeFrom {rest : List Char} (hnone : tagBody rest = none)
    (hrest : closesFirst rest = false) (fuel : Nat) {cs : List Char} (h : tagBody cs = none) :
    tagBody (escapeFrom 0 fuel cs ++ rest) = none := by
  cases fuel with
  | zero => exact hnone
  | succ fuel =>
    cases cs with
    | nil => exact hnone
    | cons c cs =>
      rcases head_cases c cs with rfl | ⟨rfl, body, after, htag⟩ | ⟨hslash, hother⟩
      · rw [escapeFrom_backslash]
        exact tagBody_escapeFrom_succ hnone fuel 0 cs
      · rw [escapeFrom_tag _ _ htag]
        exact tagBody_eq_none_iff.mpr fun hstarts => absurd hstarts (by decide)
      · rw [escapeFrom_other _ _ hslash hother]
        refine tagBody_eq_none_iff.mpr fun hstarts => ?_
        exact closesFirst_escapeFrom hrest fuel (tagBody_eq_none_iff.mp h hstarts)

/-- Backslashes only add to those that stand before the rest. -/
theorem shows_pieces_replicate {opened : List String} {cs : List Char} (n : Nat) {slashes : Nat}
    (h : ∀ fuel position, Shows opened (pieces fuel position (slashes + n) cs))
    (fuel position : Nat) :
    Shows opened (pieces fuel position slashes (List.replicate n '\\' ++ cs)) := by
  induction n generalizing slashes fuel position with
  | zero => exact h fuel position
  | succ n ih =>
    cases fuel with
    | zero => exact shows_nil opened
    | succ fuel =>
      rw [List.replicate_succ, List.cons_append, pieces_backslash]
      refine ih (fun fuel position => ?_) fuel (position + 1)
      rw [Nat.add_right_comm, Nat.add_assoc]
      exact h fuel position

/-- **An escaped text is shown in front of anything that is shown**, however many backslashes are
put before that, provided that no tag reaches across. -/
theorem shows_pieces_escapeFrom {opened : List String} {rest : List Char}
    (hnone : tagBody rest = none) (hcloses : closesFirst rest = false)
    (hrest : ∀ fuel position slashes, Shows opened (pieces fuel position slashes rest))
    (n slashes : Nat) (cs : List Char) (fuel position : Nat) :
    Shows opened (pieces fuel position 0 (escapeFrom slashes n cs ++ rest)) := by
  induction n generalizing slashes cs fuel position with
  | zero => exact hrest fuel position 0
  | succ n ih =>
    cases cs with
    | nil =>
      rw [escapeFrom]
      exact shows_pieces_replicate slashes (fun fuel position => hrest fuel position _) _ _
    | cons c cs =>
      rcases head_cases c cs with rfl | ⟨rfl, body, after, htag⟩ | ⟨hslash, hother⟩
      · rw [escapeFrom_backslash]
        exact ih (slashes + 1) cs fuel position
      · rw [escapeFrom_tag _ _ htag, List.append_assoc]
        refine shows_pieces_replicate _ (fun fuel position => ?_) fuel position
        cases fuel with
        | zero => exact shows_nil opened
        | succ fuel =>
          have hbody := (tagBody_eq_some_iff.mp htag).2
          have hkept : tagBody (body ++ ']' :: (escapeFrom 0 n after ++ rest)) =
              some (body, escapeFrom 0 n after ++ rest) :=
            tagBody_eq_some_iff.mpr ⟨rfl, hbody⟩
          rw [List.cons_append, List.append_assoc, List.cons_append,
            pieces_escapedTag _ _ _ hkept (by omega), shows_verbatim, shows_verbatim]
          exact ih 0 after fuel _
      · rw [escapeFrom_other _ _ hslash hother, List.append_assoc]
        refine shows_pieces_replicate _ (fun fuel position => ?_) fuel position
        cases fuel with
        | zero => exact shows_nil opened
        | succ fuel =>
          have hkept : c = '[' → tagBody (escapeFrom 0 n cs ++ rest) = none :=
            fun hopen => tagBody_escapeFrom hnone hcloses n (hother hopen)
          rw [List.cons_append, pieces_other _ _ _ hslash hkept, shows_text]
          exact ih 0 cs fuel _

/-! ## A sign and a message -/

/-- The tag that ends the innermost style. -/
def closingTag : List Char := ['[', '/', ']']

/-- Behind an open style its closing tag is shown; with an odd number of backslashes it is text. -/
theorem shows_pieces_closingTag (style : String) (opened : List String)
    (fuel position slashes : Nat) :
    Shows (style :: opened) (pieces fuel position slashes closingTag) := by
  cases fuel with
  | zero => exact shows_nil _
  | succ fuel =>
    have htag : tagBody ['/', ']'] = some (['/'], []) := by decide
    have hend : ∀ (opened : List String) (position : Nat),
        Shows opened (pieces fuel position 0 []) := by
      intro opened position
      cases fuel with
      | zero => exact shows_nil opened
      | succ fuel => exact shows_text.mpr (shows_nil opened)
    rcases Nat.mod_two_eq_zero_or_one slashes with heven | hodd
    · obtain ⟨start, hpieces⟩ := pieces_tag slashes fuel position htag heven
      rw [closingTag, hpieces, shows_verbatim, shows_tag]
      exact ⟨opened, rfl, hend opened _⟩
    · rw [closingTag, pieces_escapedTag slashes fuel position htag hodd, shows_verbatim,
        shows_verbatim]
      exact hend _ _

/-- What follows an escaped text up to the end of the style: perhaps a backslash, and the tag. -/
theorem escape_append_closingTag (cs : List Char) :
    ∃ n, escape cs ++ closingTag =
      escapeFrom 0 (cs.length + 1) cs ++ (List.replicate n '\\' ++ closingTag) := by
  rw [escape.eq_def]
  dsimp only
  split
  · exact ⟨0, rfl⟩
  · exact ⟨1, List.append_assoc _ _ _⟩
  · exact ⟨0, rfl⟩

/-- An escaped text is shown up to the tag that ends its style. -/
theorem shows_pieces_escape (style : String) (opened : List String) (cs : List Char)
    (fuel position : Nat) :
    Shows (style :: opened) (pieces fuel position 0 (escape cs ++ closingTag)) := by
  obtain ⟨n, hn⟩ := escape_append_closingTag cs
  rw [hn]
  refine shows_pieces_escapeFrom ?_ ?_ (fun fuel position slashes => ?_) _ 0 cs fuel position
  · cases n with
    | zero => decide
    | succ n => exact tagBody_replicate n closingTag
  · rw [closesFirst_replicate]
    rfl
  · exact shows_pieces_replicate n
      (fun fuel position => shows_pieces_closingTag style opened fuel position _) fuel position

/-- A sign without brackets and backslashes is shown in front of anything that is shown. -/
theorem shows_pieces_sign {opened : List String} {rest sign : List Char}
    (hrest : ∀ fuel position, Shows opened (pieces fuel position 0 rest))
    (hsign : ∀ c ∈ sign, c ≠ '[' ∧ c ≠ '\\') (fuel position : Nat) :
    Shows opened (pieces fuel position 0 (sign ++ rest)) := by
  induction sign generalizing fuel position with
  | nil => exact hrest fuel position
  | cons c sign ih =>
    cases fuel with
    | zero => exact shows_nil opened
    | succ fuel =>
      have hc := hsign c (List.mem_cons_self ..)
      rw [List.cons_append, pieces_other _ _ _ hc.2 (fun hopen => absurd hopen hc.1), shows_text]
      exact ih (fun d hd => hsign d (List.mem_cons_of_mem c hd)) fuel (position + 1)

/-- A tag that does not begin with a slash opens a style. -/
theorem afterTag_open {body : List Char} (h : body.head? ≠ some '/') (opened : List String)
    (position : Nat) :
    afterTag opened position body = .ok (styleSpelling (tagName body) :: opened) := by
  rw [afterTag.eq_def]
  split
  · next name hname =>
    have hhead := List.head?_takeWhile (p := (· != '=')) (l := body)
    rw [tagName] at hname
    rw [hname, List.head?_cons] at hhead
    exact absurd (Option.filter_eq_some_iff.mp hhead.symm).1 h
  · rfl

end Terminal

namespace Session

open Terminal

/-- **A message behind a sign can be shown, whatever the message is**, also behind a text without
brackets and backslashes. -/
theorem exists_render_append_signed {before colour sign : String}
    (hbefore : ∀ c ∈ before.toList, c ≠ '[' ∧ c ≠ '\\') (hcolour : IsTagBody colour.toList)
    (hopen : colour.toList.head? ≠ some '/') (hsign : ∀ c ∈ sign.toList, c ≠ '[' ∧ c ≠ '\\')
    (message : String) :
    ∃ text, render (before ++ signed colour sign message).toList = .ok text := by
  have htag : ∀ rest, tagBody (colour.toList ++ ']' :: rest) = some (colour.toList, rest) :=
    fun rest => tagBody_eq_some_iff.mpr ⟨rfl, hcolour⟩
  have hmarkup : (signed colour sign message).toList =
      '[' :: (colour.toList ++ ']' ::
        (sign.toList ++ (escape message.toList ++ closingTag))) := by
    simp [signed, closingTag]
  have hshows : ∀ fuel position,
      Shows [] (pieces fuel position 0 (signed colour sign message).toList) := by
    intro fuel position
    cases fuel with
    | zero => exact shows_nil []
    | succ fuel =>
      obtain ⟨start, hpieces⟩ := pieces_tag 0 fuel position (htag _) rfl
      rw [hmarkup, hpieces, shows_verbatim, shows_tag]
      refine ⟨_, afterTag_open hopen [] start, ?_⟩
      exact shows_pieces_sign (shows_pieces_escape _ _ _) hsign fuel _
  rw [render, exists_map_eq_ok, String.toList_append]
  exact (shows_pieces_sign hshows hbefore _ 0).joinPieces

section Signed

variable {colour sign : String}

theorem exists_render_signed (hcolour : IsTagBody colour.toList)
    (hopen : colour.toList.head? ≠ some '/') (hsign : ∀ c ∈ sign.toList, c ≠ '[' ∧ c ≠ '\\')
    (message : String) : ∃ text, render (signed colour sign message).toList = .ok text := by
  have hnothing : ∀ c ∈ "".toList, c ≠ '[' ∧ c ≠ '\\' := nofun
  have hshown := exists_render_append_signed hnothing hcolour hopen hsign message
  rwa [String.empty_append] at hshown

/-- The same of a message that is printed without wrapping its lines. -/
theorem exists_unwrapped_signed (hcolour : IsTagBody colour.toList)
    (hopen : colour.toList.head? ≠ some '/') (hsign : ∀ c ∈ sign.toList, c ≠ '[' ∧ c ≠ '\\')
    (message : String) : ∃ text, unwrapped (signed colour sign message) = .ok text := by
  rw [unwrapped, exists_map_eq_ok]
  exact exists_render_signed hcolour hopen hsign message

end Signed

/-- **Every message can be shown as a notice.** -/
theorem exists_noticeText_eq_ok (message : String) : ∃ text, noticeText message = .ok text := by
  refine exists_unwrapped_signed ?_ ?_ ?_ message
  · exact ⟨'y', "ellow".toList, by decide, by decide, by decide⟩
  · decide
  · simp

end Session
end DevMachines
