import DevMachines.Proofs.Session.Declaring
import DevMachines.Proofs.Vagrantfile.Pieces

/-!
# What Ruby makes of a Vagrantfile's literals

A field stands in the text between double quotes, and Ruby reads what stands there by rules of its
own.  This file holds those rules and says exactly when the reading comes back to the field.

## The rules

Inside of double quotes a backslash takes the next character along as it is, the first double quote
that is left ends the literal, and a sharp begins an interpolation in three cases: before a brace,
before `$` and the name of a global variable, and before `@` or `@@` and an identifier.  A global
variable may have a sign for a name, and among the signs are the backslash and the double quote.

## What the escaping covers, and what it does not

Backslashes, double quotes and `#` before a brace are escaped, and they read back as they are.  The
other two beginnings of an interpolation are written as they stand.  So `readInside_escape_iff` is
an equivalence: a field reads back exactly if it embeds no variable.  Two cases of `startsVariable`
are the renderer's own doing: a `#$` at the end of a field takes the closing quote for a name, and
before `#` and a brace it takes the backslash that the renderer puts there.

Of the profiles of a project only the host path of the workspace comes from outside, so for those
the condition is about that path.
-/

namespace DevMachines
namespace Vagrantfile

/-! ## Reading a literal -/

/-- What reading the inside of a literal comes to: the value and what follows the closing quote, or
an interpolation that begins after some characters, or no end. -/
inductive Reading where
  | closed (value rest : List Char)
  | interpolated (before rest : List Char)
  | unclosed
  deriving DecidableEq, Repr

/-- A character has been read before the rest. -/
def Reading.after (c : Char) : Reading → Reading
  | .closed value rest => .closed (c :: value) rest
  | .interpolated before rest => .interpolated (c :: before) rest
  | .unclosed => .unclosed

/-- A character that an identifier may begin with. -/
def startsName (c : Char) : Bool := c.isAlpha || c == '_' || 0x80 ≤ c.toNat

/-- A character inside of an identifier. -/
def isNamePart (c : Char) : Bool := startsName c || c.isDigit

/-- A sign that is the name of a global variable by itself. -/
def isGlobalSign (c : Char) : Bool := "~*$?!@/\\;,.=:<>\"&`'+".toList.contains c

/-- A character that is the name of a global variable, or begins one. -/
def startsGlobalName (c : Char) : Bool := isNamePart c || isGlobalSign c

/-- Does the name of a global variable stand here?  A minus sign needs a character behind it. -/
def isGlobalAt : List Char → Bool
  | '-' :: rest => rest.head?.any isNamePart
  | rest => rest.head?.any startsGlobalName

/-- Does an identifier stand here? -/
def isNameAt (cs : List Char) : Bool := cs.head?.any startsName

/-- Does a sharp begin an interpolation before these characters? -/
def interpolatesBefore : List Char → Bool
  | '\x7b' :: _ => true
  | '$' :: rest => isGlobalAt rest
  | '@' :: '@' :: rest => isNameAt rest
  | '@' :: rest => isNameAt rest
  | _ => false

/-- Reads the inside of a literal, whose opening quote has been read. -/
def readInside : List Char → Reading
  | [] => .unclosed
  | '"' :: rest => .closed [] rest
  | ['\\'] => .unclosed
  | '\\' :: c :: rest => (readInside rest).after c
  | '#' :: rest =>
      if interpolatesBefore rest then .interpolated [] ('#' :: rest)
      else (readInside rest).after '#'
  | c :: rest => (readInside rest).after c

/-! ## Variables in a field -/

/-- Does a sharp of a field, before these characters of the field, begin the interpolation of a
variable once the field is written? -/
def startsVariable : List Char → Bool
  | '$' :: '#' :: '\x7b' :: _ => true
  | '$' :: rest => isGlobalAt (rest ++ ['"'])
  | '@' :: '@' :: rest => isNameAt rest
  | '@' :: rest => isNameAt rest
  | _ => false

/-- Does a field embed a variable? -/
def embedsVariable : List Char → Bool
  | [] => false
  | '#' :: rest => startsVariable rest || embedsVariable rest
  | _ :: rest => embedsVariable rest

/-! ## One character of a literal -/

theorem readInside_backslash (c : Char) (rest : List Char) :
    readInside ('\\' :: c :: rest) = (readInside rest).after c := by
  rw [readInside]

theorem readInside_sharp (rest : List Char) :
    readInside ('#' :: rest) =
      if interpolatesBefore rest then .interpolated [] ('#' :: rest)
      else (readInside rest).after '#' := by
  rw [readInside]

theorem readInside_plain {c : Char} (h : ¬ (c = '\\' ∨ c = '"')) (hsharp : c ≠ '#')
    (rest : List Char) : readInside (c :: rest) = (readInside rest).after c := by
  rw [not_or] at h
  rw [readInside]
  · exact h.2
  · rintro rfl
    exact absurd rfl h.1
  · rintro d tail rfl
    exact absurd rfl h.1
  · exact hsharp

theorem embedsVariable_sharp (rest : List Char) :
    embedsVariable ('#' :: rest) = (startsVariable rest || embedsVariable rest) := by
  rw [embedsVariable]

theorem embedsVariable_plain {c : Char} (h : c ≠ '#') (rest : List Char) :
    embedsVariable (c :: rest) = embedsVariable rest := by
  rw [embedsVariable]
  exact h

/-! ## What a sharp sees of the written field

The escaping changes what stands behind a sharp only by a backslash, and a backslash is no part of
an identifier. -/

/-- The first character of a written field, for a class without backslash, quote and sharp. -/
theorem any_head?_written {p : Char → Bool} (hslash : p '\\' = false) (hquote : p '"' = false)
    (hsharp : p '#' = false) (cs rest : List Char) :
    (escape cs ++ '"' :: rest).head?.any p = cs.head?.any p := by
  cases cs with
  | nil => simpa using hquote
  | cons c cs =>
    rcases escape_cons_cases c cs with ⟨rfl | rfl, h⟩ | ⟨tail, rfl, rfl, h⟩ | ⟨-, -, h⟩
    · simp [h]
    · simp [h, hslash, hquote]
    · simp [h, hslash, hsharp]
    · simp [h]

theorem isNameAt_written (cs rest : List Char) :
    isNameAt (escape cs ++ '"' :: rest) = isNameAt cs :=
  any_head?_written (by decide) (by decide) (by decide) cs rest

/-- A minus sign stays in front. -/
theorem isGlobalAt_minus (rest : List Char) :
    isGlobalAt ('-' :: rest) = rest.head?.any isNamePart := by
  rw [isGlobalAt]

theorem isGlobalAt_cons {c : Char} (h : c ≠ '-') (rest : List Char) :
    isGlobalAt (c :: rest) = startsGlobalName c := by
  rw [isGlobalAt]
  · rfl
  · exact fun tail htail => h (List.cons.inj htail).1

/-- Quotes and backslashes are names of global variables with and without the backslash that the
escaping puts before them, so only the mark of an interpolation makes a difference. -/
theorem isGlobalAt_written {cs : List Char} (h : ∀ tail, cs ≠ '#' :: '\x7b' :: tail)
    (rest : List Char) : isGlobalAt (escape cs ++ '"' :: rest) = isGlobalAt (cs ++ ['"']) := by
  cases cs with
  | nil => rfl
  | cons c cs =>
    rcases escape_cons_cases c cs with ⟨rfl | rfl, hc⟩ | ⟨tail, rfl, rfl, -⟩ | ⟨-, -, hc⟩
    · rw [hc]
      rfl
    · rw [hc]
      rfl
    · exact absurd rfl (h tail)
    · rw [hc, List.cons_append, List.cons_append]
      by_cases hminus : c = '-'
      · rw [hminus, isGlobalAt_minus, isGlobalAt_minus,
          any_head?_written (by decide) (by decide) (by decide)]
        cases cs with
        | nil => rfl
        | cons d ds => rfl
      · rw [isGlobalAt_cons hminus, isGlobalAt_cons hminus]

/-- Nothing but a brace, `$` and `@` makes an interpolation of a sharp before it. -/
theorem interpolatesBefore_other {c : Char} (hbrace : c ≠ '\x7b') (hdollar : c ≠ '$')
    (hat : c ≠ '@') (rest : List Char) : interpolatesBefore (c :: rest) = false := by
  rw [interpolatesBefore] <;> simp_all

theorem startsVariable_other {c : Char} (hdollar : c ≠ '$') (hat : c ≠ '@') (rest : List Char) :
    startsVariable (c :: rest) = false := by
  rw [startsVariable] <;> simp_all

/-- Behind `@` the escaping makes no difference. -/
theorem interpolatesBefore_at_written (cs rest : List Char) :
    interpolatesBefore ('@' :: (escape cs ++ '"' :: rest)) = startsVariable ('@' :: cs) := by
  cases cs with
  | nil => rfl
  | cons c cs =>
    rcases escape_cons_cases c cs with ⟨rfl | rfl, hc⟩ | ⟨tail, rfl, rfl, hc⟩ | ⟨-, -, hc⟩
    · rw [hc]
      rfl
    · rw [hc]
      rfl
    · rw [hc]
      rfl
    rw [hc, List.cons_append]
    by_cases hat : c = '@'
    · subst hat
      rw [interpolatesBefore, startsVariable, isNameAt_written]
    · have hfirst : ∀ cs : List Char, interpolatesBefore ('@' :: c :: cs) = startsName c := by
        intro cs
        rw [interpolatesBefore]
        · rfl
        · exact fun tail htail => hat (List.cons.inj htail).1
      have hsecond : startsVariable ('@' :: c :: cs) = startsName c := by
        rw [startsVariable]
        · rfl
        · exact fun tail htail => hat (List.cons.inj htail).1
      rw [hfirst, hsecond]

/-- A sharp that is written as it stands begins an interpolation exactly before a variable. -/
theorem interpolatesBefore_written {cs : List Char} (h : cs.head? ≠ some '\x7b')
    (rest : List Char) : interpolatesBefore (escape cs ++ '"' :: rest) = startsVariable cs := by
  cases cs with
  | nil => rfl
  | cons c cs =>
    rcases escape_cons_cases c cs with ⟨rfl | rfl, hc⟩ | ⟨tail, rfl, rfl, hc⟩ | ⟨-, -, hc⟩
    · rw [hc]
      rfl
    · rw [hc]
      rfl
    · rw [hc]
      rfl
    rw [hc, List.cons_append]
    by_cases hdollar : c = '$'
    · subst hdollar
      by_cases hmark : ∃ tail, cs = '#' :: '\x7b' :: tail
      · obtain ⟨tail, rfl⟩ := hmark
        rw [escape_sharp_brace]
        rfl
      · have hmark : ∀ tail, cs ≠ '#' :: '\x7b' :: tail := fun tail htail => hmark ⟨tail, htail⟩
        rw [interpolatesBefore, isGlobalAt_written hmark, startsVariable]
        exact hmark
    by_cases hat : c = '@'
    · subst hat
      exact interpolatesBefore_at_written cs rest
    · have hbrace : c ≠ '\x7b' := fun hc => h (congrArg some hc)
      rw [interpolatesBefore_other hbrace hdollar hat, startsVariable_other hdollar hat]

/-! ## A field as Ruby reads it -/

/-- A field without a variable comes back as it is, and its literal ends where it was ended. -/
theorem readInside_escape {cs : List Char} (h : embedsVariable cs = false) (rest : List Char) :
    readInside (escape cs ++ '"' :: rest) = .closed cs rest := by
  induction cs with
  | nil => rfl
  | cons c cs ih =>
    rcases escape_cons_cases c cs with ⟨hspecial, hc⟩ | ⟨tail, rfl, rfl, hc⟩ |
      ⟨hspecial, hbrace, hc⟩
    · have hplain : c ≠ '#' := by
        rintro rfl
        exact absurd hspecial (by decide)
      rw [embedsVariable_plain hplain] at h
      rw [hc, List.cons_append, List.cons_append, readInside_backslash, ih h]
      rfl
    · rw [embedsVariable_sharp, Bool.or_eq_false_iff] at h
      rw [hc, List.cons_append, List.cons_append, readInside_backslash, ih h.2]
      rfl
    rw [hc, List.cons_append]
    by_cases hsharp : c = '#'
    · subst hsharp
      have hhead : cs.head? ≠ some '\x7b' := fun hh => hbrace ⟨rfl, hh⟩
      rw [embedsVariable_sharp, Bool.or_eq_false_iff] at h
      rw [readInside_sharp, interpolatesBefore_written hhead, h.1, ih h.2]
      rfl
    · rw [embedsVariable_plain hsharp] at h
      rw [readInside_plain hspecial hsharp, ih h]
      rfl

/-- A field with a variable never comes back: the reading stops at an interpolation. -/
theorem readInside_escape_of_embedsVariable {cs : List Char} (h : embedsVariable cs = true)
    (rest : List Char) :
    ∃ before tail, readInside (escape cs ++ '"' :: rest) = .interpolated before tail := by
  induction cs with
  | nil => exact absurd h (by decide)
  | cons c cs ih =>
    rcases escape_cons_cases c cs with ⟨hspecial, hc⟩ | ⟨tail, rfl, rfl, hc⟩ |
      ⟨hspecial, hbrace, hc⟩
    · have hplain : c ≠ '#' := by
        rintro rfl
        exact absurd hspecial (by decide)
      rw [embedsVariable_plain hplain] at h
      obtain ⟨before, found, hread⟩ := ih h
      refine ⟨c :: before, found, ?_⟩
      rw [hc, List.cons_append, List.cons_append, readInside_backslash, hread]
      rfl
    · rw [embedsVariable_sharp, Bool.or_eq_true] at h
      -- no variable begins with a brace, so it stands further on
      obtain ⟨before, found, hread⟩ := ih (h.resolve_left (by simp [startsVariable]))
      refine ⟨'#' :: before, found, ?_⟩
      rw [hc, List.cons_append, List.cons_append, readInside_backslash, hread]
      rfl
    rw [hc, List.cons_append]
    by_cases hsharp : c = '#'
    · subst hsharp
      have hhead : cs.head? ≠ some '\x7b' := fun hh => hbrace ⟨rfl, hh⟩
      rw [readInside_sharp, interpolatesBefore_written hhead]
      cases hstarts : startsVariable cs with
      | true => exact ⟨[], _, rfl⟩
      | false =>
        rw [embedsVariable_sharp, hstarts, Bool.false_or] at h
        obtain ⟨before, found, hread⟩ := ih h
        refine ⟨'#' :: before, found, ?_⟩
        rw [hread]
        rfl
    · rw [embedsVariable_plain hsharp] at h
      obtain ⟨before, found, hread⟩ := ih h
      refine ⟨c :: before, found, ?_⟩
      rw [readInside_plain hspecial hsharp, hread]
      rfl

/-- **A field reads back exactly if it embeds no variable**, whatever follows its literal. -/
theorem readInside_escape_iff (cs rest : List Char) :
    readInside (escape cs ++ '"' :: rest) = .closed cs rest ↔ embedsVariable cs = false := by
  refine ⟨fun hread => ?_, fun h => readInside_escape h rest⟩
  cases h : embedsVariable cs with
  | false => rfl
  | true =>
    obtain ⟨before, tail, hinter⟩ := readInside_escape_of_embedsVariable h rest
    rw [hinter] at hread
    exact Reading.noConfusion hread

/-! ## The fields of a Vagrantfile -/

/-- Does Ruby read every quoted field of a Vagrantfile as it is, each literal up to the quote that
the renderer put behind it? -/
def ReadsExactly (version : String) (s : ProfileSet) : Prop :=
  ∀ before field after, pieces version s = before ++ .quoted field :: after →
    ∃ inside, (render version s).toList = chars before ++ '"' :: inside ∧
      readInside inside = .closed field.toList (chars after)

/-- The text around a field. -/
theorem toList_render_eq {version : String} {s : ProfileSet} {before after : List Piece}
    {field : String} (h : pieces version s = before ++ .quoted field :: after) :
    (render version s).toList =
      chars before ++ '"' :: (escape field.toList ++ '"' :: chars after) := by
  rw [← chars_pieces, h, chars_append, chars_cons, Piece.chars_quoted, toList_literal,
    List.cons_append, List.append_assoc, List.singleton_append]

/-- Every field of a profile stands somewhere. -/
theorem mem_quotedFields_iff {version : String} {s : ProfileSet} {field : String} :
    field ∈ s.profiles.flatMap quotedFields ↔
      ∃ before after, pieces version s = before ++ .quoted field :: after := by
  rw [← quotedTexts_pieces version, quotedTexts, List.mem_filterMap]
  constructor
  · rintro ⟨piece, hmem, hquoted⟩
    cases piece with
    | code text => cases hquoted
    | quoted text =>
      obtain rfl := Option.some.inj hquoted
      exact List.append_of_mem hmem
  · rintro ⟨before, after, h⟩
    exact ⟨.quoted field, h ▸ List.mem_append_right _ List.mem_cons_self, rfl⟩

/-- A set of profiles reads exactly if none of its fields embeds a variable. -/
theorem readsExactly_iff_forall (version : String) (s : ProfileSet) :
    ReadsExactly version s ↔
      ∀ field ∈ s.profiles.flatMap quotedFields, embedsVariable field.toList = false := by
  constructor
  · intro h field hmem
    obtain ⟨before, after, hpieces⟩ := mem_quotedFields_iff.mp hmem
    obtain ⟨inside, htext, hread⟩ := h before field after hpieces
    rw [toList_render_eq hpieces] at htext
    obtain rfl := (List.cons.inj (List.append_cancel_left htext)).2
    exact (readInside_escape_iff _ _).mp hread
  · intro h before field after hpieces
    have hfield := h field (mem_quotedFields_iff.mpr ⟨before, after, hpieces⟩)
    exact ⟨_, toList_render_eq hpieces, readInside_escape hfield (chars after)⟩

/-! ## The profiles of a project

All their fields are fixed but for the host path of the workspace. -/

/-- The fields that do not depend on the settings. -/
def fixedFields : List String :=
  ["osx", osxBox, "linux", linuxBox, "install_dependencies", "shell",
    Settings.scriptPath "install_dependencies.sh", "moqt_setup", "shell",
    Settings.scriptPath "moqt_setup.sh"]

theorem quotedFields_declared (folders : List SharedFolder) :
    (declaredProfiles (linuxProfile folders)).profiles.flatMap quotedFields =
      fixedFields ++ folders.flatMap fun f => [f.hostPath, f.guestPath] := by
  simp [declaredProfiles, osxProfile, linuxProfile, linuxSteps, quotedFields, fixedFields,
    StepKind.name]

/-- Declared profiles read exactly if no host path embeds a variable. -/
theorem readsExactly_declared_iff (version : String) {home : String} {workspace : Workspace}
    {folders : List SharedFolder} (h : workspace.folders home = .ok folders) :
    ReadsExactly version (declaredProfiles (linuxProfile folders)) ↔
      ∀ folder ∈ folders, embedsVariable folder.hostPath.toList = false := by
  have hfixed : ∀ field ∈ fixedFields, embedsVariable field.toList = false := by decide +kernel
  have hguest : embedsVariable workspaceGuestPath.toList = false := by decide +kernel
  rw [readsExactly_iff_forall, quotedFields_declared]
  constructor
  · intro hall folder hmem
    have hfield : folder.hostPath ∈ folders.flatMap fun f => [f.hostPath, f.guestPath] :=
      List.mem_flatMap.mpr ⟨folder, hmem, List.mem_cons_self⟩
    exact hall _ (List.mem_append_right _ hfield)
  · intro hall field hmem
    rcases List.mem_append.mp hmem with hmem | hmem
    · exact hfixed field hmem
    · obtain ⟨folder, hfolder, hfield⟩ := List.mem_flatMap.mp hmem
      rcases List.mem_pair.mp hfield with rfl | rfl
      · exact hall folder hfolder
      · rw [guestPath_of_mem_folders h hfolder]
        exact hguest

/-- What is left of a result when its failure is forgotten tells the result. -/
theorem eq_ok_of_toOption {ε α : Type} {x : Except ε α} {a : α} (h : x.toOption = some a) :
    x = .ok a := by
  cases x with
  | error fault => cases h
  | ok b => exact congrArg Except.ok (Option.some.inj h)

/-- **Exactly the fields without variables are safe from Ruby**: a set of profiles reads as it is if
and only if no field embeds one, and for the profiles of a project that is a matter of the host path
alone. -/
theorem readsExactly_iff_embedsNoVariable (version : String) :
    (∀ s, ReadsExactly version s ↔
      ∀ field ∈ s.profiles.flatMap quotedFields, embedsVariable field.toList = false) ∧
    ∀ setting audience s profiles t,
      (Session.declareProfiles setting audience).perform s = (.ok profiles, t) →
      (ReadsExactly version profiles ↔ ∀ profile ∈ profiles.profiles,
        ∀ folder ∈ profile.folders, embedsVariable folder.hostPath.toList = false) := by
  refine ⟨readsExactly_iff_forall version, fun setting audience s profiles t h => ?_⟩
  rw [perform_declareProfiles] at h
  split at h
  · next folders hfolders =>
    obtain rfl := Except.ok.inj (congrArg Prod.fst h)
    rw [readsExactly_declared_iff version hfolders]
    simp [declaredProfiles, osxProfile, linuxProfile]
  · cases h

theorem readsExactly_plainPath :
    ∃ profiles t, (Session.declareProfiles (some (.text "/srv/work")) .nobody).perform default =
        (.ok profiles, t) ∧ ReadsExactly "0.1.0" profiles := by
  have hfolders : (Workspace.ofSetting (some (.text "/srv/work"))).folders
      (default : Session).environment.home = .ok [⟨"/srv/work", workspaceGuestPath⟩] :=
    eq_ok_of_toOption (by decide +kernel)
  have hrun := perform_declareProfiles_ok hfolders .nobody
  refine ⟨_, _, hrun, ((readsExactly_iff_embedsNoVariable "0.1.0").2 _ _ _ _ _ hrun).mpr ?_⟩
  decide +kernel

/-- A path with a dollar sign behind a sharp is accepted, and Ruby interpolates. -/
theorem not_readsExactly_variablePath :
    ∃ profiles t, (Session.declareProfiles (some (.text "/srv/#$work")) .nobody).perform default =
        (.ok profiles, t) ∧ ¬ ReadsExactly "0.1.0" profiles := by
  have hfolders : (Workspace.ofSetting (some (.text "/srv/#$work"))).folders
      (default : Session).environment.home = .ok [⟨"/srv/#$work", workspaceGuestPath⟩] :=
    eq_ok_of_toOption (by decide +kernel)
  refine ⟨_, _, perform_declareProfiles_ok hfolders .nobody, fun hreads => ?_⟩
  have hnone := (readsExactly_declared_iff "0.1.0" hfolders).mp hreads _ List.mem_cons_self
  exact absurd hnone (by decide +kernel)

end Vagrantfile
end DevMachines
