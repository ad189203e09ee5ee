import DevMachines.Proofs.Session.Alike
import DevMachines.Proofs.Session.Resolving
import DevMachines.Proofs.Settings.Copies

/-!
# A project with a copy of its shipped defaults

Of two sessions that are alike otherwise, one has a copy of the shipped defaults for its own settings,
and the other has no settings of its own.  They cannot be told apart by what is done with the settings:
loading fails in both, in the same way, or the settings are the same but for the number of their
document and for one source more (`meetBy_loadSettings`).

## Why two relations are needed

While the settings are being loaded, the sessions have to differ in that one file (`DiffersByCopy`),
and the log must not write there.  Once they have been loaded nobody looks at the files any more, and
it is enough that the sessions are alike: the file is just one more place that may differ.  Results,
on the other hand, are equal except here, so `MeetBy` allows them to be related, and from the
declaration of the profiles on they meet as before (`MeetBy.bind`).
-/

namespace DevMachines

/-! ## What is read of a file -/

namespace Settings

variable {files : FileTree} {here path : Path} {place : Place}

/-- What is read under a path is what the file holds at the place that the path leads to. -/
theorem readChars_eq_ok_iff {octets : Text.Octets} (hnul : path.hasNul = false)
    (hplace : files.destination here path = .ok place)
    (hfile : files.get? place = some (.file octets)) (chars : List Char) :
    readChars files here path = .ok (some chars) ↔
      (Text.decode octets).map Text.unifyLineEnds = .ok chars := by
  have hfind : files.find here path = .ok (.file octets) := by
    rw [FileTree.find, hplace]
    simp only [bind, Except.bind, hfile]
    rfl
  have hthere : files.contains here path = .ok true :=
    FileTree.contains_of_isSome hnul hplace (Option.isSome_iff_exists.mpr ⟨_, hfile⟩)
  have hread : files.read here path = .ok octets := by
    rw [FileTree.read, hfind]
    rfl
  rw [readChars, hthere]
  dsimp only
  rw [hread]
  dsimp only
  cases Text.decode octets with
  | error fault => constructor <;> intro h <;> cases h
  | ok decoded =>
    constructor
    · intro h
      rw [← Option.some.inj (Except.ok.inj h), Except.map]
    · intro h
      rw [← Except.ok.inj h]

/-- Where there is nothing, nothing is read. -/
theorem readChars_eq_none (hplace : files.destination here path = .ok place)
    (hnone : files.get? place = none) : readChars files here path = .ok none := by
  have hfind : files.find here path = .error .notFound := by
    rw [FileTree.find, hplace]
    simp only [bind, Except.bind, hnone]
    rfl
  have hthere : files.contains here path = .ok false := by
    rw [FileTree.contains, hfind]
    split <;> rfl
  rw [readChars, hthere]

/-- A file can be asked for, whatever it holds. -/
theorem readChars_ne_path {octets : Text.Octets} (hnul : path.hasNul = false)
    (hplace : files.destination here path = .ok place)
    (hfile : files.get? place = some (.file octets)) (fault : FileFault) (p : Path) :
    readChars files here path ≠ .error (.path fault p) := by
  have hthere := FileTree.contains_of_isSome hnul hplace (Option.isSome_iff_exists.mpr ⟨_, hfile⟩)
  intro h
  rw [readChars, hthere] at h
  dsimp only at h
  split at h
  · cases h
  · split at h <;> cases h

end Settings

namespace Session

open Activity Settings

/-! ## Loading that succeeds, and loading that fails -/

section Loading

variable {number : Nat} {path : Path} {isRequired : Bool} {s t : Session} {chars : List Char}
  {document : Document}

theorem perform_loadDocument_found (hpending : s.interruptPending = false)
    (hread : readChars s.files s.environment.workingDirectory path = .ok (some chars))
    (htext : Document.ofText number path chars = .ok document) :
    (loadDocument number path isRequired).perform s =
      (.ok (some document), s.notedAll (loadEvents path (some document))) := by
  rw [perform_loadDocument, hread, hpending]
  dsimp only
  rw [if_neg Bool.false_ne_true, htext]

theorem perform_loadDocument_absent
    (hread : readChars s.files s.environment.workingDirectory path = .ok none) :
    (loadDocument number path false).perform s = (.ok none, s.notedAll (loadEvents path none)) := by
  rw [perform_loadDocument, hread]
  rfl

/-- A document that has been loaded is the one of the text that was read. -/
theorem exists_text_of_loadDocument
    (h : (loadDocument number path isRequired).perform s = (.ok (some document), t)) :
    s.interruptPending = false ∧ ∃ chars,
      readChars s.files s.environment.workingDirectory path = .ok (some chars) ∧
      Document.ofText number path chars = .ok document := by
  rw [perform_loadDocument] at h
  split at h
  · cases h
  · cases isRequired <;> cases h
  · next chars hread =>
    split at h
    · cases h
    · next hpending =>
      split at h
      · cases h
      · next read htext =>
        cases h
        exact ⟨Bool.eq_false_iff.mpr hpending, chars, hread, htext⟩

/-- What loading fails with. -/
theorem cases_of_loadDocument_error {failure : Failure}
    (h : (loadDocument number path isRequired).perform s = (.error failure, t)) :
    (∃ fault, failure = .document fault) ∨ (∃ fault, failure = .value fault) ∨
      failure = .interrupted ∨
      ∃ fault p, readChars s.files s.environment.workingDirectory path = .error (.path fault p) := by
  rw [perform_loadDocument] at h
  split at h
  · next fault hread =>
    cases h
    cases fault with
    | path f p => exact Or.inr (Or.inr (Or.inr ⟨f, p, hread⟩))
    | document f => exact Or.inl ⟨f, rfl⟩
    | value f => exact Or.inr (Or.inl ⟨f, rfl⟩)
  · cases isRequired with
    | true =>
      cases h
      exact Or.inl ⟨_, rfl⟩
    | false => cases h
  · next chars hread =>
    split at h
    · cases h
      exact Or.inr (Or.inr (Or.inl rfl))
    · split at h
      · next fault htext =>
        cases h
        cases fault with
        | path f p => exact absurd htext (ofText_ne_path f p)
        | document f => exact Or.inl ⟨f, rfl⟩
        | value f => exact Or.inr (Or.inl ⟨f, rfl⟩)
      · cases h

end Loading

/-! ## Sessions that differ by the copy -/

/-- A copy of the shipped defaults: in which project, from where to where, and what it holds. -/
structure Copy where
  directory : Path
  source : Place
  target : Place
  octets : Text.Octets

namespace Copy

variable (copy : Copy)

/-- The path of the shipped defaults. -/
def defaults : Path := copy.directory.child defaultsName

/-- The path of the user's own settings. -/
def overrides : Path := copy.directory.child overridesName

end Copy

/-- Is the copy there, beside what it is a copy of? -/
structure Copy.IsIn (copy : Copy) (files : FileTree) (here : Path) : Prop where
  noNul : copy.overrides.hasNul = false
  origin : files.destination here copy.defaults = .ok copy.source
  destination : files.destination here copy.overrides = .ok copy.target
  shipped : files.get? copy.source = some (.file copy.octets)
  copied : files.get? copy.target = some (.file copy.octets)

/-- The two documents are in one directory, so the path of one is as good as that of the other. -/
theorem Copy.IsIn.noNul_defaults {copy : Copy} {files : FileTree} {here : Path}
    (h : copy.IsIn files here) : copy.defaults.hasNul = false := by
  have hnul := h.noNul
  rw [overrides, Path.hasNul, Path.child, List.any_append, Bool.or_eq_false_iff] at hnul
  rw [defaults, Path.hasNul, Path.child, List.any_append, hnul.1, Bool.false_or]
  decide

/-- Is a failure one of the shipped defaults: a fault that names them, a value that they name and that
does not exist, or an interruption while they are read? -/
def Copy.IsOfDefaults (copy : Copy) (failure : Failure) : Prop :=
  (∃ fault, failure = .document fault ∧ fault.path = copy.defaults) ∨
    (∃ fault, failure = .value fault) ∨ failure = .interrupted

/-- Of two sessions that are alike, does the first one have a copy of its shipped defaults for the
user's own settings, while the second one has none? -/
structure DiffersByCopy (c : Common) (copy : Copy) (s t : Session) : Prop where
  alike : Alike c s t
  reads : c.reads copy.defaults
  isIn : copy.IsIn s.files s.environment.workingDirectory
  missing : t.files.get? copy.target = none
  firstLogs : ¬ s.IsLogPlace copy.target
  secondLogs : ¬ t.IsLogPlace copy.target

/-- Are the settings the shipped ones, read from the copy? -/
structure IsFromCopy (copy : Copy) (settings shipped : MergedSettings) : Prop where
  entries : settings.entries = Entries.inDocument 1 shipped.entries
  sources : settings.sources = [copy.defaults, copy.overrides]
  shipped : shipped.sources = [copy.defaults]

section DiffersByCopy

variable {α β γ : Type} {c : Common} {copy : Copy} {s s' t t' : Session}

/-- Sessions go on to differ by the copy while files change only where records go. -/
theorem DiffersByCopy.of_onlyLogs (h : DiffersByCopy c copy s t) (hs : OnlyLogs s s')
    (ht : OnlyLogs t t') (halike : Alike c s' t') : DiffersByCopy c copy s' t' := by
  have hsource : ¬ s.IsLogPlace copy.source := fun hlog =>
    h.alike.avoids _ h.reads _ h.isIn.origin (h.alike.firstLogs _ hlog)
  refine ⟨halike, h.reads, ⟨h.isIn.noNul, ?_, ?_, ?_, ?_⟩, ?_, ?_, ?_⟩
  · rw [hs.environment, hs.files.destination_eq_ok_iff]
    exact h.isIn.origin
  · rw [hs.environment, hs.files.destination_eq_ok_iff]
    exact h.isIn.destination
  · rw [hs.files.get?_eq _ hsource, h.isIn.shipped]
  · rw [hs.files.get?_eq _ h.firstLogs, h.isIn.copied]
  · rw [ht.files.get?_eq _ h.secondLogs, h.missing]
  · exact fun hlog => h.firstLogs ((hs.isLogPlace_iff _).mp hlog)
  · exact fun hlog => h.secondLogs ((ht.isLogPlace_iff _).mp hlog)

/-! ## Results that are related -/

/-- Is there the same failure twice, or are there two results that are related? -/
inductive ResultsBy (R : α → β → Prop) : Except Failure α → Except Failure β → Prop
  | failed (failure : Failure) : ResultsBy R (.error failure) (.error failure)
  | done {x : α} {y : β} (h : R x y) : ResultsBy R (.ok x) (.ok y)

/-- Are two results related, and the sessions afterwards alike? -/
structure MeetBy (c : Common) (R : α → β → Prop) (first : Except Failure α × Session)
    (second : Except Failure β × Session) : Prop where
  result : ResultsBy R first.1 second.1
  after : Alike c first.2 second.2

variable {R : α → β → Prop}

/-- What goes on in the same way from related results comes to the same. -/
theorem MeetBy.bind {a : Activity α} {b : Activity β} {f : α → Activity γ} {g : β → Activity γ}
    (h : MeetBy c R (a.perform s) (b.perform t)) (hf : ∀ x y, R x y → Agrees c (f x) (g y)) :
    Meet c ((a >>= f).perform s) ((b >>= g).perform t) := by
  obtain ⟨hresult, hafter⟩ := h
  rw [perform_bind, perform_bind]
  generalize a.perform s = first at hresult hafter
  generalize b.perform t = second at hresult hafter
  obtain ⟨result, s'⟩ := first
  obtain ⟨other, t'⟩ := second
  cases hresult with
  | failed failure => exact ⟨rfl, hafter⟩
  | done hxy => exact hf _ _ hxy s' t' hafter

/-- What comes to related results after the same comes to related results. -/
theorem Meet.bindBy {a b : Activity γ} {f : γ → Activity α} {g : γ → Activity β}
    (h : Meet c (a.perform s) (b.perform t))
    (hf : ∀ z s t, Alike c s t → MeetBy c R ((f z).perform s) ((g z).perform t)) :
    MeetBy c R ((a >>= f).perform s) ((b >>= g).perform t) := by
  obtain ⟨hresult, hafter⟩ := h
  rw [perform_bind, perform_bind]
  generalize a.perform s = first at hresult hafter
  generalize b.perform t = second at hresult hafter
  obtain ⟨result, s'⟩ := first
  obtain ⟨other, t'⟩ := second
  obtain rfl : other = result := hresult
  cases other with
  | error failure => exact ⟨.failed failure, hafter⟩
  | ok z => exact hf z s' t' hafter

theorem meetBy_pure (h : Alike c s t) {x : α} {y : β} (hxy : R x y) :
    MeetBy c R ((pure x : Activity α).perform s) ((pure y : Activity β).perform t) :=
  ⟨.done hxy, h⟩

theorem meetBy_throw (h : Alike c s t) (failure : Failure) :
    MeetBy c R ((throw failure : Activity α).perform s) ((throw failure : Activity β).perform t) :=
  ⟨.failed failure, h⟩

/-- What is done as an operation comes to what it comes to without. -/
theorem meetBy_operation (name : String) (context : Log.Fields)
    {body : Log.Fields → Activity α} {other : Log.Fields → Activity β}
    (h : DiffersByCopy c copy s t)
    (hbody : ∀ fields s t, DiffersByCopy c copy s t →
      MeetBy c R ((body fields).perform s) ((other fields).perform t)) :
    MeetBy c R ((operation name context body).perform s)
      ((operation name context other).perform t) := by
  rw [operation, operation]
  cases hnames : takenField context with
  | some field =>
    rw [perform_operationOn_refused hnames, perform_operationOn_refused hnames]
    exact meetBy_throw h.alike _
  | none =>
    obtain ⟨first, hfirst⟩ := perform_operationOn hnames [] name body s
    obtain ⟨second, hsecond⟩ := perform_operationOn hnames [] name other t
    let opening := openingEvent name (operationFields name context)
    have hs := (bookkeeping_onlyLogs .nobody).clock s first
    have ht := (bookkeeping_onlyLogs .nobody).clock t second
    have hopened := h.of_onlyLogs
      (isChained_onlyLogs.trans hs (onlyLogs_noted _ opening))
      (isChained_onlyLogs.trans ht (onlyLogs_noted _ opening))
      ((h.alike.clock first second).noted opening opening)
    obtain ⟨hresult, hafter⟩ := hbody (operationFields name context) _ _ hopened
    obtain ⟨first', _, hdone⟩ := hfirst _ _ rfl
    obtain ⟨second', _, hdone'⟩ := hsecond _ _ rfl
    rw [hdone, hdone']
    exact ⟨hresult, (hafter.clock first' second').notedAll _ _⟩

/-! ## Resolving the settings -/

theorem IsFromCopy.get? {settings shipped : MergedSettings} (h : IsFromCopy copy settings shipped)
    (key : String) : settings.get? key = (shipped.get? key).map (·.inDocument 1) := by
  rw [Merged.get?, h.entries, lookup_inDocument, Merged.get?]

/-- The same expected keys are missing. -/
theorem agrees_reportMissing_copy {settings shipped : MergedSettings}
    (h : IsFromCopy copy settings shipped) (audience : Audience) (expected : List String) :
    Agrees c (reportMissing audience settings expected) (reportMissing audience shipped expected) := by
  induction expected with
  | nil => exact agrees_pure ()
  | cons key expected ih =>
    have hkey : (settings.get? key).isNone = (shipped.get? key).isNone := by
      rw [h.get?, Option.isNone_map]
    rw [reportMissing, reportMissing, hkey]
    split
    · exact (agrees_emit _ _).bind fun _ => (agrees_tell _ _).bind fun _ => ih
    · exact ih

/-- The second session finds no settings of the user's own. -/
theorem DiffersByCopy.perform_loadDocument_overrides (h : DiffersByCopy c copy s t) :
    (loadDocument 1 copy.overrides false).perform t =
      (.ok none, t.notedAll (loadEvents copy.overrides none)) := by
  refine perform_loadDocument_absent (readChars_eq_none ?_ h.missing)
  rw [h.alike.workingDirectory, h.alike.files.destination_eq_ok_iff]
  exact h.isIn.destination

/-- Of the shipped defaults both sessions load the same, and they go on to differ by the copy. -/
theorem DiffersByCopy.loadDocument_defaults (h : DiffersByCopy c copy s t) :
    ∃ result s₁ t₁, (loadDocument 0 copy.defaults true).perform s = (result, s₁) ∧
      (loadDocument 0 copy.defaults true).perform t = (result, t₁) ∧ DiffersByCopy c copy s₁ t₁ := by
  have honly := keeps_loadDocument (bookkeeping_onlyLogs .nobody) 0 copy.defaults true
  have hs := honly s
  have ht := honly t
  have hmeet := agrees_loadDocument 0 h.reads true s t h.alike
  generalize (loadDocument 0 copy.defaults true).perform s = first at hs hmeet ⊢
  generalize (loadDocument 0 copy.defaults true).perform t = second at ht hmeet ⊢
  obtain ⟨result, s₁⟩ := first
  obtain ⟨result', t₁⟩ := second
  obtain ⟨hsame, halike⟩ := hmeet
  obtain rfl : result' = result := hsame
  exact ⟨result', s₁, t₁, rfl, rfl, h.of_onlyLogs hs ht halike⟩

/-- **Resolving comes to the shipped settings in both sessions**, or fails in both. -/
theorem meetBy_resolve (h : DiffersByCopy c copy s t) (expected : List String)
    (audience : Audience) :
    MeetBy c (IsFromCopy copy)
      ((resolve copy.defaults copy.overrides expected audience).perform s)
      ((resolve copy.defaults copy.overrides expected audience).perform t) := by
  obtain ⟨result, s₁, t₁, hfirst, hother, hnext⟩ := h.loadDocument_defaults
  cases result with
  | error failure =>
    rw [perform_resolve_of_first_error hfirst, perform_resolve_of_first_error hother]
    exact ⟨.failed failure, hnext.alike⟩
  | ok loaded =>
    obtain ⟨document, rfl⟩ := exists_of_loadDocument hfirst
    obtain ⟨hpending, chars, hread, htext⟩ := exists_text_of_loadDocument hfirst
    obtain ⟨own, hown, hentries⟩ := exists_ofText_inDocument htext 1 copy.overrides
    -- the copy is read as the defaults were
    have hchars := (readChars_eq_ok_iff h.isIn.noNul_defaults h.isIn.origin h.isIn.shipped chars).mp hread
    have hcopied : (loadDocument 1 copy.overrides false).perform s₁ =
        (.ok (some own), s₁.notedAll (loadEvents copy.overrides (some own))) := by
      refine perform_loadDocument_found ?_ ?_ hown
      · rw [eq_notedAll_of_loadDocument hfirst, interruptPending_notedAll, hpending]
      · have hown := readChars_eq_ok_iff h.isIn.noNul hnext.isIn.destination hnext.isIn.copied chars
        exact hown.mpr hchars
    have hmissing := hnext.perform_loadDocument_overrides
    have hfrom : IsFromCopy copy
        (mergeDocuments copy.defaults copy.overrides document.entries (some own.entries))
        (mergeDocuments copy.defaults copy.overrides document.entries none) := by
      refine ⟨?_, rfl, rfl⟩
      rw [mergeDocuments, mergeDocuments, hentries]
      exact overlay_of_keys_eq (nodup_keys_of_loadDocument hfirst) (keys_inDocument 1 _)
    rw [resolve, perform_bind_ok hfirst, perform_bind_ok hcopied, perform_bind_ok hother,
      perform_bind_ok hmissing]
    exact (agrees_reportMissing_copy hfrom audience expected _ _ (hnext.alike.notedAll _ _)).bindBy
      fun _ _ _ hreported => meetBy_pure hreported hfrom

/-- A failure of resolving is one of the shipped defaults, also in the session that has a copy of
them. -/
theorem isOfDefaults_of_resolve_error (h : DiffersByCopy c copy s t) (expected : List String)
    (audience : Audience) {failure : Failure}
    (hfailure : ((resolve copy.defaults copy.overrides expected audience).perform s).1 =
      .error failure) : copy.IsOfDefaults failure := by
  have hother : ((resolve copy.defaults copy.overrides expected audience).perform t).1 =
      .error failure := by
    have hresult := (meetBy_resolve h expected audience).result
    rw [hfailure] at hresult
    generalize ((resolve copy.defaults copy.overrides expected audience).perform t).1 = result
      at hresult
    cases hresult
    rfl
  obtain ⟨result, s₁, t₁, hfirst, hsecond, hnext⟩ := h.loadDocument_defaults
  have hmissing := hnext.perform_loadDocument_overrides
  rcases (resolve_eq_error_iff hsecond hmissing failure).mp hother with rfl | ⟨-, hnone⟩
  · rcases cases_of_loadDocument_error hfirst with ⟨fault, rfl⟩ | hvalue | hended | ⟨fault, p, hpath⟩
    · exact Or.inl ⟨fault, rfl, (path_of_loadDocument_error hfirst).1⟩
    · exact Or.inr (Or.inl hvalue)
    · exact Or.inr (Or.inr hended)
    · exact absurd hpath (readChars_ne_path h.isIn.noNul_defaults h.isIn.origin h.isIn.shipped _ _)
  · cases hnone

section Project

variable {given : Option Path}

/-- Both sessions look for the settings in the project with the copy. -/
theorem meetBy_resolveProject (h : DiffersByCopy c copy s t)
    (hs : Settings.projectRoot c.environment given = .ok copy.directory)
    (ht : Settings.projectRoot c.other given = .ok copy.directory) (expected : List String)
    (audience : Audience) :
    MeetBy c (IsFromCopy copy) ((resolveProject given expected audience).perform s)
      ((resolveProject given expected audience).perform t) := by
  rw [← h.alike.first] at hs
  rw [← h.alike.second] at ht
  rw [perform_resolveProject hs, perform_resolveProject ht]
  have hnoted := onlyLogs_notedAll
  exact meetBy_resolve (h.of_onlyLogs (hnoted s _) (hnoted t _) (h.alike.notedAll _ _)) expected
    audience

/-- A failure that comes out is one of the shipped defaults. -/
theorem isOfDefaults_of_resolveProject_error (h : DiffersByCopy c copy s t)
    (hs : Settings.projectRoot c.environment given = .ok copy.directory) (expected : List String)
    (audience : Audience) {failure : Failure}
    (hfailure : ((resolveProject given expected audience).perform s).1 = .error failure) :
    copy.IsOfDefaults failure := by
  rw [← h.alike.first] at hs
  rw [perform_resolveProject hs] at hfailure
  have hnoted := onlyLogs_notedAll
  exact isOfDefaults_of_resolve_error
    (h.of_onlyLogs (hnoted s _) (hnoted t []) (h.alike.notedAll _ _)) expected audience hfailure

/-- **Loading the settings comes to the shipped ones in both sessions**, or fails in both. -/
theorem meetBy_loadSettings (h : DiffersByCopy c copy s t)
    (hs : Settings.projectRoot c.environment given = .ok copy.directory)
    (ht : Settings.projectRoot c.other given = .ok copy.directory) (audience : Audience) :
    MeetBy c (IsFromCopy copy) ((loadSettings given audience).perform s)
      ((loadSettings given audience).perform t) := by
  have hfirst := perform_projectRoot_ok (h.alike.first ▸ hs)
  have hsecond := perform_projectRoot_ok (h.alike.second ▸ ht)
  rw [loadSettings, perform_bind_ok hfirst, perform_bind_ok hsecond]
  have hnoted := onlyLogs_notedAll
  refine meetBy_operation _ _ (h.of_onlyLogs (hnoted s _) (hnoted t _) (h.alike.notedAll _ _))
    fun _ _ _ hready => ?_
  exact meetBy_resolveProject hready hs ht expectedKeys audience

end Project

/-- **The same profiles are declared**: what the workspace is does not depend on the document that
names it. -/
theorem agrees_declareFrom_copy {settings shipped : MergedSettings}
    (h : IsFromCopy copy settings shipped) (audience : Audience) :
    Agrees c (declareFrom settings audience) (declareFrom shipped audience) := by
  have hsame : declareFrom settings audience = declareFrom shipped audience := by
    rw [declareFrom, declareFrom, h.get?, declareProfiles, declareProfiles, declareLinux,
      declareLinux, ofSetting_inDocument]
  rw [hsame]
  exact agrees_declareFrom shipped audience

end DiffersByCopy
end Session
end DevMachines
