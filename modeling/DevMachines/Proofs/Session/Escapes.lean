import DevMachines.Proofs.Session.Loading
import DevMachines.Proofs.Yaml.Faults

/-!
# What loading a document fails with

Loading should fail with the two faults of settings only, each of which names the document: it is not
there, or it cannot be used.  `loadDocument_fails_or_escapes` says exactly how far that holds.
A file that is no text, a text that is no YAML, a value that is no mapping, a key that is no text, a
directory and a missing file all end in a fault that names the document.

## What escapes

A text can be well-formed and yet have a scalar that makes no value, and that is reported in the
words of the value, without the document (`loadDocument_escapes_impossibleDay`).  The same goes for a
key that is a number too long to be written down, because the fault that names the key cannot be
worded.  A path that is too long cannot even be asked for.
-/

namespace DevMachines

open Settings

/-! ## Faults and the documents they are about -/

namespace Settings

/-- **The report of a fault names the document.** -/
theorem DocumentFault.exists_message_eq (fault : DocumentFault) :
    ∃ front back, fault.message = front ++ fault.path.toText ++ back := by
  cases fault with
  | notFound path => exact ⟨_, "", String.append_empty.symm⟩
  | unreadable path cause => exact ⟨_, _, String.append_assoc⟩
  | notMapping path kind => exact ⟨_, _, String.append_assoc⟩
  | badKeys path keys => exact ⟨_, _, String.append_assoc⟩

/-- What a document says, as a value: null says nothing, and a map says its entries if all its keys
are texts. -/
inductive Says : Value → Document → Prop
  | nothing : Says .null ⟨none, []⟩
  | entries (label : Option Label) (entries : Entries) :
      Says (.map label (entries.map fun (key, v) => (.text key, v))) ⟨label, entries⟩

/-- Entries whose keys are all texts are the entries that are kept. -/
theorem eq_map_textEntries {es : List (Value × Value)} (h : badKeys es = []) :
    es = (textEntries es).map fun (key, v) => (.text key, v) := by
  induction es with
  | nil => rfl
  | cons e es ih =>
    obtain ⟨key, v⟩ := e
    unfold badKeys at h
    cases key with
    | text s => exact congrArg ((.text s, v) :: ·) (ih h)
    | _ => cases h

/-- The document of a value says what the value says. -/
theorem says_of_ofValue {path : Path} {v : Value} {document : Document}
    (h : Document.ofValue path v = .ok document) : Says v document := by
  cases v with
  | null =>
    obtain rfl := Except.ok.inj h
    exact .nothing
  | map label es =>
    rw [Document.ofValue] at h
    split at h
    · next hnone =>
      obtain rfl := Except.ok.inj h
      have hsays := Says.entries label (textEntries es)
      rwa [← eq_map_textEntries hnone] at hsays
    · split at h <;> cases h
  | _ => cases h

variable {files : FileTree} {here path : Path}

/-- The only fault of the question is that the path is too long. -/
theorem eq_nameTooLong_of_contains {fault : FileFault}
    (h : files.contains here path = .error fault) : fault = .nameTooLong := by
  unfold FileTree.contains at h
  split at h
  · cases h
  · split at h <;> cases h
    rfl

theorem readChars_eq_none_iff :
    readChars files here path = .ok none ↔ files.contains here path = .ok false := by
  refine ⟨contains_of_readChars_none, fun h => ?_⟩
  rw [readChars, h]

/-- A file that cannot be read is a fault of the document, and a path that cannot be asked for is a
fault of the path. -/
theorem cases_of_readChars_error {fault : LoadFault}
    (h : readChars files here path = .error fault) :
    (∃ cause, fault = .document (.unreadable path cause) ∧ files.contains here path = .ok true) ∨
      fault = .path .nameTooLong path ∧ files.contains here path = .error .nameTooLong := by
  unfold readChars at h
  split at h
  · next f hcontains =>
    obtain rfl := eq_nameTooLong_of_contains hcontains
    cases h
    exact Or.inr ⟨rfl, hcontains⟩
  · cases h
  · next hthere =>
    left
    split at h
    · cases h
      exact ⟨_, rfl, hthere⟩
    · split at h <;> cases h
      exact ⟨_, rfl, hthere⟩

/-- The class of a fault of a text. -/
theorem kindName_of_ofText {number : Nat} {chars : List Char} {fault : DocumentFault}
    (h : Document.ofText number path chars = .error (.document fault)) :
    fault.kindName = "SettingsParseError" := by
  cases fault with
  | notFound p =>
    unfold Document.ofText at h
    split at h
    · cases h
    · cases h
    · next value hvalue =>
      cases value with
      | map label es =>
        rw [Document.ofValue] at h
        split at h
        · cases h
        · split at h <;> cases h
      | _ => cases h
  | unreadable | notMapping | badKeys => rfl

/-- The document of a text says what the value of the text says. -/
theorem exists_value_of_ofText {number : Nat} {chars : List Char} {document : Document}
    (h : Document.ofText number path chars = .ok document) :
    ∃ value, Yaml.readValue number chars = .ok value ∧ Says value document := by
  unfold Document.ofText at h
  split at h
  · cases h
  · cases h
  · next value hvalue => exact ⟨value, hvalue, says_of_ofValue h⟩

/-- Does a text have a fault that is no fault of the document? -/
inductive TextFault (number : Nat) (chars : List Char) : Yaml.ValueFault → Prop
  /-- A scalar of the text has no value. -/
  | scalar (fault : Yaml.ValueFault) (hvalue : Yaml.readValue number chars = .error fault)
      (hfault : fault ≠ .malformed) : TextFault number chars fault
  /-- A key is no text, and so long a number that it cannot be named. -/
  | key (label : Option Label) (es : List (Value × Value))
      (hvalue : Yaml.readValue number chars = .ok (.map label es))
      (hkey : ∃ key ∈ badKeys es, key.holdsLongInt) : TextFault number chars .tooLong

/-- Behind such a fault is one scalar of the text, or a key that cannot be named. -/
theorem TextFault.comesFromScalar {number : Nat} {chars : List Char} {fault : Yaml.ValueFault}
    (h : TextFault number chars fault) :
    fault ≠ .malformed ∧ (Yaml.ComesFromScalar fault ∨ fault = .tooLong) := by
  cases h with
  | scalar fault hvalue hfault =>
    exact ⟨hfault, Or.inl (Yaml.comesFromScalar_readValue number chars fault hvalue)⟩
  | key => exact ⟨nofun, Or.inr rfl⟩

theorem ofText_eq_value_iff {number : Nat} {chars : List Char} {fault : Yaml.ValueFault} :
    Document.ofText number path chars = .error (.value fault) ↔
      TextFault number chars fault := by
  constructor
  · intro h
    unfold Document.ofText at h
    split at h
    · cases h
    · next f hmalformed hvalue =>
      cases h
      exact .scalar fault hvalue hmalformed
    · next value hvalue =>
      cases value with
      | map label es =>
        rw [Document.ofValue] at h
        split at h
        · cases h
        · split at h <;> cases h
          next hlong => exact .key label es hvalue (List.any_eq_true.mp hlong)
      | _ => cases h
  · intro h
    cases h with
    | scalar fault hvalue hfault =>
      rw [Document.ofText, hvalue]
      cases fault with
      | malformed => exact absurd rfl hfault
      | _ => rfl
    | key label es hvalue hkey =>
      rw [Document.ofText, hvalue]
      obtain ⟨key, hmem, hlong⟩ := hkey
      have hany : (badKeys es).any Value.holdsLongInt = true :=
        List.any_eq_true.mpr ⟨key, hmem, hlong⟩
      show Document.ofValue path (.map label es) = _
      rw [Document.ofValue]
      split
      · next hnone =>
        rw [hnone] at hmem
        cases hmem
      · rw [if_pos hany]

end Settings

/-! ## Loading -/

namespace Session

open Activity

/-- The classes of the faults of settings. -/
def settingsKinds : List String := ["SettingsNotFoundError", "SettingsParseError"]

/-- Is there a file with a text under a path? -/
def HasText (s : Session) (path : Path) (chars : List Char) : Prop :=
  readChars s.files s.environment.workingDirectory path = .ok (some chars)

/-- The failures that leave the loading of a document although they are no fault of settings. -/
inductive Escapes (s : Session) (number : Nat) (path : Path) : Failure → Prop
  | path (h : s.contains path = .error .nameTooLong) :
      Escapes s number path (.file .nameTooLong path.toText)
  | interruption (chars : List Char) (hread : s.HasText path chars)
      (h : s.interruptPending = true) : Escapes s number path .interrupted
  | value (chars : List Char) (fault : Yaml.ValueFault) (hread : s.HasText path chars)
      (h : s.interruptPending = false) (hfault : TextFault number chars fault) :
      Escapes s number path (.value fault)

/-- What escapes is reported under another class. -/
theorem Escapes.kindName_notMem {s : Session} {number : Nat} {path : Path} {failure : Failure}
    (h : Escapes s number path failure) : failure.kindName ∉ settingsKinds := by
  cases h with
  | path =>
    show "OSError" ∉ settingsKinds
    decide
  | interruption => decide
  | value chars fault =>
    cases fault with
    | noSuchCodePoint code =>
      show (if code < 0x80000000 then "ValueError" else "OverflowError") ∉ settingsKinds
      split <;> decide
    | notInteger | tooManyDigits | notNumber | noSuchTime =>
      show "ValueError" ∉ settingsKinds
      decide
    | notTruth word =>
      show "KeyError" ∉ settingsKinds
      decide
    | _ => decide

section Loading

variable {number : Nat} {path : Path} {isRequired : Bool} {s : Session}

/-- What loading comes to, without the session afterwards. -/
theorem result_loadDocument (number : Nat) (path : Path) (isRequired : Bool) (s : Session) :
    ((loadDocument number path isRequired).perform s).1 =
      match readChars s.files s.environment.workingDirectory path with
      | .error fault => .error (Failure.ofLoad fault)
      | .ok none => if isRequired then .error (.document (.notFound path)) else .ok none
      | .ok (some chars) =>
          if s.interruptPending then .error .interrupted
          else
            match Document.ofText number path chars with
            | .error fault => .error (Failure.ofLoad fault)
            | .ok document => .ok (some document) := by
  rw [perform_loadDocument]
  rcases readChars s.files s.environment.workingDirectory path with fault | none | chars
  · rfl
  · cases isRequired <;> rfl
  · dsimp only
    cases s.interruptPending with
    | true => rfl
    | false =>
      rw [if_neg Bool.false_ne_true, if_neg Bool.false_ne_true]
      cases Document.ofText number path chars <;> rfl

theorem result_loadDocument_of_contains (h : s.contains path = .ok false) :
    ((loadDocument number path isRequired).perform s).1 =
      if isRequired then .error (.document (.notFound path)) else .ok none := by
  rw [result_loadDocument, readChars_eq_none_iff.mpr h]

theorem result_loadDocument_of_hasText {chars : List Char} (hread : s.HasText path chars)
    (hpending : s.interruptPending = false) :
    ((loadDocument number path isRequired).perform s).1 =
      match Document.ofText number path chars with
      | .error fault => .error (Failure.ofLoad fault)
      | .ok document => .ok (some document) := by
  rw [result_loadDocument, show readChars _ _ _ = _ from hread, hpending]
  rfl

/-- What is loaded is what the text of the file says. -/
theorem cases_of_result_ok {loaded : Option Document}
    (h : ((loadDocument number path isRequired).perform s).1 = .ok loaded) :
    (loaded = none ∧ s.contains path = .ok false ∧ isRequired = false) ∨
    ∃ document chars value, loaded = some document ∧ s.HasText path chars ∧
      Yaml.readValue number chars = .ok value ∧ Says value document := by
  rw [result_loadDocument] at h
  split at h
  · cases h
  · next hread =>
    cases isRequired with
    | true => cases h
    | false =>
      obtain rfl := Except.ok.inj h
      exact Or.inl ⟨rfl, contains_of_readChars_none hread, rfl⟩
  · next chars hread =>
    split at h
    · cases h
    · split at h
      · cases h
      · next document htext =>
        obtain rfl := Except.ok.inj h
        obtain ⟨value, hvalue, hsays⟩ := exists_value_of_ofText htext
        exact Or.inr ⟨document, chars, value, rfl, hread, hvalue, hsays⟩

/-- A failure of loading is a fault of the document, or one that escapes. -/
theorem cases_of_result_error {failure : Failure}
    (h : ((loadDocument number path isRequired).perform s).1 = .error failure) :
    (failure = .document (.notFound path) ∧ s.contains path = .ok false ∧ isRequired = true) ∨
    (∃ fault, failure = .document fault ∧ fault.path = path ∧ s.contains path = .ok true ∧
      fault.kindName = "SettingsParseError") ∨
    s.Escapes number path failure := by
  rw [result_loadDocument] at h
  split at h
  · next fault hread =>
    obtain rfl := Except.error.inj h
    rcases cases_of_readChars_error hread with ⟨cause, rfl, hthere⟩ | ⟨rfl, hlong⟩
    · exact Or.inr (Or.inl ⟨_, rfl, rfl, hthere, rfl⟩)
    · exact Or.inr (Or.inr (.path hlong))
  · next hread =>
    cases isRequired with
    | true =>
      obtain rfl := Except.error.inj h
      exact Or.inl ⟨rfl, contains_of_readChars_none hread, rfl⟩
    | false => cases h
  · next chars hread =>
    split at h
    · next hpending =>
      obtain rfl := Except.error.inj h
      exact Or.inr (Or.inr (.interruption chars hread hpending))
    · next hpending =>
      have hpending := Bool.eq_false_iff.mpr hpending
      split at h
      · next fault htext =>
        obtain rfl := Except.error.inj h
        cases fault with
        | document fault =>
          have hthere := contains_of_readChars_some hread
          exact Or.inr (Or.inl ⟨fault, rfl, path_of_ofText htext, hthere, kindName_of_ofText htext⟩)
        | value fault =>
          exact Or.inr (Or.inr (.value chars fault hread hpending (ofText_eq_value_iff.mp htext)))
        | path fault p => exact absurd htext (ofText_ne_path fault p)
      · cases h

/-- What escapes does escape. -/
theorem Escapes.result_eq {failure : Failure} (h : s.Escapes number path failure) :
    ((loadDocument number path isRequired).perform s).1 = .error failure := by
  cases h with
  | path hlong =>
    have hread : readChars s.files s.environment.workingDirectory path =
        .error (.path .nameTooLong path) := by
      rw [readChars, show FileTree.contains _ _ _ = _ from hlong]
    rw [result_loadDocument, hread]
    rfl
  | interruption chars hread hpending =>
    rw [result_loadDocument, show readChars _ _ _ = _ from hread, hpending]
    rfl
  | value chars fault hread hpending hfault =>
    rw [result_loadDocument_of_hasText hread hpending, ofText_eq_value_iff.mpr hfault]
    rfl

end Loading

/-- **Loading fails with a fault of settings that names the document, unless something escapes.**
Nothing is loaded exactly if there is no document and none is required; what is loaded is what the
text of the file says; a fault of settings names the document, in its path and in its report, and
says that it is missing exactly if it is.  Any other failure is one of those that escape, each of which
does: its class is none of settings, and if it is of a value, one scalar of the text is behind it, or
a key that cannot be named. -/
theorem loadDocument_fails_or_escapes (number : Nat) (path : Path) (isRequired : Bool)
    (s : Session) :
    let result := ((loadDocument number path isRequired).perform s).1
    (result = .ok none ↔ s.contains path = .ok false ∧ isRequired = false) ∧
    (∀ document, result = .ok (some document) → ∃ chars value, s.HasText path chars ∧
      Yaml.readValue number chars = .ok value ∧ Says value document) ∧
    (result = .error (.document (.notFound path)) ↔
      s.contains path = .ok false ∧ isRequired = true) ∧
    (∀ fault, result = .error (.document fault) → fault ≠ .notFound path →
      s.contains path = .ok true ∧ fault.kindName = "SettingsParseError") ∧
    (∀ fault, result = .error (.document fault) → fault.path = path ∧
      ∃ front back, fault.message = front ++ path.toText ++ back) ∧
    (∀ failure, (∀ fault, failure ≠ .document fault) →
      (result = .error failure ↔ s.Escapes number path failure)) ∧
    ∀ failure, s.Escapes number path failure → failure.kindName ∉ settingsKinds ∧
      ∀ fault, failure = .value fault →
        fault ≠ .malformed ∧ (Yaml.ComesFromScalar fault ∨ fault = .tooLong) := by
  intro result
  have hsettings : ∀ fault, ¬ s.Escapes number path (.document fault) := by
    intro fault h
    cases h
  refine ⟨⟨fun h => ?_, fun ⟨hthere, hrequired⟩ => ?_⟩, fun document h => ?_,
    ⟨fun h => ?_, fun ⟨hthere, hrequired⟩ => ?_⟩, fun fault h hfound => ?_, fun fault h => ?_,
    fun failure hfailure => ⟨fun h => ?_, Escapes.result_eq⟩, fun failure hescapes => ?_⟩
  · rcases cases_of_result_ok h with ⟨-, habsent⟩ | ⟨document, chars, value, hnone, -⟩
    · exact habsent
    · cases hnone
  · show ((loadDocument number path isRequired).perform s).1 = _
    rw [result_loadDocument_of_contains hthere, hrequired]
    rfl
  · rcases cases_of_result_ok h with ⟨hnone, -⟩ | ⟨read, chars, value, hsame, hrest⟩
    · cases hnone
    · obtain rfl := Option.some.inj hsame
      exact ⟨chars, value, hrest⟩
  · rcases cases_of_result_error h with ⟨-, hmissing⟩ | ⟨fault, hsame, -, -, hkind⟩ | hescapes
    · exact hmissing
    · obtain rfl := Failure.document.inj hsame
      exact absurd (show "SettingsNotFoundError" = "SettingsParseError" from hkind) (by decide)
    · exact absurd hescapes (hsettings _)
  · show ((loadDocument number path isRequired).perform s).1 = _
    rw [result_loadDocument_of_contains hthere, hrequired]
    rfl
  · rcases cases_of_result_error h with ⟨hsame, -⟩ | ⟨other, hsame, -, hrest⟩ | hescapes
    · exact absurd (Failure.document.inj hsame) hfound
    · obtain rfl := Failure.document.inj hsame
      exact hrest
    · exact absurd hescapes (hsettings _)
  · have hpath : fault.path = path := (path_of_loadDocument_error (Prod.ext h rfl)).1
    obtain ⟨front, back, hmessage⟩ := fault.exists_message_eq
    exact ⟨hpath, front, back, hpath ▸ hmessage⟩
  · rcases cases_of_result_error h with ⟨rfl, -⟩ | ⟨fault, rfl, -⟩ | hescapes
    · exact absurd rfl (hfailure _)
    · exact absurd rfl (hfailure _)
    · exact hescapes
  · refine ⟨hescapes.kindName_notMem, ?_⟩
    rintro fault rfl
    cases hescapes with
    | value chars fault hread hpending hfault => exact hfault.comesFromScalar

/-- A session with a document that names a day which the calendar does not have. -/
def impossibleRelease : Session where
  environment := { home := "/home/tester", configuredRoot := none, workingDirectory := ⟨1, []⟩ }
  files := ⟨[(["s.yml"], .file (Text.encode "released: 2024-02-30\n"))]⟩

theorem loadDocument_escapes_impossibleDay :
    let failure := Failure.value (.noSuchTime .day)
    ((loadDocument 0 (Path.ofText "s.yml") true).perform impossibleRelease).1 = .error failure ∧
      failure.kindName = "ValueError" ∧ failure.message = "day is out of range for month" := by
  intro failure
  have hread : impossibleRelease.HasText (Path.ofText "s.yml") "released: 2024-02-30\n".toList := by
    unfold HasText
    decide +kernel
  have hvalue : Yaml.readValue 0 "released: 2024-02-30\n".toList = .error (.noSuchTime .day) := by
    have hfails : (Yaml.readValue 0 "released: 2024-02-30\n".toList).map (fun _ => ()) =
        .error (.noSuchTime .day) := by
      decide +kernel
    generalize Yaml.readValue 0 "released: 2024-02-30\n".toList = value at hfails ⊢
    cases value with
    | ok value => cases hfails
    | error fault => rw [Except.error.inj hfails]
  refine ⟨Escapes.result_eq (.value _ _ hread rfl ?_), rfl, rfl⟩
  exact .scalar _ hvalue nofun

end Session
end DevMachines
