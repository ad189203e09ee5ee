import DevMachines.Proofs.Session.Activity
import DevMachines.Proofs.Settings.Documents
import DevMachines.Session.Resolution

/-!
# How loading a document ends

Loading asks whether there is a file, reads it, and turns the text into a document.  `LoadEnd` lists
how that can end, each way with the session afterwards, and `loadEnd_loadDocument` says that there
is no other.  What uses a document goes through those cases and never opens the loading itself.

A failure leaves the session as it was, but for an interruption that is no longer to come; so
whatever a session has heard or told by then was before the loading.
-/

namespace DevMachines

/-! ## Faults name their document -/

namespace Settings

variable {files : FileTree} {here path : Path}

theorem contains_of_readChars_none (h : readChars files here path = .ok none) :
    files.contains here path = .ok false := by
  rw [readChars] at h
  split at h
  · cases h
  · assumption
  · split at h
    · cases h
    · split at h <;> cases h

theorem contains_of_readChars_some {chars : List Char}
    (h : readChars files here path = .ok (some chars)) : files.contains here path = .ok true := by
  rw [readChars] at h
  split at h
  · cases h
  · cases h
  · assumption

theorem path_of_readChars {fault : DocumentFault}
    (h : readChars files here path = .error (.document fault)) :
    fault.path = path ∧ files.contains here path = .ok true := by
  rw [readChars] at h
  split at h
  · cases h
  · cases h
  · next hthere =>
    split at h
    · cases h
      exact ⟨rfl, hthere⟩
    · split at h
      · cases h
        exact ⟨rfl, hthere⟩
      · cases h

/-- A fault of a text is put down to the document that the text is of. -/
theorem path_of_ofText {number : Nat} {chars : List Char} {fault : DocumentFault}
    (h : Document.ofText number path chars = .error (.document fault)) : fault.path = path := by
  rw [Document.ofText] at h
  split at h
  · cases h
    rfl
  · cases h
  · next value hvalue =>
    cases value with
    | null => cases h
    | map label entries =>
      rw [Document.ofValue] at h
      split at h
      · cases h
      · split at h <;> cases h
        rfl
    | _ =>
      cases h
      rfl

/-- A text has no fault of a path. -/
theorem ofText_ne_path {number : Nat} {chars : List Char} (fault : FileFault) (p : Path) :
    Document.ofText number path chars ≠ .error (.path fault p) := by
  intro h
  rw [Document.ofText] at h
  split at h
  · cases h
  · cases h
  · next value hvalue =>
    cases value with
    | map label entries =>
      rw [Document.ofValue] at h
      split at h
      · cases h
      · split at h <;> cases h
    | _ => cases h

end Settings

namespace Session

open Activity Settings

/-! ## The steps of loading -/

theorem perform_emitAll (es : List Log.Event) (s : Session) :
    (emitAll es).perform s = (.ok (), s.notedAll es) := by
  induction es generalizing s with
  | nil => rfl
  | cons e es ih => rw [emitAll, perform_bind_ok (perform_emit e s), ih, notedAll_cons]

/-- An interruption that is coming comes, and then it is gone. -/
theorem perform_takeInterruption (s : Session) :
    takeInterruption.perform s =
      if s.interruptPending then (.error .interrupted, { s with interruptPending := false })
      else (.ok (), s) := by
  rw [takeInterruption, perform_bind_ok (perform_get s)]
  split
  · rfl
  · rfl

/-- A failure to load is a fault of a document exactly if it is one. -/
theorem ofLoad_eq_document {fault : LoadFault} {f : DocumentFault}
    (h : Failure.ofLoad fault = .document f) : fault = .document f := by
  cases fault with
  | document g =>
    obtain rfl := Failure.document.inj h
    rfl
  | value g => cases h
  | path g p => cases h

/-- **What loading a document does**, by what is under its path. -/
theorem perform_loadDocument (number : Nat) (path : Path) (isRequired : Bool) (s : Session) :
    (loadDocument number path isRequired).perform s =
      match readChars s.files s.environment.workingDirectory path with
      | .error fault => (.error (Failure.ofLoad fault), s)
      | .ok none =>
          if isRequired then (.error (.document (.notFound path)), s)
          else (.ok none, s.notedAll (loadEvents path none))
      | .ok (some chars) =>
          if s.interruptPending then (.error .interrupted, { s with interruptPending := false })
          else
            match Document.ofText number path chars with
            | .error fault => (.error (Failure.ofLoad fault), s)
            | .ok document => (.ok (some document), s.notedAll (loadEvents path (some document))) := by
  rw [loadDocument, perform_bind_ok (perform_get s)]
  cases readChars s.files s.environment.workingDirectory path with
  | error fault => exact perform_bind_error (perform_orFail_error _ fault s) _
  | ok content =>
    rw [perform_bind_ok (perform_orFail_ok _ content s)]
    cases content with
    | none =>
      cases isRequired with
      | true => rfl
      | false => exact perform_bind_ok (perform_emitAll (loadEvents path none) s) _
    | some chars =>
      have hinterruption := perform_takeInterruption s
      dsimp only
      cases hpending : s.interruptPending with
      | true =>
        rw [hpending, if_pos rfl] at hinterruption
        rw [perform_bind_error hinterruption]
        rfl
      | false =>
        rw [hpending, if_neg Bool.false_ne_true] at hinterruption
        rw [perform_bind_ok hinterruption, if_neg Bool.false_ne_true]
        cases Document.ofText number path chars with
        | error fault => exact perform_bind_error (perform_orFail_error _ fault s) _
        | ok document =>
          rw [perform_bind_ok (perform_orFail_ok _ document s)]
          exact perform_bind_ok (perform_emitAll _ s) _

/-! ## The ways to end -/

/-- Is there something under a path? -/
def contains (s : Session) (path : Path) : Except FileFault Bool :=
  s.files.contains s.environment.workingDirectory path

/-- How loading a document from a session can end, and the session afterwards. -/
inductive LoadEnd (path : Path) (isRequired : Bool) (s : Session) :
    Except Failure (Option Document) × Session → Prop
  /-- A fault names the document, and one that is not required is there. -/
  | failed (failure : Failure) (pending : Bool)
      (hfault : ∀ fault, failure = .document fault →
        fault.path = path ∧ (isRequired = false → s.contains path = .ok true)) :
      LoadEnd path isRequired s (.error failure, { s with interruptPending := pending })
  | absent (hthere : s.contains path = .ok false) (hrequired : isRequired = false) :
      LoadEnd path isRequired s (.ok none, s.notedAll (loadEvents path none))
  | found (document : Document) (hthere : s.contains path = .ok true)
      (hkeys : (keys document.entries).Nodup) :
      LoadEnd path isRequired s
        (.ok (some document), s.notedAll (loadEvents path (some document)))

/-- **Loading a document ends in one of these ways.** -/
theorem loadEnd_loadDocument (number : Nat) (path : Path) (isRequired : Bool) (s : Session) :
    LoadEnd path isRequired s ((loadDocument number path isRequired).perform s) := by
  rw [perform_loadDocument]
  cases hread : readChars s.files s.environment.workingDirectory path with
  | error fault =>
    refine LoadEnd.failed _ s.interruptPending fun f hf => ?_
    rw [ofLoad_eq_document hf] at hread
    obtain ⟨hpath, hthere⟩ := path_of_readChars hread
    exact ⟨hpath, fun _ => hthere⟩
  | ok content =>
    cases content with
    | none =>
      cases isRequired with
      | true =>
        refine LoadEnd.failed _ s.interruptPending fun f hf => ?_
        obtain rfl := Failure.document.inj hf
        exact ⟨rfl, fun h => absurd h (by decide)⟩
      | false => exact LoadEnd.absent (contains_of_readChars_none hread) rfl
    | some chars =>
      have hthere := contains_of_readChars_some hread
      dsimp only
      cases s.interruptPending with
      | true => exact LoadEnd.failed .interrupted false nofun
      | false =>
        rw [if_neg Bool.false_ne_true]
        cases htext : Document.ofText number path chars with
        | error fault =>
          refine LoadEnd.failed _ s.interruptPending fun f hf => ?_
          rw [ofLoad_eq_document hf] at htext
          exact ⟨path_of_ofText htext, fun _ => hthere⟩
        | ok document => exact LoadEnd.found document hthere (nodup_keys_ofText htext)

/-! ## Loading that succeeds, and loading that fails -/

section Ends

variable {number : Nat} {path : Path} {isRequired : Bool} {s t : Session}

theorem loadEnd_of_perform {run : Except Failure (Option Document) × Session}
    (h : (loadDocument number path isRequired).perform s = run) : LoadEnd path isRequired s run :=
  h ▸ loadEnd_loadDocument number path isRequired s

/-- A document that is required is not absent. -/
theorem exists_of_loadDocument {result : Option Document}
    (h : (loadDocument number path true).perform s = (.ok result, t)) :
    ∃ document, result = some document := by
  cases loadEnd_of_perform h with
  | absent hthere hrequired => exact absurd hrequired (by decide)
  | found document hthere hkeys => exact ⟨document, rfl⟩

theorem nodup_keys_of_loadDocument {document : Document}
    (h : (loadDocument number path isRequired).perform s = (.ok (some document), t)) :
    (keys document.entries).Nodup := by
  cases loadEnd_of_perform h with
  | found document hthere hkeys => exact hkeys

/-- There is a result exactly if there is a file. -/
theorem contains_of_loadDocument {result : Option Document}
    (h : (loadDocument number path isRequired).perform s = (.ok result, t)) :
    s.contains path = .ok result.isSome := by
  cases loadEnd_of_perform h with
  | absent hthere hrequired => exact hthere
  | found document hthere hkeys => exact hthere

/-- Loading that succeeds reports its events and does nothing else. -/
theorem eq_notedAll_of_loadDocument {result : Option Document}
    (h : (loadDocument number path isRequired).perform s = (.ok result, t)) :
    t = s.notedAll (loadEvents path result) := by
  cases loadEnd_of_perform h with
  | absent hthere hrequired => rfl
  | found document hthere hkeys => rfl

/-- Loading that fails reports nothing. -/
theorem eq_of_loadDocument_error {failure : Failure}
    (h : (loadDocument number path isRequired).perform s = (.error failure, t)) :
    ∃ pending, t = { s with interruptPending := pending } := by
  cases loadEnd_of_perform h with
  | failed failure pending hfault => exact ⟨pending, rfl⟩

/-- **A fault names the document that was to be loaded**, and one that need not be there is. -/
theorem path_of_loadDocument_error {fault : DocumentFault}
    (h : (loadDocument number path isRequired).perform s = (.error (.document fault), t)) :
    fault.path = path ∧ (isRequired = false → s.contains path = .ok true) := by
  cases loadEnd_of_perform h with
  | failed failure pending hfault => exact hfault fault rfl

end Ends

end Session
end DevMachines
