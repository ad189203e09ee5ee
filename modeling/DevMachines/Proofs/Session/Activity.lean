import DevMachines.Proofs.Log.Fields
import DevMachines.Proofs.Terminal.Escaping
import DevMachines.Session.Reporting

/-!
# Performing activities

An activity is performed from a session, and the failure is inside of the state: both a result and a
failure come with the session afterwards.  So every lemma here gives the *pair*, and what holds of a
whole activity is read off by rewriting with `perform_bind` from the first step to the last.

Reporting an event and telling something to an audience change a session in one way each and never
fail.  `Session.noted` and `Session.told` are those changes as functions, and the lemmas on their
fields say what they leave alone.
-/

namespace DevMachines

/-! ## Steps of an activity -/

namespace Activity

variable {α β ε : Type}

@[simp] theorem perform_pure (x : α) (s : Session) : (pure x : Activity α).perform s = (.ok x, s) :=
  rfl

@[simp] theorem perform_throw (e : Failure) (s : Session) :
    (throw e : Activity α).perform s = (.error e, s) :=
  rfl

@[simp] theorem perform_get (s : Session) : (get : Activity Session).perform s = (.ok s, s) := rfl

@[simp] theorem perform_orFail_ok (failure : ε → Failure) (x : α) (s : Session) :
    (Session.orFail failure (.ok x)).perform s = (.ok x, s) :=
  rfl

@[simp] theorem perform_orFail_error (failure : ε → Failure) (fault : ε) (s : Session) :
    (Session.orFail failure (.error fault) : Activity α).perform s = (.error (failure fault), s) :=
  rfl

/-- Doing an activity without failing changes the session like the activity. -/
theorem perform_attempt (a : Activity α) (s : Session) :
    (Session.attempt a).perform s = (.ok (a.perform s).1, (a.perform s).2) :=
  rfl

/-- The second activity goes on where the first one ended, unless that failed. -/
theorem perform_bind (a : Activity α) (f : α → Activity β) (s : Session) :
    (a >>= f).perform s = match a.perform s with
      | (.ok x, t) => (f x).perform t
      | (.error e, t) => (.error e, t) := by
  unfold perform
  rw [ExceptT.run_bind]
  simp only [StateT.run_bind]
  cases h : StateT.run (ExceptT.run a) s with
  | mk r t => cases r <;> rfl

theorem perform_bind_ok {a : Activity α} {s t : Session} {x : α} (h : a.perform s = (.ok x, t))
    (f : α → Activity β) : (a >>= f).perform s = (f x).perform t := by
  rw [perform_bind, h]

theorem perform_bind_error {a : Activity α} {s t : Session} {e : Failure}
    (h : a.perform s = (.error e, t)) (f : α → Activity β) :
    (a >>= f).perform s = (.error e, t) := by
  rw [perform_bind, h]

end Activity

/-! ## Reporting an event -/

namespace Session

open Activity

/-- The session after an event has been reported. -/
def noted (s : Session) (e : Log.Event) : Session :=
  if s.listening then { s with heard := s.heard ++ [e] }
  else deliver e.severity.rank (Log.plainRecord s.reporting.context s.time e) s

/-- An event whose arguments fit is reported, and any other is a failure, under every setup. -/
theorem perform_emitWith (args : List Value) (e : Log.Event) (s : Session) :
    (emitWith args e).perform s = match Log.interpolate e.name args with
      | .ok name => (.ok (), s.noted { e with name })
      | .error fault => (.error (.interpolation fault), s) := by
  rw [emitWith, perform_bind_ok (perform_get s)]
  cases hname : Log.interpolate e.name args with
  | ok name =>
    dsimp only
    rw [noted, Log.heard, hname, Log.recordOf_eq_ok hname]
    split <;> rfl
  | error fault =>
    rw [Log.heard, Log.recordOf, hname]
    split <;> rfl

/-- **Reporting an event never fails.** -/
theorem perform_emit (e : Log.Event) (s : Session) : (emit e).perform s = (.ok (), s.noted e) :=
  perform_emitWith [] e s

/-- Writing a record changes nothing but standard error and files. -/
theorem deliver_eq (rank : Nat) (record : Log.Fields) (s : Session) :
    ∃ files errors, deliver rank record s = { s with files, errors } := by
  have herrors : ∀ form, ∃ errors, writeOnErrors form record s = { s with errors } := by
    intro form
    rw [writeOnErrors]
    cases Log.line form record with
    | ok line => exact ⟨_, rfl⟩
    | error _ => exact ⟨s.errors, rfl⟩
  have hfile : ∀ (file : Path) (t : Session),
      ∃ files, writeToFile file record t = { t with files } := by
    intro file t
    rw [writeToFile]
    cases Log.line .json record with
    | error _ => exact ⟨t.files, rfl⟩
    | ok line =>
      cases h : t.files.append t.environment.workingDirectory file (Text.encode (line ++ "\n")) with
      | ok files =>
        refine ⟨files, ?_⟩
        simp only [h]
      | error _ =>
        refine ⟨t.files, ?_⟩
        simp only [h]
  rw [deliver]
  by_cases hrank : rank < s.reporting.threshold
  · exact ⟨s.files, s.errors, if_pos hrank⟩
  rw [if_neg hrank]
  cases s.reporting.sinks with
  | none => exact ⟨s.files, s.errors, rfl⟩
  | some sinks =>
    obtain ⟨errors, hwritten⟩ := herrors sinks.form
    cases hsink : sinks.file with
    | none => exact ⟨s.files, errors, by simp only [hsink, hwritten]⟩
    | some file =>
      obtain ⟨files, hadded⟩ := hfile file { s with errors }
      exact ⟨files, errors, by simp only [hsink, hwritten, hadded]⟩

/-- Reporting an event only adds to what is heard, or to standard error and files. -/
theorem noted_eq (s : Session) (e : Log.Event) :
    ∃ heard files errors, s.noted e = { s with heard, files, errors } := by
  rw [noted]
  by_cases h : s.listening = true
  · rw [if_pos h]
    exact ⟨_, s.files, s.errors, rfl⟩
  · rw [if_neg h]
    obtain ⟨files, errors, hdelivered⟩ := deliver_eq e.severity.rank
      (Log.plainRecord s.reporting.context s.time e) s
    exact ⟨s.heard, files, errors, hdelivered⟩

@[simp] theorem listening_noted (s : Session) (e : Log.Event) :
    (s.noted e).listening = s.listening := by
  obtain ⟨heard, files, errors, h⟩ := noted_eq s e
  rw [h]

@[simp] theorem notices_noted (s : Session) (e : Log.Event) :
    (s.noted e).notices = s.notices := by
  obtain ⟨heard, files, errors, h⟩ := noted_eq s e
  rw [h]

@[simp] theorem output_noted (s : Session) (e : Log.Event) : (s.noted e).output = s.output := by
  obtain ⟨heard, files, errors, h⟩ := noted_eq s e
  rw [h]

/-- A session that is listened to keeps the event. -/
theorem heard_noted {s : Session} (h : s.listening = true) (e : Log.Event) :
    (s.noted e).heard = s.heard ++ [e] := by
  rw [noted, if_pos h]

/-! ## Reporting events one after another -/

/-- The session after events have been reported. -/
def notedAll (s : Session) (es : List Log.Event) : Session := es.foldl noted s

theorem notedAll_cons (s : Session) (e : Log.Event) (es : List Log.Event) :
    s.notedAll (e :: es) = (s.noted e).notedAll es := rfl

theorem notedAll_append (s : Session) (es fs : List Log.Event) :
    s.notedAll (es ++ fs) = (s.notedAll es).notedAll fs :=
  List.foldl_append

/-- Several events only add to what is heard, or to standard error and files, either. -/
theorem notedAll_eq (s : Session) (es : List Log.Event) :
    ∃ heard files errors, s.notedAll es = { s with heard, files, errors } := by
  induction es generalizing s with
  | nil => exact ⟨s.heard, s.files, s.errors, rfl⟩
  | cons e es ih =>
    obtain ⟨heard, files, errors, hnoted⟩ := noted_eq s e
    obtain ⟨heard', files', errors', hrest⟩ := ih (s.noted e)
    refine ⟨heard', files', errors', ?_⟩
    rw [notedAll_cons, hrest, hnoted]

@[simp] theorem listening_notedAll (s : Session) (es : List Log.Event) :
    (s.notedAll es).listening = s.listening := by
  obtain ⟨heard, files, errors, h⟩ := notedAll_eq s es
  rw [h]

@[simp] theorem notices_notedAll (s : Session) (es : List Log.Event) :
    (s.notedAll es).notices = s.notices := by
  obtain ⟨heard, files, errors, h⟩ := notedAll_eq s es
  rw [h]

@[simp] theorem output_notedAll (s : Session) (es : List Log.Event) :
    (s.notedAll es).output = s.output := by
  obtain ⟨heard, files, errors, h⟩ := notedAll_eq s es
  rw [h]

@[simp] theorem reporting_notedAll (s : Session) (es : List Log.Event) :
    (s.notedAll es).reporting = s.reporting := by
  obtain ⟨heard, files, errors, h⟩ := notedAll_eq s es
  rw [h]

@[simp] theorem environment_notedAll (s : Session) (es : List Log.Event) :
    (s.notedAll es).environment = s.environment := by
  obtain ⟨heard, files, errors, h⟩ := notedAll_eq s es
  rw [h]

@[simp] theorem interruptPending_notedAll (s : Session) (es : List Log.Event) :
    (s.notedAll es).interruptPending = s.interruptPending := by
  obtain ⟨heard, files, errors, h⟩ := notedAll_eq s es
  rw [h]

theorem heard_notedAll {s : Session} (h : s.listening = true) (es : List Log.Event) :
    (s.notedAll es).heard = s.heard ++ es := by
  induction es generalizing s with
  | nil => exact (List.append_nil _).symm
  | cons e es ih =>
    have hnext : (s.noted e).listening = true := by rw [listening_noted, h]
    rw [notedAll_cons, ih hnext, heard_noted h, List.append_assoc, List.singleton_append]

/-! ## Telling something -/

/-- A notice as it is printed; there is always one. -/
def shownNotice (message : String) : String := (noticeText message).toOption.getD ""

theorem noticeText_eq (message : String) : noticeText message = .ok (shownNotice message) := by
  obtain ⟨text, h⟩ := exists_noticeText_eq_ok message
  rw [shownNotice, h]
  rfl

/-- The session after an audience has been told something. -/
def told (s : Session) : Audience → String → Session
  | .nobody, _ => s
  | .caller, message => { s with notices := s.notices ++ [message] }
  | .output, message => { s with output := s.output ++ shownNotice message }
  | .errors, message => { s with errors := s.errors ++ shownNotice message }

/-- **Telling something never fails**, whatever the message is. -/
theorem perform_tell (audience : Audience) (message : String) (s : Session) :
    (tell audience message).perform s = (.ok (), s.told audience message) := by
  cases audience with
  | nobody => rfl
  | caller => rfl
  | output =>
    rw [tell, noticeText_eq]
    rfl
  | errors =>
    rw [tell, noticeText_eq]
    rfl

@[simp] theorem listening_told (s : Session) (audience : Audience) (message : String) :
    (s.told audience message).listening = s.listening := by
  cases audience <;> rfl

@[simp] theorem heard_told (s : Session) (audience : Audience) (message : String) :
    (s.told audience message).heard = s.heard := by
  cases audience <;> rfl

/-- Only the caller gets notices. -/
theorem notices_told (s : Session) (audience : Audience) (message : String) :
    (s.told audience message).notices =
      s.notices ++ if audience = .caller then [message] else [] := by
  cases audience with
  | caller => rfl
  | nobody | output | errors => exact (List.append_nil _).symm

end Session
end DevMachines
