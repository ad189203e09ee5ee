import DevMachines.Proofs.CommandLine.Preparing
import DevMachines.Proofs.Log.Lines
import DevMachines.Proofs.Text.Utf8

/-!
# The journal of what is logged

The logging is asked for three things, in any order: to be set up, to give later records a context,
and to log an event.  The journal of a row of requests is what should come of it, written down without
following the session: an entry for each event at the threshold or above, with the destinations of the
last setup and the context of the last binding.

From the entries follows what standard error shows (`shownAll`) and what each file gains (`gained`).
An entry of a request that fits can always be written (`isWritten_of_entryOf`).
-/

namespace DevMachines
namespace Session

open Activity
open Settings (keys)
open CommandLine (LogOptions)

/-! ## Requests -/

/-- What the logging is asked for. -/
inductive LogRequest where
  | configure (options : LogOptions)
  | bind (command : Option String) (root : String)
  | log (e : Log.Event) (args : List Value)
  /-- Another library logs an event; it has no fields. -/
  | logForeign (severity : Log.Severity) (name : String) (args : List Value)

namespace LogRequest

/-- Does what a request asks for. -/
def activity : LogRequest → Activity Unit
  | .configure options => Session.configure options.level options.json options.file
  | .bind command root => bindContext command root
  | .log e args => emitWith args e
  | .logForeign severity name args => emitForeign args ⟨severity, name, []⟩

/-- The event of a request, with its arguments filled in. -/
def event? : LogRequest → Option Log.Event
  | .log e args => (Log.interpolate e.name args).toOption.map fun name => { e with name }
  | .logForeign severity name args =>
      (Log.interpolate name args).toOption.map fun name => ⟨severity, name, []⟩
  | _ => none

/-- The threshold and the destinations that a request sets up. -/
def target? (s : Session) : LogRequest → Option (Nat × Log.Sinks)
  | .configure options =>
      (Log.rankOfName options.level).toOption.map fun threshold => (threshold, options.sinks s)
  | _ => none

/-- The context that a request gives to later records. -/
def context? : LogRequest → Option Log.Fields
  | .bind command root =>
      some [("command", .text ((command.filter (· ≠ "")).getD "help")), ("root", .text root)]
  | _ => none

end LogRequest

/-- Does what requests ask for, one after another. -/
def askAll : List LogRequest → Activity Unit
  | [] => pure ()
  | r :: rest => do
      r.activity
      askAll rest

/-! ## The journal -/

/-- The threshold and the destinations after requests: those of the last setup. -/
def lastTarget (s : Session) (history : List LogRequest) : Option (Nat × Log.Sinks) :=
  (history.filterMap (LogRequest.target? s)).getLast?

/-- The context after requests: that of the last binding, and none before the first one. -/
def lastContext (history : List LogRequest) : Log.Fields :=
  ((history.filterMap LogRequest.context?).getLast?).getD []

/-- An event that is written, and all that decides how. -/
structure Entry where
  sinks : Log.Sinks
  context : Log.Fields
  time : String
  event : Log.Event

namespace Entry

/-- The record of an entry. -/
def record (entry : Entry) : Log.Fields := Log.plainRecord entry.context entry.time entry.event

/-- What is written on standard error. -/
def shown (entry : Entry) : String :=
  (Log.line entry.sinks.form entry.record).toOption.getD "" ++ "\n"

/-- What is added to a file. -/
def added (entry : Entry) : String := (Log.line .json entry.record).toOption.getD "" ++ "\n"

/-- Does an entry go to the file at a place? -/
def GoesTo (s : Session) (place : Place) (entry : Entry) : Prop :=
  ∃ file ∈ entry.sinks.file,
    (s.files.destination s.environment.workingDirectory file).toOption = some place

instance (s : Session) (place : Place) : DecidablePred (GoesTo s place) := fun entry =>
  inferInstanceAs (Decidable (∃ file ∈ entry.sinks.file, _ = _))

end Entry

/-- The entry of a request after others: there is one if it is for an event at the threshold or
above. -/
def entryOf (s : Session) (history : List LogRequest) (r : LogRequest) : Option Entry := do
  let event ← r.event?
  let (threshold, sinks) ← lastTarget s history
  if event.severity.rank < threshold then none
  else some { sinks, context := lastContext history, time := s.time, event }

/-- The entries of requests that come after others. -/
def journal (s : Session) (history : List LogRequest) : List LogRequest → List Entry
  | [] => []
  | r :: rest => (entryOf s history r).toList ++ journal s (history ++ [r]) rest

/-- What entries show on standard error. -/
def shownAll (entries : List Entry) : String :=
  String.ofList (entries.flatMap fun entry => entry.shown.toList)

/-- What entries add to the file at a place. -/
def gained (s : Session) (place : Place) (entries : List Entry) : Text.Octets :=
  (entries.filter (Entry.GoesTo s place)).flatMap fun entry => Text.encode entry.added

/-- Does a setup among the requests name a place for the log? -/
def IsNamed (s : Session) (requests : List LogRequest) (place : Place) : Prop :=
  ∃ options, .configure options ∈ requests ∧ options.LeadsTo s place

/-- Has each file of the first file system gained its entries, and nothing else happened? -/
structure Gains (s : Session) (requests : List LogRequest) (entries : List Entry)
    (t u : FileTree) : Prop where
  /-- Files that no setup names are the same, and so are all directories. -/
  same : t.SameBut (IsNamed s requests) u
  present : ∀ place, (t.get? place).isSome → (u.get? place).isSome
  /-- A file keeps what it had, and the entries that go to it follow. -/
  contents : ∀ place, u.contentsAt place = t.contentsAt place ++ gained s place entries

/-! ## Requests that can be met -/

/-- Can an event be logged: do its arguments fit, and has each of its fields a JSON form? -/
def LogRequest.Fits : LogRequest → Prop
  | .log e args => (∃ name, Log.interpolate e.name args = .ok name) ∧ (keys e.fields).Nodup ∧
      ∀ field ∈ e.fields, field.2.HasJsonForm
  | .logForeign _ name args => ∃ text, Log.interpolate name args = .ok text
  | _ => True

/-- Does every setup among requests succeed where it comes? -/
def SetupsSucceed (s : Session) : List LogRequest → Prop
  | [] => True
  | r :: rest =>
      (∀ options, r = .configure options → (r.activity.perform s).1 = .ok ()) ∧
        SetupsSucceed (r.activity.perform s).2 rest

/-- Has no one asked for anything yet? -/
structure IsFresh (s : Session) : Prop where
  listening : s.listening = false
  sinks : s.reporting.sinks = none
  context : s.reporting.context = []

/-! ## What comes last -/

section Last

variable {s : Session} {history : List LogRequest} {r : LogRequest}

/-- A request at the end sets up what it says, or leaves what was set up before. -/
theorem lastTarget_concat (s : Session) (history : List LogRequest) (r : LogRequest) :
    lastTarget s (history ++ [r]) = (r.target? s).or (lastTarget s history) := by
  unfold lastTarget
  rw [List.filterMap_append, List.getLast?_append, List.filterMap_cons, List.filterMap_nil]
  cases r.target? s <;> rfl

theorem lastContext_concat (history : List LogRequest) (r : LogRequest) :
    lastContext (history ++ [r]) = r.context?.getD (lastContext history) := by
  unfold lastContext
  rw [List.filterMap_append, List.getLast?_append, List.filterMap_cons, List.filterMap_nil]
  cases r.context? <;> rfl

/-- A request that logs something sets nothing up and binds nothing. -/
theorem last_concat_of_event {event : Log.Event} (h : r.event? = some event) :
    lastTarget s (history ++ [r]) = lastTarget s history ∧
      lastContext (history ++ [r]) = lastContext history := by
  rw [lastTarget_concat, lastContext_concat]
  cases r with
  | configure | bind => cases h
  | log | logForeign => exact ⟨rfl, rfl⟩

/-- A context is made of texts, and has each name once. -/
theorem lastContext_cases (history : List LogRequest) : lastContext history = [] ∨
    ∃ command root, lastContext history = [("command", .text command), ("root", .text root)] := by
  unfold lastContext
  rcases hlast : (history.filterMap LogRequest.context?).getLast? with _ | context
  · exact Or.inl rfl
  · obtain ⟨r, -, hr⟩ := List.mem_filterMap.mp (List.mem_of_getLast? hlast)
    cases r with
    | bind command root => exact Or.inr ⟨_, _, (Option.some.inj hr).symm⟩
    | configure | log | logForeign => cases hr

theorem IsNamed.append {place : Place} {requests : List LogRequest}
    (h : IsNamed s requests place) (more : List LogRequest) :
    IsNamed s (requests ++ more) place := by
  obtain ⟨options, hmem, hleads⟩ := h
  exact ⟨options, List.mem_append_left more hmem, hleads⟩

end Last

/-! ## What files gain -/

section Gains

variable {s : Session} {requests more : List LogRequest} {entries rest : List Entry}
  {t u v : FileTree}

theorem shownAll_append (entries rest : List Entry) :
    shownAll (entries ++ rest) = shownAll entries ++ shownAll rest := by
  unfold shownAll
  rw [List.flatMap_append, String.ofList_append]

theorem shownAll_singleton (entry : Entry) : shownAll [entry] = entry.shown := by
  unfold shownAll
  rw [List.flatMap_singleton, String.ofList_toList]

theorem gained_append (s : Session) (place : Place) (entries rest : List Entry) :
    gained s place (entries ++ rest) = gained s place entries ++ gained s place rest := by
  unfold gained
  rw [List.filter_append, List.flatMap_append]

theorem Gains.refl (s : Session) (requests : List LogRequest) (t : FileTree) :
    Gains s requests [] t t where
  same := .refl _ _
  present _ h := h
  contents _ := (List.append_nil _).symm

theorem Gains.append (h : Gains s requests entries t u) (more : List LogRequest) :
    Gains s (requests ++ more) entries t u :=
  ⟨h.same.mono fun _ hplace => hplace.append more, h.present, h.contents⟩

theorem Gains.trans (htu : Gains s requests entries t u)
    (huv : Gains s (requests ++ more) rest u v) :
    Gains s (requests ++ more) (entries ++ rest) t v where
  same := (htu.append more).same.trans huv.same
  present place h := huv.present place (htu.present place h)
  contents place := by
    rw [huv.contents, htu.contents, gained_append, List.append_assoc]

/-- Adding to a file gains what is added. -/
theorem gains_of_append {file here : Path} {octets : Text.Octets} {place : Place}
    (happend : t.append here file octets = .ok u) (hplace : t.destination here file = .ok place)
    (hnamed : IsNamed s requests place)
    (hgained : ∀ other, gained s other entries = if other = place then octets else []) :
    Gains s requests entries t u := by
  obtain ⟨found, hfound, hdirectory, rfl⟩ := FileTree.append_eq_ok_iff.mp happend
  obtain rfl : place = found := Except.ok.inj (hplace.symm.trans hfound)
  refine ⟨(FileTree.sameBut_set hdirectory _).mono ?_, fun _ h => FileTree.isSome_get?_set h _, ?_⟩
  · rintro _ rfl
    exact hnamed
  · intro other
    rw [FileTree.contentsAt_set hdirectory, hgained]
    by_cases hother : other = place
    · rw [if_pos hother, if_pos hother, hother]
    · rw [if_neg hother, if_neg hother, List.append_nil]

end Gains

/-! ## Entries can be written -/

section Entries

theorem hasJsonForm_text (text : String) : (Value.text text).HasJsonForm :=
  Value.hasJsonForm_of_not_hasParts id rfl (by rintro label ⟨⟩)

theorem hasJsonForm_decodeOctets {v : Value} (h : v.HasJsonForm) :
    (Log.decodeOctets v).HasJsonForm := by
  unfold Log.decodeOctets
  split
  · exact hasJsonForm_text _
  · exact h

/-- An entry that is written, once for each destination. -/
structure Entry.IsWritten (entry : Entry) : Prop where
  /-- There is something to show. -/
  shown : ∃ text, Log.line entry.sinks.form entry.record = .ok text ∧ entry.shown = text ++ "\n"
  /-- What is added is one line of JSON with the fields of the record. -/
  added : ∃ line, Log.line .json entry.record = .ok line ∧ Log.IsJsonLine entry.record line ∧
    entry.added = line ++ "\n"
  /-- For people and for programs is the same if standard error gets JSON. -/
  alike : entry.sinks.form = .json → entry.shown = entry.added
  /-- The record says what the event says, and otherwise what the context says. -/
  fields : ∀ name, entry.record.lookup name =
    if name = "stack_info" then none
    else if name = "timestamp" then some (.text entry.time)
    else if name = "level" then some (.text entry.event.severity.name)
    else if name = "event" then some (.text entry.event.name)
    else ((entry.event.fields.lookup name).or (entry.context.lookup name)).map Log.decodeOctets

theorem exists_of_entryOf {s : Session} {history : List LogRequest} {r : LogRequest} {entry : Entry}
    (h : entryOf s history r = some entry) : ∃ event threshold sinks, r.event? = some event ∧
      lastTarget s history = some (threshold, sinks) ∧ ¬ event.severity.rank < threshold ∧
      entry = ⟨sinks, lastContext history, s.time, event⟩ := by
  obtain ⟨event, hevent, h⟩ := Option.bind_eq_some_iff.mp h
  obtain ⟨⟨threshold, sinks⟩, htarget, h⟩ := Option.bind_eq_some_iff.mp h
  dsimp only at h
  split_ifs at h with hrank
  exact ⟨event, threshold, sinks, hevent, htarget, hrank, (Option.some.inj h).symm⟩

/-- The fields of an event that fits. -/
theorem LogRequest.Fits.fields {r : LogRequest} (h : r.Fits) {event : Log.Event}
    (hevent : r.event? = some event) :
    (keys event.fields).Nodup ∧ ∀ field ∈ event.fields, field.2.HasJsonForm := by
  cases r with
  | configure | bind => cases hevent
  | log e args =>
    obtain ⟨name, -, rfl⟩ := Option.map_eq_some_iff.mp hevent
    exact h.2
  | logForeign severity name args =>
    obtain ⟨name, -, rfl⟩ := Option.map_eq_some_iff.mp hevent
    exact ⟨List.nodup_nil, List.forall_mem_nil _⟩

/-- A record of texts and of fields with a JSON form. -/
theorem hasJsonForm_plainRecord (history : List LogRequest) {event : Log.Event}
    (hnodup : (keys event.fields).Nodup)
    (hfields : ∀ field ∈ event.fields, field.2.HasJsonForm) (time : String) :
    (keys (Log.plainRecord (lastContext history) time event)).Nodup ∧
      ∀ field ∈ Log.plainRecord (lastContext history) time event, field.2.HasJsonForm := by
  have hcontext : (keys (lastContext history)).Nodup ∧
      ∀ field ∈ lastContext history, field.2.HasJsonForm := by
    rcases lastContext_cases history with h | ⟨command, root, h⟩
    · rw [h]
      exact ⟨List.nodup_nil, List.forall_mem_nil _⟩
    · rw [h]
      refine ⟨(by decide : ["command", "root"].Nodup), ?_⟩
      simp only [List.forall_mem_cons]
      exact ⟨hasJsonForm_text command, hasJsonForm_text root, List.forall_mem_nil _⟩
  have hrecord := Log.nodup_plainRecord hcontext.1 time event
  refine ⟨hrecord, fun field hfield => ?_⟩
  have hlookup := (Settings.lookup_eq_some_iff_mem hrecord).mpr hfield
  rw [Log.lookup_plainRecord hnodup] at hlookup
  split_ifs at hlookup
  · rw [← Option.some.inj hlookup]
    exact hasJsonForm_text time
  · rw [← Option.some.inj hlookup]
    exact hasJsonForm_text _
  · rw [← Option.some.inj hlookup]
    exact hasJsonForm_text _
  · obtain ⟨v, hv, hsame⟩ := Option.map_eq_some_iff.mp hlookup
    rw [← hsame]
    refine hasJsonForm_decodeOctets ?_
    rcases Option.or_eq_some_iff.mp hv with hown | ⟨-, hbound⟩
    · exact hfields _ ((Settings.lookup_eq_some_iff_mem hnodup).mp hown)
    · exact hcontext.2 _ ((Settings.lookup_eq_some_iff_mem hcontext.1).mp hbound)

theorem isWritten_of_entryOf {s : Session} {history : List LogRequest} {r : LogRequest}
    {entry : Entry} (hfits : r.Fits) (h : entryOf s history r = some entry) : entry.IsWritten := by
  obtain ⟨event, threshold, sinks, hevent, -, -, rfl⟩ := exists_of_entryOf h
  obtain ⟨hnodup, hfields⟩ := hfits.fields hevent
  obtain ⟨hrecord, hforms⟩ := hasJsonForm_plainRecord history hnodup hfields s.time
  obtain ⟨text, htext⟩ := Log.exists_line sinks.form hforms
  obtain ⟨line, hline⟩ := Log.exists_line .json hforms
  refine ⟨⟨text, htext, ?_⟩, ⟨line, hline, .of_jsonLine hrecord hline, ?_⟩, fun hform => ?_, ?_⟩
  · unfold Entry.shown
    rw [Entry.record, htext]
    rfl
  · unfold Entry.added
    rw [Entry.record, hline]
    rfl
  · unfold Entry.shown Entry.added
    rw [hform]
  · exact Log.lookup_plainRecord hnodup (lastContext history) s.time

end Entries

end Session
end DevMachines
