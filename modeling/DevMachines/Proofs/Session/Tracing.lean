import DevMachines.Proofs.Session.Resolving
import DevMachines.Session.Project

/-!
# The trace that a session leaves

A session leaves a trace of the events that have been reported.  One that is listened to keeps the
events themselves; any other writes them as lines on standard error, each under the setup of its
time.  `Traces` says of two sessions that what came between them is a given trace, in either way.

## Why the setup is part of the trace

Whether an event becomes a line, and which fields the line has, depends on the setup.  A run changes
its setup twice before the command begins, so a list of events alone would not say what was written.
-/

namespace DevMachines

/-! ## Lines -/

namespace Log

/-- What an event adds to standard error under a setup. -/
def Setup.line (setup : Setup) (time : String) (e : Event) : String :=
  if e.severity.rank < setup.threshold then ""
  else
    match setup.sinks with
    | none => ""
    | some sinks =>
        match Log.line sinks.form (plainRecord setup.context time e) with
        | .ok line => line ++ "\n"
        | .error _ => ""

/-- What a trace adds to standard error. -/
def lines (time : String) : List (Setup × Event) → String
  | [] => ""
  | (setup, e) :: trace => setup.line time e ++ lines time trace

theorem lines_append (time : String) (first second : List (Setup × Event)) :
    lines time (first ++ second) = lines time first ++ lines time second := by
  induction first with
  | nil => rw [List.nil_append, lines, String.empty_append]
  | cons report first ih =>
    rw [List.cons_append, lines, lines, ih, String.append_assoc]

end Log

namespace Session

open Activity Settings

/-- A record that is written to a file is no line on standard error. -/
theorem errors_writeToFile (file : Path) (record : Log.Fields) (s : Session) :
    (writeToFile file record s).errors = s.errors := by
  rw [writeToFile]
  split
  · split
    · rfl
    · rfl
  · rfl

/-- A session that is not listened to writes the event as a line. -/
theorem errors_noted {s : Session} (h : s.listening = false) (e : Log.Event) :
    (s.noted e).errors = s.errors ++ s.reporting.line s.time e := by
  rw [noted, if_neg (by rw [h]; exact Bool.false_ne_true), deliver, Log.Setup.line]
  split
  · exact (String.append_empty).symm
  · cases hsinks : s.reporting.sinks with
    | none => exact (String.append_empty).symm
    | some sinks =>
      dsimp only
      have hwritten : ∀ record, (writeOnErrors sinks.form record s).errors = s.errors ++
          match Log.line sinks.form record with
          | .ok line => line ++ "\n"
          | .error _ => "" := by
        intro record
        rw [writeOnErrors]
        cases Log.line sinks.form record with
        | ok line => rfl
        | error _ => exact (String.append_empty).symm
      split
      · rw [errors_writeToFile, hwritten]
      · rw [hwritten]

/-! ## Traces -/

/-- Between two sessions there is a trace, and nothing else is heard or written on standard
error. -/
structure Traces (s t : Session) (trace : List (Log.Setup × Log.Event)) : Prop where
  listening : t.listening = s.listening
  time : t.time = s.time
  heard : t.heard = s.heard ++ if s.listening then trace.map Prod.snd else []
  errors : t.errors = s.errors ++ if s.listening then "" else Log.lines s.time trace

section Traces

variable {s t u : Session} {first second : List (Log.Setup × Log.Event)}

theorem traces_nil (hlistening : t.listening = s.listening) (htime : t.time = s.time)
    (hheard : t.heard = s.heard) (herrors : t.errors = s.errors) : Traces s t [] := by
  refine ⟨hlistening, htime, ?_, ?_⟩
  · rw [hheard, List.map_nil, ite_self, List.append_nil]
  · rw [herrors, Log.lines, ite_self, String.append_empty]

theorem Traces.trans (hst : Traces s t first) (htu : Traces t u second) :
    Traces s u (first ++ second) := by
  refine ⟨htu.listening.trans hst.listening, htu.time.trans hst.time, ?_, ?_⟩
  · rw [htu.heard, hst.heard, hst.listening, List.append_assoc]
    split
    · rw [List.map_append]
    · rfl
  · rw [htu.errors, hst.errors, hst.listening, hst.time, String.append_assoc]
    split
    · rfl
    · rw [Log.lines_append]

theorem traces_noted (s : Session) (e : Log.Event) : Traces s (s.noted e) [(s.reporting, e)] := by
  obtain ⟨heard, files, errors, heq⟩ := noted_eq s e
  have htime : (s.noted e).time = s.time := by rw [heq]
  refine ⟨listening_noted s e, htime, ?_, ?_⟩
  · cases hlistening : s.listening with
    | true => exact heard_noted hlistening e
    | false =>
      rw [noted, if_neg (by rw [hlistening]; exact Bool.false_ne_true)]
      obtain ⟨files, errors, hdelivered⟩ := deliver_eq e.severity.rank
        (Log.plainRecord s.reporting.context s.time e) s
      rw [hdelivered]
      exact (List.append_nil _).symm
  · cases hlistening : s.listening with
    | true =>
      rw [noted, if_pos hlistening]
      exact (String.append_empty).symm
    | false =>
      rw [errors_noted hlistening, Log.lines, Log.lines, String.append_empty]
      rfl

theorem traces_notedAll (s : Session) (es : List Log.Event) :
    Traces s (s.notedAll es) (es.map (s.reporting, ·)) := by
  induction es generalizing s with
  | nil => exact traces_nil rfl rfl rfl rfl
  | cons e es ih =>
    have hrest := ih (s.noted e)
    obtain ⟨heard, files, errors, heq⟩ := noted_eq s e
    have hreporting : (s.noted e).reporting = s.reporting := by rw [heq]
    rw [hreporting] at hrest
    exact (traces_noted s e).trans hrest

/-- Between two sessions events are reported under one setup, and nothing else is heard or
printed. -/
structure Notes (s t : Session) (es : List Log.Event) : Prop
    extends Traces s t (es.map (s.reporting, ·)) where
  reporting : t.reporting = s.reporting
  output : t.output = s.output

theorem notes_nil (htraces : Traces s t []) (hreporting : t.reporting = s.reporting)
    (houtput : t.output = s.output) : Notes s t [] :=
  ⟨htraces, hreporting, houtput⟩

theorem notes_notedAll (s : Session) (es : List Log.Event) : Notes s (s.notedAll es) es :=
  ⟨traces_notedAll s es, reporting_notedAll s es, output_notedAll s es⟩

theorem notes_noted (s : Session) (e : Log.Event) : Notes s (s.noted e) [e] := notes_notedAll s [e]

theorem Notes.trans {es fs : List Log.Event} (hst : Notes s t es) (htu : Notes t u fs) :
    Notes s u (es ++ fs) := by
  refine ⟨?_, htu.reporting.trans hst.reporting, htu.output.trans hst.output⟩
  have hboth := hst.toTraces.trans htu.toTraces
  rwa [hst.reporting, ← List.map_append] at hboth

end Traces

/-! ## Looking for the settings -/

section Locating

variable {given : Option Path} {s : Session} {root : Path}

/-- Looking for the project root reports where it comes from, and may fail. -/
theorem perform_projectRoot (given : Option Path) (s : Session) :
    (projectRoot given).perform s =
      ((Settings.projectRoot s.environment given).mapError .home,
        s.notedAll (projectRootEvents s.environment given)) := by
  rw [projectRoot, perform_bind_ok (perform_get s), perform_bind_ok (perform_emitAll _ s)]
  cases Settings.projectRoot s.environment given <;> rfl

theorem perform_projectRoot_ok (h : Settings.projectRoot s.environment given = .ok root) :
    (projectRoot given).perform s =
      (.ok root, s.notedAll (projectRootEvents s.environment given)) := by
  rw [perform_projectRoot, h]
  rfl

theorem perform_defaultsPath (h : Settings.projectRoot s.environment given = .ok root) :
    (defaultsPath given).perform s =
      (.ok (root.child defaultsName), s.notedAll (projectRootEvents s.environment given)) := by
  rw [defaultsPath, perform_bind_ok (perform_projectRoot_ok h), perform_pure]

theorem perform_overridesPath (h : Settings.projectRoot s.environment given = .ok root) :
    (overridesPath given).perform s =
      (.ok (root.child overridesName), s.notedAll (projectRootEvents s.environment given)) := by
  rw [overridesPath, perform_bind_ok (perform_projectRoot_ok h), perform_pure]

end Locating

end Session
end DevMachines
