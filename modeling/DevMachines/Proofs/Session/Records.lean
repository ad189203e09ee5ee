import DevMachines.Profile.Export
import DevMachines.Proofs.Session.Keeping
import Mathlib.Logic.Relation

/-!
# The records that a session writes

What a session has written, on standard error and in files, changes in few ways: a record is
delivered, a notice is told, the file for the log is opened, a file is written as a copy or as an
export.  `RecordsOnly P` says of two sessions that the second comes from the first in these ways, and that
every record on the way has the property `P`.

## Why it is a row of steps

A line on standard error does not show where it comes from, and where records go changes on the way.
So a statement about the text alone could only be about one setup; a row of steps has, for each
record, the session that it was written in.
-/

namespace DevMachines
namespace Session

open Activity Settings

/-! ## Steps -/

/-- One change of what a session has written; a record has the property. -/
inductive WriteStep (P : Log.Fields → Prop) : Session → Session → Prop
  /-- A record goes where records go, if it is at the threshold or above. -/
  | record (s : Session) (rank : Nat) (record : Log.Fields) (h : P record) :
      WriteStep P s (deliver rank record s)
  | notice (s : Session) (audience : Audience) (message : String) :
      WriteStep P s (s.told audience message)
  /-- The file for the log is opened, and made if it is not there. -/
  | opened (s : Session) (file : Path) (files : FileTree)
      (h : s.files.append s.environment.workingDirectory file [] = .ok files) :
      WriteStep P s { s with files }
  /-- A file gets the contents of another one. -/
  | copied (s : Session) (source target : Path) (octets : Text.Octets) (files : FileTree)
      (hread : s.files.read s.environment.workingDirectory source = .ok octets)
      (hwrite : s.files.write s.environment.workingDirectory target octets = .ok files) :
      WriteStep P s { s with files }
  /-- A file gets the Vagrantfile of some profiles. -/
  | exported (s : Session) (profiles : ProfileSet) (target : Path) (files : FileTree)
      (hwrite : s.files.write s.environment.workingDirectory target
        (Text.encode profiles.vagrantfile) = .ok files) :
      WriteStep P s { s with files }
  | nothing {s t : Session} (errors : t.errors = s.errors) (files : t.files = s.files) :
      WriteStep P s t

/-- A record at most adds to standard error. -/
theorem exists_errors_deliver (rank : Nat) (record : Log.Fields) (s : Session) :
    ∃ more, (deliver rank record s).errors = s.errors ++ more := by
  have hfile : ∀ (file : Path) (t : Session), (writeToFile file record t).errors = t.errors := by
    intro file t
    unfold writeToFile
    split
    · split <;> rfl
    · rfl
  have hline : ∀ form, ∃ more, (writeOnErrors form record s).errors = s.errors ++ more := by
    intro form
    unfold writeOnErrors
    split
    · exact ⟨_, rfl⟩
    · exact ⟨"", String.append_empty.symm⟩
  unfold deliver
  split
  · exact ⟨"", String.append_empty.symm⟩
  · split
    · exact ⟨"", String.append_empty.symm⟩
    · next sinks _ =>
      dsimp only
      split
      · rw [hfile]
        exact hline sinks.form
      · exact hline sinks.form

/-- Between two sessions, every record that is written has the property. -/
def RecordsOnly (P : Log.Fields → Prop) : Session → Session → Prop :=
  Relation.ReflTransGen (WriteStep P)

section RecordsOnly

variable {P Q : Log.Fields → Prop} {s t u : Session}

theorem RecordsOnly.refl (s : Session) : RecordsOnly P s s := Relation.ReflTransGen.refl

theorem RecordsOnly.trans (hst : RecordsOnly P s t) (htu : RecordsOnly P t u) :
    RecordsOnly P s u :=
  Relation.ReflTransGen.trans hst htu

theorem WriteStep.recordsOnly (h : WriteStep P s t) : RecordsOnly P s t :=
  Relation.ReflTransGen.single h

theorem recordsOnly_nothing (errors : t.errors = s.errors) (files : t.files = s.files) :
    RecordsOnly P s t :=
  (WriteStep.nothing errors files).recordsOnly

theorem WriteStep.mono (h : WriteStep P s t) (hPQ : ∀ record, P record → Q record) :
    WriteStep Q s t := by
  cases h with
  | record rank record h => exact .record s rank record (hPQ record h)
  | notice audience message => exact .notice s audience message
  | opened file files h => exact .opened s file files h
  | copied source target octets files hread hwrite =>
    exact .copied s source target octets files hread hwrite
  | exported profiles target files hwrite => exact .exported s profiles target files hwrite
  | nothing errors files => exact .nothing errors files

theorem RecordsOnly.mono (h : RecordsOnly P s t) (hPQ : ∀ record, P record → Q record) :
    RecordsOnly Q s t := by
  induction h with
  | refl => exact .refl s
  | tail _ hstep ih => exact ih.trans (hstep.mono hPQ).recordsOnly

/-- What is on standard error stays there. -/
theorem RecordsOnly.exists_errors_append (h : RecordsOnly P s t) :
    ∃ rest, t.errors = s.errors ++ rest := by
  induction h with
  | refl => exact ⟨"", (String.append_empty).symm⟩
  | @tail t u _ hstep ih =>
    obtain ⟨rest, hrest⟩ := ih
    have hmore : ∃ more, u.errors = t.errors ++ more := by
      cases hstep with
      | record rank record h => exact exists_errors_deliver rank record t
      | notice audience message =>
        cases audience with
        | errors => exact ⟨_, rfl⟩
        | nobody | caller | output => exact ⟨"", (String.append_empty).symm⟩
      | opened | copied | exported => exact ⟨"", (String.append_empty).symm⟩
      | nothing errors files => exact ⟨"", errors.trans (String.append_empty).symm⟩
    obtain ⟨more, hmore⟩ := hmore
    exact ⟨rest ++ more, by rw [hmore, hrest, String.append_assoc]⟩

/-- An event that is noted is at most one record. -/
theorem recordsOnly_noted {e : Log.Event}
    (h : P (Log.plainRecord s.reporting.context s.time e)) : RecordsOnly P s (s.noted e) := by
  unfold noted
  by_cases hlistening : s.listening = true
  · rw [if_pos hlistening]
    exact recordsOnly_nothing rfl rfl
  · rw [if_neg hlistening]
    exact (WriteStep.record s _ _ h).recordsOnly

end RecordsOnly

/-! ## The command that a record names -/

/-- Does a record name a command? -/
def NamesCommand (name : String) (record : Log.Fields) : Prop :=
  record.lookup "command" = some (.text name)

/-- **No event that is reported has a command of its own**, and none has a field twice. -/
theorem IsReported.keys_fields {e : Log.Event} (h : IsReported e) :
    (keys e.fields).Nodup ∧ "command" ∉ keys e.fields := by
  cases h with
  | @root environment given e he =>
    unfold projectRootEvents at he
    split at he
    · obtain rfl := List.mem_singleton.mp he
      show ["root"].Nodup ∧ _ ∉ ["root"]
      decide
    · cases he
  | @loading path result e he =>
    unfold loadEvents at he
    split at he
    · obtain rfl := List.mem_singleton.mp he
      show ["path"].Nodup ∧ _ ∉ ["path"]
      decide
    · obtain rfl := List.mem_singleton.mp he
      show ["path", "keys"].Nodup ∧ _ ∉ ["path", "keys"]
      decide
    · cases he
  | missingKey key sources =>
    show ["key", "sources"].Nodup ∧ _ ∉ ["key", "sources"]
    decide
  | opening root =>
    show ["operation", "root"].Nodup ∧ _ ∉ ["operation", "root"]
    decide
  | closing root elapsed failure =>
    cases failure with
    | none =>
      show ["operation", "root", "duration_ms"].Nodup ∧ _ ∉ ["operation", "root", "duration_ms"]
      decide
    | some failure =>
      show ["operation", "root", "error", "error_type", "duration_ms"].Nodup ∧
        _ ∉ ["operation", "root", "error", "error_type", "duration_ms"]
      decide
  | workspace w =>
    cases w with
    | «at» path =>
      show ["host_path"].Nodup ∧ _ ∉ ["host_path"]
      decide
    | notText kind =>
      show ["key", "value_type"].Nodup ∧ _ ∉ ["key", "value_type"]
      decide
    | unset =>
      show ["key"].Nodup ∧ _ ∉ ["key"]
      decide

/-- The command of a record comes from the context. -/
theorem IsReported.lookup_command {e : Log.Event} (h : IsReported e) (context : Log.Fields)
    (time : String) : (Log.plainRecord context time e).lookup "command" =
      (context.lookup "command").map Log.decodeOctets := by
  obtain ⟨hnodup, hnone⟩ := h.keys_fields
  rw [Log.lookup_plainRecord hnodup, lookup_eq_none_iff.mpr hnone]
  rfl

/-- Between two sessions the context stays, and if it names a command, every record does. -/
structure TellsCommand (name : String) (s t : Session) : Prop where
  context : t.reporting.context = s.reporting.context
  records : s.reporting.context.lookup "command" = some (.text name) →
    RecordsOnly (NamesCommand name) s t

theorem tellsCommand_nothing {name : String} {s t : Session}
    (context : t.reporting.context = s.reporting.context) (errors : t.errors = s.errors)
    (files : t.files = s.files) : TellsCommand name s t :=
  ⟨context, fun _ => recordsOnly_nothing errors files⟩

/-- **Whatever is reported in the book-keeping names the command of the context.** -/
theorem bookkeeping_tellsCommand (name : String) (audience : Audience) :
    Bookkeeping (TellsCommand name) audience where
  refl _ := tellsCommand_nothing rfl rfl rfl
  trans hst htu :=
    ⟨htu.context.trans hst.context, fun h =>
      (hst.records h).trans (htu.records (hst.context ▸ h))⟩
  noted s e he := by
    refine ⟨congrArg (·.context) (reporting_notedAll s [e]), fun h => recordsOnly_noted ?_⟩
    rw [NamesCommand, he.lookup_command, h]
    rfl
  told s message := by
    refine ⟨?_, fun _ => (WriteStep.notice s audience message).recordsOnly⟩
    cases audience <;> rfl
  clock _ _ := tellsCommand_nothing rfl rfl rfl
  interruption _ _ := tellsCommand_nothing rfl rfl rfl

end Session
end DevMachines
