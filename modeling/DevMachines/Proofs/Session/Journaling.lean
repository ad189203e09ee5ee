import DevMachines.Proofs.Session.Journal

/-!
# Every record goes once to where records go

What a session writes is the journal of what it is asked for.  Standard error gets each entry once,
the file of the last setup gets each entry once as JSON on one line, and no other file gets anything.

Main statement: `askAll_writesJournal`, from one request (`exists_answers`) by induction.

## What is not promised

Before the first setup there are no destinations, and what happens to a record then is the affair of
whoever made it.  So the journal begins with the first setup.
-/

namespace DevMachines
namespace Session

open Activity
open CommandLine (LogOptions logPath configureEnd_configure)

/-! ## One request -/

/-- The state of a session after requests. -/
structure Follows (s : Session) (history : List LogRequest) (t : Session) : Prop where
  environment : t.environment = s.environment
  time : t.time = s.time
  listening : t.listening = false
  context : t.reporting.context = lastContext history
  target : (t.reporting.sinks.map fun sinks => (t.reporting.threshold, sinks)) =
    lastTarget s history
  /-- The directories are the same, so paths lead where they led. -/
  same : s.files.SameBut (IsNamed s history) t.files
  /-- The file of the last setup can be added to. -/
  opened : ∀ sinks file, t.reporting.sinks = some sinks → sinks.file = some file →
    ∃ place, s.files.destination s.environment.workingDirectory file = .ok place ∧
      s.files.get? place ≠ some .directory ∧ IsNamed s history place

section Step

variable {s t : Session} {history : List LogRequest} {r : LogRequest}

theorem IsFresh.follows (h : s.IsFresh) : Follows s [] s where
  environment := rfl
  time := rfl
  listening := h.listening
  context := h.context
  target := by rw [h.sinks]; rfl
  same := .refl _ _
  opened sinks file hsinks := by rw [h.sinks] at hsinks; cases hsinks

/-- Logging an event may change standard error, and files. -/
theorem Follows.of_event (h : Follows s history t) {event : Log.Event}
    (hevent : r.event? = some event) {files : FileTree} (errors : String)
    (hfiles : t.files.SameBut (IsNamed s history) files) :
    Follows s (history ++ [r]) { t with files, errors } where
  environment := h.environment
  time := h.time
  listening := h.listening
  context := h.context.trans (last_concat_of_event (s := s) hevent).2.symm
  target := h.target.trans (last_concat_of_event hevent).1.symm
  same := (h.same.trans hfiles).mono fun _ hplace => hplace.append [r]
  opened sinks file hsinks hfile := by
    obtain ⟨place, hplace, hdirectory, hnamed⟩ := h.opened sinks file hsinks hfile
    exact ⟨place, hplace, hdirectory, hnamed.append [r]⟩

/-- A setup leads where it would have led in the beginning. -/
theorem Follows.leadsTo_iff (h : Follows s history t) (options : LogOptions) (place : Place) :
    options.LeadsTo t place ↔ options.LeadsTo s place := by
  unfold LogOptions.LeadsTo logPath
  simp only [h.environment, h.same.destination_eq_ok_iff]

/-- What logging an event comes down to. -/
theorem perform_of_event (hlistening : t.listening = false) {event : Log.Event}
    (hevent : r.event? = some event) :
    (t.reporting.sinks = none →
      ∃ errors, r.activity.perform t = (.ok (), { t with errors })) ∧
    ∀ sinks, t.reporting.sinks = some sinks → r.activity.perform t =
      (.ok (), deliver event.severity.rank
        (Log.plainRecord t.reporting.context t.time event) t) := by
  cases r with
  | configure | bind => cases hevent
  | log e args =>
    obtain ⟨name, hname, rfl⟩ := Option.map_eq_some_iff.mp hevent
    have hrun : (LogRequest.log e args).activity.perform t = (.ok (), deliver e.severity.rank
        (Log.plainRecord t.reporting.context t.time { e with name }) t) := by
      show (emitWith args e).perform t = _
      rw [perform_emitWith, eq_ok_of_toOption hname]
      dsimp only
      rw [noted, hlistening, if_neg Bool.false_ne_true]
    refine ⟨fun hnone => ⟨t.errors, ?_⟩, fun _ _ => hrun⟩
    rw [hrun, deliver, hnone]
    split <;> rfl
  | logForeign severity name args =>
    obtain ⟨text, htext, rfl⟩ := Option.map_eq_some_iff.mp hevent
    have hrecord := Log.recordOf_eq_ok (e := ⟨severity, name, []⟩) (eq_ok_of_toOption htext)
      t.reporting.context t.time
    have hname := Log.lookup_plainRecord (e := ⟨severity, text, []⟩) List.nodup_nil
      t.reporting.context t.time "event"
    generalize Log.plainRecord t.reporting.context t.time ⟨severity, text, []⟩ = record
      at hrecord hname ⊢
    have hrun : (LogRequest.logForeign severity name args).activity.perform t =
        (.ok (), if severity.rank < t.reporting.threshold then t
          else t.reporting.sinks.elim { t with errors := t.errors ++ (text ++ "\n") }
            fun _ => deliver severity.rank record t) := by
      have hmodify : ∀ f : Session → Session,
          (modify f : Activity Unit).perform t = (.ok (), f t) := fun _ => rfl
      rw [LogRequest.activity, emitForeign, hmodify]
      simp only [hlistening, Bool.false_or, decide_eq_true_eq, hrecord, hname]
      cases t.reporting.sinks <;> rfl
    refine ⟨fun hnone => ?_, fun sinks hsome => ?_⟩
    · rw [hrun, hnone]
      split
      · exact ⟨t.errors, rfl⟩
      · exact ⟨_, rfl⟩
    · rw [hrun, hsome]
      split
      · next hrank => rw [deliver, if_pos hrank]
      · rfl

/-- A record that can be written is written wherever it goes. -/
theorem exists_deliver {sinks : Log.Sinks} (hsinks : t.reporting.sinks = some sinks) {rank : Nat}
    (hrank : ¬ rank < t.reporting.threshold) {record : Log.Fields} {text line : String}
    (htext : Log.line sinks.form record = .ok text) (hline : Log.line .json record = .ok line)
    (hopened : ∀ file, sinks.file = some file → ∃ place,
      t.files.destination t.environment.workingDirectory file = .ok place ∧
        t.files.get? place ≠ some .directory) :
    ∃ files, deliver rank record t = { t with files, errors := t.errors ++ (text ++ "\n") } ∧
      match sinks.file with
      | none => files = t.files
      | some file => t.files.append t.environment.workingDirectory file
          (Text.encode (line ++ "\n")) = .ok files := by
  have hshown : writeOnErrors sinks.form record t =
      { t with errors := t.errors ++ (text ++ "\n") } := by
    rw [writeOnErrors, htext]
  rw [deliver, if_neg hrank, hsinks]
  dsimp only
  rw [hshown]
  cases hfile : sinks.file with
  | none => exact ⟨t.files, rfl, rfl⟩
  | some file =>
    obtain ⟨place, hplace, hdirectory⟩ := hopened file hfile
    have happend : t.files.append t.environment.workingDirectory file
        (Text.encode (line ++ "\n")) = .ok _ :=
      FileTree.append_eq_ok_iff.mpr ⟨place, hplace, hdirectory, rfl⟩
    refine ⟨_, ?_, happend⟩
    dsimp only
    rw [writeToFile, hline]
    dsimp only
    rw [happend]

/-- An entry is written on standard error, and added to the file of the last setup. -/
theorem Follows.exists_deliver_entry (h : Follows s history t) {entry : Entry}
    (hsinks : t.reporting.sinks = some entry.sinks) (hwritten : entry.IsWritten) {rank : Nat}
    (hrank : ¬ rank < t.reporting.threshold) :
    ∃ files, deliver rank entry.record t = { t with files, errors := t.errors ++ entry.shown } ∧
      Gains s history [entry] t.files files := by
  obtain ⟨text, htext, hshown⟩ := hwritten.shown
  obtain ⟨line, hline, -, hadded⟩ := hwritten.added
  have hplaces : ∀ file, entry.sinks.file = some file → ∃ place,
      t.files.destination t.environment.workingDirectory file = .ok place ∧
        t.files.get? place ≠ some .directory := by
    intro file hfile
    obtain ⟨place, hplace, hdirectory, -⟩ := h.opened entry.sinks file hsinks hfile
    rw [h.environment]
    exact ⟨place, h.same.destination_eq_ok_iff.mpr hplace,
      fun hthere => hdirectory ((h.same.directory_iff place).mp hthere)⟩
  obtain ⟨files, hdelivered, hfiles⟩ := exists_deliver hsinks hrank htext hline hplaces
  rw [← hshown] at hdelivered
  rw [← hadded] at hfiles
  refine ⟨files, hdelivered, ?_⟩
  cases hfile : entry.sinks.file with
  | none =>
    rw [hfile] at hfiles
    obtain rfl : files = t.files := hfiles
    refine ⟨.refl _ _, fun _ h => h, fun place => ?_⟩
    have hnowhere : ¬ entry.GoesTo s place := by
      rintro ⟨file, hsome, -⟩
      rw [hfile] at hsome
      cases hsome
    rw [gained, List.filter_cons_of_neg (by simpa using hnowhere)]
    exact (List.append_nil _).symm
  | some file =>
    rw [hfile] at hfiles
    obtain ⟨place, hplace, -, hnamed⟩ := h.opened entry.sinks file hsinks hfile
    have hthere := h.same.destination_eq_ok_iff.mpr hplace
    rw [← h.environment] at hthere
    refine gains_of_append hfiles hthere hnamed fun other => ?_
    have hgoes : entry.GoesTo s other ↔ other = place := by
      unfold Entry.GoesTo
      simp only [hfile, Option.mem_some_iff, exists_eq_left', hplace]
      exact ⟨fun hsame => (Option.some.inj hsame).symm, fun hsame => congrArg some hsame.symm⟩
    rw [gained]
    by_cases hother : other = place
    · rw [List.filter_cons_of_pos (by simpa using hgoes.mpr hother), if_pos hother]
      exact List.append_nil _
    · rw [List.filter_cons_of_neg (by simpa using fun h => hother (hgoes.mp h)), if_neg hother]
      rfl

/-- What a request does after others: it succeeds, and its entry is written. -/
structure Answers (s : Session) (history : List LogRequest) (r : LogRequest) (t u : Session) :
    Prop where
  performs : r.activity.perform t = (.ok (), u)
  follows : Follows s (history ++ [r]) u
  gains : Gains s (history ++ [r]) (entryOf s history r).toList t.files u.files
  errors : lastTarget s history ≠ none →
    u.errors = t.errors ++ shownAll (entryOf s history r).toList

/-- The entry of an event goes to the destinations of the last setup. -/
theorem entryOf_of_event {event : Log.Event} (hevent : r.event? = some event) :
    entryOf s history r = (lastTarget s history).bind fun (threshold, sinks) =>
      if event.severity.rank < threshold then none
      else some ⟨sinks, lastContext history, s.time, event⟩ := by
  rw [entryOf, hevent]
  rfl

theorem exists_answers_event (h : Follows s history t) (hfits : r.Fits) {event : Log.Event}
    (hevent : r.event? = some event) : ∃ u, Answers s history r t u := by
  obtain ⟨hbefore, hafter⟩ := perform_of_event h.listening hevent
  have htarget := h.target
  have hentry : entryOf s history r = _ := entryOf_of_event hevent
  cases hsinks : t.reporting.sinks with
  | none =>
    rw [hsinks] at htarget
    obtain ⟨errors, hrun⟩ := hbefore hsinks
    rw [← htarget] at hentry
    refine ⟨_, hrun, h.of_event hevent errors (.refl _ _), ?_, fun hsome => ?_⟩
    · rw [hentry]
      exact .refl ..
    · exact absurd htarget.symm hsome
  | some sinks =>
    rw [hsinks] at htarget
    have hrun := hafter sinks hsinks
    rw [← htarget] at hentry
    dsimp only [Option.map_some, Option.bind_some] at hentry
    by_cases hrank : event.severity.rank < t.reporting.threshold
    · rw [if_pos hrank] at hentry
      rw [deliver, if_pos hrank] at hrun
      refine ⟨t, hrun, h.of_event hevent t.errors (.refl _ _), ?_, fun _ => ?_⟩
      · rw [hentry]
        exact .refl ..
      · rw [hentry]
        exact String.append_empty.symm
    · rw [if_neg hrank] at hentry
      rw [h.context, h.time] at hrun
      obtain ⟨files, hdelivered, hgains⟩ :=
        h.exists_deliver_entry hsinks (isWritten_of_entryOf hfits hentry) hrank
      refine ⟨_, hrun.trans (congrArg (Prod.mk _) hdelivered), h.of_event hevent _ hgains.same, ?_,
        fun _ => ?_⟩
      · rw [hentry]
        exact hgains.append [r]
      · rw [hentry]
        exact congrArg (t.errors ++ ·) (shownAll_singleton _).symm

theorem exists_answers_configure (h : Follows s history t) {options : LogOptions}
    (hok : ((LogRequest.configure options).activity.perform t).1 = .ok ()) :
    ∃ u, Answers s history (.configure options) t u := by
  have hend := configureEnd_configure options t
  rcases hrun : (configure options.level options.json options.file).perform t with ⟨result, u⟩
  rw [hrun] at hend
  cases hend with
  | failed failure u hfiles hcause =>
    rw [LogRequest.activity, hrun] at hok
    cases hok
  | done threshold files hopened hlevel =>
    have hnamed : ∀ place, options.LeadsTo t place →
        IsNamed s (history ++ [.configure options]) place := fun place hplace =>
      ⟨options, List.mem_append_right _ (List.mem_singleton_self _),
        (h.leadsTo_iff options place).mp hplace⟩
    have hsame := hopened.sameBut.mono hnamed
    refine ⟨_, hrun, ⟨h.environment, h.time, h.listening, ?_, ?_, ?_, ?_⟩, ?_, fun _ => ?_⟩
    · rw [lastContext_concat]
      exact h.context
    · rw [lastTarget_concat, LogRequest.target?, hlevel]
      show some (threshold, options.sinks t) = some (threshold, options.sinks s)
      unfold LogOptions.sinks logPath
      rw [h.environment]
    · exact (h.same.mono fun _ hplace => hplace.append _).trans hsame
    · rintro sinks path hsinks hpath
      obtain rfl : options.sinks t = sinks := Option.some.inj hsinks
      obtain ⟨file, hfile, rfl⟩ := Option.map_eq_some_iff.mp hpath
      unfold LogOptions.HasOpened at hopened
      rw [hfile] at hopened
      obtain ⟨place, hplace, hdirectory, -⟩ := FileTree.append_eq_ok_iff.mp hopened
      refine ⟨place, ?_, fun hthere => hdirectory ((h.same.directory_iff place).mpr hthere),
        hnamed place ⟨file, hfile, hplace⟩⟩
      rw [← h.environment]
      exact h.same.destination_eq_ok_iff.mp hplace
    · unfold LogOptions.HasOpened at hopened
      cases hfile : options.file with
      | none =>
        rw [hfile] at hopened
        obtain rfl : files = t.files := hopened
        exact .refl ..
      | some file =>
        rw [hfile] at hopened
        obtain ⟨place, hplace, -, -⟩ := FileTree.append_eq_ok_iff.mp hopened
        refine gains_of_append hopened hplace (hnamed place ⟨file, hfile, hplace⟩) fun other => ?_
        exact (ite_self _).symm
    · exact String.append_empty.symm

theorem exists_answers_bind (h : Follows s history t) (command : Option String) (root : String) :
    ∃ u, Answers s history (.bind command root) t u := by
  refine ⟨_, rfl, ⟨h.environment, h.time, h.listening, ?_, ?_, ?_, ?_⟩, .refl .., fun _ => ?_⟩
  · rw [lastContext_concat]
    cases command with
    | none => rfl
    | some name =>
      have htext : (if name.isEmpty then "help" else name) =
          ((some name).filter (· ≠ "")).getD "help" := by
        by_cases hname : name = "" <;> simp [Option.filter, hname]
      show [("command", Value.text (if name.isEmpty then "help" else name)), _] = _
      rw [htext]
      rfl
  · rw [lastTarget_concat]
    exact h.target
  · exact h.same.mono fun _ hplace => hplace.append _
  · intro sinks file hsinks hfile
    obtain ⟨place, hplace, hdirectory, hnamed⟩ := h.opened sinks file hsinks hfile
    exact ⟨place, hplace, hdirectory, hnamed.append _⟩
  · exact String.append_empty.symm

/-- **Each request is answered as it should be.** -/
theorem exists_answers (h : Follows s history t) (hfits : r.Fits)
    (hsetup : ∀ options, r = .configure options → (r.activity.perform t).1 = .ok ()) :
    ∃ u, Answers s history r t u := by
  cases r with
  | configure options => exact exists_answers_configure h (hsetup options rfl)
  | bind command root => exact exists_answers_bind h command root
  | log e args =>
    obtain ⟨⟨name, hname⟩, -⟩ := id hfits
    have hevent : (LogRequest.log e args).event? = some { e with name } := by
      rw [LogRequest.event?, hname]
      rfl
    exact exists_answers_event h hfits hevent
  | logForeign severity name args =>
    obtain ⟨text, htext⟩ := id hfits
    have hevent : (LogRequest.logForeign severity name args).event? =
        some ⟨severity, text, []⟩ := by
      rw [LogRequest.event?, htext]
      rfl
    exact exists_answers_event h hfits hevent

end Step

/-! ## All requests -/

section Run

variable {s t u : Session} {history requests : List LogRequest}

/-- **Requests are answered one after another**, and what is written is their journal. -/
theorem exists_askAll (h : Follows s history t) (hfits : ∀ r ∈ requests, r.Fits)
    (hsetups : SetupsSucceed t requests) :
    ∃ u, (askAll requests).perform t = (.ok (), u) ∧ Follows s (history ++ requests) u ∧
      Gains s (history ++ requests) (journal s history requests) t.files u.files ∧
      (lastTarget s history ≠ none →
        u.errors = t.errors ++ shownAll (journal s history requests)) := by
  induction requests generalizing history t with
  | nil =>
    rw [List.append_nil]
    exact ⟨t, rfl, h, .refl .., fun _ => String.append_empty.symm⟩
  | cons r requests ih =>
    rw [List.forall_mem_cons] at hfits
    obtain ⟨v, hanswers⟩ := exists_answers h hfits.1 hsetups.1
    have hrest : SetupsSucceed v requests := by
      have hsecond := hsetups.2
      rwa [hanswers.performs] at hsecond
    obtain ⟨u, hrun, hfollows, hgains, herrors⟩ := ih hanswers.follows hfits.2 hrest
    have hall := hanswers.gains.trans hgains
    rw [List.append_assoc, List.singleton_append] at hfollows hall
    refine ⟨u, ?_, hfollows, hall, fun htarget => ?_⟩
    · rw [askAll, perform_bind_ok hanswers.performs]
      exact hrun
    · have hnext : lastTarget s (history ++ [r]) ≠ none := by
        rw [lastTarget_concat]
        intro hnone
        exact htarget (Option.or_eq_none_iff.mp hnone).2
      rw [herrors hnext, hanswers.errors htarget, journal, shownAll_append, String.append_assoc]

theorem SetupsSucceed.of_append (h : SetupsSucceed s (before ++ after)) :
    SetupsSucceed s before ∧
      ∀ t, (askAll before).perform s = (.ok (), t) → SetupsSucceed t after := by
  induction before generalizing s with
  | nil =>
    refine ⟨trivial, fun t hrun => ?_⟩
    obtain rfl : s = t := congrArg Prod.snd hrun
    exact h
  | cons r before ih =>
    obtain ⟨hfirst, hrest⟩ := ih h.2
    refine ⟨⟨h.1, hfirst⟩, fun t hrun => ?_⟩
    rcases hr : r.activity.perform s with ⟨failure | done, v⟩
    · rw [askAll, perform_bind_error hr] at hrun
      cases congrArg Prod.fst hrun
    · rw [askAll, perform_bind_ok hr] at hrun
      rw [hr] at hrest
      exact hrest t hrun

/-- Where each entry of a journal comes from. -/
theorem exists_of_mem_journal {entry : Entry} (h : entry ∈ journal s history requests) :
    ∃ before r after, requests = before ++ r :: after ∧
      entryOf s (history ++ before) r = some entry := by
  induction requests generalizing history with
  | nil => cases h
  | cons r requests ih =>
    rcases List.mem_append.mp h with hfirst | hrest
    · refine ⟨[], r, requests, rfl, ?_⟩
      rw [List.append_nil]
      exact Option.mem_toList.mp hfirst
    · obtain ⟨before, other, after, rfl, hentry⟩ := ih hrest
      refine ⟨r :: before, other, after, rfl, ?_⟩
      rwa [List.append_assoc, List.singleton_append] at hentry

/-- Without another setup all entries go where the last setup says. -/
theorem lastTarget_append_of_none (hnone : ∀ r ∈ requests, r.target? s = none) :
    lastTarget s (history ++ requests) = lastTarget s history := by
  have hnothing : requests.filterMap (LogRequest.target? s) = [] :=
    List.filterMap_eq_nil_iff.mpr hnone
  unfold lastTarget
  rw [List.filterMap_append, hnothing, List.append_nil]

/-- A setup that succeeds is the last one after it. -/
theorem exists_lastTarget {options : LogOptions}
    (h : SetupsSucceed t [.configure options]) (s : Session) (history : List LogRequest) :
    ∃ threshold, lastTarget s (history ++ [.configure options]) =
      some (threshold, options.sinks s) := by
  have hok := h.1 options rfl
  have hend := configureEnd_configure options t
  rcases hrun : (configure options.level options.json options.file).perform t with ⟨result, u⟩
  rw [hrun] at hend
  rw [LogRequest.activity, hrun] at hok
  cases hend with
  | failed failure u hfiles hcause => cases hok
  | done threshold files hopened hlevel =>
    refine ⟨threshold, ?_⟩
    rw [lastTarget_concat, LogRequest.target?, hlevel]
    rfl

/-- Entries that go to a file as they are shown add to it what is shown. -/
theorem gained_eq_encode {place : Place} {entries : List Entry}
    (h : ∀ entry ∈ entries, entry.GoesTo s place ∧ entry.shown = entry.added) :
    gained s place entries = Text.encode (shownAll entries) := by
  have hall : entries.filter (Entry.GoesTo s place) = entries :=
    List.filter_eq_self.mpr fun entry hentry => by simpa using (h entry hentry).1
  unfold gained shownAll
  rw [hall, Text.encode_eq, String.toList_ofList, List.flatMap_assoc]
  refine List.flatMap_congr fun entry hentry => ?_
  rw [← (h entry hentry).2, Text.encode_eq]

end Run

/-- **Every record goes once to where records go, and nowhere else.**  From a session that nothing has
been asked of, requests that can be met succeed.  What the ones after a setup write is their journal:
on standard error every entry once, in each file the entries that go to it, each as one line of
JSON, and in no other file anything.  No file loses what it had.  Until the next setup, standard error
and the file get the same if standard error gets JSON. -/
theorem askAll_writesJournal {s : Session} (hfresh : s.IsFresh) {before after : List LogRequest}
    {options : LogOptions}
    (hfits : ∀ r ∈ before ++ .configure options :: after, r.Fits)
    (hsetups : SetupsSucceed s (before ++ .configure options :: after)) :
    let earlier := before ++ [.configure options]
    let entries := journal s earlier after
    ∃ u t, (askAll earlier).perform s = (.ok (), u) ∧ (askAll after).perform u = (.ok (), t) ∧
      t.errors = u.errors ++ shownAll entries ∧
      Gains s (earlier ++ after) entries u.files t.files ∧
      Gains s earlier (journal s [] earlier) s.files u.files ∧
      (∀ entry ∈ entries, entry.IsWritten) ∧
      ((∀ r ∈ after, ∀ other, r ≠ .configure other) → options.json = true →
        ∀ place, options.LeadsTo s place → ∃ text, t.errors = u.errors ++ text ∧
          t.files.contentsAt place = u.files.contentsAt place ++ Text.encode text) := by
  intro earlier entries
  have hall : before ++ .configure options :: after = earlier ++ after := by
    simp [earlier]
  rw [hall] at hfits hsetups
  rw [List.forall_mem_append] at hfits
  obtain ⟨hearlier, hafter⟩ := hsetups.of_append
  obtain ⟨v, hbefore, -, -, -⟩ := exists_askAll hfresh.follows
    (List.forall_mem_append.mp hfits.1).1 hearlier.of_append.1
  obtain ⟨threshold, htarget⟩ := exists_lastTarget (hearlier.of_append.2 v hbefore) s before
  obtain ⟨u, hfirst, hfollows, hbegun, -⟩ := exists_askAll hfresh.follows hfits.1 hearlier
  obtain ⟨t, hsecond, -, hgains, herrors⟩ := exists_askAll hfollows hfits.2 (hafter u hfirst)
  have hshown := herrors (by rw [List.nil_append, htarget]; exact nofun)
  rw [List.nil_append] at hbegun hgains hshown
  have hwritten : ∀ entry ∈ entries, entry.IsWritten := by
    intro entry hentry
    obtain ⟨first, r, rest, rfl, hr⟩ := exists_of_mem_journal hentry
    exact isWritten_of_entryOf (hfits.2 r (by simp)) hr
  refine ⟨u, t, hfirst, hsecond, hshown, hgains, hbegun, hwritten, ?_⟩
  intro hnone hjson place hplace
  refine ⟨shownAll entries, hshown, ?_⟩
  rw [hgains.contents, gained_eq_encode]
  intro entry hentry
  have hsinks : entry.sinks = options.sinks s := by
    obtain ⟨first, r, rest, hsplit, hr⟩ := exists_of_mem_journal hentry
    obtain ⟨event, threshold', sinks, -, hlast, -, rfl⟩ := exists_of_entryOf hr
    have hfirstNone : ∀ r ∈ first, r.target? s = none := by
      intro r hr
      have hother := hnone r (by rw [hsplit]; exact List.mem_append_left _ hr)
      cases r with
      | configure options => exact absurd rfl (hother options)
      | bind | log | logForeign => rfl
    rw [lastTarget_append_of_none hfirstNone, htarget] at hlast
    exact (Prod.mk.inj (Option.some.inj hlast)).2.symm
  have hform : entry.sinks.form = .json := by
    rw [hsinks]
    exact if_pos hjson
  refine ⟨?_, (hwritten entry hentry).alike hform⟩
  obtain ⟨file, hfile, hleads⟩ := hplace
  refine ⟨logPath s file, ?_, ?_⟩
  · rw [hsinks]
    exact Option.map_eq_some_iff.mpr ⟨file, hfile, rfl⟩
  · rw [hleads]
    rfl

/-- A session that nothing has been asked of. -/
def quietSession : Session where
  environment := { home := "/home/tester", configuredRoot := none, workingDirectory := ⟨1, []⟩ }
  files := ⟨[(["var"], .directory)]⟩
  time := "2000-01-01T00:00:00.000000Z"

/-- Requests after a setup with the log in one file; another setup moves it to another one. -/
def laterRequests : List LogRequest :=
  [.log ⟨.warning, "copied %d", [("path", .text "/srv/p")]⟩ [.int 2],
    .log ⟨.debug, "skipped", []⟩ [],
    .bind none "/srv/q",
    .configure { level := "debug", file := some ⟨0, ["var", "all.log"]⟩ },
    .logForeign .error "lost" []]

theorem askAll_writesJournal_laterRequests :
    let earlier : List LogRequest := [.bind (some "init") "/srv/p",
      .configure { level := "info", json := true, file := some ⟨0, ["run.log"]⟩ }]
    let entries := journal quietSession earlier laterRequests
    ∃ u t, (askAll earlier).perform quietSession = (.ok (), u) ∧
      (askAll laterRequests).perform u = (.ok (), t) ∧ t.errors = u.errors ++ shownAll entries ∧
      entries.map (fun entry => (entry.event.name,
        (entry.context.lookup "root").bind Settings.textOfKey, entry.sinks.file)) =
          [("copied 2", some "/srv/p", some ⟨1, ["run.log"]⟩),
            ("lost", some "/srv/q", some ⟨1, ["var", "all.log"]⟩)] := by
  intro earlier entries
  have hfits : ∀ r ∈ earlier ++ laterRequests, r.Fits := by
    simp only [earlier, laterRequests, List.cons_append, List.nil_append, List.forall_mem_cons]
    refine ⟨trivial, trivial, ⟨⟨"copied 2", by decide +kernel⟩, by decide, ?_⟩,
      ⟨⟨"skipped", rfl⟩, List.nodup_nil, List.forall_mem_nil _⟩, trivial, trivial,
      ⟨"lost", rfl⟩, List.forall_mem_nil _⟩
    exact List.forall_mem_singleton.mpr (hasJsonForm_text "/srv/p")
  have hsetups : SetupsSucceed quietSession (earlier ++ laterRequests) := by
    refine ⟨?_, ?_, ?_, ?_, ?_, ?_, ?_, trivial⟩
    all_goals rintro options ⟨⟩
    · decide +kernel
    · decide +kernel
  obtain ⟨u, t, hfirst, hsecond, hshown, -⟩ := @askAll_writesJournal quietSession ⟨rfl, rfl, rfl⟩
    [.bind (some "init") "/srv/p"] laterRequests
    { level := "info", json := true, file := some ⟨0, ["run.log"]⟩ } hfits hsetups
  exact ⟨u, t, hfirst, hsecond, hshown, by decide +kernel⟩

end Session
end DevMachines
