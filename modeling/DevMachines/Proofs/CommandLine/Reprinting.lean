import DevMachines.Proofs.CommandLine.Changing
import DevMachines.Proofs.CommandLine.Independence
import DevMachines.Proofs.Session.ResolvedValues

/-!
# Using the settings that are printed

The settings of a project are printed as YAML behind a panel that names their sources.  This text is a
settings document: saved and loaded it gives the same keys in the same order and the same values, whatever
these are and however they are nested and shared.

Main statement: `run_printsDocument`.

## Where the text is none

Writing knows more tags than reading does.  The items of an ordered map, and those of a list of pairs,
are pairs, and a pair is written with a tag of its own, which no document may have: what is printed of
such settings is refused when it is loaded (`run_printsNoDocument_pairs`).  Two kinds of text are not read
as they are written, either: keys with many escapes, and texts that are folded where lines are indented to
the width of the page.  `AreWritable` leaves out these three, and nothing else.
-/

namespace DevMachines
namespace CommandLine

open Session Activity

/-! ## What is printed -/

theorem valueEntries_eq (settings : Settings.MergedSettings) :
    valueEntries settings = Settings.Entries.values settings.entries :=
  List.map_congr_left fun _ _ => rfl

/-- What is printed of settings, behind what has been printed before: a panel with their sources, each
on a line, and their text. -/
def PrintsSettings (columns : Nat) (settings : Settings.MergedSettings) (s t : Session) : Prop :=
  ∃ sources,
    Terminal.render
      ("\n".intercalate (settings.sources.map fun p => escaped p.toText)).toList = .ok sources ∧
    t.output = s.output ++
      (Terminal.panel columns "Settings sources" sources ++ Yaml.render (valueEntries settings))

/-- The panel of the sources is printed, unless they make no text. -/
theorem perform_printSources (columns : Nat) (settings : Settings.MergedSettings) (s : Session) :
    (printSources columns settings).perform s =
      match Terminal.render
        ("\n".intercalate (settings.sources.map fun p => escaped p.toText)).toList with
      | .ok text =>
          (.ok (), { s with output := s.output ++ Terminal.panel columns "Settings sources" text })
      | .error fault => (.error (markupFailure fault), s) := by
  rw [printSources]
  generalize Terminal.render
    ("\n".intercalate (settings.sources.map fun p => escaped p.toText)).toList = sources
  cases sources with
  | ok text => rfl
  | error fault => rfl

/-- Settings that are not empty are loaded, and then printed, unless they hold an integer that is too
long. -/
theorem exists_of_runSettings_ok {columns : Nat} {given : Option Path} {s u : Session}
    (h : (runSettings columns given .yaml).perform s = (.ok (), u)) :
    ∃ settings, ((loadSettings given .errors).perform s).1 = .ok settings ∧
      s.ResolvesTo given settings ∧
      (settings.entries ≠ [] →
        settings.toValue.holdsLongInt = false ∧ PrintsSettings columns settings s u) := by
  have hquiet := keeps_loadSettings (bookkeeping_output (by decide : Audience.errors ≠ .output)) given s
  rw [runSettings] at h
  rcases hload : (loadSettings given .errors).perform s with ⟨failure | settings, t⟩
  · rw [perform_bind_error hload] at h
    cases congrArg Prod.fst h
  rw [perform_bind_ok hload] at h
  rw [hload] at hquiet
  refine ⟨settings, rfl, resolvesTo_of_loadSettings hload, fun hsome => ?_⟩
  have hprint := perform_printSources columns settings t
  rcases hsources : Terminal.render
      ("\n".intercalate (settings.sources.map fun p => escaped p.toText)).toList with fault | sources
  all_goals rw [hsources] at hprint
  · rw [perform_bind_error hprint] at h
    cases congrArg Prod.fst h
  · rw [perform_bind_ok hprint, if_neg (by simpa using hsome)] at h
    split at h
    · cases congrArg Prod.fst h
    · next hshort =>
      obtain rfl := congrArg Prod.snd h
      refine ⟨Bool.eq_false_iff.mpr hshort, sources, hsources, ?_⟩
      show t.output ++ _ ++ _ = _
      rw [hquiet, String.append_assoc]

/-- A run that prints settings, and succeeds, has loaded them. -/
theorem exists_settings_of_run {columns : Nat} {words : List String} {a : Arguments} {s : Session}
    (hread : Arguments.read words = .ok a) (hcommand : a.command = some (.settings .yaml))
    (hexit : ((run columns words).perform s).1 = .ok (.code 0)) :
    ∃ ready settings, (prepare a).perform s = (.ok (), ready) ∧
      ((loadSettings a.root .errors).perform ready).1 = .ok settings ∧
      ready.ResolvesTo a.root settings ∧
      (settings.entries ≠ [] → settings.toValue.holdsLongInt = false ∧
        PrintsSettings columns settings s ((run columns words).perform s).2) := by
  rw [perform_run_of_read columns hread s] at hexit ⊢
  have hprepare := prepareEnd_prepare a s
  generalize hready : (prepare a).perform s = first at hprepare
  cases hprepare with
  | failed failure t hfiles hcause =>
    rw [perform_bind_error hready] at hexit
    cases hexit
  | done root threshold files hfiles hlevel hroot =>
    rw [perform_bind_ok hready, hcommand] at hexit ⊢
    have houtput := output_prepared a root threshold files s
    generalize prepared a root threshold files s = ready at hready hexit houtput ⊢
    rcases hobey : (obey columns a.root (some (.settings .yaml))).perform ready with ⟨result, t⟩
    rw [hobey] at hexit
    obtain rfl : result = .ok (.code 0) := hexit
    have hcommand' := perform_run_of_obey hobey
    rcases hsettings : (runSettings columns a.root .yaml).perform ready with ⟨failure | done, u⟩
    · cases congrArg Prod.fst ((perform_bind_error hsettings _).symm.trans hcommand')
    obtain rfl : u = t := congrArg Prod.snd ((perform_bind_ok hsettings _).symm.trans hcommand')
    obtain ⟨settings, hload, hresolves, hprints⟩ := exists_of_runSettings_ok hsettings
    refine ⟨ready, settings, rfl, hload, hresolves, fun hsome => ?_⟩
    obtain ⟨hshort, sources, hsources, hprinted⟩ := hprints hsome
    exact ⟨hshort, sources, hsources, houtput ▸ hprinted⟩

/-! ## What is printed is a document -/

/-- **What is printed of the settings of a project is a settings document.**  A run that prints them,
and succeeds, prints the panel of their sources and a text; and where this text has been saved, it is
loaded as a document with the same keys in the same order and the same values, each object of which has
another label but is one object still. -/
theorem run_printsDocument (columns : Nat) {words : List String} {a : Arguments} {s : Session}
    (hread : Arguments.read words = .ok a) (hcommand : a.command = some (.settings .yaml))
    (hexit : ((run columns words).perform s).1 = .ok (.code 0)) :
    ∃ ready settings, (prepare a).perform s = (.ok (), ready) ∧
      ((loadSettings a.root .errors).perform ready).1 = .ok settings ∧
      ready.ResolvesTo a.root settings ∧
      (settings.entries ≠ [] →
        PrintsSettings columns settings s ((run columns words).perform s).2 ∧
        (Settings.AreWritable settings.entries → ∀ (u : Session) number path isRequired,
          u.HasSaved path (Yaml.render (valueEntries settings)) →
            ∃ document names, ((loadDocument number path isRequired).perform u).1 = .ok (some document) ∧
              Settings.AreDistinct names ∧
              Settings.Entries.renamed names document.entries = settings.entries)) := by
  obtain ⟨ready, settings, hready, hload, hresolves, hprints⟩ :=
    exists_settings_of_run hread hcommand hexit
  refine ⟨ready, settings, hready, hload, hresolves, fun hsome => ?_⟩
  obtain ⟨hshort, hprinted⟩ := hprints hsome
  refine ⟨hprinted, fun hwritable u number path isRequired hsaved => ?_⟩
  rw [valueEntries_eq] at hsaved
  obtain ⟨document, names, hdocument, hnames, hsame⟩ := exists_loadDocument_saved hsome
    (hresolves.readBack hshort hwritable) hsaved number isRequired
  exact ⟨document, names, congrArg Prod.fst hdocument, hnames, hsame⟩

/-- A session in a project whose settings have a comment and quotes. -/
def commentedProject : Session :=
  { ownProject with
    files := ⟨[(["settings.yml.example"],
      .file (Text.encode "# the workspace\nmoqt_workspace_path: '/srv/w'\n"))]⟩ }

theorem run_printsDocument_commentedProject :
    ∃ panel document, ((run 80 ["settings"]).perform commentedProject).2.output =
        panel ++ "moqt_workspace_path: /srv/w\n" ∧
      ((loadDocument 0 ⟨1, ["settings.yml.example"]⟩ true).perform ownProject).1 =
        .ok (some document) ∧
      document.entries = [("moqt_workspace_path", .text "/srv/w")] := by
  let a : Arguments := { command := some (.settings .yaml) }
  have hread : Arguments.read ["settings"] = .ok a := rfl
  have hrun : ((run 80 ["settings"]).perform commentedProject).1 = .ok (.code 0) := by
    decide +kernel
  obtain ⟨ready, settings, hready, hload, -, hprints⟩ := run_printsDocument 80 hread rfl hrun
  have hentries : ((loadSettings none .errors).perform ((prepare a).perform commentedProject).2).1.map
      (fun settings => settings.entries.map fun e => (e.1, Settings.textOfKey e.2)) =
        .ok [("moqt_workspace_path", some "/srv/w")] := by
    decide +kernel
  rw [hready] at hentries
  have hloaded : ((loadSettings a.root .errors).perform ready).1.map
      (fun settings => settings.entries.map fun e => (e.1, Settings.textOfKey e.2)) =
        .ok [("moqt_workspace_path", some "/srv/w")] := hentries
  rw [hload] at hloaded
  obtain ⟨⟨key, value⟩, hsettings, hentry⟩ := List.map_eq_singleton_iff.mp (Except.ok.inj hloaded)
  obtain ⟨rfl, hvalue⟩ := Prod.mk.inj hentry
  obtain rfl := Settings.eq_text_of_textOfKey hvalue
  have hrender : Yaml.render (valueEntries settings) = "moqt_workspace_path: /srv/w\n" := by
    rw [valueEntries_eq, hsettings]
    decide +kernel
  have hwritable : Settings.AreWritable settings.entries := by
    rw [hsettings]
    refine ⟨List.forall_mem_singleton.mpr ?_, ?_⟩
    · exact (Value.everywhere_scalar_iff (v := .text "/srv/w") trivial).mpr nofun
    · refine Yaml.entriesFit_iff.mpr (List.forall_mem_singleton.mpr ⟨?_, fun h => absurd h (by decide)⟩)
      rw [Yaml.KeyFits, if_pos (by decide)]
      decide
  have hsome : settings.entries ≠ [] := hsettings ▸ List.cons_ne_nil _ _
  obtain ⟨⟨sources, -, hprinted⟩, hloads⟩ := hprints hsome
  have hsaved : ownProject.HasSaved ⟨1, ["settings.yml.example"]⟩
      (Yaml.render (valueEntries settings)) := by
    rw [hrender]
    exact ⟨rfl, ⟨_, rfl, rfl⟩, rfl⟩
  obtain ⟨document, names, hdocument, -, hsame⟩ := hloads hwritable ownProject 0 _ true hsaved
  refine ⟨Terminal.panel 80 "Settings sources" sources, document, ?_, hdocument, ?_⟩
  · rw [hprinted, hrender]
    exact String.empty_append
  · rw [hsettings] at hsame
    obtain ⟨⟨key, value⟩, hone, hentry⟩ := List.map_eq_singleton_iff.mp hsame
    obtain ⟨rfl, hvalue⟩ := Prod.mk.inj hentry
    cases value <;> cases hvalue
    exact hone

/-- A session in a project whose settings have a list of pairs. -/
def pairedProject : Session :=
  { ownProject with
    files := ⟨[(["settings.yml.example"], .file (Text.encode "p: !!pairs [a: 1]\n"))]⟩ }

/-- The same session, with the text that is printed of these settings in their place. -/
def reprintedProject : Session :=
  { ownProject with
    files := ⟨[(["settings.yml.example"],
      .file (Text.encode "p:\n- !!python/tuple\n  - a\n  - 1\n"))]⟩ }

theorem run_printsNoDocument_pairs :
    let path : Path := ⟨1, ["settings.yml.example"]⟩
    ((run 80 ["settings"]).perform pairedProject).1 = .ok (.code 0) ∧
      (∃ panel, ((run 80 ["settings"]).perform pairedProject).2.output =
        panel ++ "p:\n- !!python/tuple\n  - a\n  - 1\n") ∧
      ((loadDocument 0 path true).perform reprintedProject).1 =
        .error (.document (.unreadable path .yaml)) := by
  intro path
  let a : Arguments := { command := some (.settings .yaml) }
  have hread : Arguments.read ["settings"] = .ok a := rfl
  have hrun : ((run 80 ["settings"]).perform pairedProject).1 = .ok (.code 0) := by
    decide +kernel
  refine ⟨hrun, ?_, ?_⟩
  · obtain ⟨ready, settings, hready, hload, -, hprints⟩ := exists_settings_of_run hread rfl hrun
    have htext : ((loadSettings none .errors).perform ((prepare a).perform pairedProject).2).1.map
        (fun settings => (settings.entries.isEmpty, Yaml.render (valueEntries settings))) =
          .ok (false, "p:\n- !!python/tuple\n  - a\n  - 1\n") := by
      decide +kernel
    rw [hready] at htext
    have hloaded : ((loadSettings a.root .errors).perform ready).1.map
        (fun settings => (settings.entries.isEmpty, Yaml.render (valueEntries settings))) =
          .ok (false, "p:\n- !!python/tuple\n  - a\n  - 1\n") := htext
    rw [hload] at hloaded
    obtain ⟨hsome, hrender⟩ := Prod.mk.inj (Except.ok.inj hloaded)
    obtain ⟨-, sources, -, hprinted⟩ := hprints (by simpa using hsome)
    refine ⟨Terminal.panel 80 "Settings sources" sources, ?_⟩
    rw [hprinted, hrender]
    exact String.empty_append
  · have hfails : ((loadDocument 0 path true).perform reprintedProject).1.map (·.isSome) =
        .error (.document (.unreadable path .yaml)) := by
      decide +kernel
    generalize ((loadDocument 0 path true).perform reprintedProject).1 = result at hfails ⊢
    cases result with
    | ok document => cases hfails
    | error failure => rw [Except.error.inj hfails]

end CommandLine
end DevMachines
