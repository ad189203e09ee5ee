import DevMachines.Proofs.CommandLine.FileFailures
import DevMachines.Proofs.Terminal.Plain
import DevMachines.Proofs.Terminal.Verbatim

/-!
# Notices and reports as they are printed

A notice, and the report of a failure, is a sign and a text on one line, whatever the width of the
terminal is.  The text is escaped and stands in a style, and nothing that is in it can make the
printing fail; but not every text comes out as it is.  What is lost are backslashes: those before
a bracket that begins no tag, and, if the text ends in more than one, some at its end.

Main statement: `run_printsDiagnostics`, with `IsVerbatim` as the exact condition.
-/

namespace DevMachines

/-- The sign before the report of a failure that the user can mend. -/
def Failure.reportSign? : Failure → Option String
  | .document _ => some "❌ "
  | .file .. => some "❌ Error: "
  | _ => none

namespace Session

open Terminal

/-! ## A message behind a sign -/

section Signed

variable {colour sign message : String}

/-- What a message behind a sign shows: the sign, and what the escaped message displays in front of
the tag that ends the style. -/
theorem render_signed_eq_ok_iff (hcolour : IsTagBody colour.toList)
    (hopen : colour.toList.head? ≠ some '/') (hsign : ∀ c ∈ sign.toList, c ≠ '[' ∧ c ≠ '\\')
    (hplain : IsPlainText (signed colour sign message)) {text : List Char} :
    render (signed colour sign message).toList = .ok text ↔ ∃ line, text = sign.toList ++ line ∧
      Displays [styleSpelling (tagName colour.toList)] 0 (escape message.toList ++ closingTag)
        line := by
  have hmarkup : (signed colour sign message).toList =
      '[' :: (colour.toList ++ ']' ::
        (sign.toList ++ (escape message.toList ++ closingTag))) := by
    simp [signed, closingTag]
  have htag : ∀ rest, tagBody (colour.toList ++ ']' :: rest) = some (colour.toList, rest) :=
    fun rest => tagBody_eq_some_iff.mpr ⟨rfl, hcolour⟩
  rw [render_eq_ok_iff_displays fun c hc => (hplain c hc).not_isTerminalControl, hmarkup,
    displays_tag_iff (htag _) rfl, afterTag_open hopen]
  constructor
  · rintro ⟨next, shown, hnext, hshown, rfl⟩
    obtain rfl := Except.ok.inj hnext
    exact (displays_sign_iff hsign).mp hshown
  · rintro ⟨line, rfl, hline⟩
    exact ⟨_, _, rfl, (displays_sign_iff hsign).mpr ⟨line, rfl, hline⟩, rfl⟩

/-- What a plain message shows is plain, before it is escaped and afterwards. -/
theorem isPlain_of_mem_escape (h : IsPlainText message) :
    ∀ c ∈ escape message.toList ++ closingTag, IsPlain c := by
  have hclosing : IsPlainText "[/]" := by decide
  intro c hc
  rcases List.mem_append.mp hc with hc | hc
  · rcases mem_escape hc with rfl | hc
    · decide
    · exact h c hc
  · exact hclosing c hc

theorem isPlainText_signed (hplain : IsPlainText (colour ++ sign)) (hmessage : IsPlainText message) :
    IsPlainText (signed colour sign message) := by
  have hbrackets : IsPlain '[' ∧ IsPlain ']' := by decide
  intro c hc
  simp only [signed, String.toList_append, String.toList_ofList, List.append_assoc,
    List.mem_append] at hc
  simp only [IsPlainText, String.toList_append, List.forall_mem_append] at hplain
  rcases hc with hc | hc | hc | hc | hc
  · rw [show c = '[' by simpa using hc]
    exact hbrackets.1
  · exact hplain.1 c hc
  · rw [show c = ']' by simpa using hc]
    exact hbrackets.2
  · exact hplain.2 c hc
  · exact isPlain_of_mem_escape hmessage c (List.mem_append.mpr hc)

/-- **A plain message behind a sign is printed on one line, and it is printed as it is exactly if it
is verbatim.** -/
theorem exists_unwrapped_signed_line (hcolour : IsTagBody colour.toList)
    (hopen : colour.toList.head? ≠ some '/') (hsign : ∀ c ∈ sign.toList, c ≠ '[' ∧ c ≠ '\\')
    (hplain : IsPlainText (colour ++ sign)) (hmessage : IsPlainText message) :
    ∃ line, unwrapped (signed colour sign message) = .ok (sign ++ line ++ "\n") ∧
      IsPlainText line ∧ (line = message ↔ IsVerbatim message.toList) := by
  have hshown := @render_signed_eq_ok_iff colour sign message hcolour hopen hsign
    (isPlainText_signed hplain hmessage)
  obtain ⟨text, htext⟩ := exists_render_signed hcolour hopen hsign message
  obtain ⟨line, rfl, hline⟩ := hshown.mp htext
  have hkept : ∀ c ∈ line, IsPlain c := by
    intro c hc
    rcases hline.mem_or hc with rfl | hc
    · decide
    · exact isPlain_of_mem_escape hmessage c hc
  have hall : ∀ c ∈ sign.toList ++ line, IsPlain c := by
    rw [List.forall_mem_append]
    exact ⟨fun c hc => hplain c (by simp [hc]), hkept⟩
  refine ⟨String.ofList line, ?_, ?_, ?_⟩
  · rw [unwrapped, htext, map_ok, printedUnwrapped_of_plain hall, String.ofList_append,
      String.ofList_toList]
  · rwa [IsPlainText, String.toList_ofList]
  · have hverbatim := @displays_escape_closingTag_iff (styleSpelling (tagName colour.toList)) []
      message.toList
    rw [← hverbatim]
    constructor
    · rintro rfl
      rwa [String.toList_ofList] at hline ⊢
    · intro hverbatim
      have hsame := htext.symm.trans (hshown.mpr ⟨message.toList, rfl, hverbatim⟩)
      rw [List.append_cancel_left (Except.ok.inj hsame), String.ofList_toList]

end Signed

/-- A plain notice is one line behind its sign. -/
theorem exists_shownNotice_eq {message : String} (h : IsPlainText message) :
    ∃ line, shownNotice message = "ℹ️  " ++ line ++ "\n" ∧ IsPlainText line ∧
      (line = message ↔ IsVerbatim message.toList) := by
  have hyellow : IsTagBody "yellow".toList :=
    ⟨'y', "ellow".toList, by decide, by decide, by decide⟩
  obtain ⟨line, hprinted, hline⟩ := @exists_unwrapped_signed_line "yellow" "ℹ️  " message hyellow
    (by decide) (by simp) (by decide) h
  exact ⟨line, Except.ok.inj ((noticeText_eq message).symm.trans hprinted), hline⟩

end Session

namespace CommandLine

open Session Terminal Activity

/-- A failure that has a sign is reported on one line behind it, and the exit code is one. -/
theorem exists_perform_reportFailure {failure : Failure} {sign : String}
    (hsign : failure.reportSign? = some sign) (h : IsPlainText failure.message) :
    ∃ line, IsPlainText line ∧ (line = failure.message ↔ IsVerbatim failure.message.toList) ∧
      ∀ columns s, (reportFailure columns failure).perform s =
        (.ok 1, { s with output := s.output ++ (sign ++ line ++ "\n") }) := by
  have hred : IsTagBody "red".toList := ⟨'r', "ed".toList, by decide, by decide, by decide⟩
  have hopen : "red".toList.head? ≠ some '/' := by decide
  cases failure with
  | document fault =>
    obtain rfl := Option.some.inj hsign
    obtain ⟨line, hprinted, hline⟩ :=
      @exists_unwrapped_signed_line "red" "❌ " _ hred hopen (by simp) (by decide) h
    exact ⟨line, hline.1, hline.2, fun columns s => perform_reportFailure_document hprinted s⟩
  | file fault path =>
    obtain rfl := Option.some.inj hsign
    obtain ⟨line, hprinted, hline⟩ :=
      @exists_unwrapped_signed_line "red" "❌ Error: " _ hred hopen (by simp) (by decide) h
    have hreport : (Failure.file fault path).fileReport =
        signed "red" "❌ Error: " (Failure.file fault path).message := rfl
    rw [← hreport] at hprinted
    have hfiles : (Failure.file fault path).isFromFiles = true := rfl
    exact ⟨line, hline.1, hline.2, perform_reportFailure_files hfiles hprinted⟩
  | home | value | nulInPath | data | json | level | interpolation | givenTwice | markup | outside
    | interrupted => cases hsign

/-- **Notices and reports are printed on one line behind their sign, and exactly those that are
verbatim are printed as they are.**  Printing a notice does not fail, and a failed command whose
failure has a sign ends with its report and with the exit code one. -/
theorem run_printsDiagnostics {message : String} (h : IsPlainText message) :
    (∃ line, IsPlainText line ∧ (line = message ↔ IsVerbatim message.toList) ∧
      ∀ s, (tell .output message).perform s =
          (.ok (), { s with output := s.output ++ ("ℹ️  " ++ line ++ "\n") }) ∧
        (tell .errors message).perform s =
          (.ok (), { s with errors := s.errors ++ ("ℹ️  " ++ line ++ "\n") })) ∧
    ∀ columns words a c s ready failure after sign, Arguments.read words = .ok a →
      a.command = some c → (prepare a).perform s = (.ok (), ready) →
      (c.run columns a.root).perform ready = (.error failure, after) →
      failure.reportSign? = some sign → failure.message = message →
      ∃ line, IsPlainText line ∧ (line = message ↔ IsVerbatim message.toList) ∧
        (run columns words).perform s =
          (.ok (.code 1), { after with output := after.output ++ (sign ++ line ++ "\n") }) := by
  constructor
  · obtain ⟨line, hshown, hline, hverbatim⟩ := exists_shownNotice_eq h
    refine ⟨line, hline, hverbatim, fun s => ?_⟩
    rw [perform_tell, perform_tell, told, told, hshown]
    exact ⟨rfl, rfl⟩
  · intro columns words a c s ready failure after sign hread hcommand hprepare hfails hsign hmessage
    subst hmessage
    obtain ⟨line, hline, hverbatim, hreport⟩ := exists_perform_reportFailure hsign h
    refine ⟨line, hline, hverbatim, ?_⟩
    rw [perform_run_of_read columns hread, perform_bind_ok hprepare, hcommand,
      perform_obey_error hfails, map_eq_pure_bind, perform_bind_ok (hreport columns after),
      perform_pure]

/-- Tags, and a backslash before one, come out as they are, in a notice and in a report. -/
theorem run_printsDiagnostics_markedPaths :
    ((tell .output "Wrote [/]\\[b]\\").perform shippedProject).2.output =
        "ℹ️  Wrote [/]\\[b]\\\n" ∧
      let run := (CommandLine.run 20 ["--root", "[b]", "settings"]).perform shippedProject
      run.1 = .ok (.code 1) ∧
        run.2.output = "❌ Settings file not found: [b]/settings.yml.example\n" := by
  constructor
  · have hplain : IsPlainText "Wrote [/]\\[b]\\" := by decide
    obtain ⟨line, -, hverbatim, htold⟩ := (run_printsDiagnostics hplain).1
    obtain rfl := hverbatim.mpr (by decide)
    rw [(htold shippedProject).1]
    rfl
  · let a : Arguments := { root := some (.ofText "[b]"), command := some (.settings .yaml) }
    let failure : Failure := .document (.notFound (.ofText "[b]/settings.yml.example"))
    have hread : Arguments.read ["--root", "[b]", "settings"] = .ok a := rfl
    have hprepare : ((prepare a).perform shippedProject).1 = .ok () := by decide +kernel
    have hfails : ((Command.run 20 a.root (.settings .yaml)).perform
        ((prepare a).perform shippedProject).2).1 = .error failure := by decide +kernel
    have hplain : IsPlainText failure.message := by decide +kernel
    obtain ⟨line, -, hverbatim, hrun⟩ := (run_printsDiagnostics hplain).2 20 _ a _ shippedProject _
      failure _ _ hread rfl (Prod.ext hprepare rfl) (Prod.ext hfails rfl) rfl rfl
    obtain rfl := hverbatim.mpr (by decide +kernel)
    intro run
    have hrun' : run = _ := hrun
    rw [hrun']
    exact ⟨rfl, by decide +kernel⟩

/-- A backslash before a bracket that begins no tag is not printed, and of two backslashes at the end
one is missing. -/
theorem tell_dropsBackslash :
    ((tell .output "Wrote dir\\[1]").perform shippedProject).2.output = "ℹ️  Wrote dir[1]\n" ∧
      ((tell .errors "Wrote dir\\\\").perform shippedProject).2.errors =
        "ℹ️  Wrote dir\\\n" := by
  decide +kernel

end CommandLine
end DevMachines
