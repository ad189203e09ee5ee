import DevMachines.Proofs.Profile.Names
import DevMachines.Proofs.Results
import DevMachines.Proofs.Text.Order

/-!
# Steps with the same name

The steps of a profile are judged when all of them have been read, by the names without the blanks
at their ends.  If a name occurs twice, the profile is refused for this one fault, and the fault
lists every such name.

Main statement: `Profile.finds_repeatedSteps`.

## The list of names

`duplicates` filters, leaves out what comes again, and sorts.  `ListsRepeated` says what comes of
that without any of the three: which names are in the list, and that each one is greater than the
one before it.  Being strictly increasing is what makes it one list and no other, with each name in
it once.
-/

namespace DevMachines

/-! ## The names that are repeated -/

/-- Does a list have the names that occur at least twice, in strictly increasing order? -/
structure ListsRepeated (names repeated : List String) : Prop where
  mem_iff : ∀ name, name ∈ repeated ↔ 2 ≤ names.count name
  increasing : repeated.Pairwise fun a b => Text.codePoints a < Text.codePoints b

theorem nodup_eraseDups : ∀ names : List String, names.eraseDups.Nodup
  | [] => by simp
  | name :: names => by
    rw [List.eraseDups_cons, List.nodup_cons, List.mem_eraseDups, List.mem_filter]
    exact ⟨by simp, nodup_eraseDups _⟩
termination_by names => names.length
decreasing_by
  rw [List.length_cons]
  exact Nat.lt_succ_of_le (List.length_filter_le _ _)

theorem mem_duplicates_iff {names : List String} {name : String} :
    name ∈ duplicates names ↔ 2 ≤ names.count name := by
  rw [duplicates, List.mem_mergeSort, List.mem_eraseDups, List.mem_filter, decide_eq_true_eq]
  refine ⟨And.right, fun h => ⟨?_, h⟩⟩
  exact List.count_pos_iff.mp (Nat.lt_of_lt_of_le Nat.zero_lt_two h)

theorem nodup_duplicates (names : List String) : (duplicates names).Nodup :=
  (List.mergeSort_perm _ _).nodup_iff.mpr (nodup_eraseDups _)

/-- The names are sorted, and since none comes twice, each is greater than the one before it. -/
theorem pairwise_duplicates (names : List String) : (duplicates names).Pairwise (· < ·) := by
  have hle : (duplicates names).Pairwise (· ≤ ·) := Text.pairwise_mergeSort_by id _
  exact (hle.and (nodup_duplicates names)).imp fun h => Text.lt_of_le_of_ne h.1 h.2

theorem listsRepeated_duplicates (names : List String) :
    ListsRepeated names (duplicates names) where
  mem_iff _ := mem_duplicates_iff
  increasing := (pairwise_duplicates names).imp Text.lt_iff_codePoints_lt.mp

/-- There is only one such list. -/
theorem ListsRepeated.eq_duplicates {names repeated : List String}
    (h : ListsRepeated names repeated) : repeated = duplicates names := by
  have hincreasing : repeated.Pairwise (· < ·) := h.increasing.imp Text.lt_iff_codePoints_lt.mpr
  have hnodup : repeated.Nodup := by
    refine hincreasing.imp ?_
    rintro a _ hlt rfl
    exact String.lt_irrefl a hlt
  have hperm : repeated.Perm (duplicates names) := by
    rw [List.perm_ext_iff_of_nodup hnodup (nodup_duplicates names)]
    intro name
    rw [h.mem_iff, mem_duplicates_iff]
  refine List.Perm.eq_of_pairwise ?_ hincreasing (pairwise_duplicates names) hperm
  intro a b _ _ hab hba
  exact absurd (String.lt_trans hab hba) (String.lt_irrefl a)

/-- **No name is repeated exactly if all names differ.** -/
theorem duplicates_eq_nil_iff {names : List String} : duplicates names = [] ↔ names.Nodup := by
  rw [List.eq_nil_iff_forall_not_mem, List.nodup_iff_count_le_one]
  refine forall_congr' fun name => ?_
  rw [mem_duplicates_iff, not_le, Nat.lt_succ_iff]

/-! ## Profiles with steps -/

/-- What becomes of steps each of which is accepted: all of them, or the one fault that some names
are repeated. -/
theorem readSteps_of_items {listLabel : Option Label} {data : List Value} {steps : List Step}
    (hread : data.map Step.ofValue = steps.map .ok) :
    readSteps (.list listLabel data) =
      if (data.map Value.givenName).Nodup then .ok steps
      else .fault (.rule (.duplicateSteps (duplicates (data.map Value.givenName)))) := by
  have hnames : steps.map (·.name) = data.map Value.givenName :=
    map_eq_of_map_eq_map_ok (fun _ _ => Step.name_of_ofValue) hread
  have hitems : readList Step.ofValue (.list listLabel data) = .ok steps :=
    readItemsFrom_eq_ok_iff.mpr hread
  rw [readSteps, hitems, ok_bind, hnames]
  split
  · next hnone => rw [if_pos (duplicates_eq_nil_iff.mp hnone)]
  · next hsome => rw [if_neg fun h => hsome (duplicates_eq_nil_iff.mpr h)]

theorem message_duplicateSteps (names : List String) :
    (DataFaultKind.rule (.duplicateSteps names)).message =
      "Value error, Duplicate provisioning steps: " ++ ", ".intercalate names := by
  have hstart : "Value error, " ++ "Duplicate provisioning steps: " =
      "Value error, Duplicate provisioning steps: " := by decide +kernel
  calc (DataFaultKind.rule (.duplicateSteps names)).message
      = "Value error, " ++ ("Duplicate provisioning steps: " ++ ", ".intercalate names) := rfl
    _ = "Value error, " ++ "Duplicate provisioning steps: " ++ ", ".intercalate names :=
      String.append_assoc.symm
    _ = _ := congrArg (· ++ ", ".intercalate names) hstart

/-- A fault of a field stands at the field. -/
theorem Validated.within_fault {α : Type} (step : DataStep) (kind : DataFaultKind) :
    within step (fault kind : Validated α) = .error (.faults [⟨[step], kind⟩]) :=
  rfl

namespace Profile

section Steps

variable {home name box : String} {listLabel : Option Label}
  {fields : List (Value × Value)} {folders : List SharedFolder} {data : List Value}

/-- A profile of which all else is accepted is what its steps make of it. -/
theorem ofValue_of_steps (label : Option Label) {steps : Validated (List Step)}
    (hname : required "name" readName fields = .ok name)
    (hbox : required "box" readName fields = .ok box)
    (hsteps : optional "provisioners" [] readSteps fields = steps)
    (hfolders : optional "synced_folders" [] (readList (SharedFolder.ofValue home)) fields =
      .ok folders) :
    ofValue home (.map label fields) = steps.map fun steps => { name, box, steps, folders } := by
  rw [ofValue, readRecord]
  show (Validated.both _ _ >>= _) = _
  rw [hname, hbox, hsteps, hfolders]
  cases steps with
  | ok steps => rfl
  | error rejection => cases rejection <;> rfl

/-- **Steps with the same name are found exactly.**  A profile each of whose steps is accepted, and
all of whose other fields are, is accepted exactly if the names that the data gives to the steps,
without the blanks at their ends, differ from each other; it keeps all steps in order.  Otherwise
there is one fault, at the steps, and its message lists the names that occur at least twice, each
once and in the order of their code points. -/
theorem finds_repeatedSteps (label : Option Label)
    (hname : required "name" readName fields = .ok name)
    (hbox : required "box" readName fields = .ok box)
    (hfolders : optional "synced_folders" [] (readList (SharedFolder.ofValue home)) fields =
      .ok folders)
    (hfield : Value.lookup? (.text "provisioners") fields = some (.list listLabel data))
    (haccepted : ∀ v ∈ data, ∃ s, Step.ofValue v = .ok s) :
    ((∃ p, ofValue home (.map label fields) = .ok p) ↔ (data.map Value.givenName).Nodup) ∧
    (∀ p, ofValue home (.map label fields) = .ok p →
      p.name = name ∧ p.box = box ∧ p.folders = folders ∧
        data.map Step.ofValue = p.steps.map .ok) ∧
    (¬ (data.map Value.givenName).Nodup → ∃ fault repeated,
      ofValue home (.map label fields) = .error (.faults [⟨[.field "provisioners"], fault⟩]) ∧
        ListsRepeated (data.map Value.givenName) repeated ∧
        fault.message =
          "Value error, Duplicate provisioning steps: " ++ ", ".intercalate repeated) := by
  obtain ⟨steps, hread⟩ := exists_map_eq_map_ok haccepted
  have hsteps : optional "provisioners" [] readSteps fields = _ := optional_of_lookup hfield
  rw [readSteps_of_items hread] at hsteps
  rw [ofValue_of_steps label hname hbox hsteps hfolders]
  by_cases hnames : (data.map Value.givenName).Nodup
  · rw [if_pos hnames]
    refine ⟨iff_of_true ⟨_, rfl⟩ hnames, fun p hp => ?_, fun h => absurd hnames h⟩
    obtain rfl := Except.ok.inj hp
    exact ⟨rfl, rfl, rfl, hread⟩
  · rw [if_neg hnames, Validated.within_fault]
    have hlists := listsRepeated_duplicates (data.map Value.givenName)
    refine ⟨iff_of_false ?_ hnames, ?_, fun _ => ⟨_, _, rfl, hlists, message_duplicateSteps _⟩⟩
    · rintro ⟨p, hp⟩
      cases hp
    · intro p hp
      cases hp

end Steps

/-- Five steps in plain form, of which two names come twice, once with blanks around them. -/
def fiveSteps : List Value :=
  ["setup ", "install", "check", " setup", "install\n"].map fun name =>
    .record [("name", .text name), ("path", .text "setup.sh")]

/-- The fields of a profile with these steps. -/
def fieldsOfFiveSteps : List (Value × Value) :=
  [(.text "name", .text "web"), (.text "box", .text "jammy64"),
    (.text "provisioners", .list none fiveSteps)]

theorem finds_repeatedSteps_fiveSteps :
    (∀ v ∈ fiveSteps, ∃ s, Step.ofValue v = .ok s) ∧
      ∃ fault, ofValue "/home/u" (.map none fieldsOfFiveSteps) =
          .error (.faults [⟨[.field "provisioners"], fault⟩]) ∧
        fault.message = "Value error, Duplicate provisioning steps: install, setup" := by
  have hread : ∀ v ∈ fiveSteps, (Step.ofValue v).isOk = true := by decide +kernel
  have haccepted : ∀ v ∈ fiveSteps, ∃ s, Step.ofValue v = .ok s := fun v hv =>
    exists_of_isOk (hread v hv)
  have hname : required "name" readName fieldsOfFiveSteps = .ok "web" := by decide +kernel
  have hbox : required "box" readName fieldsOfFiveSteps = .ok "jammy64" := by decide +kernel
  have hfolders : optional "synced_folders" [] (readList (SharedFolder.ofValue "/home/u"))
      fieldsOfFiveSteps = .ok [] := by decide +kernel
  have hfield : Value.lookup? (.text "provisioners") fieldsOfFiveSteps =
      some (.list none fiveSteps) := by
    simp [fieldsOfFiveSteps, lookup?_text_cons]
  obtain ⟨-, -, hrepeated⟩ := finds_repeatedSteps none hname hbox hfolders hfield haccepted
  obtain ⟨fault, repeated, hfault, hlists, hmessage⟩ := hrepeated (by decide +kernel)
  refine ⟨haccepted, fault, hfault, ?_⟩
  have hnames : repeated = ["install", "setup"] := by
    have hunsorted : ((fiveSteps.map Value.givenName).filter fun n =>
        1 < (fiveSteps.map Value.givenName).count n).eraseDups = ["setup", "install"] := by
      decide +kernel
    have hlisted : ListsRepeated (fiveSteps.map Value.givenName) ["install", "setup"] := by
      refine ⟨fun name => ?_, by decide +kernel⟩
      rw [← mem_duplicates_iff, duplicates, List.mem_mergeSort, hunsorted]
      exact (List.Perm.swap "setup" "install" []).mem_iff
    rw [hlists.eq_duplicates, hlisted.eq_duplicates]
  rw [hmessage, hnames]
  decide +kernel

end Profile
end DevMachines
