import DevMachines.Proofs.Session.Activity
import DevMachines.Session.Project

/-!
# Declaring the profiles of a project

Whether profiles can be declared depends on nothing but the path of the workspace: it is read as the
host path of a folder, and that may be refused.  Then nothing has been reported.  Otherwise one
event says what the settings hold, with a notice unless it is a path.
-/

namespace DevMachines

open Session Activity

/-- The session after the workspace of a setting has been reported. -/
def Session.declared (s : Session) (audience : Audience) (workspace : Workspace) : Session :=
  match workspace.notice with
  | some message => (s.noted workspace.event).told audience message
  | none => s.noted workspace.event

/-- **What declaring the profiles comes to.** -/
theorem perform_declareProfiles (setting : Option Value) (audience : Audience) (s : Session) :
    (declareProfiles setting audience).perform s =
      match (Workspace.ofSetting setting).folders s.environment.home with
      | .ok folders => (.ok (declaredProfiles (linuxProfile folders)),
          s.declared audience (Workspace.ofSetting setting))
      | .error rejection => (.error (Failure.ofRejection "SharedFolder" rejection), s) := by
  have hlinux : (declareLinux setting audience).perform s =
      match (Workspace.ofSetting setting).folders s.environment.home with
      | .ok folders => (.ok (linuxProfile folders),
          s.declared audience (Workspace.ofSetting setting))
      | .error rejection => (.error (Failure.ofRejection "SharedFolder" rejection), s) := by
    rw [declareLinux, perform_bind_ok (perform_get s)]
    dsimp only
    generalize Workspace.ofSetting setting = workspace
    cases workspace.folders s.environment.home with
    | error rejection => rw [perform_bind_error (perform_orFail_error _ rejection s)]
    | ok folders =>
      rw [perform_bind_ok (perform_orFail_ok _ folders s),
        perform_bind_ok (perform_emit workspace.event s), declared]
      cases workspace.notice with
      | none => rfl
      | some message => exact perform_bind_ok (perform_tell audience message _) _
  rw [declareProfiles, perform_bind, hlinux]
  cases (Workspace.ofSetting setting).folders s.environment.home <;> rfl

/-- A workspace whose folders are read can be declared. -/
theorem perform_declareProfiles_ok {setting : Option Value} {s : Session}
    {folders : List SharedFolder}
    (h : (Workspace.ofSetting setting).folders s.environment.home = .ok folders)
    (audience : Audience) :
    (declareProfiles setting audience).perform s =
      (.ok (declaredProfiles (linuxProfile folders)),
        s.declared audience (Workspace.ofSetting setting)) := by
  rw [perform_declareProfiles, h]

/-- A path declares one folder, unless it is refused as a host path. -/
theorem folders_at (home path : String) :
    (Workspace.at path).folders home =
      ((readHostPath home (.text path)).within (.field "host_path")).map
        fun hostPath => [⟨hostPath, workspaceGuestPath⟩] := by
  let fields : List (Value × Value) :=
    [(.text "host_path", .text path), (.text "guest_path", .text workspaceGuestPath)]
  have hhost : required "host_path" (readHostPath home) fields =
      (readHostPath home (.text path)).within (.field "host_path") := by
    have hfound : Value.lookup? (.text "host_path") fields = some (.text path) := by
      simp [fields, Value.lookup?, Value.eq]
    rw [required, hfound]
  have hguest : required "guest_path" readGuestPath fields = .ok workspaceGuestPath := by
    have hfound : Value.lookup? (.text "guest_path") fields =
        some (.text workspaceGuestPath) := by
      simp [fields, Value.lookup?, Value.eq]
    have habsolute : workspaceGuestPath.startsWith "/" = true := by decide +kernel
    have hread : readGuestPath (.text workspaceGuestPath) = .ok workspaceGuestPath :=
      if_pos habsolute
    rw [required, hfound]
    exact congrArg (Validated.within _) hread
  rw [Workspace.folders, SharedFolder.ofValue]
  show ((Validated.both (required "host_path" (readHostPath home) fields)
      (required "guest_path" readGuestPath fields)) >>= fun read =>
    (.ok ⟨read.1, read.2⟩ : Validated SharedFolder)) >>= _ = _
  rw [hhost, hguest]
  cases (readHostPath home (.text path)).within (.field "host_path") with
  | ok hostPath => rfl
  | error rejection => cases rejection <;> rfl

/-- Every folder that a workspace declares is seen in one place of the machine. -/
theorem guestPath_of_mem_folders {home : String} {workspace : Workspace}
    {folders : List SharedFolder} (h : workspace.folders home = .ok folders)
    {folder : SharedFolder} (hmem : folder ∈ folders) : folder.guestPath = workspaceGuestPath := by
  cases workspace with
  | notText kind =>
    obtain rfl := Except.ok.inj h
    cases hmem
  | unset =>
    obtain rfl := Except.ok.inj h
    cases hmem
  | «at» path =>
    rw [folders_at] at h
    cases hpath : (readHostPath home (.text path)).within (.field "host_path") with
    | error rejection =>
      rw [hpath] at h
      cases h
    | ok hostPath =>
      rw [hpath] at h
      obtain rfl := Except.ok.inj h
      obtain rfl := List.mem_singleton.mp hmem
      rfl

end DevMachines
