import DevMachines.Proofs.Session.Failing

/-!
# Sessions that differ in their logs

Two sessions are *alike* when they differ in nothing but their logs: in where records go, what has
been written there, and what the clock says.  Two activities *agree* when, from sessions that are
alike, they come to the same result or failure, print the same, and leave sessions that are alike.

Activities that agree may be put together, so what is to be shown is that reporting, loading and
declaring agree with themselves.  An event need not even be the same on both sides: nobody but the
log sees it.

The surroundings may name different project roots.  They are asked for a root in one place only, and
what matters is that both answers are the same, from wherever they come.

## What keeps clear of the logs

A document that is read must not be a file that a log is written to, and no more: what a path holds
depends on its own place and on the directories.  A file that is written needs more.  Whether its
directory is missing or is no directory makes two different failures, and a log can be what makes
the difference; so a place on the way may be a log only if there is something in both sessions.
-/

namespace DevMachines
namespace Session

open Activity Settings

/-! ## Sessions that are alike -/

/-- What stays the same while two sessions go on side by side. -/
structure Common where
  /-- The surroundings of the first session. -/
  environment : Environment
  /-- The surroundings of the second one. -/
  other : Environment
  home_eq : other.home = environment.home
  workingDirectory_eq : other.workingDirectory = environment.workingDirectory
  /-- The places that a log of either session may go to. -/
  logs : Place → Prop
  /-- The paths of the documents that may be read. -/
  reads : Path → Prop
  /-- The paths of the files that may be written. -/
  writes : Path → Prop
  /-- What either session had printed when it began. -/
  before : String × String

/-- Do two sessions differ in nothing but their logs and the root that their surroundings name?  What
may be read or written keeps clear of the logs, and both have printed the same since they began. -/
structure Alike (c : Common) (s t : Session) : Prop where
  first : s.environment = c.environment
  second : t.environment = c.other
  interruptPending : t.interruptPending = s.interruptPending
  files : s.files.SameBut c.logs t.files
  firstLogs : ∀ place, s.IsLogPlace place → c.logs place
  secondLogs : ∀ place, t.IsLogPlace place → c.logs place
  avoids : ∀ path, c.reads path → s.Avoids c.logs path
  clear : ∀ path, c.writes path → ∀ place,
    s.files.LeadsThrough s.environment.workingDirectory path place →
      FileTree.SteadyAt c.logs s.files t.files place
  output : ∃ text, s.output = c.before.1 ++ text ∧ t.output = c.before.2 ++ text

theorem Alike.workingDirectory {c : Common} {s t : Session} (h : Alike c s t) :
    t.environment.workingDirectory = s.environment.workingDirectory := by
  rw [h.first, h.second, c.workingDirectory_eq]

section Alike

variable {α β ε : Type} {c : Common} {s s' t t' : Session}

/-- What changes no files but logs, and prints the same on both sides, keeps sessions alike. -/
theorem Alike.of_onlyLogs (h : Alike c s t) (hs : OnlyLogs s s')
    (ht : OnlyLogs t t') (hpending : t'.interruptPending = s'.interruptPending)
    (houtput : ∃ text, s'.output = s.output ++ text ∧ t'.output = t.output ++ text) :
    Alike c s' t' := by
  have hfirst := hs.files.mono h.firstLogs
  have hsecond := ht.files.mono h.secondLogs
  refine ⟨hs.environment.trans h.first, ht.environment.trans h.second, hpending,
    hfirst.symm.trans (h.files.trans hsecond), ?_, ?_, ?_, ?_, ?_⟩
  · exact fun place hplace => h.firstLogs place ((hs.isLogPlace_iff place).mp hplace)
  · exact fun place hplace => h.secondLogs place ((ht.isLogPlace_iff place).mp hplace)
  · intro path hpath place hplace
    rw [hs.environment, hs.files.destination_eq_ok_iff] at hplace
    exact h.avoids path hpath place hplace
  · intro path hpath place hplace
    rw [hs.environment, hs.files.leadsThrough_iff] at hplace
    exact fun hlog => (h.clear path hpath place hplace hlog).imp (hs.present place)
      (ht.present place)
  · obtain ⟨printed, hs', ht'⟩ := houtput
    obtain ⟨text, hs₀, ht₀⟩ := h.output
    exact ⟨text ++ printed, by rw [hs', hs₀, String.append_assoc],
      by rw [ht', ht₀, String.append_assoc]⟩

/-- Only the clock, standard error and what is kept for the caller may change as they like. -/
theorem Alike.of_eq (h : Alike c s t) (hs : OnlyLogs s s') (ht : OnlyLogs t t')
    (hs_pending : s'.interruptPending = s.interruptPending)
    (ht_pending : t'.interruptPending = t.interruptPending)
    (hs_output : s'.output = s.output) (ht_output : t'.output = t.output) :
    Alike c s' t' := by
  refine h.of_onlyLogs hs ht ?_ ⟨"", ?_, ?_⟩
  · rw [ht_pending, h.interruptPending, hs_pending]
  · rw [hs_output, String.append_empty]
  · rw [ht_output, String.append_empty]

theorem Alike.noted (h : Alike c s t) (e f : Log.Event) :
    Alike c (s.noted e) (t.noted f) :=
  h.of_eq (onlyLogs_noted s e) (onlyLogs_noted t f) (interruptPending_notedAll s [e])
    (interruptPending_notedAll t [f]) (output_noted s e) (output_noted t f)

theorem Alike.notedAll (h : Alike c s t) (es fs : List Log.Event) :
    Alike c (s.notedAll es) (t.notedAll fs) :=
  h.of_eq (onlyLogs_notedAll s es)
    (onlyLogs_notedAll t fs) (interruptPending_notedAll s es)
    (interruptPending_notedAll t fs) (output_notedAll s es) (output_notedAll t fs)

theorem Alike.clock (h : Alike c s t) (first second : List Binary64) :
    Alike c { s with clock := first } { t with clock := second } :=
  h.of_eq (onlyLogs_of_files_eq rfl rfl rfl) (onlyLogs_of_files_eq rfl rfl rfl) rfl rfl rfl rfl

/-! ## Activities that agree -/

/-- Are two results the same, and the sessions afterwards alike? -/
def Meet (c : Common) (first second : Except Failure α × Session) : Prop :=
  second.1 = first.1 ∧ Alike c first.2 second.2

/-- Do two activities come to the same from sessions that are alike? -/
def Agrees (c : Common) (a b : Activity α) : Prop :=
  ∀ s t, Alike c s t → Meet c (a.perform s) (b.perform t)

theorem agrees_pure (x : α) : Agrees c (pure x) (pure x) :=
  fun _ _ h => ⟨rfl, h⟩

theorem agrees_throw (failure : Failure) :
    Agrees c (throw failure : Activity α) (throw failure) :=
  fun _ _ h => ⟨rfl, h⟩

theorem agrees_orFail (failure : ε → Failure) (x : Except ε α) :
    Agrees c (orFail failure x) (orFail failure x) := by
  cases x with
  | ok x => exact agrees_pure x
  | error fault => exact agrees_throw (failure fault)

/-- What goes on after two activities that came to the same. -/
theorem Meet.bind {a b : Activity α} {f g : α → Activity β}
    (h : Meet c (a.perform s) (b.perform t)) (hf : ∀ x, Agrees c (f x) (g x)) :
    Meet c ((a >>= f).perform s) ((b >>= g).perform t) := by
  obtain ⟨hresult, hafter⟩ := h
  rw [perform_bind, perform_bind]
  generalize a.perform s = first at hresult hafter
  generalize b.perform t = second at hresult hafter
  obtain ⟨result, s'⟩ := first
  obtain ⟨other, t'⟩ := second
  obtain rfl : other = result := hresult
  cases other with
  | ok x => exact hf x s' t' hafter
  | error failure => exact ⟨rfl, hafter⟩

theorem Agrees.bind {a b : Activity α} {f g : α → Activity β} (ha : Agrees c a b)
    (hf : ∀ x, Agrees c (f x) (g x)) : Agrees c (a >>= f) (b >>= g) :=
  fun s t h => (ha s t h).bind hf

theorem agrees_ite {condition : Prop} [Decidable condition] {a b : Activity α}
    (ha : Agrees c a a) (hb : Agrees c b b) :
    Agrees c (if condition then a else b) (if condition then a else b) := by
  split
  · exact ha
  · exact hb

theorem Agrees.attempt {a b : Activity α} (ha : Agrees c a b) :
    Agrees c (Session.attempt a) (Session.attempt b) := by
  intro s t h
  obtain ⟨hresult, hafter⟩ := ha s t h
  rw [perform_attempt, perform_attempt, hresult]
  exact ⟨rfl, hafter⟩

/-! ## Printing and reporting -/

theorem agrees_print (text : String) : Agrees c (print text) (print text) :=
  fun _ _ h => ⟨rfl, h.of_onlyLogs (onlyLogs_of_files_eq rfl rfl rfl) (onlyLogs_of_files_eq rfl rfl rfl)
    h.interruptPending ⟨text, rfl, rfl⟩⟩

/-- **Events may differ as they like**: nobody but the log sees them. -/
theorem agrees_emit (e f : Log.Event) : Agrees c (emit e) (emit f) := by
  intro s t h
  rw [perform_emit, perform_emit]
  exact ⟨rfl, h.noted e f⟩

theorem agrees_tell (audience : Audience) (message : String) :
    Agrees c (tell audience message) (tell audience message) := by
  intro s t h
  rw [perform_tell, perform_tell]
  refine ⟨rfl, ?_⟩
  cases audience with
  | nobody => exact h
  | caller | errors =>
    exact h.of_eq (onlyLogs_of_files_eq rfl rfl rfl) (onlyLogs_of_files_eq rfl rfl rfl)
      rfl rfl rfl rfl
  | output =>
    exact h.of_onlyLogs (onlyLogs_of_files_eq rfl rfl rfl) (onlyLogs_of_files_eq rfl rfl rfl)
      h.interruptPending ⟨_, rfl, rfl⟩

/-- What is done as an operation agrees as it does without. -/
theorem agrees_operation (name : String) (context : Log.Fields)
    {body other : Log.Fields → Activity α} (hbody : ∀ fields, Agrees c (body fields) (other fields)) :
    Agrees c (operation name context body) (operation name context other) := by
  intro s t h
  rw [operation, operation]
  cases hnames : takenField context with
  | some field =>
    rw [perform_operationOn_refused hnames, perform_operationOn_refused hnames]
    exact ⟨rfl, h⟩
  | none =>
    obtain ⟨first, hfirst⟩ := perform_operationOn hnames [] name body s
    obtain ⟨second, hsecond⟩ := perform_operationOn hnames [] name other t
    obtain ⟨hresult, hafter⟩ := hbody _ _ _ ((h.clock first second).noted _ _)
    obtain ⟨first', _, hdone⟩ := hfirst _ _ rfl
    obtain ⟨second', _, hdone'⟩ := hsecond _ _ rfl
    rw [hdone, hdone']
    exact ⟨hresult, (hafter.clock first' second').notedAll _ _⟩

/-! ## Loading and declaring -/

/-- An interruption that was coming is still to come, unless it has ended the loading. -/
theorem interruptPending_loadDocument (number : Nat) (path : Path) (isRequired : Bool)
    (s : Session) :
    ((loadDocument number path isRequired).perform s).2.interruptPending =
      match ((loadDocument number path isRequired).perform s).1 with
      | .error .interrupted => false
      | _ => s.interruptPending := by
  rw [loadDocument, perform_bind_ok (perform_get s)]
  cases readChars s.files s.environment.workingDirectory path with
  | error fault => cases fault <;> rfl
  | ok content =>
    rw [perform_bind_ok (perform_orFail_ok _ content s)]
    cases content with
    | none =>
      cases isRequired with
      | true => rfl
      | false =>
        have hrun := perform_bind_ok (perform_emitAll (loadEvents path none) s)
          fun _ => (pure none : Activity (Option Document))
        exact hrun ▸ interruptPending_notedAll s _
    | some chars =>
      dsimp only
      rw [perform_bind, perform_takeInterruption]
      cases hpending : s.interruptPending with
      | true => rfl
      | false =>
        rw [if_neg Bool.false_ne_true]
        dsimp only
        cases Document.ofText number path chars with
        | error fault => cases fault <;> exact hpending
        | ok document =>
          rw [perform_bind_ok (perform_orFail_ok _ document s),
            perform_bind_ok (perform_emitAll _ s)]
          exact (interruptPending_notedAll s _).trans hpending

theorem agrees_loadDocument (number : Nat) {path : Path} (hpath : c.reads path) (isRequired : Bool) :
    Agrees c (loadDocument number path isRequired)
      (loadDocument number path isRequired) := by
  intro s t h
  have hresult : ((loadDocument number path isRequired).perform t).1 =
      ((loadDocument number path isRequired).perform s).1 :=
    fst_loadDocument_of_sameBut h.files h.workingDirectory h.interruptPending (h.avoids path hpath)
  have honly := keeps_loadDocument (bookkeeping_onlyLogs .nobody) number path isRequired
  have hnobody : Audience.nobody ≠ .output := nofun
  have houtput := keeps_loadDocument (bookkeeping_output hnobody) number path isRequired
  refine ⟨hresult, h.of_onlyLogs (honly s) (honly t) ?_ ⟨"", ?_, ?_⟩⟩
  · rw [interruptPending_loadDocument, interruptPending_loadDocument, hresult, h.interruptPending]
  · rw [houtput s, String.append_empty]
  · rw [houtput t, String.append_empty]

theorem agrees_reportMissing (audience : Audience) (settings : MergedSettings)
    (expected : List String) :
    Agrees c (reportMissing audience settings expected)
      (reportMissing audience settings expected) := by
  induction expected with
  | nil => exact agrees_pure ()
  | cons key expected ih =>
    rw [reportMissing]
    refine agrees_ite ?_ ih
    exact (agrees_emit _ _).bind fun _ => (agrees_tell _ _).bind fun _ => ih

theorem agrees_resolve {first second : Path} (hfirst : c.reads first) (hsecond : c.reads second)
    (expected : List String) (audience : Audience) :
    Agrees c (resolve first second expected audience)
      (resolve first second expected audience) :=
  (agrees_loadDocument 0 hfirst true).bind fun _ =>
    (agrees_loadDocument 1 hsecond false).bind fun _ =>
      (agrees_reportMissing audience _ expected).bind fun _ => agrees_pure _

/-- The project root is the same, if both surroundings give the same one. -/
theorem agrees_projectRoot_bind {given given' : Option Path} {f g : Path → Activity β}
    (hsame : Settings.projectRoot c.other given' = Settings.projectRoot c.environment given)
    (hf : ∀ root, Settings.projectRoot c.environment given = .ok root →
      Agrees c (f root) (g root)) :
    Agrees c (projectRoot given >>= f) (projectRoot given' >>= g) := by
  intro s t h
  have hs := perform_projectRoot given s
  have ht := perform_projectRoot given' t
  rw [h.first] at hs
  rw [h.second, hsame] at ht
  have hnoted := h.notedAll (projectRootEvents c.environment given)
    (projectRootEvents c.other given')
  cases hroot : Settings.projectRoot c.environment given with
  | error fault =>
    rw [hroot] at hs ht
    rw [perform_bind_error hs, perform_bind_error ht]
    exact ⟨rfl, hnoted⟩
  | ok root =>
    rw [hroot] at hs ht
    rw [perform_bind_ok hs, perform_bind_ok ht]
    exact hf root hroot _ _ hnoted

/-- Do both sessions have the same project root, and do the two documents in it keep clear of the
logs? -/
structure Common.ReadsSettings (c : Common) (given given' : Option Path) : Prop where
  same : Settings.projectRoot c.other given' = Settings.projectRoot c.environment given
  reads : ∀ root, Settings.projectRoot c.environment given = .ok root →
    c.reads (root.child defaultsName) ∧ c.reads (root.child overridesName)

section Project

variable {given given' : Option Path} (hreads : c.ReadsSettings given given')

include hreads

theorem agrees_resolveProject (expected : List String) (audience : Audience) :
    Agrees c (resolveProject given expected audience)
      (resolveProject given' expected audience) := by
  rw [resolveProject, defaultsPath, overridesPath, bind_assoc]
  rw [resolveProject, defaultsPath, overridesPath, bind_assoc]
  refine agrees_projectRoot_bind hreads.same fun root hroot => ?_
  rw [pure_bind, bind_assoc, pure_bind, bind_assoc]
  refine agrees_projectRoot_bind hreads.same fun other hother => ?_
  rw [pure_bind]
  exact agrees_resolve (hreads.reads root hroot).1 (hreads.reads other hother).2 expected audience

/-- **Loading the settings of a project comes to the same, whatever is logged.** -/
theorem agrees_loadSettings (audience : Audience) :
    Agrees c (loadSettings given audience) (loadSettings given' audience) :=
  agrees_projectRoot_bind hreads.same fun _ _ =>
    agrees_operation _ _ fun _ => agrees_resolveProject hreads expectedKeys audience

end Project

/-- **Declaring profiles comes to the same, whatever is logged.** -/
theorem agrees_declareFrom (settings : MergedSettings) (audience : Audience) :
    Agrees c (declareFrom settings audience) (declareFrom settings audience) := by
  intro s t h
  rw [declareFrom, perform_declareProfiles, perform_declareProfiles, h.first, h.second, c.home_eq]
  generalize Workspace.ofSetting (settings.get? workspaceKey) = workspace
  cases workspace.folders c.environment.home with
  | error rejection => exact ⟨rfl, h⟩
  | ok folders =>
    refine ⟨rfl, ?_⟩
    rw [declared, declared]
    cases workspace.notice with
    | none => exact h.noted _ _
    | some message =>
      have htold := (agrees_tell audience message) _ _ (h.noted workspace.event workspace.event)
      rw [perform_tell, perform_tell] at htold
      exact htold.2

end Alike
end Session
end DevMachines
