import DevMachines.Files.Tree
import Mathlib.Data.List.Basic

/-!
# What writing a file leaves alone

A file that is written changes what is found at one place, and nothing else: every other place holds
what it held, and no directory comes or goes.  `FileTree.SameBut` is that relation between two file
systems, for any set of places that may differ.

## Why directories are part of the relation

A path is followed through directories, so where it leads could depend on any place on the way.  As
long as the directories are the same, it does not: the path leads to the same place, or it stops on
the way in both file systems.  It may stop for different reasons, because a file can have come to
where there was nothing; `StopsAlike` allows for that and for nothing more.
-/

namespace DevMachines
namespace FileTree

variable {tree t u v : FileTree} {p q : Place → Prop} {place other : Place} {here path : Path}

/-! ## Setting an entry -/

/-- An entry that takes the place of another one is found there and nowhere else. -/
theorem lookup_replace (entries : List (Place × FileEntry)) (place other : Place)
    (entry : FileEntry) :
    (entries.map fun (p, e) => if p = place then (p, entry) else (p, e)).lookup other =
      if other = place then (entries.lookup place).map fun _ => entry
      else entries.lookup other := by
  induction entries with
  | nil => simp
  | cons first entries ih =>
    obtain ⟨p, e⟩ := first
    by_cases hfirst : p = place
    · subst hfirst
      by_cases hother : other = p
      · simp [hother]
      · simp [List.lookup_cons, beq_eq_false_iff_ne.mpr hother, ih, hother]
    · by_cases hother : other = p
      · subst hother
        simp [hfirst]
      · have hplace : (place == p) = false := beq_eq_false_iff_ne.mpr fun h => hfirst h.symm
        simp [List.lookup_cons, beq_eq_false_iff_ne.mpr hother, ih, hfirst, hplace]

theorem get?_set_self (h : place ≠ []) (entry : FileEntry) :
    (tree.set place entry).get? place = some entry := by
  rw [get?, if_neg (by simpa using h), set]
  split
  · next hthere =>
    obtain ⟨before, hbefore⟩ := Option.isSome_iff_exists.mp hthere
    rw [lookup_replace, if_pos rfl, hbefore]
    rfl
  · next hnone =>
    rw [Bool.not_eq_true, Option.isSome_eq_false_iff, Option.isNone_iff_eq_none] at hnone
    simp [List.lookup_append, hnone]

/-- Setting an entry leaves every other place alone. -/
theorem get?_set_of_ne (h : other ≠ place) (entry : FileEntry) :
    (tree.set place entry).get? other = tree.get? other := by
  rw [get?, get?]
  split
  · rfl
  · rw [set]
    split
    · rw [lookup_replace, if_neg h]
    · simp [List.lookup_append, List.lookup_cons, beq_eq_false_iff_ne.mpr h]

/-- What is there stays there, or something takes its place. -/
theorem isSome_get?_set (h : (tree.get? other).isSome) (entry : FileEntry) :
    ((tree.set place entry).get? other).isSome := by
  by_cases hother : other = place
  · subst hother
    by_cases hroot : other = []
    · subst hroot
      rfl
    · rw [get?_set_self hroot]
      rfl
  · rwa [get?_set_of_ne hother]

/-! ## File systems that differ at some places -/

/-- Do two file systems differ at no other places than those with a property, and do they have the
same directories? -/
structure SameBut (p : Place → Prop) (t u : FileTree) : Prop where
  get?_eq : ∀ place, ¬ p place → u.get? place = t.get? place
  directory_iff : ∀ place, u.get? place = some .directory ↔ t.get? place = some .directory

theorem SameBut.refl (p : Place → Prop) (t : FileTree) : SameBut p t t :=
  ⟨fun _ _ => rfl, fun _ => Iff.rfl⟩

theorem SameBut.trans (htu : SameBut p t u) (huv : SameBut p u v) : SameBut p t v :=
  ⟨fun place hp => (huv.get?_eq place hp).trans (htu.get?_eq place hp),
    fun place => (huv.directory_iff place).trans (htu.directory_iff place)⟩

/-- More places may differ. -/
theorem SameBut.mono (h : SameBut p t u) (hpq : ∀ place, p place → q place) : SameBut q t u :=
  ⟨fun place hq => h.get?_eq place fun hp => hq (hpq place hp), h.directory_iff⟩

/-- **A file that is put at a place changes that place only.** -/
theorem sameBut_set (h : tree.get? place ≠ some .directory) (octets : Text.Octets) :
    SameBut (· = place) tree (tree.set place (.file octets)) := by
  have hroot : place ≠ [] := by
    rintro rfl
    exact h rfl
  refine ⟨fun other hother => get?_set_of_ne hother _, fun other => ?_⟩
  by_cases hother : other = place
  · subst hother
    rw [get?_set_self hroot]
    exact ⟨nofun, fun hdirectory => absurd hdirectory h⟩
  · rw [get?_set_of_ne hother]

/-! ## Following a path -/

/-- Do two ways to a result end in the same way, or does each stop before it?  A name that is too
long is not a way to stop. -/
def StopsAlike {α : Type} (x y : Except FileFault α) : Prop :=
  y = x ∨ ∃ e f, x = .error e ∧ y = .error f ∧ e ≠ .nameTooLong ∧ f ≠ .nameTooLong

section StopsAlike

variable {α β : Type} {x y : Except FileFault α}

theorem StopsAlike.refl (x : Except FileFault α) : StopsAlike x x := Or.inl rfl

theorem StopsAlike.bind (h : StopsAlike x y) {f g : α → Except FileFault β}
    (hnext : ∀ a, x = .ok a → StopsAlike (f a) (g a)) : StopsAlike (x >>= f) (y >>= g) := by
  rcases h with rfl | ⟨d, e, rfl, rfl, hd, he⟩
  · cases y with
    | ok a => exact hnext a rfl
    | error e => exact .refl _
  · exact Or.inr ⟨d, e, rfl, rfl, hd, he⟩

/-- A result is reached in both ways or in none. -/
theorem StopsAlike.eq_ok_iff (h : StopsAlike x y) (a : α) : y = .ok a ↔ x = .ok a := by
  rcases h with rfl | ⟨d, e, rfl, rfl, -, -⟩
  · exact Iff.rfl
  · exact ⟨nofun, nofun⟩

end StopsAlike

/-- **Where names lead depends on the directories only.** -/
theorem SameBut.follow (h : SameBut p t u) (place : Place) (names : List String) :
    StopsAlike (t.follow place names) (u.follow place names) := by
  induction names generalizing place with
  | nil => exact .refl _
  | cons name names ih =>
    by_cases hthere : t.get? place = some .directory
    · have hsame := (h.directory_iff place).mpr hthere
      rw [FileTree.follow, FileTree.follow, hthere, hsame]
      dsimp only
      split
      · exact ih _
      · split
        · exact .refl _
        · exact ih _
    · have hstops : ∀ {tree : FileTree}, tree.get? place ≠ some .directory →
          ∃ e, tree.follow place (name :: names) = .error e ∧ e ≠ .nameTooLong := by
        intro tree hnone
        rw [FileTree.follow]
        split
        · exact ⟨_, rfl, nofun⟩
        · exact ⟨_, rfl, nofun⟩
        · next hdirectory => exact absurd hdirectory hnone
      obtain ⟨d, hd, hlong⟩ := hstops hthere
      obtain ⟨e, he, hlong'⟩ := hstops fun hsame => hthere ((h.directory_iff place).mp hsame)
      exact Or.inr ⟨d, e, hd, he, hlong, hlong'⟩

theorem SameBut.destination (h : SameBut p t u) (here path : Path) :
    StopsAlike (t.destination here path) (u.destination here path) := by
  rw [FileTree.destination, FileTree.destination]
  split
  · exact .refl _
  · exact h.follow _ _

/-- A path leads to a place in both file systems or in none. -/
theorem SameBut.destination_eq_ok_iff (h : SameBut p t u) :
    u.destination here path = .ok place ↔ t.destination here path = .ok place :=
  (h.destination here path).eq_ok_iff place

/-! ## What is found under a path -/

section Found

variable (h : SameBut p t u) (hp : ∀ place, t.destination here path = .ok place → ¬ p place)

include h hp

/-- What is found under a path depends on the place that it leads to. -/
theorem SameBut.find : StopsAlike (t.find here path) (u.find here path) := by
  refine (h.destination here path).bind fun place hplace => ?_
  rw [h.get?_eq place (hp place hplace)]
  exact .refl _

theorem SameBut.contains_eq : u.contains here path = t.contains here path := by
  rw [contains, contains]
  rcases h.find hp with heq | ⟨d, e, hd, he, hlong, hlong'⟩
  · rw [heq]
  · rw [hd, he]
    cases d <;> cases e <;> first | rfl | contradiction

end Found

/-! ## Where nothing on the way has changed -/

theorem SameBut.symm (h : SameBut p t u) : SameBut p u t :=
  ⟨fun place hp => (h.get?_eq place hp).symm, fun place => (h.directory_iff place).symm⟩

/-- Two file systems that get the same file stay the same. -/
theorem SameBut.set (h : SameBut p t u) (hplace : t.get? place ≠ some .directory)
    (octets : Text.Octets) :
    SameBut p (t.set place (.file octets)) (u.set place (.file octets)) := by
  have hother : u.get? place ≠ some .directory := fun hsame =>
    hplace ((h.directory_iff place).mp hsame)
  have hroot : place ≠ [] := by
    rintro rfl
    exact hplace rfl
  refine ⟨fun other hp => ?_, fun other => ?_⟩
  · by_cases heq : other = place
    · rw [heq, get?_set_self hroot, get?_set_self hroot]
    · rw [get?_set_of_ne heq, get?_set_of_ne heq, h.get?_eq other hp]
  · rw [(sameBut_set hother octets).directory_iff, (sameBut_set hplace octets).directory_iff,
      h.directory_iff]

/-- Does a path lead to a place, or through it to another one? -/
def LeadsThrough (tree : FileTree) (here path : Path) (place : Place) : Prop :=
  ∃ count, tree.follow (if path.isAbsolute then [] else here.names) (path.names.take count) =
    .ok place

/-- Which places a path leads through depends on the directories only. -/
theorem SameBut.leadsThrough_iff (h : SameBut p t u) :
    u.LeadsThrough here path place ↔ t.LeadsThrough here path place :=
  exists_congr fun _ => (h.follow _ _).eq_ok_iff place

/-- May a place differ only in what stands there, and not in whether there is something? -/
def SteadyAt (p : Place → Prop) (t u : FileTree) (place : Place) : Prop :=
  p place → (t.get? place).isSome ∧ (u.get? place).isSome

/-- A place that is steady holds nothing in both file systems, or a file, or a directory. -/
theorem SameBut.cases_of_steadyAt (h : SameBut p t u) (hplace : SteadyAt p t u place) :
    (t.get? place = none ∧ u.get? place = none) ∨
    (∃ octets octets', t.get? place = some (.file octets) ∧
      u.get? place = some (.file octets')) ∨
    (t.get? place = some .directory ∧ u.get? place = some .directory) := by
  by_cases hp : p place
  · obtain ⟨ht, hu⟩ := hplace hp
    obtain ⟨entry, hentry⟩ := Option.isSome_iff_exists.mp ht
    obtain ⟨entry', hentry'⟩ := Option.isSome_iff_exists.mp hu
    have hdirectory := h.directory_iff place
    rw [hentry, hentry'] at hdirectory ⊢
    cases entry <;> cases entry' <;> simp at hdirectory ⊢
  · rw [h.get?_eq place hp]
    rcases t.get? place with _ | _ | _ <;> simp

/-- Names come to the same end, be it a place or a fault, when all places on the way are steady. -/
theorem SameBut.follow_eq (h : SameBut p t u) {start : Place} {names : List String}
    (hway : ∀ count place, t.follow start (names.take count) = .ok place →
      SteadyAt p t u place) :
    u.follow start names = t.follow start names := by
  induction names generalizing start with
  | nil => rfl
  | cons name names ih =>
    rw [FileTree.follow, FileTree.follow]
    rcases h.cases_of_steadyAt (hway 0 start rfl) with
      ⟨hthere, hother⟩ | ⟨_, _, hthere, hother⟩ | ⟨hthere, hother⟩
    · rw [hthere, hother]
    · rw [hthere, hother]
    · rw [hthere, hother]
      have hstep := fun count place => hway (count + 1) place
      simp only [List.take_succ_cons, FileTree.follow, hthere] at hstep
      dsimp only
      split
      · next hup => exact ih (by simpa only [hup, if_true] using hstep)
      · next hup =>
        rw [Bool.not_eq_true] at hup
        split
        · rfl
        · next hlong =>
          exact ih (by simpa only [hup, hlong, if_false, Bool.false_eq_true] using hstep)

/-- A file can be written in both file systems or in neither, if its path comes to the same end. -/
theorem SameBut.writablePlace_eq (h : SameBut p t u)
    (hdestination : u.destination here path = t.destination here path) :
    u.writablePlace here path = t.writablePlace here path := by
  rw [writablePlace, writablePlace, hdestination]
  cases t.destination here path with
  | error fault => rfl
  | ok place =>
    have hdirectory := h.directory_iff place
    simp only [bind, Except.bind]
    by_cases hplace : t.get? place = some .directory
    · rw [hplace, hdirectory.mpr hplace]
    · split
      · next hother => exact absurd (hdirectory.mp hother) hplace
      · rfl

/-- So it is if all places on the way are steady. -/
theorem SameBut.writablePlace_of_leadsThrough (h : SameBut p t u)
    (hway : ∀ place, t.LeadsThrough here path place → SteadyAt p t u place) :
    u.writablePlace here path = t.writablePlace here path := by
  refine h.writablePlace_eq ?_
  rw [FileTree.destination, FileTree.destination]
  split
  · rfl
  · exact h.follow_eq fun count place hplace => hway place ⟨count, hplace⟩

/-! ## What an operation that succeeds has done -/

/-- A result of two steps comes from a result of the first one. -/
theorem exists_of_bind_eq_ok {α β : Type} {x : Except FileFault α} {f : α → Except FileFault β}
    {b : β} (h : (x >>= f) = .ok b) : ∃ a, x = .ok a ∧ f a = .ok b := by
  cases x with
  | ok a => exact ⟨a, rfl, h⟩
  | error fault => cases h

/-- Where there is something, it is found. -/
theorem exists_find_of_contains (h : tree.contains here path = .ok true) :
    ∃ entry, tree.find here path = .ok entry := by
  rw [contains] at h
  split at h
  · cases h
  · split at h
    · next entry hfind => exact ⟨entry, hfind⟩
    · cases h
    · cases h

/-- What is there reads the same as long as its place does. -/
theorem SameBut.read_eq (h : SameBut p t u)
    (hp : ∀ place, t.destination here path = .ok place → ¬ p place)
    (hthere : t.contains here path = .ok true) : u.read here path = t.read here path := by
  obtain ⟨entry, hentry⟩ := exists_find_of_contains hthere
  have hsame := ((h.find hp).eq_ok_iff entry).mpr hentry
  rw [FileTree.read, FileTree.read, hentry, hsame]

/-- Where a path leads but nothing is said to be, there is nothing. -/
theorem get?_eq_none_of_contains (hnul : path.hasNul = false)
    (h : tree.contains here path = .ok false) (hplace : tree.destination here path = .ok place) :
    tree.get? place = none := by
  cases hget : tree.get? place with
  | none => rfl
  | some entry =>
    have hfind : tree.find here path = .ok entry := by
      rw [find, hplace]
      simp only [bind, Except.bind, hget]
      rfl
    rw [contains, hnul, if_neg Bool.false_ne_true, hfind] at h
    cases h

/-- Where a path leads and something is there, something is said to be. -/
theorem contains_of_isSome (hnul : path.hasNul = false)
    (hplace : tree.destination here path = .ok place) (hthere : (tree.get? place).isSome) :
    tree.contains here path = .ok true := by
  obtain ⟨entry, hentry⟩ := Option.isSome_iff_exists.mp hthere
  have hfind : tree.find here path = .ok entry := by
    rw [find, hplace]
    simp only [bind, Except.bind, hentry]
    rfl
  rw [contains, hnul, if_neg Bool.false_ne_true, hfind]

theorem exists_of_read {octets : Text.Octets} (h : tree.read here path = .ok octets) :
    ∃ place, tree.destination here path = .ok place ∧
      tree.get? place = some (.file octets) := by
  obtain ⟨entry, hfind, hentry⟩ := exists_of_bind_eq_ok h
  obtain ⟨place, hplace, hthere⟩ := exists_of_bind_eq_ok hfind
  refine ⟨place, hplace, ?_⟩
  cases hfound : tree.get? place with
  | none =>
    rw [hfound] at hthere
    cases hthere
  | some found =>
    rw [hfound] at hthere
    obtain rfl := Except.ok.inj hthere
    cases found with
    | file octets =>
      obtain rfl := Except.ok.inj hentry
      rfl
    | directory => cases hentry

theorem writablePlace_eq_ok (h : tree.writablePlace here path = .ok place) :
    tree.destination here path = .ok place ∧ tree.get? place ≠ some .directory := by
  obtain ⟨found, hfound, hplace⟩ := exists_of_bind_eq_ok h
  split at hplace
  · cases hplace
  · next hdirectory =>
    obtain rfl := Except.ok.inj hplace
    exact ⟨hfound, hdirectory⟩

/-- A file that is written as a whole is put at the place that the path leads to. -/
theorem exists_of_write {octets : Text.Octets} (h : tree.write here path octets = .ok t) :
    ∃ place, tree.destination here path = .ok place ∧ tree.get? place ≠ some .directory ∧
      t = tree.set place (.file octets) := by
  obtain ⟨place, hplace, hset⟩ := exists_of_bind_eq_ok h
  obtain ⟨hdestination, hdirectory⟩ := writablePlace_eq_ok hplace
  exact ⟨place, hdestination, hdirectory, (Except.ok.inj hset).symm⟩

/-! ## Adding to a file -/

/-- The octets of the file at a place; without a file there are none. -/
def contentsAt (tree : FileTree) (place : Place) : Text.Octets :=
  match tree.get? place with
  | some (.file octets) => octets
  | _ => []

theorem contentsAt_set (h : tree.get? place ≠ some .directory) (octets : Text.Octets)
    (other : Place) : (tree.set place (.file octets)).contentsAt other =
      if other = place then octets else tree.contentsAt other := by
  have hroot : place ≠ [] := by
    rintro rfl
    exact h rfl
  unfold contentsAt
  split_ifs with hother
  · rw [hother, get?_set_self hroot]
  · rw [get?_set_of_ne hother]

/-- A file that is added to is put at the place that the path leads to, with the octets behind its
own. -/
theorem append_eq_ok_iff {octets : Text.Octets} : tree.append here path octets = .ok t ↔
    ∃ place, tree.destination here path = .ok place ∧ tree.get? place ≠ some .directory ∧
      t = tree.set place (.file (tree.contentsAt place ++ octets)) := by
  have hset : ∀ place, (match tree.get? place with
      | some (.file before) => pure (tree.set place (.file (before ++ octets)))
      | _ => pure (tree.set place (.file octets)) : Except FileFault FileTree) =
      .ok (tree.set place (.file (tree.contentsAt place ++ octets))) := by
    intro place
    unfold contentsAt
    split <;> rfl
  constructor
  · intro h
    obtain ⟨place, hplace, hput⟩ := exists_of_bind_eq_ok h
    obtain ⟨hdestination, hdirectory⟩ := writablePlace_eq_ok hplace
    have hsame := hput.symm.trans (hset place)
    exact ⟨place, hdestination, hdirectory, Except.ok.inj hsame⟩
  · rintro ⟨place, hplace, hdirectory, rfl⟩
    have hwritable : tree.writablePlace here path = .ok place := by
      rw [writablePlace, hplace]
      simp only [bind, Except.bind]
      rfl
    rw [append, hwritable]
    exact hset place

/-! ## Where names in one directory lead -/

theorem follow_append (place : Place) (names more : List String) :
    tree.follow place (names ++ more) =
      (tree.follow place names >>= fun next => tree.follow next more) := by
  induction names generalizing place with
  | nil => rfl
  | cons name names ih =>
    rw [List.cons_append, FileTree.follow, FileTree.follow]
    split
    · rfl
    · rfl
    · split
      · exact ih _
      · split
        · rfl
        · exact ih _

/-- A name in a directory leads to a place of that name, unless it leads up. -/
theorem getLast?_of_destination_child {name : String} (hname : name ≠ "..")
    (h : tree.destination here (path.child name) = .ok place) : place.getLast? = some name := by
  rw [destination] at h
  split at h
  · cases h
  · rw [Path.child, follow_append] at h
    obtain ⟨directory, -, hlast⟩ := exists_of_bind_eq_ok h
    rw [FileTree.follow] at hlast
    split at hlast
    · cases hlast
    · cases hlast
    · rw [if_neg (by simpa using hname)] at hlast
      split at hlast
      · cases hlast
      · obtain rfl := Except.ok.inj hlast
        exact List.getLast?_concat

/-- Beside something that is there, a name leads to a place, unless something is too long. -/
theorem destination_child_beside {first second : String} (hsecond : second ≠ "..")
    (h : tree.contains here (path.child first) = .ok true) :
    tree.destination here (path.child second) = .error .nameTooLong ∨
      ∃ place, tree.destination here (path.child second) = .ok place := by
  obtain ⟨entry, hfind⟩ := exists_find_of_contains h
  obtain ⟨place, hplace, -⟩ := exists_of_bind_eq_ok hfind
  rw [destination] at hplace ⊢
  split at hplace
  · cases hplace
  · split
    · exact Or.inl rfl
    · rw [Path.child, follow_append] at hplace
      obtain ⟨directory, hdirectory, hlast⟩ := exists_of_bind_eq_ok hplace
      have hhere : tree.get? directory = some .directory := by
        rw [FileTree.follow] at hlast
        split at hlast
        · cases hlast
        · cases hlast
        · assumption
      have hbeside : tree.follow (if (path.child second).isAbsolute then [] else here.names)
          (path.child second).names = tree.follow directory [second] := by
        rw [Path.child, follow_append]
        exact congrArg (· >>= fun next => tree.follow next [second]) hdirectory
      rw [hbeside, FileTree.follow, hhere]
      dsimp only
      rw [if_neg (by simpa using hsecond)]
      split
      · exact Or.inl rfl
      · exact Or.inr ⟨_, rfl⟩

/-- So a file beside something that is there can be written in both file systems or in neither. -/
theorem SameBut.writablePlace_beside (h : SameBut p t u) {first second : String}
    (hsecond : second ≠ "..") (hthere : t.contains here (path.child first) = .ok true) :
    u.writablePlace here (path.child second) = t.writablePlace here (path.child second) := by
  refine h.writablePlace_eq ?_
  rcases h.destination here (path.child second) with heq | ⟨d, e, hd, he, hlong, -⟩
  · exact heq
  · rcases destination_child_beside hsecond hthere with herror | ⟨place, hok⟩
    · exact absurd (Except.error.inj (hd.symm.trans herror)) hlong
    · cases hd.symm.trans hok

/-- Two names in one directory lead to two places. -/
theorem ne_of_destination_child {first second : String} (hfirst : first ≠ "..")
    (hsecond : second ≠ "..") (hne : first ≠ second)
    (h : tree.destination here (path.child first) = .ok place)
    (h' : tree.destination here (path.child second) = .ok other) : place ≠ other := by
  rintro rfl
  have hlast := getLast?_of_destination_child hfirst h
  rw [getLast?_of_destination_child hsecond h'] at hlast
  exact hne (Option.some.inj hlast).symm

end FileTree
end DevMachines
