import DevMachines.Files.Path
import Mathlib.Data.List.DropRight

/-!
# Whose home directory a path begins with

A tilde by itself stands for the home directory of the caller, and that one is known.  A tilde with
a name behind it stands for the home directory of somebody else, and that one is not.  So whether a
tilde can be replaced depends on the first name of a path alone, as long as the home directory of
the caller is absolute.
-/

namespace DevMachines.Path

/-- Does a path begin with the home directory of somebody else? -/
def beginsElsewhere (p : Path) : Bool :=
  match p.root, p.names with
  | 0, first :: _ => first.startsWith "~" && first != "~"
  | _, _ => false

/-- Why the home directory of somebody else is not known. -/
def elsewhereFault (p : Path) : HomeFault :=
  if (p.names.headD "").toList.contains '\x00' then .nulCharacter else .unknownHome

/-- An absolute directory does not begin with a tilde, with or without the slashes at its end. -/
theorem startsWith_dropFinalSlashes {home : String} (h : home.startsWith "/" = true) :
    (dropFinalSlashes home).startsWith "~" = false := by
  rw [Bool.eq_false_iff]
  intro htilde
  rw [String.startsWith_string_iff] at h htilde
  have hpart : (dropFinalSlashes home).toList <+: home.toList := by
    rw [dropFinalSlashes, String.toList_ofList]
    exact List.rdropWhile_prefix (· == '/') home.toList
  obtain ⟨rest, hslash⟩ := h
  obtain ⟨more, hboth⟩ := htilde.trans hpart
  rw [← hslash] at hboth
  exact absurd (List.cons.inj hboth).1 (by decide)

/-- **The caller's own home directory is always found**, if it is absolute. -/
theorem exists_expandHome_eq_ok {home : String} (hhome : home.startsWith "/" = true) {p : Path}
    (h : p.beginsElsewhere = false) : ∃ q, p.expandHome home = .ok q := by
  obtain ⟨root, names⟩ := p
  cases root with
  | succ root => exact ⟨_, rfl⟩
  | zero =>
    cases names with
    | nil => exact ⟨_, rfl⟩
    | cons first rest =>
      by_cases hown : first = "~"
      · have hslash : ("/" : String).startsWith "~" = false := by decide +kernel
        have hdirectory := startsWith_dropFinalSlashes hhome
        simp only [expandHome, hown, BEq.rfl, if_true]
        split
        · exact ⟨_, if_neg (Bool.eq_false_iff.mp hslash)⟩
        · exact ⟨_, if_neg (Bool.eq_false_iff.mp hdirectory)⟩
      · have hname : first.startsWith "~" = false := by
          simpa [beginsElsewhere, hown] using h
        exact ⟨⟨0, first :: rest⟩, by simp [expandHome, hown, hname]⟩

/-- **The home directory of somebody else is never found**, whatever the caller's own is. -/
theorem expandHome_of_beginsElsewhere (home : String) {p : Path} (h : p.beginsElsewhere = true) :
    p.expandHome home = .error p.elsewhereFault := by
  obtain ⟨root, names⟩ := p
  cases root with
  | succ root => exact absurd h Bool.false_ne_true
  | zero =>
    cases names with
    | nil => exact absurd h Bool.false_ne_true
    | cons first rest =>
      obtain ⟨htilde, hother⟩ : first.startsWith "~" = true ∧ first ≠ "~" := by
        simpa [beginsElsewhere] using h
      have hfault : elsewhereFault ⟨0, first :: rest⟩ =
          if first.toList.contains '\x00' then .nulCharacter else .unknownHome := rfl
      simp only [expandHome, beq_iff_eq, if_neg hother, if_pos htilde]
      rw [hfault]
      exact (apply_ite Except.error _ _ _).symm

end DevMachines.Path
