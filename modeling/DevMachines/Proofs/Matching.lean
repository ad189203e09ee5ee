import Mathlib.Data.List.Perm.Subperm

/-!
# Pairing off two lists

Two collections whose order does not count are the same if their elements can be paired off, each
with one that it is related to.  `Matched R xs ys` says so of lists: up to their order, the elements of
`ys` are related to those of `xs` place by place.

## Why a partner for each element is not enough

A comparison looks for a partner of each element and compares the lengths.  That alone pairs nothing
off, because two elements could have one partner in common and leave another one over.  If no two
elements have a partner in common, each partner that is found may be put aside before the next one
is looked for, and then equal lengths leave nothing over (`matched_iff_partners`).
-/

namespace DevMachines

variable {α β γ : Type} {R : α → β → Prop} {xs : List α} {ys : List β} {zs : List γ}

/-- Can the elements of two lists be paired off, each with a related one? -/
def Matched (R : α → β → Prop) (xs : List α) (ys : List β) : Prop :=
  ∃ partners, List.Forall₂ R xs partners ∧ partners.Perm ys

/-- Elements that are related place by place may be related in another way, too. -/
theorem forall₂_imp_mem {S : α → β → Prop} (h : List.Forall₂ R xs ys)
    (himp : ∀ x ∈ xs, ∀ y, R x y → S x y) : List.Forall₂ S xs ys :=
  ((List.forall₂_and_left xs ys).mpr ⟨himp, h⟩).imp fun _ y h => h.1 y h.2

/-- What is related to the elements of a list in between, place by place, may be related directly. -/
theorem forall₂_trans_mem {S : β → γ → Prop} {T : α → γ → Prop} (h : List.Forall₂ R xs ys)
    (h' : List.Forall₂ S ys zs) (hthrough : ∀ x ∈ xs, ∀ y z, R x y → S y z → T x z) :
    List.Forall₂ T xs zs := by
  induction h generalizing zs with
  | nil => cases h'; exact .nil
  | cons hfirst _ ih =>
    obtain ⟨z, zs', hz, hzs', rfl⟩ := List.forall₂_cons_left_iff.mp h'
    rw [List.forall_mem_cons] at hthrough
    exact .cons (hthrough.1 _ _ hfirst hz) (ih hzs' hthrough.2)

theorem matched_of_perm {R : α → α → Prop} {xs ys : List α} (hperm : xs.Perm ys)
    (hself : ∀ x ∈ xs, R x x) : Matched R xs ys :=
  ⟨xs, List.forall₂_same.mpr hself, hperm⟩

namespace Matched

theorem length_eq (h : Matched R xs ys) : xs.length = ys.length := by
  obtain ⟨partners, hpairs, hperm⟩ := h
  exact hpairs.length_eq.trans hperm.length_eq

/-- Each element has a partner. -/
theorem exists_mem (h : Matched R xs ys) {x : α} (hx : x ∈ xs) : ∃ y ∈ ys, R x y := by
  obtain ⟨partners, hpairs, hperm⟩ := h
  suffices hfound : ∃ y ∈ partners, R x y by
    obtain ⟨y, hy, hxy⟩ := hfound
    exact ⟨y, hperm.mem_iff.mp hy, hxy⟩
  clear hperm
  induction hpairs with
  | nil => exact absurd hx List.not_mem_nil
  | @cons first y xs partners hfirst _ ih =>
    rcases List.mem_cons.mp hx with rfl | hx
    · exact ⟨y, List.mem_cons_self, hfirst⟩
    · obtain ⟨y', hy', hxy⟩ := ih hx
      exact ⟨y', List.mem_cons_of_mem _ hy', hxy⟩

theorem symm {S : β → α → Prop} (h : Matched R xs ys)
    (hback : ∀ x ∈ xs, ∀ y, R x y → S y x) : Matched S ys xs := by
  obtain ⟨partners, hpairs, hperm⟩ := h
  have hpairs' : List.Forall₂ (flip S) xs partners := forall₂_imp_mem hpairs hback
  exact List.perm_comp_forall₂ hperm.symm hpairs'.flip

/-- What is related to partners of partners may be paired off with them. -/
theorem trans {S : β → γ → Prop} {T : α → γ → Prop} (h : Matched R xs ys) (h' : Matched S ys zs)
    (hthrough : ∀ x ∈ xs, ∀ y z, R x y → S y z → T x z) : Matched T xs zs := by
  obtain ⟨partners, hpairs, hperm⟩ := h
  obtain ⟨others, hothers, hperm'⟩ := h'
  obtain ⟨ends, hends, hperm''⟩ := List.perm_comp_forall₂ hperm hothers
  exact ⟨ends, forall₂_trans_mem hpairs hends hthrough, hperm''.trans hperm'⟩

end Matched

section Partners

variable (hdiffer : xs.Pairwise fun x x' => ∀ y, R x y → ¬ R x' y)
  (hpartner : ∀ x ∈ xs, ∃ y ∈ ys, R x y)

include hdiffer hpartner

/-- If no two elements have a partner in common, different places of the other list hold one for
each. -/
theorem exists_partners : ∃ partners, List.Forall₂ R xs partners ∧ partners.Subperm ys := by
  induction xs generalizing ys with
  | nil => exact ⟨[], .nil, List.nil_subperm⟩
  | cons x xs ih =>
    rw [List.pairwise_cons] at hdiffer
    rw [List.forall_mem_cons] at hpartner
    obtain ⟨⟨y, hy, hxy⟩, hpartner⟩ := hpartner
    obtain ⟨before, after, rfl⟩ := List.append_of_mem hy
    -- the place of `y` is taken, and no other element needs it
    have hrest : ∀ x' ∈ xs, ∃ y' ∈ before ++ after, R x' y' := by
      intro x' hx'
      obtain ⟨y', hy', hxy'⟩ := hpartner x' hx'
      have hne : y' ≠ y := by
        rintro rfl
        exact hdiffer.1 x' hx' y' hxy hxy'
      refine ⟨y', ?_, hxy'⟩
      simpa [hne] using hy'
    obtain ⟨partners, hpairs, hsub⟩ := ih hdiffer.2 hrest
    exact ⟨y :: partners, .cons hxy hpairs,
      ((List.subperm_cons y).mpr hsub).trans List.perm_middle.symm.subperm⟩

theorem length_le_of_partners : xs.length ≤ ys.length := by
  obtain ⟨partners, hpairs, hsub⟩ := exists_partners hdiffer hpartner
  rw [hpairs.length_eq]
  exact hsub.length_le

/-- **If each element has a partner, no two have one in common, and the other list is no longer,
then the two lists can be paired off.** -/
theorem matched_of_partners (hlength : ys.length ≤ xs.length) : Matched R xs ys := by
  obtain ⟨partners, hpairs, hsub⟩ := exists_partners hdiffer hpartner
  rw [hpairs.length_eq] at hlength
  exact ⟨partners, hpairs, hsub.perm_of_length_le hlength⟩

end Partners

/-- **Comparing lengths and looking for partners decides**, if no two elements have one in common. -/
theorem matched_iff_partners (hdiffer : xs.Pairwise fun x x' => ∀ y, R x y → ¬ R x' y) :
    Matched R xs ys ↔ xs.length = ys.length ∧ ∀ x ∈ xs, ∃ y ∈ ys, R x y := by
  refine ⟨fun h => ⟨h.length_eq, fun x hx => h.exists_mem hx⟩, ?_⟩
  rintro ⟨hlength, hpartner⟩
  exact matched_of_partners hdiffer hpartner (Nat.le_of_eq hlength.symm)

end DevMachines
