import DevMachines.Number.Notation

/-!
# Digits that read back

The digits of a number in a base up to sixteen denote that number, with or without zeros in front
of them, and in either case of the letters.

Main statement: `readDigits?_map_toDigits`.

## Why the digits are mapped

The hexadecimal digits of the library are lower-case letters, and some texts have them in upper
case.  Both are the same digits written through a function on characters, so that function is a
parameter, and all that is asked of it is that every digit keeps its value.
-/

namespace DevMachines

/-! ## The number of a character -/

theorem toNat_lt (c : Char) : c.toNat < 0x110000 := by
  rcases c.valid with h | h
  · exact Nat.lt_trans h (by decide)
  · exact h.2

/-! ## Where a stretch of characters ends -/

section Stretch

variable {p : Char → Bool} {cs rest : List Char}

theorem takeWhile_append_stop (hcs : ∀ c ∈ cs, p c = true)
    (hrest : ∀ c, rest.head? = some c → p c = false) : (cs ++ rest).takeWhile p = cs := by
  rw [List.takeWhile_append_of_pos hcs]
  cases rest with
  | nil => exact List.append_nil cs
  | cons c rest => simp [hrest c rfl]

theorem dropWhile_append_stop (hcs : ∀ c ∈ cs, p c = true)
    (hrest : ∀ c, rest.head? = some c → p c = false) : (cs ++ rest).dropWhile p = rest := by
  rw [List.dropWhile_append_of_pos hcs]
  cases rest with
  | nil => rfl
  | cons c rest => simp [hrest c rfl]

end Stretch

/-! ## Digits after a number -/

/-- The number that digits of a base make when they are put after those of `n`. -/
def appendDigits? (base n : Nat) (cs : List Char) : Option Nat :=
  cs.foldl (fun acc c => do
    let n ← acc
    let d ← hexValue? c
    if d < base then pure (n * base + d) else none) (some n)

theorem readDigits?_of_ne_nil {base : Nat} {cs : List Char} (h : cs ≠ []) :
    readDigits? base cs = appendDigits? base 0 cs := by
  cases cs with
  | nil => exact absurd rfl h
  | cons c cs => rfl

@[simp] theorem appendDigits?_nil (base n : Nat) : appendDigits? base n [] = some n := rfl

theorem appendDigits?_cons {base d : Nat} {c : Char} (hc : hexValue? c = some d) (hd : d < base)
    (n : Nat) (cs : List Char) :
    appendDigits? base n (c :: cs) = appendDigits? base (n * base + d) cs := by
  simp [appendDigits?, hc, hd]

theorem foldl_none {f : Option Nat → Char → Option Nat} (hf : ∀ c, f none c = none)
    (cs : List Char) : cs.foldl f none = none := by
  induction cs with
  | nil => rfl
  | cons c cs ih => rw [List.foldl_cons, hf, ih]

theorem appendDigits?_append (base n : Nat) (cs ds : List Char) :
    appendDigits? base n (cs ++ ds) =
      (appendDigits? base n cs).bind fun m => appendDigits? base m ds := by
  simp only [appendDigits?, List.foldl_append]
  cases hm : List.foldl _ (some n) cs with
  | none => exact foldl_none (fun _ => rfl) ds
  | some m => rfl

/-! ## The digits of a number -/

section Mapped

variable {base : Nat} {f : Char → Char}

/-- Zeros in front change nothing. -/
theorem appendDigits?_zeros (hf : hexValue? (f '0') = some 0) (hbase : 0 < base) (count : Nat)
    (cs : List Char) :
    appendDigits? base 0 ((List.replicate count '0').map f ++ cs) = appendDigits? base 0 cs := by
  induction count with
  | zero => rfl
  | succ count ih =>
    rw [List.replicate_succ, List.map_cons, List.cons_append, appendDigits?_cons hf hbase]
    simpa using ih

theorem appendDigits?_toDigits (hf : ∀ d < base, hexValue? (f d.digitChar) = some d)
    (hbase : 1 < base) (n : Nat) :
    appendDigits? base 0 ((Nat.toDigits base n).map f) = some n := by
  induction n using Nat.strongRecOn with
  | _ n ih =>
    rcases Nat.lt_or_ge n base with hn | hn
    · rw [Nat.toDigits_of_lt_base hn, List.map_singleton, appendDigits?_cons (hf n hn) hn]
      simp
    · have hquotient : n / base < n := Nat.div_lt_self (by omega) hbase
      have hrest : n % base < base := Nat.mod_lt n (by omega)
      rw [Nat.toDigits_of_base_le hbase hn, List.map_append, appendDigits?_append, ih _ hquotient,
        Option.bind_some, List.map_singleton, appendDigits?_cons (hf _ hrest) hrest,
        appendDigits?_nil, Nat.div_add_mod']

/-- **The digits of a number denote it**, also behind zeros. -/
theorem readDigits?_map_toDigits (hf : ∀ d < base, hexValue? (f d.digitChar) = some d)
    (hbase : 1 < base) (count n : Nat) :
    readDigits? base ((List.replicate count '0' ++ Nat.toDigits base n).map f) = some n := by
  have hne : (List.replicate count '0' ++ Nat.toDigits base n).map f ≠ [] := by
    simp [Nat.toDigits_ne_nil]
  rw [readDigits?_of_ne_nil hne, List.map_append,
    appendDigits?_zeros (hf 0 (by omega)) (by omega), appendDigits?_toDigits hf hbase]

end Mapped

/-- Every digit up to fifteen has its value. -/
theorem hexValue?_digitChar {d : Nat} (h : d < 16) : hexValue? d.digitChar = some d := by
  decide +revert

theorem hexValue?_toUpper_digitChar {d : Nat} (h : d < 16) :
    hexValue? d.digitChar.toUpper = some d := by
  decide +revert

theorem readDigits?_toDigits {base : Nat} (hbase : 1 < base) (hsixteen : base ≤ 16)
    (count n : Nat) :
    readDigits? base (List.replicate count '0' ++ Nat.toDigits base n) = some n := by
  have hdigit : ∀ d < base, hexValue? (id d.digitChar) = some d :=
    fun d hd => hexValue?_digitChar (by omega)
  simpa using readDigits?_map_toDigits hdigit hbase count n

end DevMachines
