import DevMachines.Text.Base64
import Mathlib.Data.List.Basic

/-!
# Letters for octets

Octets come back from the letters that write them, also from lines of letters, since what is no letter
is skipped.

Main statements: `decode_lines`, and `exists_rows`, which says what the lines look like.
-/

namespace DevMachines.Text.Base64

/-! ## Letters -/

/-- A letter, the padding included, lies in this stretch of ASCII. -/
def IsLetter (c : Char) : Prop := '+' ≤ c ∧ c ≤ 'z'

instance (c : Char) : Decidable (IsLetter c) := inferInstanceAs (Decidable (_ ∧ _))

theorem isLetter_letter {n : Nat} (h : n < 64) : IsLetter (letter n) := by
  decide +revert

theorem value?_letter {n : Nat} (h : n < 64) : value? (letter n) = some n := by
  decide +revert

theorem letter_ne_padding {n : Nat} (h : n < 64) : letter n ≠ '=' := by
  decide +revert

theorem isLetter_of_mem_encode {octets : Octets} : ∀ c ∈ encode octets, IsLetter c := by
  have hpadding : IsLetter '=' := by decide
  have hmod (n : Nat) : IsLetter (letter (n % 64)) := isLetter_letter (Nat.mod_lt n (by decide))
  induction octets using encode.induct with
  | case1 a b c rest ih =>
    have ha := a.toNat_lt
    have hb := b.toNat_lt
    have hc := c.toNat_lt
    simp only [encode, List.forall_mem_cons]
    exact ⟨isLetter_letter (by omega), hmod _, hmod _, hmod _, ih⟩
  | case2 a b =>
    have ha := a.toNat_lt
    have hb := b.toNat_lt
    simp only [encode, List.forall_mem_cons]
    exact ⟨isLetter_letter (by omega), hmod _, hmod _, hpadding, List.forall_mem_nil _⟩
  | case3 a =>
    have ha := a.toNat_lt
    simp only [encode, List.forall_mem_cons]
    exact ⟨isLetter_letter (by omega), hmod _, hpadding, hpadding, List.forall_mem_nil _⟩
  | case4 => exact List.forall_mem_nil _

/-! ## Reading letters -/

section Reading

variable {bits pads n : Nat} {rest : List Char}

theorem decodeFrom_first (h : n < 64) :
    decodeFrom 0 bits pads (letter n :: rest) = decodeFrom 1 n 0 rest := by
  simp only [decodeFrom, letter_ne_padding h, value?_letter h, ↓reduceIte]

theorem decodeFrom_second (h : n < 64) : decodeFrom 1 bits pads (letter n :: rest) =
    (decodeFrom 2 (n % 16) 0 rest).map (UInt8.ofNat (bits * 4 + n / 16) :: ·) := by
  simp only [decodeFrom, letter_ne_padding h, value?_letter h, ↓reduceIte]

theorem decodeFrom_third (h : n < 64) : decodeFrom 2 bits pads (letter n :: rest) =
    (decodeFrom 3 (n % 4) 0 rest).map (UInt8.ofNat (bits * 16 + n / 4) :: ·) := by
  simp only [decodeFrom, letter_ne_padding h, value?_letter h, ↓reduceIte]

theorem decodeFrom_fourth (h : n < 64) : decodeFrom 3 bits pads (letter n :: rest) =
    (decodeFrom 0 0 0 rest).map (UInt8.ofNat (bits * 64 + n) :: ·) := by
  simp only [decodeFrom, letter_ne_padding h, value?_letter h, ↓reduceIte]

theorem ofNat_eq {octet : UInt8} (h : n = octet.toNat) : UInt8.ofNat n = octet := by
  rw [h, UInt8.ofNat_toNat]

end Reading

/-- **Octets come back from their letters.** -/
theorem decode_encode (octets : Octets) : decode (encode octets) = some octets := by
  rw [decode]
  induction octets using encode.induct with
  | case1 a b c rest ih =>
    have ha := a.toNat_lt
    have hb := b.toNat_lt
    have hc := c.toNat_lt
    obtain ⟨n, hn⟩ : ∃ n, n = a.toNat * 65536 + b.toNat * 256 + c.toNat := ⟨_, rfl⟩
    have hfirst : UInt8.ofNat (n / 262144 * 4 + n / 4096 % 64 / 16) = a := ofNat_eq (by omega)
    have hsecond : UInt8.ofNat (n / 4096 % 64 % 16 * 16 + n / 64 % 64 / 4) = b := ofNat_eq (by omega)
    have hthird : UInt8.ofNat (n / 64 % 64 % 4 * 64 + n % 64) = c := ofNat_eq (by omega)
    simp only [encode, ← hn]
    rw [decodeFrom_first (by omega), decodeFrom_second (by omega), decodeFrom_third (by omega),
      decodeFrom_fourth (by omega), ih]
    simp only [Option.map_some, hfirst, hsecond, hthird]
  | case2 a b =>
    have ha := a.toNat_lt
    have hb := b.toNat_lt
    obtain ⟨n, hn⟩ : ∃ n, n = a.toNat * 1024 + b.toNat * 4 := ⟨_, rfl⟩
    have hfirst : UInt8.ofNat (n / 4096 * 4 + n / 64 % 64 / 16) = a := ofNat_eq (by omega)
    have hsecond : UInt8.ofNat (n / 64 % 64 % 16 * 16 + n % 64 / 4) = b := ofNat_eq (by omega)
    have hend : decodeFrom 3 (n % 64 % 4) 0 ['='] = some [] := rfl
    simp only [encode, ← hn]
    rw [decodeFrom_first (by omega), decodeFrom_second (by omega), decodeFrom_third (by omega), hend]
    simp only [Option.map_some, hfirst, hsecond]
  | case3 a =>
    have ha := a.toNat_lt
    obtain ⟨n, hn⟩ : ∃ n, n = a.toNat * 16 := ⟨_, rfl⟩
    have hfirst : UInt8.ofNat (n / 64 * 4 + n % 64 / 16) = a := ofNat_eq (by omega)
    have hend : decodeFrom 2 (n % 64 % 16) 0 ['=', '='] = some [] := rfl
    simp only [encode, ← hn]
    rw [decodeFrom_first (by omega), decodeFrom_second (by omega), hend]
    simp only [Option.map_some, hfirst]
  | case4 => rfl

/-! ## Lines -/

/-- Letters are broken into rows, none of them empty, each closed by a line feed. -/
theorem exists_rows_of_breakLines {width fuel : Nat} {cs : List Char} (hwidth : 0 < width)
    (hfuel : cs.length ≤ fuel) : ∃ rows : List (List Char),
      breakLines width fuel cs = rows.flatMap (· ++ ['\n']) ∧ rows.flatten = cs ∧ [] ∉ rows := by
  induction fuel generalizing cs with
  | zero =>
    obtain rfl := List.length_eq_zero_iff.mp (Nat.le_zero.mp hfuel)
    exact ⟨[], rfl, rfl, List.not_mem_nil⟩
  | succ fuel ih =>
    by_cases hcs : cs = []
    · subst hcs
      exact ⟨[], rfl, rfl, List.not_mem_nil⟩
    have hlength := List.length_pos_of_ne_nil hcs
    have hempty : cs.isEmpty = false := by simpa using hcs
    have hfewer : (cs.drop width).length ≤ fuel := by
      rw [List.length_drop]
      omega
    obtain ⟨rows, hlines, hflatten, hsome⟩ := ih hfewer
    refine ⟨cs.take width :: rows, ?_, ?_, ?_⟩
    · rw [breakLines, hempty, if_neg Bool.false_ne_true, hlines]
      simp
    · rw [List.flatten_cons, hflatten, List.take_append_drop]
    · rw [List.mem_cons, not_or]
      refine ⟨fun hnil => ?_, hsome⟩
      have htake := congrArg List.length hnil
      rw [List.length_nil, List.length_take] at htake
      omega

/-- What the lines of octets look like. -/
structure AreRows (rows : List (List Char)) (octets : Octets) : Prop where
  flatten : rows.flatten = encode octets
  nonempty : [] ∉ rows

theorem AreRows.isLetter {rows : List (List Char)} {octets : Octets} (h : AreRows rows octets) :
    ∀ row ∈ rows, ∀ c ∈ row, IsLetter c := by
  intro row hrow c hc
  have hmem : c ∈ rows.flatten := List.mem_flatten_of_mem hrow hc
  rw [h.flatten] at hmem
  exact isLetter_of_mem_encode c hmem

/-- **The lines of octets are rows of letters**, each closed by a line feed. -/
theorem exists_rows (octets : Octets) :
    ∃ rows, AreRows rows octets ∧ lines octets = rows.flatMap (· ++ ['\n']) := by
  obtain ⟨rows, hlines, hflatten, hnonempty⟩ :=
    exists_rows_of_breakLines (show 0 < 76 by decide) (Nat.le_refl (encode octets).length)
  exact ⟨rows, ⟨hflatten, hnonempty⟩, hlines⟩

/-- Line feeds among the letters do not matter. -/
theorem decodeFrom_filter (place bits pads : Nat) (cs : List Char) :
    decodeFrom place bits pads (cs.filter (· ≠ '\n')) = decodeFrom place bits pads cs := by
  induction cs generalizing place bits pads with
  | nil => rfl
  | cons c cs ih =>
    by_cases hc : c = '\n'
    · subst hc
      rw [List.filter_cons_of_neg (by simp), ih]
      rfl
    · rw [List.filter_cons_of_pos (by simpa using hc), decodeFrom, decodeFrom]
      simp only [ih]

/-- **Octets come back from their lines.** -/
theorem decode_lines (octets : Octets) : decode (lines octets) = some octets := by
  obtain ⟨rows, hrows, hlines⟩ := exists_rows octets
  have hletters : (lines octets).filter (· ≠ '\n') = encode octets := by
    rw [hlines, ← hrows.flatten, List.filter_flatMap, ← List.flatMap_id']
    refine List.flatMap_congr fun row hrow => ?_
    rw [List.filter_append, List.filter_eq_self.mpr, List.filter_cons_of_neg (by simp),
      List.filter_nil, List.append_nil]
    · intro c hc
      have hletter := hrows.isLetter row hrow c hc
      rw [decide_eq_true_eq]
      rintro rfl
      exact absurd hletter (by decide)
  rw [decode, ← decodeFrom_filter, hletters, ← decode, decode_encode]

end DevMachines.Text.Base64
