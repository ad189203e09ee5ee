import DevMachines.Proofs.Json.Layout
import DevMachines.Proofs.Number.Shortest

/-!
# Doubles are written exactly

Every finite double is written as a decimal of the grammar that reads as it
(`writtenExactly_finite`).  Its text has up to three parts: digits before the point, digits behind it,
and an exponent (`Numeral`).  What they stand for does not depend on where the point is, so the four
layouts are four ways to put the digits of one number (`exists_layout`), and one lemma reads them all
(`Numeral.Denotes.readDecimal?_text`).
-/

namespace DevMachines
namespace Json

/-! ## Numerals -/

/-- The digits of a double before its point, those behind it, and its exponent. -/
structure Numeral where
  whole : List Char
  fraction : List Char
  exponent : List Char

namespace Numeral

/-- The characters of a numeral; without digits behind it there is no point. -/
def text (p : Numeral) : List Char :=
  p.whole ++ (if p.fraction = [] then p.exponent else '.' :: (p.fraction ++ p.exponent))

/-- The characters of a numeral, behind a minus if it is that of a negative double. -/
def signed (p : Numeral) (negative : Bool) : List Char :=
  if negative then '-' :: p.text else p.text

/-- Is this nothing, or an exponent with its sign? -/
def IsSigned (cs : List Char) : Prop :=
  cs = [] ∨ ∃ sign digits, (sign = '-' ∨ sign = '+') ∧ AreDigits digits ∧ cs = 'e' :: sign :: digits

/-- Does a numeral denote a magnitude, and not an integer? -/
structure Denotes (p : Numeral) (units : Nat) : Prop where
  whole : IsWhole p.whole
  fraction : ∀ c ∈ p.fraction, (digitValue? c).isSome
  exponent : IsSigned p.exponent
  decimal : p.fraction ≠ [] ∨ p.exponent ≠ []
  value : ∃ digits power, readDigits? 10 (p.whole ++ p.fraction) = some digits ∧
    Binary64.readExponent? p.exponent = some power ∧
    Binary64.ofDecimal false digits (power - p.fraction.length) = .finite false units

variable {p : Numeral} {units : Nat}

theorem IsSigned.head {cs : List Char} (h : IsSigned cs) {c : Char} (hc : cs.head? = some c) :
    c = 'e' := by
  rcases h with rfl | ⟨sign, digits, -, -, rfl⟩
  · cases hc
  · exact (Option.some.inj hc).symm

/-- **A numeral reads as what it denotes.** -/
theorem Denotes.readDecimal?_text (h : p.Denotes units) (negative : Bool) :
    Binary64.readDecimal? negative p.text = some (.finite negative units) := by
  obtain ⟨digits, power, hdigits, hpower, hvalue⟩ := h.value
  have hletter : ∀ c, p.exponent.head? = some c → (digitValue? c).isSome = false := fun c hc => by
    rw [h.exponent.head hc]
    rfl
  rw [Binary64.readDecimal?, text]
  dsimp only
  split
  · next hfraction =>
    rw [hfraction, List.append_nil] at hdigits
    rw [hfraction, List.length_nil] at hvalue
    rw [takeWhile_append_stop h.whole.1.2 hletter, dropWhile_append_stop h.whole.1.2 hletter]
    split
    · next rest hrest => cases h.exponent.head (congrArg List.head? hrest)
    · have hread := Binary64.ofDecimal_of_finite hvalue negative
      simpa [hdigits, hpower] using hread
  · next hfraction =>
    have hpoint : ∀ c, ('.' :: (p.fraction ++ p.exponent)).head? = some c →
        (digitValue? c).isSome = false := by
      intro c hc
      rw [← Option.some.inj hc]
      rfl
    have hread := Binary64.ofDecimal_of_finite hvalue negative
    rw [takeWhile_append_stop h.whole.1.2 hpoint, dropWhile_append_stop h.whole.1.2 hpoint]
    simpa [takeWhile_append_stop h.fraction hletter, dropWhile_append_stop h.fraction hletter,
      hdigits, hpower] using hread

end Numeral

/-! ## Layouts -/

theorem readDigits?_toDigits_ten (count n : Nat) :
    readDigits? 10 (List.replicate count '0' ++ Nat.toDigits 10 n) = some n :=
  readDigits?_toDigits (by decide) (by decide) count n

theorem areDigits_zeros (count : Nat) : ∀ c ∈ List.replicate count '0', (digitValue? c).isSome := by
  intro c hc
  rw [List.eq_of_mem_replicate hc]
  rfl

/-- The characters of an exponent. -/
def exponentChars (power : Int) : List Char :=
  let size := Nat.toDigits 10 power.natAbs
  'e' :: (if power < 0 then '-' else '+') :: (if size.length < 2 then '0' :: size else size)

theorem exists_exponentChars (power : Int) : ∃ count,
    exponentChars power = 'e' :: (if power < 0 then '-' else '+') ::
      (List.replicate count '0' ++ Nat.toDigits 10 power.natAbs) := by
  by_cases hsize : (Nat.toDigits 10 power.natAbs).length < 2
  · exact ⟨1, by rw [exponentChars, if_pos hsize]; rfl⟩
  · exact ⟨0, by rw [exponentChars, if_neg hsize]; rfl⟩

theorem readExponent?_exponentChars (power : Int) :
    Binary64.readExponent? (exponentChars power) = some power := by
  obtain ⟨count, hchars⟩ := exists_exponentChars power
  have hread := readDigits?_toDigits_ten count power.natAbs
  rw [hchars, Binary64.readExponent?, if_pos (Or.inl rfl)]
  rcases Int.lt_or_le power 0 with hpower | hpower
  · rw [if_pos hpower, Binary64.takeSign]
    dsimp only
    rw [hread]
    show some (-(power.natAbs : Int)) = some power
    congr 1
    omega
  · rw [if_neg (Int.not_lt.mpr hpower), Binary64.takeSign]
    dsimp only
    rw [hread]
    show some (power.natAbs : Int) = some power
    congr 1
    omega

theorem isSigned_exponentChars (power : Int) : Numeral.IsSigned (exponentChars power) := by
  obtain ⟨count, hchars⟩ := exists_exponentChars power
  refine Or.inr ⟨_, _, ?_, ⟨?_, ?_⟩, hchars⟩
  · split
    · exact Or.inl rfl
    · exact Or.inr rfl
  · simp [Nat.toDigits_ne_nil]
  · intro c hc
    rcases List.mem_append.mp hc with hc | hc
    · exact areDigits_zeros count c hc
    · exact (areDigits_toDigits _).2 c hc

section Layout

variable {m units : Nat} {q : Int}

/-- A number below one has zeros behind its point. -/
theorem denotes_small (h : Binary64.ofDecimal false m q = .finite false units) {count : Nat}
    (hcount : (count : Int) + (Nat.toDigits 10 m).length + q = 0) :
    Numeral.Denotes ⟨['0'], List.replicate count '0' ++ Nat.toDigits 10 m, []⟩ units where
  whole := isWhole_toDigits 0
  fraction c hc := by
    rcases List.mem_append.mp hc with hc | hc
    · exact areDigits_zeros count c hc
    · exact (areDigits_toDigits m).2 c hc
  exponent := Or.inl rfl
  decimal := Or.inl (by simp [Nat.toDigits_ne_nil])
  value := by
    refine ⟨m, 0, readDigits?_toDigits_ten (count + 1) m, rfl, ?_⟩
    have hpower :
        (0 : Int) - ((List.replicate count '0' ++ Nat.toDigits 10 m).length : Nat) = q := by
      rw [List.length_append, List.length_replicate]
      omega
    rw [hpower, h]

/-- A whole number has zeros behind its digits. -/
theorem denotes_whole (hm : 0 < m) {count : Nat}
    (h : Binary64.ofDecimal false m count = .finite false units) :
    Numeral.Denotes ⟨Nat.toDigits 10 m ++ List.replicate count '0', ['0'], []⟩ units where
  whole := by
    rw [← toDigits_mul_pow hm]
    exact isWhole_toDigits _
  fraction c hc := by
    rw [List.mem_singleton.mp hc]
    rfl
  exponent := Or.inl rfl
  decimal := Or.inl (List.cons_ne_nil _ _)
  value := by
    have hdigits := readDigits?_toDigits_ten 0 (m * 10 ^ (count + 1))
    rw [List.replicate_zero, List.nil_append, toDigits_mul_pow hm, List.replicate_succ',
      ← List.append_assoc] at hdigits
    refine ⟨_, 0, hdigits, rfl, ?_⟩
    have hpower : (0 : Int) - (['0'].length : Nat) + ((count + 1 : Nat) : Int) = count := by
      rw [List.length_singleton]
      omega
    rw [Binary64.ofDecimal_mul_pow, hpower, h]

/-- The digits may be parted at any place, if an exponent makes up for it. -/
theorem denotes_parted (hm : 0 < m) (h : Binary64.ofDecimal false m q = .finite false units)
    {whole fraction exponent : List Char} (hsplit : Nat.toDigits 10 m = whole ++ fraction)
    (hwhole : whole ≠ []) (hexponent : Numeral.IsSigned exponent)
    (hdecimal : fraction ≠ [] ∨ exponent ≠ [])
    (hread : Binary64.readExponent? exponent = some (q + fraction.length)) :
    Numeral.Denotes ⟨whole, fraction, exponent⟩ units where
  whole := by
    have hdigits := (areDigits_toDigits m).2
    rw [hsplit] at hdigits
    refine ⟨⟨hwhole, fun c hc => hdigits c (List.mem_append_left _ hc)⟩, fun hzero => ?_⟩
    refine absurd ?_ (head?_toDigits_ne_zero hm)
    rw [hsplit, List.head?_append, hzero]
    rfl
  fraction c hc := (areDigits_toDigits m).2 c (hsplit ▸ List.mem_append_right _ hc)
  exponent := hexponent
  decimal := hdecimal
  value := by
    have hdigits := readDigits?_toDigits_ten 0 m
    rw [List.replicate_zero, List.nil_append, hsplit] at hdigits
    refine ⟨m, _, hdigits, hread, ?_⟩
    rw [Int.add_sub_cancel, h]

/-- **The digits of a number are laid out as a numeral of it.** -/
theorem exists_layout (hm : 0 < m) (h : Binary64.ofDecimal false m q = .finite false units) :
    ∃ p : Numeral, Binary64.layout ⟨Nat.toDigits 10 m, (Nat.toDigits 10 m).length + q⟩ = p.text ∧
      p.Denotes units := by
  have hlength : 0 < (Nat.toDigits 10 m).length := Nat.length_toDigits_pos
  rw [Binary64.layout]
  dsimp only
  split
  · split
    · refine ⟨⟨['0'],
        List.replicate ((Nat.toDigits 10 m).length + q).natAbs '0' ++ Nat.toDigits 10 m, []⟩, ?_,
        denotes_small h (by omega)⟩
      simp [Numeral.text, Nat.toDigits_ne_nil]
    · split
      · obtain ⟨count, rfl⟩ := Int.eq_ofNat_of_zero_le (show 0 ≤ q by omega)
        refine ⟨_, ?_, denotes_whole hm h⟩
        simp [Numeral.text]
      · -- the point is among the digits
        obtain ⟨n, hn⟩ := Int.eq_ofNat_of_zero_le
          (show 0 ≤ ((Nat.toDigits 10 m).length : Int) + q by omega)
        have hpoint : n < (Nat.toDigits 10 m).length := by omega
        have hfraction : (Nat.toDigits 10 m).drop n ≠ [] := by
          rw [Ne, List.drop_eq_nil_iff]
          omega
        refine ⟨⟨(Nat.toDigits 10 m).take n, (Nat.toDigits 10 m).drop n, []⟩, ?_,
          denotes_parted hm h (List.take_append_drop n _).symm ?_ (Or.inl rfl) (Or.inl hfraction)
            ?_⟩
        · rw [Numeral.text, if_neg hfraction, List.append_nil, hn]
          rfl
        · rw [Ne, List.take_eq_nil_iff]
          rintro (hzero | hnil)
          · omega
          · exact Nat.toDigits_ne_nil hnil
        · show some (0 : Int) = _
          rw [List.length_drop]
          congr 1
          omega
  · -- the point is behind the first digit
    obtain ⟨c, rest, hdigits⟩ := List.exists_cons_of_ne_nil (Nat.toDigits_ne_nil (n := m) (b := 10))
    refine ⟨⟨[c], rest, exponentChars ((Nat.toDigits 10 m).length + q - 1)⟩, ?_,
      denotes_parted hm h hdigits (List.cons_ne_nil _ _) (isSigned_exponentChars _)
        (Or.inr (List.cons_ne_nil _ _)) ?_⟩
    · rw [hdigits]
      cases rest <;> rfl
    · rw [readExponent?_exponentChars, hdigits, List.length_cons]
      congr 1
      omega

end Layout

/-! ## Texts -/

/-- The text of a finite double is a numeral, perhaps behind a sign. -/
theorem exists_toText {units : Nat} (hunits : Binary64.IsMagnitude units) (negative : Bool) :
    ∃ p : Numeral, (Binary64.finite negative units).toText =
      String.ofList (p.signed negative) ∧ p.Denotes units := by
  rcases Nat.eq_zero_or_pos units with rfl | hpos
  · exact ⟨⟨['0'], ['0'], []⟩, rfl, isWhole_toDigits 0, by simp [digitValue?], Or.inl rfl,
      Or.inl (List.cons_ne_nil _ _), 0, 0, rfl, rfl, rfl⟩
  · obtain ⟨m, q, hm, hshortest, hread⟩ := Binary64.exists_shortest hpos hunits
    obtain ⟨p, hlayout, hp⟩ := exists_layout hm hread
    refine ⟨p, ?_, hp⟩
    rw [Binary64.toText, if_neg (Nat.ne_of_gt hpos), hshortest, hlayout, Numeral.signed]

/-- The characters of numerals. -/
def numeralChars : List Char := "0123456789.e+-".toList

theorem mem_numeralChars_of_digit {c : Char} (h : (digitValue? c).isSome) : c ∈ numeralChars := by
  have hbounds : 48 ≤ c.toNat ∧ c.toNat ≤ 57 := by
    rw [digitValue?] at h
    split at h
    · next hrange => exact ⟨hrange.1, hrange.2⟩
    · cases h
  have hall : ∀ n < 58, 48 ≤ n → Char.ofNat n ∈ numeralChars := by decide
  have hc := hall c.toNat (by omega) hbounds.1
  rwa [Char.ofNat_toNat] at hc

namespace Numeral

variable {p : Numeral} {units : Nat}

theorem IsSigned.mem_numeralChars {cs : List Char} (h : IsSigned cs) {c : Char} (hc : c ∈ cs) :
    c ∈ numeralChars := by
  rcases h with rfl | ⟨sign, digits, hsign, hdigits, rfl⟩
  · cases hc
  · rcases List.mem_cons.mp hc with rfl | hc
    · decide
    · rcases List.mem_cons.mp hc with rfl | hc
      · rcases hsign with rfl | rfl <;> decide
      · exact mem_numeralChars_of_digit (hdigits.2 c hc)

theorem Denotes.mem_numeralChars (h : p.Denotes units) {c : Char} (hc : c ∈ p.text) :
    c ∈ numeralChars := by
  rw [text] at hc
  rcases List.mem_append.mp hc with hc | hc
  · exact mem_numeralChars_of_digit (h.whole.1.2 c hc)
  split at hc
  · exact h.exponent.mem_numeralChars hc
  · rcases List.mem_cons.mp hc with rfl | hc
    · decide
    · rcases List.mem_append.mp hc with hc | hc
      · exact mem_numeralChars_of_digit (h.fraction c hc)
      · exact h.exponent.mem_numeralChars hc

/-- A numeral begins with a digit. -/
theorem Denotes.exists_text (h : p.Denotes units) :
    ∃ c cs, p.text = c :: cs ∧ (digitValue? c).isSome := by
  obtain ⟨c, cs, hwhole⟩ := List.exists_cons_of_ne_nil h.whole.1.1
  rw [text, hwhole, List.cons_append]
  exact ⟨c, _, rfl, h.whole.1.2 c (hwhole ▸ List.mem_cons_self ..)⟩

theorem Denotes.ofList_text_ne (h : p.Denotes units) {c : Char} {cs : List Char}
    (hc : digitValue? c = none) : String.ofList p.text ≠ String.ofList (c :: cs) := by
  intro heq
  obtain ⟨c', cs', htext, hdigit⟩ := h.exists_text
  rw [String.ofList_inj, htext] at heq
  rw [(List.cons.inj heq).1, hc] at hdigit
  cases hdigit

theorem Denotes.takeSign_signed (h : p.Denotes units) (negative : Bool) :
    Binary64.takeSign (p.signed negative) = (negative, p.text) := by
  cases negative with
  | true => rfl
  | false =>
    obtain ⟨c, cs, htext, hc⟩ := h.exists_text
    rw [signed, if_neg Bool.false_ne_true, htext, Binary64.takeSign]
    · rintro rest heq
      cases heq
      cases hc
    · rintro rest heq
      cases heq
      cases hc

theorem Denotes.mem_numeralChars_signed (h : p.Denotes units) {negative : Bool} {c : Char}
    (hc : c ∈ p.signed negative) : c ∈ numeralChars := by
  rw [signed] at hc
  split at hc
  · rcases List.mem_cons.mp hc with rfl | hc
    · decide
    · exact h.mem_numeralChars hc
  · exact h.mem_numeralChars hc

theorem dropSingleUnderscores?_of_ne {cs : List Char} (h : ∀ c ∈ cs, c ≠ '_') :
    dropSingleUnderscores? cs = some cs := by
  have hgo : ∀ before, dropSingleUnderscores?.go before cs = some cs := by
    induction cs with
    | nil => exact fun _ => rfl
    | cons c cs ih =>
      intro before
      rw [List.forall_mem_cons] at h
      rw [dropSingleUnderscores?.go, ih h.2, Option.map_some]
      exact fun hc => h.1 hc
  exact hgo none

/-- **A numeral behind its sign is the text of a double.** -/
theorem Denotes.ofText?_signed (h : p.Denotes units) (negative : Bool) :
    Binary64.ofText? (p.signed negative) = some (.finite negative units) := by
  have hunderscore : ∀ c ∈ p.signed negative, c ≠ '_' := by
    have hchars : ∀ c ∈ numeralChars, c ≠ '_' := List.all_iff_forall_prop.mp (by decide)
    exact fun c hc => hchars c (h.mem_numeralChars_signed hc)
  have hsmall : p.text.map Char.toLower = p.text := by
    have hchars : ∀ c ∈ numeralChars, c.toLower = c := List.all_iff_forall_prop.mp (by decide)
    exact (List.map_congr_left fun c hc => hchars c (h.mem_numeralChars hc)).trans (List.map_id _)
  rw [Binary64.ofText?, dropSingleUnderscores?_of_ne hunderscore]
  simp only [Option.bind_eq_bind, Option.bind_some, h.takeSign_signed negative, hsmall]
  rw [if_neg, if_neg, h.readDecimal?_text]
  · exact h.ofList_text_ne rfl
  · rintro (hinf | hinf)
    · exact h.ofList_text_ne rfl hinf
    · exact h.ofList_text_ne rfl hinf

theorem Denotes.isDecimal (h : p.Denotes units) (negative : Bool) :
    IsDecimal (p.signed negative) := by
  have hexponent : p.exponent ≠ [] → IsExponent p.exponent := by
    intro hsome
    rcases h.exponent with hnil | ⟨sign, digits, hsign, hdigits, hchars⟩
    · exact absurd hnil hsome
    · refine ⟨'e', [sign], digits, Or.inl rfl, Or.inr ?_, hdigits, hchars⟩
      rcases hsign with rfl | rfl
      · exact Or.inl rfl
      · exact Or.inr rfl
  refine ⟨(if negative then ['-'] else []) ++ p.whole,
    if p.fraction = [] then [] else '.' :: p.fraction, p.exponent, ⟨_, p.whole, ?_, h.whole, rfl⟩,
    ?_, ?_⟩
  · cases negative with
    | true => exact Or.inr rfl
    | false => exact Or.inl rfl
  · split
    · next hnil => exact Or.inr (Or.inl ⟨rfl, hexponent (h.decimal.resolve_left (· hnil))⟩)
    · next hsome =>
      have hfraction : IsFraction ('.' :: p.fraction) := ⟨p.fraction, ⟨hsome, h.fraction⟩, rfl⟩
      by_cases hnone : p.exponent = []
      · exact Or.inl ⟨hfraction, hnone⟩
      · exact Or.inr (Or.inr ⟨hfraction, hexponent hnone⟩)
  · rw [signed, text]
    split <;> split <;> simp

/-- Without digits behind the point, a zero there changes nothing. -/
theorem Denotes.withZero (h : p.Denotes units) (hnone : p.fraction = []) :
    Numeral.Denotes ⟨p.whole, ['0'], p.exponent⟩ units where
  whole := h.whole
  fraction c hc := by
    rw [List.mem_singleton.mp hc]
    rfl
  exponent := h.exponent
  decimal := Or.inl (List.cons_ne_nil _ _)
  value := by
    obtain ⟨digits, power, hdigits, hpower, hvalue⟩ := h.value
    rw [hnone, List.append_nil, readDigits?_of_ne_nil h.whole.1.1] at hdigits
    rw [hnone, List.length_nil, Nat.cast_zero, Int.sub_zero] at hvalue
    refine ⟨digits * 10, power, ?_, hpower, ?_⟩
    · rw [readDigits?_of_ne_nil (by simp), appendDigits?_append, hdigits, Option.bind_some]
      exact appendDigits?_cons (hexValue?_digitChar (by decide : 0 < 16)) (by decide) digits []
    · exact (Binary64.ofDecimal_mul_ten false digits power).trans hvalue

end Numeral

/-- **A finite double is written exactly.** -/
theorem writtenExactly_finite {units : Nat} (hunits : Binary64.IsMagnitude units)
    (negative : Bool) : WrittenExactly (.finite negative units) := by
  obtain ⟨p, htext, hp⟩ := exists_toText hunits negative
  have hfloat : floatText (.finite negative units) = (Binary64.finite negative units).toText := rfl
  rw [WrittenExactly, hfloat, htext, String.toList_ofList]
  exact ⟨hp.isDecimal negative, hp.ofText?_signed negative⟩

theorem writtenExactly_of_isFinite {x : Binary64} (h : x.IsDouble) (hfinite : x.IsFinite) :
    WrittenExactly x := by
  obtain ⟨negative, units, rfl⟩ := hfinite
  exact writtenExactly_finite (h negative units rfl) negative

/-- What is read is a double. -/
theorem isDouble_of_ofText? {cs : List Char} {x : Binary64} (h : Binary64.ofText? cs = some x) :
    x.IsDouble := by
  obtain ⟨digits, -, h⟩ := Option.bind_eq_some_iff.mp h
  dsimp only at h
  split_ifs at h
  · cases h
    exact Binary64.isDouble_infinite _
  · cases h
    exact Binary64.isDouble_nan
  · obtain ⟨n, -, h⟩ := Option.bind_eq_some_iff.mp h
    obtain ⟨power, -, h⟩ := Option.bind_eq_some_iff.mp h
    cases h
    exact Binary64.isDouble_ofDecimal _ _ _

/-- **What has been read from a text is written as a text that denotes it**, if it is finite. -/
theorem writtenExactly_of_ofText? {cs : List Char} {negative : Bool} {units : Nat}
    (h : Binary64.ofText? cs = some (.finite negative units)) :
    WrittenExactly (.finite negative units) :=
  writtenExactly_finite (isDouble_of_ofText? h negative units rfl) negative

end Json
end DevMachines
