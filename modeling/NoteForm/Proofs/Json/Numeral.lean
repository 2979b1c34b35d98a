import NoteForm.Decimal.Notation
import NoteForm.Json.Source
import NoteForm.Proofs.Json.Grammar

/-! A number that keeps to the rules is taken off a text if what follows it does not continue it, and
an integer written in decimal is read back as the integer it is. -/
namespace NoteForm

/-- The characters of an integer make up its text. -/
theorem Decimal.ofList_ofInt (value : Int) : String.ofList (ofInt value) = toString value := by
  cases value with
  | ofNat n => exact Nat.repr_eq_ofList_toDigits.symm
  | negSucc n =>
      change String.ofList (['-'] ++ Nat.toDigits 10 (n + 1)) = "-" ++ (n + 1).repr
      rw [String.ofList_append, Nat.repr_eq_ofList_toDigits]

namespace Json

/-- Whether a text begins with something that continues the number in front of it. -/
def ContinuesNumber (text : List Char) : Prop :=
  ∃ c rest, text = c :: rest ∧ (c.isDigit = true ∨ c = '.' ∨ c = 'e' ∨ c = 'E')

@[simp] theorem not_continuesNumber_nil : ¬ContinuesNumber [] := by
  rintro ⟨c, rest, hText, -⟩
  cases hText

theorem not_continuesNumber_cons {c : Char}
    (h : ¬(c.isDigit = true ∨ c = '.' ∨ c = 'e' ∨ c = 'E')) (rest : List Char) :
    ¬ContinuesNumber (c :: rest) := by
  rintro ⟨d, _, hText, hFirst⟩
  obtain ⟨rfl, rfl⟩ := List.cons.inj hText
  exact h hFirst

/-- A text that does not lengthen the digits in front of it. -/
def EndsDigits (text : List Char) : Prop := ∀ c ∈ text.head?, c.isDigit = false

/-- Where a number ends, its digits do. -/
theorem endsDigits_of_not_continues {text : List Char} (h : ¬ContinuesNumber text) :
    EndsDigits text := by
  intro c hFirst
  cases text with
  | nil => cases hFirst
  | cons d rest =>
      obtain rfl : d = c := Option.some.inj hFirst
      exact Bool.eq_false_iff.2 fun hDigit => h ⟨d, rest, rfl, Or.inl hDigit⟩

theorem endsDigits_cons {c : Char} (h : c.isDigit = false) (rest : List Char) :
    EndsDigits (c :: rest) := by
  rintro d ⟨⟩
  exact h

namespace Numeral

/-- Only zero is written with a zero in front. -/
theorem eq_zero_of_toDigits_cons_zero {n : Nat} {rest : List Char}
    (h : Nat.toDigits 10 n = '0' :: rest) : n = 0 := by
  induction n using Nat.strongRecOn generalizing rest with
  | ind n ih =>
      rw [Nat.toDigits_eq_if (by decide)] at h
      split at h
      · simpa using (List.cons.inj h).1
      · rename_i hLong
        cases hDigits : Nat.toDigits 10 (n / 10) with
        | nil => exact absurd hDigits Nat.toDigits_ne_nil
        | cons c front =>
            rw [hDigits, List.cons_append] at h
            rw [(List.cons.inj h).1] at hDigits
            have hZero := ih (n / 10) (by omega) hDigits
            omega

theorem isDigit_of_mem_toDigits {n : Nat} {c : Char} (h : c ∈ Nat.toDigits 10 n) :
    c.isDigit = true :=
  Nat.isDigit_of_mem_toDigits (by decide) (by decide) h

/-- The digits of a number keep to the rule about zeros in front. -/
theorem isWhole_toDigits (n : Nat) : IsWhole (Nat.toDigits 10 n) where
  nonempty := Nat.toDigits_ne_nil
  isDigit _ := isDigit_of_mem_toDigits
  first := by
    cases hDigits : Nat.toDigits 10 n with
    | nil => exact absurd hDigits Nat.toDigits_ne_nil
    | cons c rest =>
        by_cases hZero : c = '0'
        · subst hZero
          obtain rfl := eq_zero_of_toDigits_cons_zero hDigits
          exact .inl hDigits.symm
        · exact .inr (by simpa using hZero)

/-- All digits are taken, and what does not lengthen them stays. -/
theorem scanDigits_append {digits rest : List Char} (h : IsDigits digits)
    (hRest : EndsDigits rest) : scanDigits (digits ++ rest) = .ok (digits, rest) := by
  have hStop : rest.takeWhile Char.isDigit = [] ∧ rest.dropWhile Char.isDigit = rest := by
    cases rest with
    | nil => exact ⟨rfl, rfl⟩
    | cons c rest => simp [hRest c rfl]
  have hTake : (digits ++ rest).takeWhile Char.isDigit = digits := by
    rw [List.takeWhile_append_of_pos h.isDigit, hStop.1, List.append_nil]
  have hDrop : (digits ++ rest).dropWhile Char.isDigit = rest := by
    rw [List.dropWhile_append_of_pos h.isDigit, hStop.2]
  rw [scanDigits, hTake, hDrop, if_neg (by simpa using h.nonempty)]

theorem scanWhole_append {whole rest : List Char} (h : IsWhole whole) (hRest : EndsDigits rest) :
    scanWhole (whole ++ rest) = .ok (whole, rest) := by
  rcases h.first with rfl | hFirst
  · have hNoDigit : (rest.head?.map Char.isDigit).getD false = false := by
      cases rest with
      | nil => rfl
      | cons c rest => exact hRest c rfl
    simp [scanWhole, hNoDigit]
  · have hNoZero (text : List Char) : whole ++ rest ≠ '0' :: text := by
      intro hText
      cases hWhole : whole with
      | nil => exact h.nonempty hWhole
      | cons c digits =>
          rw [hWhole, List.cons_append] at hText
          rw [hWhole, (List.cons.inj hText).1] at hFirst
          exact hFirst rfl
    rw [scanWhole.eq_2 _ hNoZero]
    exact scanDigits_append h.toIsDigits hRest

/-- Where a number ends, it has no fraction. -/
theorem scanFraction_of_not_continues {rest : List Char} (h : ¬ContinuesNumber rest) :
    scanFraction rest = .ok (none, rest) := by
  have hNoPoint (text : List Char) : rest ≠ '.' :: text := by
    rintro rfl
    exact h ⟨'.', text, rfl, by simp⟩
  exact scanFraction.eq_2 rest hNoPoint

/-- Where a number ends, it has no exponent. -/
theorem scanExponent_of_not_continues {rest : List Char} (h : ¬ContinuesNumber rest) :
    scanExponent rest = .ok (none, rest) := by
  unfold scanExponent
  split
  -- In all cases but the last the text begins with a mark that continues the number.
  all_goals first
    | rfl
    | exact absurd ⟨_, _, rfl, by simp⟩ h

/-- An exponent is taken as a whole. -/
theorem exists_scanExponent {exponent : List Char} (h : IsExponent exponent) :
    ∃ parts, ∀ rest, ¬ContinuesNumber rest →
      EndsDigits (exponent ++ rest) ∧ (exponent ++ rest).head? ≠ some '.' ∧
        scanExponent (exponent ++ rest) = .ok (parts, rest) := by
  cases h with
  | absent =>
      refine ⟨none, fun rest hRest => ⟨endsDigits_of_not_continues hRest, ?_,
        scanExponent_of_not_continues hRest⟩⟩
      intro hPoint
      obtain ⟨behind, rfl⟩ := List.head?_eq_some_iff.1 hPoint
      exact hRest ⟨'.', behind, rfl, by simp⟩
  | @present mark sign digits hMark hSign hDigits =>
      refine ⟨some (decide (sign = ['-']), digits), fun rest hRest => ?_⟩
      have hScan := scanDigits_append hDigits (endsDigits_of_not_continues hRest)
      obtain ⟨d, others, rfl⟩ := List.exists_cons_of_ne_nil hDigits.nonempty
      have hDigit : d.isDigit = true := hDigits.isDigit d (by simp)
      have hPlus : d ≠ '+' := by
        rintro rfl
        cases hDigit
      have hMinus : d ≠ '-' := by
        rintro rfl
        cases hDigit
      rw [List.cons_append] at hScan
      rcases hMark with rfl | rfl <;> rcases hSign with rfl | rfl | rfl <;>
        exact ⟨endsDigits_cons (by decide) _, by simp, by
          simp [scanExponent, hScan, hPlus, hMinus, bind, Except.bind]⟩

/-- A fraction is taken as a whole if an exponent or nothing of the number follows. -/
theorem exists_scanFraction {fraction : List Char} (h : IsFraction fraction) :
    ∃ parts, ∀ rest, EndsDigits rest → rest.head? ≠ some '.' →
      EndsDigits (fraction ++ rest) ∧ scanFraction (fraction ++ rest) = .ok (parts, rest) := by
  cases h with
  | absent =>
      refine ⟨none, fun rest hRest hPoint => ⟨hRest, ?_⟩⟩
      have hNoPoint (text : List Char) : rest ≠ '.' :: text := by
        rintro rfl
        exact hPoint rfl
      exact scanFraction.eq_2 rest hNoPoint
  | @present digits hDigits =>
      refine ⟨some digits, fun rest hRest _ => ⟨endsDigits_cons (by decide) _, ?_⟩⟩
      simp [scanFraction, scanDigits_append hDigits hRest, bind, Except.bind]

/-- A number is taken off a text part by part. -/
theorem scan_of_parts {sign whole rest behindWhole behindFraction : List Char}
    {fraction : Option (List Char)} {exponent : Option (Bool × List Char)}
    (hSign : sign = [] ∨ sign = ['-']) (hWhole : IsWhole whole) (hEnds : EndsDigits behindWhole)
    (hFraction : scanFraction behindWhole = .ok (fraction, behindFraction))
    (hExponent : scanExponent behindFraction = .ok (exponent, rest)) :
    scan (sign ++ (whole ++ behindWhole)) =
      .ok (⟨decide (sign = ['-']), whole, fraction, exponent⟩, rest) := by
  rcases hSign with rfl | rfl
  · have hNoSign (text : List Char) : [] ++ (whole ++ behindWhole) ≠ '-' :: text := by
      obtain ⟨d, digits, rfl⟩ := List.exists_cons_of_ne_nil hWhole.nonempty
      intro hText
      have hDigit : d.isDigit = true := hWhole.isDigit d (by simp)
      rw [(List.cons.inj hText).1] at hDigit
      cases hDigit
    rw [scan.eq_2 _ hNoSign]
    simp [scanWhole_append hWhole hEnds, hFraction, hExponent, bind, Except.bind]
  · rw [List.singleton_append, scan.eq_1]
    simp [scanWhole_append hWhole hEnds, hFraction, hExponent, bind, Except.bind]

/-- A number that keeps to the rules is taken as a whole. -/
theorem exists_scan {text : List Char} (h : IsNumber text) :
    ∃ numeral, ∀ rest, ¬ContinuesNumber rest → scan (text ++ rest) = .ok (numeral, rest) := by
  cases h with
  | @parts sign whole fraction exponent hSign hWhole hFraction hExponent =>
      obtain ⟨exponentParts, hExponent⟩ := exists_scanExponent hExponent
      obtain ⟨fractionParts, hFraction⟩ := exists_scanFraction hFraction
      refine ⟨⟨decide (sign = ['-']), whole, fractionParts, exponentParts⟩, fun rest hRest => ?_⟩
      obtain ⟨hEnds, hPoint, hScanExponent⟩ := hExponent rest hRest
      obtain ⟨hEnds, hScanFraction⟩ := hFraction _ hEnds hPoint
      simp only [List.append_assoc]
      exact scan_of_parts hSign hWhole hEnds hScanFraction hScanExponent

/-- The parts of an integer as it is written. -/
def ofInt (value : Int) : Numeral := ⟨decide (value < 0), Nat.toDigits 10 value.natAbs, none, none⟩

theorem scan_ofInt (value : Int) {rest : List Char} (hRest : ¬ContinuesNumber rest) :
    scan (Decimal.ofInt value ++ rest) = .ok (ofInt value, rest) := by
  have hScan {sign : List Char} (hSign : sign = [] ∨ sign = ['-']) (n : Nat) :=
    scan_of_parts hSign (isWhole_toDigits n) (endsDigits_of_not_continues hRest)
      (scanFraction_of_not_continues hRest) (scanExponent_of_not_continues hRest)
  cases value with
  | ofNat n => exact hScan (.inl rfl) n
  | negSucc n =>
      rw [ofInt, decide_eq_true (Int.negSucc_lt_zero n)]
      exact hScan (.inr rfl) (n + 1)

/-- An integer of 64 bits means itself. -/
theorem number?_ofInt {value : Int} (lower : -0x8000000000000000 ≤ value)
    (upper : value < 0x10000000000000000) :
    (ofInt value).number? = some (.integer value lower upper) := by
  have hMagnitude : Nat.ofDigitChars 10 (Nat.toDigits 10 value.natAbs) 0 = value.natAbs :=
    Nat.ofDigitChars_ten_toDigits
  have hValue : (if value < 0 then -(value.natAbs : Int) else value.natAbs) = value := by
    split <;> omega
  have hNotMinusZero : ¬(value < 0 ∧ value.natAbs = 0) := by omega
  simp only [number?, ofInt, hMagnitude, Option.isNone_none, decide_eq_true_eq, hValue]
  rw [if_pos ⟨trivial, trivial, hNotMinusZero⟩, dif_pos ⟨lower, upper⟩]

end Numeral

/-- An integer of 64 bits is taken off a text as the number it is. -/
theorem Source.scanNumber_ofInt {value : Int} (lower : -0x8000000000000000 ≤ value)
    (upper : value < 0x10000000000000000) {rest : List Char} (hRest : ¬ContinuesNumber rest) :
    Source.scanNumber (Decimal.ofInt value ++ rest) =
      (.number (some (.integer value lower upper)), rest) := by
  rw [Source.scanNumber, Numeral.scan_ofInt value hRest]
  simp only [Numeral.number?_ofInt lower upper]

end Json
end NoteForm
