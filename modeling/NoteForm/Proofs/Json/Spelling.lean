import NoteForm.Proofs.Json.Reading

/-! An integer is spelled in one way only. What is scanned as an integer is its decimal text, so a key
is read as a view id only if it is the name of that id. -/
namespace NoteForm.Json

namespace Numeral

theorem digitValue_lt {c : Char} (h : c.isDigit = true) : digitValue c < 10 := by
  obtain ⟨hLower, hUpper⟩ := Char.isDigit_iff_toNat.1 h
  have hZero : '0'.toNat = 48 := rfl
  have hNine : '9'.toNat = 57 := rfl
  rw [digitValue]
  omega

theorem toDigits_digitValue {c : Char} (h : c.isDigit = true) :
    Nat.toDigits 10 (digitValue c) = [c] := by
  have hLower : '0'.toNat ≤ c.toNat := (Char.isDigit_iff_toNat.1 h).1
  have hZero : '0'.toNat = 48 := rfl
  rw [Nat.toDigits_of_lt_base (digitValue_lt h)]
  congr 1
  apply Char.toNat_inj.1
  rw [Nat.toNat_digitChar_of_lt_ten (digitValue_lt h), digitValue]
  omega

/-- Digits behind those of a positive number lengthen the text of the number. -/
theorem toDigits_append_digits {digits : List Char} (hDigits : ∀ c ∈ digits, c.isDigit = true)
    {n : Nat} (hPositive : 0 < n) :
    Nat.toDigits 10 n ++ digits = Nat.toDigits 10 (Nat.ofDigitChars 10 digits n) := by
  induction digits generalizing n with
  | nil => rw [List.append_nil, Nat.ofDigitChars_nil]
  | cons c rest ih =>
      obtain ⟨hDigit, hRest⟩ := List.forall_mem_cons.1 hDigits
      have hLonger : Nat.toDigits 10 n ++ [c] = Nat.toDigits 10 (10 * n + digitValue c) := by
        rw [← toDigits_digitValue hDigit,
          Nat.toDigits_append_toDigits (by decide) hPositive (digitValue_lt hDigit)]
      rw [Nat.ofDigitChars_cons, ← List.singleton_append, ← List.append_assoc, hLonger]
      exact ih hRest (by omega)

/-- The digits of an integer part are the digits of its value. -/
theorem toDigits_ofDigitChars {digits : List Char} (h : IsWhole digits) :
    Nat.toDigits 10 (Nat.ofDigitChars 10 digits 0) = digits := by
  rcases h.first with rfl | hFirst
  · rfl
  · cases digits with
    | nil => exact absurd rfl h.nonempty
    | cons c rest =>
        obtain ⟨hDigit, hRest⟩ := List.forall_mem_cons.1 h.isDigit
        have hPositive : 0 < digitValue c := by
          apply Nat.pos_of_ne_zero
          intro hZero
          have hText := toDigits_digitValue hDigit
          rw [hZero, Nat.toDigits_zero] at hText
          exact hFirst (by rw [List.head?_cons, (List.cons.inj hText).1])
        rw [Nat.ofDigitChars_cons, Nat.mul_zero, Nat.zero_add]
        change Nat.toDigits 10 (Nat.ofDigitChars 10 rest (digitValue c)) = c :: rest
        rw [← toDigits_append_digits hRest hPositive, toDigits_digitValue hDigit]
        rfl

theorem isDigits_of_scanDigits {text digits rest : List Char}
    (h : scanDigits text = .ok (digits, rest)) : IsDigits digits ∧ text = digits ++ rest := by
  rw [scanDigits] at h
  split at h
  · cases h
  · rename_i hSome
    obtain ⟨rfl, rfl⟩ := Prod.mk.inj (Except.ok.inj h)
    exact ⟨⟨by simpa using hSome, List.all_eq_true.1 List.all_takeWhile⟩,
      List.takeWhile_append_dropWhile.symm⟩

/-- What is taken off as an integer part keeps to the rule about zeros in front. -/
theorem isWhole_of_scanWhole {text digits rest : List Char}
    (h : scanWhole text = .ok (digits, rest)) : IsWhole digits ∧ text = digits ++ rest := by
  unfold scanWhole at h
  split at h
  · split at h
    · cases h
    · obtain ⟨rfl, rfl⟩ := Prod.mk.inj (Except.ok.inj h)
      exact ⟨⟨⟨by simp, by simp⟩, Or.inl rfl⟩, rfl⟩
  · rename_i hZero
    obtain ⟨hDigits, rfl⟩ := isDigits_of_scanDigits h
    refine ⟨⟨hDigits, Or.inr fun hHead => ?_⟩, rfl⟩
    obtain ⟨others, rfl⟩ := List.head?_eq_some_iff.1 hHead
    exact hZero (others ++ rest) rfl

/-- What is taken off as a fraction is one, and none is found only where there is none. -/
theorem exists_of_scanFraction {text rest : List Char} {fraction : Option (List Char)}
    (h : scanFraction text = .ok (fraction, rest)) :
    ∃ own, IsFraction own ∧ text = own ++ rest ∧ (fraction = none → own = []) := by
  unfold scanFraction at h
  split at h
  · rename_i behind
    obtain ⟨⟨digits, rest⟩, hScan, h⟩ := exists_of_bind_eq_ok h
    obtain ⟨rfl, rfl⟩ := Prod.mk.inj (Except.ok.inj h)
    obtain ⟨hDigits, rfl⟩ := isDigits_of_scanDigits hScan
    exact ⟨'.' :: digits, .present hDigits, rfl, by simp⟩
  · obtain ⟨rfl, rfl⟩ := Prod.mk.inj (Except.ok.inj h)
    exact ⟨[], .absent, rfl, fun _ => rfl⟩

/-- What is taken off as an exponent is one, and none is found only where there is none. -/
theorem exists_of_scanExponent {text rest : List Char} {exponent : Option (Bool × List Char)}
    (h : scanExponent text = .ok (exponent, rest)) :
    ∃ own, IsExponent own ∧ text = own ++ rest ∧ (exponent = none → own = []) := by
  have hPresent {mark : Char} {sign behind rest : List Char} {negative : Bool}
      {exponent : Option (Bool × List Char)} (hMark : mark = 'e' ∨ mark = 'E')
      (hSign : sign = [] ∨ sign = ['+'] ∨ sign = ['-'])
      (h : (scanDigits behind >>= fun found => .ok (some (negative, found.1), found.2)) =
        .ok (exponent, rest)) :
      ∃ own, IsExponent own ∧ mark :: (sign ++ behind) = own ++ rest ∧
        (exponent = none → own = []) := by
    obtain ⟨⟨digits, rest⟩, hScan, h⟩ := exists_of_bind_eq_ok h
    obtain ⟨rfl, rfl⟩ := Prod.mk.inj (Except.ok.inj h)
    obtain ⟨hDigits, rfl⟩ := isDigits_of_scanDigits hScan
    exact ⟨mark :: (sign ++ digits), .present hMark hSign hDigits, by simp, by simp⟩
  unfold scanExponent at h
  split at h
  · exact hPresent (.inl rfl) (.inr (.inr rfl)) h
  · exact hPresent (.inr rfl) (.inr (.inr rfl)) h
  · exact hPresent (.inl rfl) (.inr (.inl rfl)) h
  · exact hPresent (.inr rfl) (.inr (.inl rfl)) h
  · exact hPresent (.inl rfl) (.inl rfl) h
  · exact hPresent (.inr rfl) (.inl rfl) h
  · obtain ⟨rfl, rfl⟩ := Prod.mk.inj (Except.ok.inj h)
    exact ⟨[], .absent, rfl, fun _ => rfl⟩

/-- Only digits with perhaps a sign mean an integer. A fraction or an exponent makes a double of
it, and so does the sign of a zero. -/
theorem number?_eq_integer {numeral : Numeral} {value : Int}
    {lower : -0x8000000000000000 ≤ value} {upper : value < 0x10000000000000000}
    (h : numeral.number? = some (.integer value lower upper)) :
    numeral.fraction = none ∧ numeral.exponent = none ∧
      ¬(numeral.negative ∧ Nat.ofDigitChars 10 numeral.whole 0 = 0) ∧
      value = if numeral.negative then -(Nat.ofDigitChars 10 numeral.whole 0 : Int)
        else Nat.ofDigitChars 10 numeral.whole 0 := by
  have hDouble : numeral.double?.map Number.double ≠ some (.integer value lower upper) := by
    cases numeral.double? <;> simp
  rcases ite_eq_iff.1 h with ⟨⟨hFraction, hExponent, hSign⟩, hInteger⟩ | ⟨-, hOther⟩
  · rcases dite_eq_iff.1 hInteger with ⟨hRange, hSame⟩ | ⟨-, hOther⟩
    · exact ⟨Option.isNone_iff_eq_none.1 hFraction, Option.isNone_iff_eq_none.1 hExponent, hSign,
        (Number.integer.inj (Option.some.inj hSame)).symm⟩
    · exact absurd hOther hDouble
  · exact absurd hOther hDouble

/-- A number and its sign make up the text of an integer. -/
theorem eq_ofInt_of_toDigits (negative : Bool) {n : Nat} (h : ¬(negative ∧ n = 0)) :
    (if negative then ['-'] else []) ++ Nat.toDigits 10 n =
      Decimal.ofInt (if negative then -(n : Int) else n) := by
  cases negative with
  | false => rfl
  | true =>
      obtain ⟨n, rfl⟩ := Nat.exists_eq_succ_of_ne_zero (n := n) (by simpa using h)
      rfl

/-- A text taken apart: the sign of a number, its digits, its fraction and its exponent, and what
follows. -/
inductive Parts : List Char → Numeral → List Char → Prop where
  | intro (negative : Bool) {behindSign whole behindWhole behindFraction rest : List Char}
      {fraction : Option (List Char)} {exponent : Option (Bool × List Char)}
      (hWhole : scanWhole behindSign = .ok (whole, behindWhole))
      (hFraction : scanFraction behindWhole = .ok (fraction, behindFraction))
      (hExponent : scanExponent behindFraction = .ok (exponent, rest)) :
      Parts ((if negative then ['-'] else []) ++ behindSign)
        ⟨negative, whole, fraction, exponent⟩ rest

/-- What is taken off as a number can be taken apart. -/
theorem parts_of_scan {text rest : List Char} {numeral : Numeral}
    (h : scan text = .ok (numeral, rest)) : Parts text numeral rest := by
  unfold scan at h
  split at h
  rename_i negative behindSign hSign
  have hText : text = (if negative then ['-'] else []) ++ behindSign := by
    split at hSign
    all_goals
      obtain ⟨rfl, rfl⟩ := Prod.mk.inj hSign
      rfl
  obtain ⟨⟨whole, behindWhole⟩, hWhole, h⟩ := exists_of_bind_eq_ok h
  obtain ⟨⟨fraction, behindFraction⟩, hFraction, h⟩ := exists_of_bind_eq_ok h
  obtain ⟨⟨exponent, behind⟩, hExponent, h⟩ := exists_of_bind_eq_ok h
  obtain ⟨rfl, rfl⟩ := Prod.mk.inj (Except.ok.inj h)
  rw [hText]
  exact .intro negative hWhole hFraction hExponent

/-- What is taken off a text as a number keeps to the rules. -/
theorem exists_isNumber_of_scan {text rest : List Char} {numeral : Numeral}
    (h : scan text = .ok (numeral, rest)) : ∃ own, IsNumber own ∧ text = own ++ rest := by
  cases parts_of_scan h with
  | intro negative hScanWhole hScanFraction hScanExponent =>
      obtain ⟨hWhole, rfl⟩ := isWhole_of_scanWhole hScanWhole
      obtain ⟨fraction, hFraction, rfl, -⟩ := exists_of_scanFraction hScanFraction
      obtain ⟨exponent, hExponent, rfl, -⟩ := exists_of_scanExponent hScanExponent
      have hSign : (if negative then ['-'] else []) = [] ∨
          (if negative then ['-'] else []) = ['-'] := by cases negative <;> simp
      exact ⟨_, .parts hSign hWhole hFraction hExponent, by simp⟩

/-- An integer has only its decimal text. -/
theorem eq_ofInt_of_scan {text rest : List Char} {numeral : Numeral} {value : Int}
    {lower : -0x8000000000000000 ≤ value} {upper : value < 0x10000000000000000}
    (hScan : scan text = .ok (numeral, rest))
    (hNumber : numeral.number? = some (.integer value lower upper)) :
    text = Decimal.ofInt value ++ rest := by
  obtain ⟨hNoFraction, hNoExponent, hSign, rfl⟩ := number?_eq_integer hNumber
  cases parts_of_scan hScan with
  | intro negative hWhole hFraction hExponent =>
      obtain rfl := hNoFraction
      obtain rfl := hNoExponent
      obtain ⟨_, -, rfl, hNone⟩ := exists_of_scanFraction hFraction
      obtain rfl := hNone rfl
      obtain ⟨_, -, rfl, hNone⟩ := exists_of_scanExponent hExponent
      obtain rfl := hNone rfl
      obtain ⟨hIsWhole, rfl⟩ := isWhole_of_scanWhole hWhole
      rw [← eq_ofInt_of_toDigits negative hSign, toDigits_ofDigitChars hIsWhole, List.append_assoc]
      rfl

end Numeral

theorem Source.eq_ofInt_of_scanNumber {text rest : List Char} {value : Int}
    {lower : -0x8000000000000000 ≤ value} {upper : value < 0x10000000000000000}
    (h : scanNumber text = (.number (some (.integer value lower upper)), rest)) :
    text = Decimal.ofInt value ++ rest := by
  unfold scanNumber at h
  split at h
  · rename_i numeral behind hScan
    obtain ⟨hNumber, rfl⟩ := Prod.mk.inj h
    exact Numeral.eq_ofInt_of_scan hScan (Source.number.inj hNumber)
  · cases h

/-- Different texts are written differently. -/
@[simp]
theorem escape_inj {text other : List Char} : escape text = escape other ↔ text = other := by
  constructor
  · intro h
    exact (spells_escape text).unique (h ▸ spells_escape other)
  · rintro rfl
    rfl

theorem toInt_of_viewIdOfInt? {value : Int} {id : Int32} (h : viewIdOfInt? value = some id) :
    id.toInt = value := by
  unfold viewIdOfInt? at h
  split at h
  · rename_i hRange
    rw [← Option.some.inj h]
    exact Int32.toInt_ofInt_of_le hRange.1 hRange.2
  · cases h

theorem toNat_of_wordOfInt? {value : Int} {word : UInt64} (h : wordOfInt? value = some word) :
    value = word.toNat := by
  unfold wordOfInt? at h
  split at h
  · rename_i hRange
    have hSmall : value.toNat < 2 ^ 64 := by omega
    rw [← Option.some.inj h, UInt64.toNat_ofNat_of_lt' hSmall]
    omega
  · cases h

namespace Decoder

/-- An integer is only read from a number that was kept as one. -/
theorem exists_of_integer_eq_ok {α : Type} {kind : String} {ofInt? : Int → Option α}
    {levels : Nat} {source : Source} {word : α} (h : integer kind ofInt? levels source = .ok word) :
    ∃ value lower upper, source = .number (some (.integer value lower upper)) ∧
      ofInt? value = some word := by
  unfold integer at h
  split at h
  · rename_i value lower upper
    split at h
    · rename_i found hFound
      rw [Except.ok.inj h] at hFound
      exact ⟨value, lower, upper, rfl, hFound⟩
    · cases h
  · cases h

/-- A key is read as a view id exactly if it is the decimal name of the id. -/
theorem viewIdKey_eq_ok_iff {name : String} {id : Int32} :
    viewIdKey (.ofString name) = .ok id ↔ name = viewIdName id := by
  constructor
  · intro h
    unfold viewIdKey at h
    split at h
    · cases h
    split at h
    · generalize hScan : Source.scanNumber _ = scanned at h
      obtain ⟨source, rest⟩ := scanned
      obtain ⟨key, hKey, hRead⟩ := exists_of_bind_eq_ok h
      split at hRead
      · rename_i hRest
        obtain ⟨value, lower, upper, rfl, hValue⟩ := exists_of_integer_eq_ok hKey
        obtain rfl := Except.ok.inj hRead
        have hText := Source.eq_ofInt_of_scanNumber hScan
        rw [hRest, ← escape_ofInt] at hText
        have hName : name.toList = Decimal.ofInt value :=
          escape_inj.1 (List.append_cancel_right hText)
        rw [viewIdName, toInt_of_viewIdOfInt? hValue, ← hName, String.ofList_toList]
      · cases hRead
    · cases h
  · rintro rfl
    exact viewIdKey_viewIdName id

end Decoder
end NoteForm.Json
