import Mathlib.Data.List.DropRight
import NoteForm.Proofs.Json.Numeral

/-! What the scan does at each kind of place in a text, said once for the proofs about it. -/
namespace NoteForm.Json

namespace Source

/-- Blanks in front of a text are passed over with the blanks it begins with. -/
theorem skipBlanks_append {blanks : List Char} (h : ∀ c ∈ blanks, isBlank c = true)
    (text : List Char) : skipBlanks (blanks ++ text) = skipBlanks text :=
  List.dropWhile_append_of_pos h

theorem skipBlanks_cons {c : Char} (h : isBlank c = false) (text : List Char) :
    skipBlanks (c :: text) = c :: text :=
  List.dropWhile_cons_of_neg (by simp [h])

theorem skipBlanks_append_cons {blanks : List Char} (h : ∀ c ∈ blanks, isBlank c = true)
    {c : Char} (hNext : isBlank c = false) (text : List Char) :
    skipBlanks (blanks ++ c :: text) = c :: text := by
  rw [skipBlanks_append h, skipBlanks_cons hNext]

/-- Blanks in front of a value do not count. -/
theorem scanValue_append {blanks : List Char} (h : ∀ c ∈ blanks, isBlank c = true) (fuel : Nat)
    (text : List Char) : scanValue (fuel + 1) (blanks ++ text) = scanValue (fuel + 1) text := by
  rw [scanValue, scanValue, skipBlanks_append h]

/-- No blank is left to be passed over a second time. -/
@[simp]
theorem skipBlanks_skipBlanks (text : List Char) : skipBlanks (skipBlanks text) = skipBlanks text :=
  List.dropWhile_idempotent isBlank text

/-- A text is made of the blanks it begins with and of what is left without them. -/
theorem exists_skipBlanks (text : List Char) :
    ∃ blanks, Blank blanks ∧ text = blanks ++ skipBlanks text :=
  ⟨text.takeWhile isBlank, List.all_eq_true.1 List.all_takeWhile,
    List.takeWhile_append_dropWhile.symm⟩

@[simp] theorem scanValue_skipBlanks (fuel : Nat) (text : List Char) :
    scanValue (fuel + 1) (skipBlanks text) = scanValue (fuel + 1) text := by
  simp [scanValue]

/-- Whether a number can begin with a character. -/
def StartsNumber (c : Char) : Prop := c = '-' ∨ c.isDigit = true

instance (c : Char) : Decidable (StartsNumber c) :=
  inferInstanceAs (Decidable (c = '-' ∨ c.isDigit = true))

theorem StartsNumber.ne {c d : Char} (h : StartsNumber c) (hOther : ¬StartsNumber d) : c ≠ d := by
  rintro rfl
  exact hOther h

theorem StartsNumber.not_isBlank {c : Char} (h : StartsNumber c) : isBlank c = false := by
  simp only [isBlank, h.ne (d := ' ') (by decide), h.ne (d := '\n') (by decide),
    h.ne (d := '\t') (by decide), h.ne (d := '\r') (by decide), or_self, decide_false]

theorem StartsNumber.not_lt_blank {c : Char} (h : StartsNumber c) : ¬c < ' ' := by
  rcases h with rfl | hDigit
  · decide
  · have hZero : '0' ≤ c := by
      simp only [Char.isDigit, Bool.and_eq_true, decide_eq_true_eq] at hDigit
      exact hDigit.1
    intro hBelow
    exact absurd (Std.lt_of_le_of_lt hZero hBelow) (by decide)

/-- A written integer consists of digits and perhaps a sign. -/
theorem startsNumber_of_mem_ofInt {value : Int} {c : Char} (h : c ∈ Decimal.ofInt value) :
    StartsNumber c := by
  cases value with
  | ofNat n => exact Or.inr (Numeral.isDigit_of_mem_toDigits h)
  | negSucc n =>
      rcases List.mem_cons.1 h with rfl | hDigits
      · exact Or.inl rfl
      · exact Or.inr (Numeral.isDigit_of_mem_toDigits hDigits)

/-- An integer is never written as nothing, and what it begins with begins a number. -/
theorem ofInt_eq_cons (value : Int) :
    ∃ c text, Decimal.ofInt value = c :: text ∧ StartsNumber c := by
  cases hText : Decimal.ofInt value with
  | nil =>
      cases value with
      | ofNat n => exact absurd hText Nat.toDigits_ne_nil
      | negSucc n => cases hText
  | cons c text => exact ⟨c, text, rfl, startsNumber_of_mem_ofInt (by rw [hText]; simp)⟩

theorem exists_startsNumber {text : List Char} (h : IsNumber text) :
    ∃ c behind, text = c :: behind ∧ StartsNumber c := by
  cases h with
  | parts hSign hWhole =>
      rcases hSign with rfl | rfl
      · obtain ⟨d, digits, rfl⟩ := List.exists_cons_of_ne_nil hWhole.nonempty
        exact ⟨d, _, rfl, .inr (hWhole.isDigit d (by simp))⟩
      · exact ⟨'-', _, rfl, .inl rfl⟩

/-- What a number can begin with begins no other value. -/
theorem scanValue_of_startsNumber {c : Char} (h : StartsNumber c) (fuel : Nat)
    (text : List Char) : scanValue (fuel + 1) (c :: text) = scanNumber (c :: text) := by
  rw [scanValue, skipBlanks_cons h.not_isBlank]
  simp only [h.ne (d := '[') (by decide), h.ne (d := '\x7b') (by decide),
    h.ne (d := '"') (by decide), h.ne (d := 'n') (by decide), h.ne (d := 't') (by decide),
    h.ne (d := 'f') (by decide), if_false]
  exact if_pos h

/-- Behind an opening bracket come the items of a list. -/
theorem scanValue_list {fuel : Nat} {text rest : List Char} {items : Items}
    (h : scanItems fuel text = (items, rest)) :
    scanValue (fuel + 1) ('[' :: text) = (.list items, rest) := by
  rw [scanValue, skipBlanks_cons (by decide)]
  simp only [h, if_true]

/-- Behind an opening brace come the members of an object. -/
theorem scanValue_object {fuel : Nat} {text rest : List Char} {members : Members}
    (h : scanMembers fuel text = (members, rest)) :
    scanValue (fuel + 1) ('\x7b' :: text) = (.object members, rest) := by
  have hOther : '\x7b' ≠ '[' := by decide
  rw [scanValue, skipBlanks_cons (by decide)]
  simp only [h, hOther, if_false, if_true]

/-- An item in front of the closing bracket is the last one. -/
theorem scanItem_of_close {fuel : Nat} {text behind rest : List Char} {value : Source}
    (hValue : scanValue fuel text = (value, behind)) (hBehind : skipBlanks behind = ']' :: rest) :
    scanItem (fuel + 1) text = (.item value .close, rest) := by
  simp only [scanItem, hValue, hBehind, if_true]

/-- Behind an item and a comma come more items, and so it goes on. -/
theorem scanItem_of_comma {fuel : Nat} {text behind next rest : List Char} {value : Source}
    {items : Items} (hValue : scanValue fuel text = (value, behind))
    (hBehind : skipBlanks behind = ',' :: next) (hItems : scanItem fuel next = (items, rest)) :
    scanItem (fuel + 1) text = (.item value items, rest) := by
  have hOther : ',' ≠ ']' := by decide
  simp only [scanItem, hValue, hBehind, hOther, hItems, if_false, if_true]

section

variable {fuel : Nat} {text behindMark behindKey behindColon behind next rest : List Char}
  {key : Quoted} {value : Source} (hMark : skipBlanks text = '"' :: behindMark)
  (hKey : Quoted.scan behindMark = (key, behindKey))
  (hColon : skipBlanks behindKey = ':' :: behindColon)
  (hValue : scanValue fuel behindColon = (value, behind))

include hMark hKey hColon hValue

/-- A member in front of the closing brace is the last one. -/
theorem scanMember_of_close (hBehind : skipBlanks behind = '\x7d' :: rest) :
    scanMember (fuel + 1) text = (.member key value .close, rest) := by
  simp only [scanMember, hMark, hKey, hColon, hValue, hBehind, if_true]

theorem scanMember_of_comma {members : Members} (hBehind : skipBlanks behind = ',' :: next)
    (hMembers : scanMember fuel next = (members, rest)) :
    scanMember (fuel + 1) text = (.member key value members, rest) := by
  have hOther : ',' ≠ '\x7d' := by decide
  simp only [scanMember, hMark, hKey, hColon, hValue, hBehind, hOther, hMembers, if_false, if_true]

end

end Source

/-- What continues a number is no blank. -/
theorem isBlank_eq_false_of_continues {c : Char}
    (h : c.isDigit = true ∨ c = '.' ∨ c = 'e' ∨ c = 'E') : Source.isBlank c = false := by
  rcases h with hDigit | rfl | rfl | rfl
  · exact Source.StartsNumber.not_isBlank (Or.inr hDigit)
  · decide
  · decide
  · decide

/-- Blanks do not continue a number. -/
theorem not_continuesNumber_of_blank {text : List Char} (h : Blank text) :
    ¬ContinuesNumber text := by
  rintro ⟨c, rest, rfl, hFirst⟩
  have hBlank := h c (by simp)
  rw [isBlank_eq_false_of_continues hFirst] at hBlank
  cases hBlank

/-- A number ends where the next thing behind blanks does not continue it. -/
theorem not_continuesNumber_of_skipBlanks {c : Char} {text rest : List Char}
    (h : Source.skipBlanks text = c :: rest) (hRest : ¬ContinuesNumber (c :: rest)) :
    ¬ContinuesNumber text := by
  rintro ⟨d, behind, rfl, hFirst⟩
  rw [Source.skipBlanks_cons (isBlank_eq_false_of_continues hFirst)] at h
  exact hRest ⟨d, behind, h.symm, hFirst⟩

end NoteForm.Json
