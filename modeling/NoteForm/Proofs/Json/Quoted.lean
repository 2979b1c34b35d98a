import NoteForm.Proofs.Json.Bodies

/-! Reading a string undoes its escapes: the body of a written string keeps to the rules and spells
the string. -/
namespace NoteForm.Json

theorem hexValue?_digitChar : ∀ n < 16, hexValue? (Nat.digitChar n) = some n := by
  decide

@[simp] theorem hexValue?_hexDigit (n : Nat) : hexValue? (hexDigit n) = some (n % 16) :=
  hexValue?_digitChar (n % 16) (Nat.mod_lt n (by decide))

/-- How a character can be written: by a letter, by its number, or as it is. -/
theorem escapeChar_cases (c : Char) :
    (∃ letter, escapeChar c = ['\\', letter] ∧ shortEscape? letter = some c) ∨
      (c.toNat < 32 ∧
        escapeChar c = ['\\', 'u', '0', '0', hexDigit (c.toNat / 16), hexDigit c.toNat]) ∨
      (escapeChar c = [c] ∧ c ≠ '"' ∧ c ≠ '\\' ∧ ¬c < ' ') := by
  unfold escapeChar
  -- Seven characters are escaped by a letter, one after the other.
  iterate 7
    split
    · rename_i hSame
      subst hSame
      exact Or.inl ⟨_, rfl, rfl⟩
  split
  · rename_i hControl
    exact Or.inr (Or.inl ⟨UInt32.lt_iff_toNat_lt.1 (Char.lt_def.1 hControl), rfl⟩)
  · rename_i hQuote hBackslash _ _ _ _ _ hVisible
    exact Or.inr (Or.inr ⟨rfl, hQuote, hBackslash, hVisible⟩)

/-- A character is written as it is unless it ends a string, begins an escape or controls. -/
theorem escapeChar_of_visible {c : Char} (hQuote : c ≠ '"') (hBackslash : c ≠ '\\')
    (hVisible : ¬c < ' ') : escapeChar c = [c] := by
  have hControl (d : Char) (hBelow : d < ' ') : c ≠ d := by
    rintro rfl
    exact hVisible hBelow
  simp only [escapeChar, hQuote, hBackslash, hControl '\x08' (by decide),
    hControl '\x0c' (by decide), hControl '\n' (by decide), hControl '\r' (by decide),
    hControl '\t' (by decide), hVisible, if_false]

/-- Characters below the blank are written by their number, which is no surrogate. -/
theorem codeUnit_hexDigit {n : Nat} (h : n < 32) :
    CodeUnit n ['0', '0', hexDigit (n / 16), hexDigit n] := by
  have hZero : hexValue? '0' = some 0 := by decide
  have hUnit : 16 * (16 * (16 * 0 + 0) + n / 16 % 16) + n % 16 = n := by omega
  have hDigits := CodeUnit.digits hZero hZero (hexValue?_hexDigit (n / 16)) (hexValue?_hexDigit n)
  rwa [hUnit] at hDigits

/-- A written character in front of a body is spelled by it. -/
theorem spells_escapeChar (c : Char) {text body : List Char} (h : Spells text body) :
    Spells (c :: text) (escapeChar c ++ body) := by
  rcases escapeChar_cases c with ⟨letter, hText, hMeant⟩ | ⟨hControl, hText⟩ |
    ⟨hText, hQuote, hBackslash, hVisible⟩
  · rw [hText]
    exact .short hMeant h
  · have hLow : isLowSurrogate c.toNat = false := by simp [isLowSurrogate]; omega
    have hHigh : isHighSurrogate c.toNat = false := by simp [isHighSurrogate]; omega
    have hUnit := Spells.unit (codeUnit_hexDigit hControl) hLow hHigh h
    rw [Char.ofNat_toNat] at hUnit
    rw [hText]
    exact hUnit
  · rw [hText]
    exact .plain hQuote hBackslash hVisible h

theorem spells_escape (text : List Char) : Spells text (escape text) := by
  induction text with
  | nil => exact .nil
  | cons c text ih => exact spells_escapeChar c ih

namespace Quoted

/-- The body of a written string has the form of the string. -/
@[simp] theorem ofBody_escape (text : String) : ofBody (escape text.toList) = .ofString text := by
  have hSpells := spells_escape text.toList
  rw [ofBody_eq hSpells.isBody, (meaning_ofBody_eq_ok_iff hSpells.isBody).2 hSpells]
  rfl

end Quoted
end NoteForm.Json
