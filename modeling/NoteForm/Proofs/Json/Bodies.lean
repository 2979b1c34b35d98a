import NoteForm.Proofs.Except
import NoteForm.Proofs.Json.Grammar

/-! Reading a string against the rules: the escapes of a body can be undone exactly if it keeps to
the rules, and then it means the text it spells, if it spells any. -/
namespace NoteForm.Json

variable {paired : Bool} {after other : Nat}

theorem ne_of_hexValue? {c d : Char} {value : Nat} (h : hexValue? c = some value)
    (hOther : hexValue? d = none) : c ≠ d := by
  rintro rfl
  rw [h] at hOther
  cases hOther

/-- Behind its first three digits a unit is complete but for one. -/
theorem CodeUnit.unescape_eq {n : Nat} {digits : List Char} (h : CodeUnit n digits) :
    ∃ front digit last, 16 * front + digit = n ∧ hexValue? last = some digit ∧
      ∀ (paired : Bool) (after : Nat) (high : Option Nat) (rest : List Char),
        unescape paired after (.digits high 0 0) (digits ++ rest) =
          unescape paired after (.digits high front 3) (last :: rest) := by
  cases h with
  | @digits a b c d i j k l ha hb hc hd =>
      refine ⟨16 * (16 * i + j) + k, l, d, rfl, hd, fun paired after high rest => ?_⟩
      simp [unescape, ha, hb, hc]

/-- What an escaped unit stands for outside of a pair. -/
theorem CodeUnit.unescape_outside {n : Nat} {digits : List Char} (h : CodeUnit n digits)
    (rest : List Char) :
    unescape paired after .outside ('\\' :: 'u' :: (digits ++ rest)) =
      if paired && isLowSurrogate n then .error .loneSurrogate
      else if paired && isHighSurrogate n then unescape paired after (.backslashDue n) rest
      else (Char.ofNat n :: ·) <$> unescape paired after .outside rest := by
  obtain ⟨front, digit, last, rfl, hDigit, hUnit⟩ := h.unescape_eq
  simp [unescape, hUnit, hDigit]

/-- What an escaped unit stands for as the second half of a pair. -/
theorem CodeUnit.unescape_low {high n : Nat} {digits : List Char} (h : CodeUnit n digits)
    (rest : List Char) :
    unescape paired after (.backslashDue high) ('\\' :: 'u' :: (digits ++ rest)) =
      if isLowSurrogate n then
        (Char.ofNat (0x10000 + (high - 0xD800) * 0x400 + (n - 0xDC00)) :: ·) <$>
          unescape paired after .outside rest
      else .error .loneSurrogate := by
  obtain ⟨front, digit, last, rfl, hDigit, hUnit⟩ := h.unescape_eq
  simp [unescape, hUnit, hDigit]

/-- Where a digit is due there has to be one. -/
theorem exists_digit_of_unescape {high : Option Nat} {front count : Nat} {body text : List Char}
    (h : unescape paired after (.digits high front count) body = .ok text) :
    ∃ c rest digit, body = c :: rest ∧ hexValue? c = some digit ∧ (count < 3 →
      unescape paired after (.digits high (16 * front + digit) (count + 1)) rest = .ok text) := by
  cases body with
  | nil => cases h
  | cons c rest =>
      cases hDigit : hexValue? c with
      | none => simp [unescape, hDigit] at h
      | some digit =>
          refine ⟨c, rest, digit, rfl, hDigit, fun hCount => ?_⟩
          simpa [unescape, hDigit, hCount] using h

/-- Where a unit is due there has to be one. -/
theorem exists_codeUnit_of_unescape {high : Option Nat} {body text : List Char}
    (h : unescape paired after (.digits high 0 0) body = .ok text) :
    ∃ n digits rest, CodeUnit n digits ∧ body = digits ++ rest := by
  obtain ⟨a, behindA, i, rfl, ha, h⟩ := exists_digit_of_unescape h
  obtain ⟨b, behindB, j, rfl, hb, h⟩ := exists_digit_of_unescape (h (by decide))
  obtain ⟨c, behindC, k, rfl, hc, h⟩ := exists_digit_of_unescape (h (by decide))
  obtain ⟨d, rest, l, rfl, hd, -⟩ := exists_digit_of_unescape (h (by decide))
  exact ⟨_, _, rest, .digits ha hb hc hd, rfl⟩

/-- What a body begins with if its escapes can be undone. -/
theorem unescape_outside_cases {body text : List Char}
    (h : unescape paired after .outside body = .ok text) :
    (body = [] ∧ text = []) ∨
      (∃ c rest behind, body = c :: rest ∧ c ≠ '\\' ∧ ¬c < ' ' ∧ text = c :: behind ∧
        unescape paired after .outside rest = .ok behind) ∨
      (∃ letter meant rest behind, body = '\\' :: letter :: rest ∧
        shortEscape? letter = some meant ∧ text = meant :: behind ∧
        unescape paired after .outside rest = .ok behind) ∨
      ∃ n digits rest, CodeUnit n digits ∧ body = '\\' :: 'u' :: (digits ++ rest) := by
  rcases body with _ | ⟨c, rest⟩
  · rw [unescape] at h
    split at h
    · cases h
    · exact .inl ⟨rfl, (Except.ok.inj h).symm⟩
  rw [unescape] at h
  split at h
  · rename_i hBackslash
    subst hBackslash
    rcases rest with _ | ⟨letter, rest⟩
    · cases h
    rw [unescape] at h
    split at h
    · rename_i hLetter
      subst hLetter
      obtain ⟨n, digits, behind, hUnit, rfl⟩ := exists_codeUnit_of_unescape h
      exact .inr (.inr (.inr ⟨n, digits, behind, hUnit, rfl⟩))
    · split at h
      · rename_i meant hMeant
        obtain ⟨behind, hRest, rfl⟩ := exists_of_map_eq_ok h
        exact .inr (.inr (.inl ⟨letter, meant, rest, behind, rfl, hMeant, rfl, hRest⟩))
      · cases h
  · rename_i hBackslash
    split at h
    · cases h
    · rename_i hVisible
      obtain ⟨behind, hRest, rfl⟩ := exists_of_map_eq_ok h
      exact .inr (.inl ⟨c, rest, behind, rfl, hBackslash, hVisible, rfl, hRest⟩)

/-- Behind the first half of a pair there has to be the second. -/
theorem exists_low_of_unescape {high : Nat} {body text : List Char}
    (h : unescape paired after (.backslashDue high) body = .ok text) :
    ∃ n digits rest behind, CodeUnit n digits ∧ body = '\\' :: 'u' :: (digits ++ rest) ∧
      isLowSurrogate n = true ∧
      text = Char.ofNat (0x10000 + (high - 0xD800) * 0x400 + (n - 0xDC00)) :: behind ∧
      unescape paired after .outside rest = .ok behind := by
  rcases body with _ | ⟨c, rest⟩
  · cases h
  have hText := h
  rw [unescape] at h
  split at h
  · rename_i hBackslash
    subst hBackslash
    rcases rest with _ | ⟨letter, rest⟩
    · cases h
    rw [unescape] at h
    split at h
    · rename_i hLetter
      subst hLetter
      obtain ⟨n, digits, behind, hUnit, rfl⟩ := exists_codeUnit_of_unescape h
      rw [hUnit.unescape_low] at hText
      split at hText
      · rename_i hLow
        obtain ⟨others, hRest, rfl⟩ := exists_of_map_eq_ok hText
        exact ⟨n, digits, behind, others, hUnit, rfl, hLow, rfl, hRest⟩
      · cases hText
    · cases h
  · cases h

/-- Nothing is read from a string without a closing mark. -/
theorem after_ne_zero_of_unescape {state : EscapeState} {body text : List Char}
    (h : unescape paired after state body = .ok text) : after ≠ 0 := by
  fun_induction unescape paired after state body generalizing text
  case case2 hAfter => exact hAfter
  all_goals
    first
      | cases h
      | (obtain ⟨rest, h, -⟩ := exists_of_map_eq_ok h; apply_assumption; exact h)
      | (apply_assumption; exact h)

/-- The escapes of a body that keeps to the rules can be undone, unit by unit. -/
theorem IsBody.exists_unescape {body : List Char} (h : IsBody body) (hAfter : after ≠ 0) :
    ∃ text, unescape false after .outside body = .ok text := by
  induction h with
  | nil => exact ⟨[], by rw [unescape, if_neg hAfter]⟩
  | @plain c body hQuote hBackslash hVisible _ ih =>
      obtain ⟨text, hText⟩ := ih
      exact ⟨c :: text, by rw [unescape, if_neg hBackslash, if_neg hVisible, hText]; rfl⟩
  | @short letter meant body hMeant _ ih =>
      obtain ⟨text, hText⟩ := ih
      have hLetter : letter ≠ 'u' := by
        rintro rfl
        cases hMeant
      exact ⟨meant :: text, by simp [unescape, hLetter, hMeant, hText, Functor.map, Except.map]⟩
  | @unit n digits body hUnit _ ih =>
      obtain ⟨text, hText⟩ := ih
      exact ⟨Char.ofNat n :: text, by rw [hUnit.unescape_outside, hText]; rfl⟩

/-- Whatever spells a text keeps to the rules. -/
theorem Spells.isBody {text body : List Char} (h : Spells text body) : IsBody body := by
  induction h with
  | nil => exact .nil
  | plain hQuote hBackslash hVisible _ ih => exact .plain hQuote hBackslash hVisible ih
  | short hMeant _ ih => exact .short hMeant ih
  | unit hUnit _ _ _ ih => exact .unit hUnit ih
  | pair hFirst hSecond _ _ _ ih => exact .unit hFirst (.unit hSecond ih)

/-- Undoing the escapes of a body gives the text it spells. -/
theorem Spells.unescape_eq {text body : List Char} (h : Spells text body) (hAfter : after ≠ 0) :
    unescape true after .outside body = .ok text := by
  induction h with
  | nil => rw [unescape, if_neg hAfter]
  | plain hQuote hBackslash hVisible _ ih =>
      rw [unescape, if_neg hBackslash, if_neg hVisible, ih]
      rfl
  | @short letter meant text body hMeant _ ih =>
      have hLetter : letter ≠ 'u' := by
        rintro rfl
        cases hMeant
      simp [unescape, hLetter, hMeant, ih, Functor.map, Except.map]
  | unit hUnit hLow hHigh _ ih =>
      simp only [hUnit.unescape_outside, hLow, hHigh, Bool.and_false, ih]
      rfl
  | @pair high low first second text body hFirst hSecond hHigh hLow _ ih =>
      have hNotLow : isLowSurrogate high = false := by
        simp only [isHighSurrogate, isLowSurrogate, decide_eq_true_eq, decide_eq_false_iff_not]
          at hHigh ⊢
        omega
      simp only [hFirst.unescape_outside, hNotLow, hHigh, hSecond.unescape_low, hLow, ih]
      rfl

/-- A body spells one text only. -/
theorem Spells.unique {text otherText body : List Char} (h : Spells text body)
    (hOther : Spells otherText body) : text = otherText := by
  have hText := h.unescape_eq Nat.one_ne_zero
  rw [hOther.unescape_eq Nat.one_ne_zero] at hText
  exact (Except.ok.inj hText).symm

namespace Quoted

/-- Whether no quotation mark in a body would end it. -/
def Bare (body : List Char) : Prop := (divide false body).1 = body

theorem bare_cons {c : Char} {body : List Char} (hBackslash : c ≠ '\\') :
    Bare (c :: body) ↔ c ≠ '"' ∧ Bare body := by
  by_cases hQuote : c = '"' <;> simp [Bare, divide, hQuote, hBackslash]

@[simp] theorem bare_escape {letter : Char} {body : List Char} :
    Bare ('\\' :: letter :: body) ↔ Bare body := by
  simp [Bare, divide]

theorem bare_unit {n : Nat} {digits body : List Char} (h : CodeUnit n digits) :
    Bare ('\\' :: 'u' :: (digits ++ body)) ↔ Bare body := by
  have hDigit {c : Char} {value : Nat} (hValue : hexValue? c = some value) (rest : List Char) :
      Bare (c :: rest) ↔ Bare rest := by
    rw [bare_cons (ne_of_hexValue? hValue (by decide))]
    exact and_iff_right (ne_of_hexValue? hValue (by decide))
  cases h with
  | digits ha hb hc hd =>
      rw [bare_escape, List.cons_append, List.cons_append, List.cons_append, List.cons_append,
        hDigit ha, hDigit hb, hDigit hc, hDigit hd, List.nil_append]

/-- A text is divided into a bare body and, if there is one, the quotation mark behind it. -/
theorem divide_spec (escaped : Bool) (text : List Char) :
    text = (divide escaped text).1 ++ (divide escaped text).2 ∧
      (divide escaped (divide escaped text).1).1 = (divide escaped text).1 ∧
      ((divide escaped text).2 = [] ∨ ∃ rest, (divide escaped text).2 = '"' :: rest) := by
  induction text generalizing escaped with
  | nil => cases escaped <;> exact ⟨rfl, rfl, .inl rfl⟩
  | cons c rest ih =>
      rw [divide]
      split
      · rename_i hQuote
        refine ⟨rfl, by cases escaped <;> rfl, .inr ⟨rest, by rw [hQuote.1]⟩⟩
      · rename_i hQuote
        obtain ⟨hText, hBare, hRemainder⟩ := ih (!escaped && decide (c = '\\'))
        refine ⟨congrArg (c :: ·) hText, ?_, hRemainder⟩
        rw [divide, if_neg hQuote]
        exact congrArg (c :: ·) hBare

end Quoted

/-- What can be undone with lone units allowed keeps to the rules. -/
theorem isBody_of_unescape {body text : List Char} (hBare : Quoted.Bare body)
    (h : unescape false after .outside body = .ok text) : IsBody body := by
  induction hLength : body.length using Nat.strongRecOn generalizing body text with
  | ind length ih =>
      subst hLength
      rcases unescape_outside_cases h with ⟨rfl, -⟩ |
        ⟨c, rest, behind, rfl, hBackslash, hVisible, -, hRest⟩ |
        ⟨letter, meant, rest, behind, rfl, hMeant, -, hRest⟩ | ⟨n, digits, rest, hUnit, rfl⟩
      · exact .nil
      · obtain ⟨hQuote, hBare⟩ := (Quoted.bare_cons hBackslash).1 hBare
        exact .plain hQuote hBackslash hVisible (ih _ (by grind) hBare hRest rfl)
      · exact .short hMeant (ih _ (by grind) (Quoted.bare_escape.1 hBare) hRest rfl)
      · rw [hUnit.unescape_outside] at h
        obtain ⟨behind, hRest, -⟩ := exists_of_map_eq_ok h
        exact .unit hUnit (ih _ (by grind) ((Quoted.bare_unit hUnit).1 hBare) hRest rfl)

/-- What is read from a body is what it spells. -/
theorem spells_of_unescape {body text : List Char} (hBare : Quoted.Bare body)
    (h : unescape true after .outside body = .ok text) : Spells text body := by
  induction hLength : body.length using Nat.strongRecOn generalizing body text with
  | ind length ih =>
      subst hLength
      rcases unescape_outside_cases h with ⟨rfl, rfl⟩ |
        ⟨c, rest, behind, rfl, hBackslash, hVisible, rfl, hRest⟩ |
        ⟨letter, meant, rest, behind, rfl, hMeant, rfl, hRest⟩ | ⟨n, digits, rest, hUnit, rfl⟩
      · exact .nil
      · obtain ⟨hQuote, hBare⟩ := (Quoted.bare_cons hBackslash).1 hBare
        exact .plain hQuote hBackslash hVisible (ih _ (by grind) hBare hRest rfl)
      · exact .short hMeant (ih _ (by grind) (Quoted.bare_escape.1 hBare) hRest rfl)
      · rw [Quoted.bare_unit hUnit] at hBare
        rw [hUnit.unescape_outside] at h
        split at h
        · cases h
        · rename_i hLow
          split at h
          · rename_i hHigh
            obtain ⟨low, second, rest, behind, hSecond, rfl, hLow, rfl, hRest⟩ :=
              exists_low_of_unescape h
            exact .pair hUnit hSecond hHigh hLow
              (ih _ (by grind) ((Quoted.bare_unit hSecond).1 hBare) hRest rfl)
          · rename_i hHigh
            obtain ⟨behind, hRest, rfl⟩ := exists_of_map_eq_ok h
            exact .unit hUnit (by simpa using hLow) (by simpa using hHigh)
              (ih _ (by grind) hBare hRest rfl)

/-- How much text follows does not matter for a body that keeps to the rules, as long as its closing
mark does. -/
theorem IsBody.unescape_after {body : List Char} (h : IsBody body) (hAfter : after ≠ 0)
    (hOther : other ≠ 0) :
    unescape paired after .outside body = unescape paired other .outside body ∧
      ∀ high, unescape paired after (.backslashDue high) body =
        unescape paired other (.backslashDue high) body := by
  induction h with
  | nil => simp [unescape, hAfter, hOther]
  | plain hQuote hBackslash hVisible _ ih => simp [unescape, hBackslash, ih.1]
  | @short letter meant body hMeant _ ih =>
      have hLetter : letter ≠ 'u' := by
        rintro rfl
        cases hMeant
      simp [unescape, hLetter, ih.1]
  | unit hUnit _ ih => simp only [hUnit.unescape_outside, hUnit.unescape_low, ih, implies_true, and_self]

namespace Quoted

/-- The body of a string that keeps to the rules ends at its closing mark. -/
theorem divide_of_isBody {body : List Char} (h : IsBody body) (rest : List Char) :
    divide false (body ++ '"' :: rest) = (body, '"' :: rest) := by
  have hPlain {c : Char} (hQuote : c ≠ '"') (hBackslash : c ≠ '\\') (text : List Char) :
      divide false (c :: text) = (c :: (divide false text).1, (divide false text).2) := by
    simp [divide, hQuote, hBackslash]
  have hEscaped (letter : Char) (text : List Char) :
      divide false ('\\' :: letter :: text) =
        ('\\' :: letter :: (divide false text).1, (divide false text).2) := by
    simp [divide]
  induction h with
  | nil => rfl
  | plain hQuote hBackslash _ _ ih => rw [List.cons_append, hPlain hQuote hBackslash, ih]
  | short _ _ ih => rw [List.cons_append, List.cons_append, hEscaped, ih]
  | unit hUnit _ ih =>
      have hDigit {c : Char} {value : Nat} (hValue : hexValue? c = some value) :=
        hPlain (ne_of_hexValue? (d := '"') hValue (by decide))
          (ne_of_hexValue? (d := '\\') hValue (by decide))
      cases hUnit with
      | digits ha hb hc hd =>
          simp only [List.cons_append, List.nil_append, hEscaped, hDigit ha, hDigit hb, hDigit hc,
            hDigit hd, ih]

/-- The string with this body. -/
def ofBody (body : List Char) : Quoted := (scan (body ++ ['"'])).1

theorem utf8Length_take_ne_zero (rest : List Char) : utf8Length (('"' :: rest).take 4) ≠ 0 := by
  have hMark : 0 < '"'.utf8Size := Char.utf8Size_pos '"'
  simp only [List.take_succ_cons, utf8Length, List.foldr_cons]
  omega

/-- A string is taken off a text up to its closing mark. -/
theorem scan_of_isBody {body : List Char} (h : IsBody body) (rest : List Char) :
    scan (body ++ '"' :: rest) = (ofBody body, rest) := by
  have hAfter (paired : Bool) :
      unescape paired (utf8Length (('"' :: rest).take 4)) .outside body =
        unescape paired (utf8Length (['"'].take 4)) .outside body :=
    (h.unescape_after (utf8Length_take_ne_zero rest) (utf8Length_take_ne_zero [])).1
  simp only [ofBody, scan, divide_of_isBody h, hAfter]
  rfl

/-- The parts of a string that keeps to the rules. -/
theorem ofBody_eq {body : List Char} (h : IsBody body) :
    ofBody body = ⟨body, true, (ofBody body).meaning, .ok ()⟩ := by
  obtain ⟨text, hText⟩ := h.exists_unescape (utf8Length_take_ne_zero [])
  simp only [ofBody, scan, divide_of_isBody h, hText]
  rfl

/-- A body that keeps to the rules can be passed over, even if it spells no text. -/
theorem skim_ofBody {body : List Char} (h : IsBody body) : (ofBody body).skim = .ok () := by
  rw [ofBody_eq h]

/-- A string means the text its body spells. -/
theorem meaning_ofBody_eq_ok_iff {body : List Char} (h : IsBody body) {text : String} :
    (ofBody body).meaning = .ok text ↔ Spells text.toList body := by
  have hMeaning : (ofBody body).meaning =
      String.ofList <$> unescape true (utf8Length (['"'].take 4)) .outside body := by
    simp only [ofBody, scan, divide_of_isBody h]
  have hBare : Bare body := by
    have hDivide := divide_spec false (body ++ ['"'])
    rw [divide_of_isBody h] at hDivide
    exact hDivide.2.1
  rw [hMeaning]
  constructor
  · intro hText
    obtain ⟨own, hOwn, rfl⟩ := exists_of_map_eq_ok hText
    rw [String.toList_ofList]
    exact spells_of_unescape hBare hOwn
  · intro hSpells
    rw [hSpells.unescape_eq (utf8Length_take_ne_zero [])]
    exact congrArg Except.ok String.ofList_toList

/-- Whether a string can be read or passed over. -/
def Legible (text : Quoted) : Prop := text.skim = .ok () ∨ ∃ meaning, text.meaning = .ok meaning

/-- A string that can be read or passed over keeps to the rules and is followed by its closing
mark. -/
theorem isBody_of_legible_scan {text rest : List Char} {quoted : Quoted}
    (hScan : scan text = (quoted, rest)) (hLegible : quoted.Legible) :
    ∃ body, IsBody body ∧ text = body ++ '"' :: rest := by
  obtain ⟨hText, hBare, hRemainder⟩ := divide_spec false text
  obtain ⟨rfl, rfl⟩ := Prod.mk.inj hScan
  refine ⟨(divide false text).1, ?_, ?_⟩
  · rcases hLegible with hSkim | ⟨meaning, hMeaning⟩
    · obtain ⟨own, hOwn, -⟩ := exists_of_map_eq_ok hSkim
      exact isBody_of_unescape hBare hOwn
    · obtain ⟨own, hOwn, -⟩ := exists_of_map_eq_ok hMeaning
      exact (spells_of_unescape hBare hOwn).isBody
  · rcases hRemainder with hNone | ⟨behind, hMark⟩
    · -- Without a closing mark nothing is read at all.
      have hAfter : utf8Length (((divide false text).2).take 4) ≠ 0 := by
        rcases hLegible with hSkim | ⟨meaning, hMeaning⟩
        · obtain ⟨own, hOwn, -⟩ := exists_of_map_eq_ok hSkim
          exact after_ne_zero_of_unescape hOwn
        · obtain ⟨own, hOwn, -⟩ := exists_of_map_eq_ok hMeaning
          exact after_ne_zero_of_unescape hOwn
      rw [hNone] at hAfter
      exact absurd rfl hAfter
    · rw [hMark] at hText
      simpa [hMark] using hText

end Quoted
end NoteForm.Json
