import Mathlib.Data.List.Infix
import NoteForm.LabelPolicy

/-! What a label template says. A template has one reading as literal characters and places of names,
and a label is that reading with the names put in. What the names are does not enter into the
reading, so braces in them mean nothing. -/
namespace NoteForm

/-- A piece of a label template: a character that stands for itself, or the place of a name. -/
inductive LabelToken where
  | char (c : Char)
  | newName
  | oldName
deriving DecidableEq, Repr

namespace LabelToken

/-- How a piece is written in a template. -/
def spelling : LabelToken → List Char
  | char c => [c]
  | newName => ['{', 'n', 'e', 'w', '}']
  | oldName => ['{', 'o', 'l', 'd', '}']

/-- What a piece contributes to a label. -/
def fill (newText oldText : List Char) : LabelToken → List Char
  | char c => [c]
  | newName => newText
  | oldName => oldText

/-- The pieces that names are put in for. -/
def placeholders : List LabelToken := [newName, oldName]

/-- A template as it is read from the left. -/
def ofTemplate : List Char → List LabelToken
  | '{' :: 'n' :: 'e' :: 'w' :: '}' :: rest => newName :: ofTemplate rest
  | '{' :: 'o' :: 'l' :: 'd' :: '}' :: rest => oldName :: ofTemplate rest
  | c :: rest => char c :: ofTemplate rest
  | [] => []

/-- The pieces are those of a template: written down they give the template, and no characters that
stand next to each other for themselves contain a placeholder. -/
structure Reads (template : List Char) (tokens : List LabelToken) : Prop where
  spelled : tokens.flatMap spelling = template
  literal : ∀ run : List Char, run.map char <:+: tokens →
    ∀ token ∈ placeholders, ¬token.spelling <:+: run

@[simp] theorem ofTemplate_placeholder {token : LabelToken} (h : token ∈ placeholders)
    (rest : List Char) : ofTemplate (token.spelling ++ rest) = token :: ofTemplate rest := by
  simp only [placeholders, List.mem_cons, List.not_mem_nil, or_false] at h
  rcases h with rfl | rfl <;> rfl

/-- A character at which no placeholder begins stands for itself. -/
theorem ofTemplate_char {c : Char} {rest : List Char}
    (h : ∀ token ∈ placeholders, ¬token.spelling <+: c :: rest) :
    ofTemplate (c :: rest) = char c :: ofTemplate rest := by
  have hNew := h newName (by simp [placeholders])
  have hOld := h oldName (by simp [placeholders])
  rw [ofTemplate]
  · rintro more rfl rfl
    exact hNew ⟨more, rfl⟩
  · rintro more rfl rfl
    exact hOld ⟨more, rfl⟩

/-- A template is empty, or it begins with a placeholder, or with a character at which none begins. -/
theorem template_induction {motive : List Char → Prop} (template : List Char) (nil : motive [])
    (placeholder : ∀ token ∈ placeholders, ∀ rest, motive rest → motive (token.spelling ++ rest))
    (char : ∀ c rest, (∀ token ∈ placeholders, ¬token.spelling <+: c :: rest) → motive rest →
      motive (c :: rest)) : motive template := by
  fun_induction ofTemplate template with
  | case1 rest ih => exact placeholder newName (by simp [placeholders]) rest ih
  | case2 rest ih => exact placeholder oldName (by simp [placeholders]) rest ih
  | case3 c rest hNew hOld ih =>
      refine char c rest ?_ ih
      simp only [placeholders, List.forall_mem_cons]
      refine ⟨?_, ?_, by simp⟩
      · rintro ⟨more, hMore⟩
        cases hMore
        exact hNew more rfl rfl
      · rintro ⟨more, hMore⟩
        cases hMore
        exact hOld more rfl rfl
  | case4 => exact nil

/-- A brace opens a placeholder and does not occur in it again, so none begins within another. -/
theorem exists_spelling_eq {token : LabelToken} (h : token ∈ placeholders) :
    ∃ inner, token.spelling = '{' :: inner ∧ '{' ∉ inner := by
  simp only [placeholders, List.mem_cons, List.not_mem_nil, or_false] at h
  rcases h with rfl | rfl
  · exact ⟨['n', 'e', 'w', '}'], rfl, by decide⟩
  · exact ⟨['o', 'l', 'd', '}'], rfl, by decide⟩

/-- No character of a template is lost in reading it. -/
@[simp] theorem flatMap_spelling_ofTemplate (template : List Char) :
    (ofTemplate template).flatMap spelling = template := by
  induction template using template_induction with
  | nil => rfl
  | placeholder token hToken rest ih =>
      simp [hToken, ih]
  | char c rest hNone ih =>
      rw [ofTemplate_char hNone, List.flatMap_cons, ih]
      rfl

theorem flatMap_spelling_map_char (run : List Char) : (run.map char).flatMap spelling = run := by
  induction run with
  | nil => rfl
  | cons c run ih => rw [List.map_cons, List.flatMap_cons, ih]; rfl

/-- No placeholder is read as a row of characters. -/
theorem not_infix_ofTemplate {token : LabelToken} (h : token ∈ placeholders)
    (template : List Char) : ¬token.spelling.map char <:+: ofTemplate template := by
  obtain ⟨inner, hSpelling, -⟩ := exists_spelling_eq h
  induction template using template_induction with
  | nil => simp [ofTemplate, hSpelling]
  | placeholder other hOther rest ih =>
      rw [ofTemplate_placeholder hOther, List.infix_cons_iff, not_or]
      refine ⟨?_, ih⟩
      rw [hSpelling, List.map_cons, List.cons_prefix_cons]
      rintro ⟨rfl, -⟩
      simp [placeholders] at hOther
  | char c rest hNone ih =>
      rw [ofTemplate_char hNone, List.infix_cons_iff, not_or]
      refine ⟨?_, ih⟩
      rintro ⟨more, hMore⟩
      have hText := congrArg (List.flatMap spelling) hMore
      rw [List.flatMap_append, flatMap_spelling_map_char, List.flatMap_cons,
        flatMap_spelling_ofTemplate] at hText
      exact hNone token h ⟨_, hText⟩

theorem reads_ofTemplate (template : List Char) : Reads template (ofTemplate template) where
  spelled := flatMap_spelling_ofTemplate template
  literal _ hRun _ hToken hInfix :=
    not_infix_ofTemplate hToken template ((hInfix.map char).trans hRun)

/-- Characters without a brace can only come from pieces that are characters. -/
theorem map_char_prefix {piece : List Char} (h : '{' ∉ piece) {tokens : List LabelToken}
    (hPiece : piece <+: tokens.flatMap spelling) : piece.map char <+: tokens := by
  induction piece generalizing tokens with
  | nil => exact List.nil_prefix
  | cons c piece ih =>
      rw [List.mem_cons, not_or] at h
      cases tokens with
      | nil => simp at hPiece
      | cons token rest =>
          cases token with
          | char d =>
              obtain ⟨rfl, hRest⟩ := List.cons_prefix_cons.1 hPiece
              exact List.cons_prefix_cons.2 ⟨rfl, ih h.2 hRest⟩
          | newName => exact absurd (List.cons_prefix_cons.1 hPiece).1.symm h.1
          | oldName => exact absurd (List.cons_prefix_cons.1 hPiece).1.symm h.1

/-- A template has no reading but the one from the left. -/
theorem Reads.eq_ofTemplate {template : List Char} {tokens : List LabelToken}
    (h : Reads template tokens) : tokens = ofTemplate template := by
  obtain ⟨rfl, hLiteral⟩ := h
  induction tokens with
  | nil => rfl
  | cons token rest ih =>
      have hRest := ih fun run hRun => hLiteral run (List.infix_cons hRun)
      rw [List.flatMap_cons]
      cases token with
      | newName => rw [ofTemplate_placeholder (by simp [placeholders]), ← hRest]
      | oldName => rw [ofTemplate_placeholder (by simp [placeholders]), ← hRest]
      | char c =>
          change _ = ofTemplate (c :: rest.flatMap spelling)
          rw [ofTemplate_char, ← hRest]
          -- A placeholder that began here would be spelled by pieces that are characters.
          intro token hToken hPrefix
          obtain ⟨inner, hSpelling, hInner⟩ := exists_spelling_eq hToken
          rw [hSpelling, List.cons_prefix_cons] at hPrefix
          obtain ⟨rfl, hPrefix⟩ := hPrefix
          have hRun : token.spelling.map char <+: char '{' :: rest := by
            rw [hSpelling, List.map_cons, List.cons_prefix_cons]
            exact ⟨rfl, map_char_prefix hInner hPrefix⟩
          exact hLiteral _ hRun.isInfix token hToken List.infix_rfl

/-- A placeholder behind a text does not complete one in it. -/
theorem not_prefix_append {token other : LabelToken} (hToken : token ∈ placeholders)
    (hOther : other ∈ placeholders) {c : Char} {rest : List Char}
    (h : ¬token.spelling <+: c :: rest) (after : List Char) :
    ¬token.spelling <+: c :: rest ++ (other.spelling ++ after) := by
  intro hPrefix
  rcases List.prefix_or_prefix_of_prefix hPrefix (List.prefix_append _ _) with
    hInside | ⟨more, hMore⟩
  · exact h hInside
  · rw [← hMore, List.prefix_append_right_inj] at hPrefix
    obtain ⟨inner, hSpelling, hInner⟩ := exists_spelling_eq hToken
    obtain ⟨otherInner, hOtherSpelling, -⟩ := exists_spelling_eq hOther
    cases more with
    | nil =>
        rw [List.append_nil] at hMore
        exact h ⟨[], by rw [List.append_nil, hMore]⟩
    | cons d more =>
        rw [hOtherSpelling, List.cons_append, List.cons_prefix_cons] at hPrefix
        obtain ⟨rfl, -⟩ := hPrefix
        rw [hSpelling, List.cons_append, List.cons.injEq] at hMore
        exact hInner (hMore.2 ▸ by simp)

/-- Wherever a placeholder occurs it is read as one, and the text before it and the text behind it are
read as if they stood alone. -/
theorem ofTemplate_append {token : LabelToken} (h : token ∈ placeholders)
    (before after : List Char) :
    ofTemplate (before ++ (token.spelling ++ after)) =
      ofTemplate before ++ token :: ofTemplate after := by
  induction before using template_induction with
  | nil => exact ofTemplate_placeholder h after
  | placeholder other hOther rest ih =>
      simp [hOther, ih]
  | char c rest hNone ih =>
      rw [ofTemplate_char hNone, List.cons_append, List.cons_append, ofTemplate_char, ih]
      intro other hOther
      exact not_prefix_append hOther h (hNone other hOther) after

end LabelToken

namespace LabelPolicy

open LabelToken

@[simp] theorem fillIn_placeholder {token : LabelToken} (h : token ∈ placeholders)
    (newText oldText label rest : List Char) :
    fillIn newText oldText label (token.spelling ++ rest) =
      fillIn newText oldText (label ++ token.fill newText oldText) rest := by
  simp only [placeholders, List.mem_cons, List.not_mem_nil, or_false] at h
  rcases h with rfl | rfl <;> rw [fillIn] <;> simp [spelling, newMark, oldMark, fill]

/-- A character at which no placeholder begins goes behind the label made so far, though whole runs
of them may be passed at once. -/
theorem fillIn_char {c : Char} {rest : List Char}
    (h : ∀ token ∈ placeholders, ¬token.spelling <+: c :: rest)
    (newText oldText label : List Char) :
    fillIn newText oldText label (c :: rest) = fillIn newText oldText (label ++ [c]) rest := by
  have hNew : ¬newMark <+: c :: rest := h newName (by simp [placeholders])
  have hOld : ¬oldMark <+: c :: rest := h oldName (by simp [placeholders])
  by_cases hBrace : c = '{'
  · subst hBrace
    rw [fillIn]
    simp [hNew, hOld]
  · rw [fillIn, fillIn.eq_def newText oldText (label ++ [c])]
    simp [hBrace]

/-- At every point the label made so far stays, and what is left of the template is read on its
own. -/
theorem fillIn_eq (newText oldText label rest : List Char) :
    fillIn newText oldText label rest =
      label ++ (ofTemplate rest).flatMap (fill newText oldText) := by
  induction rest using template_induction generalizing label with
  | nil => simp [fillIn, ofTemplate]
  | placeholder token hToken rest ih =>
      simp [hToken, ih]
  | char c rest hNone ih =>
      rw [fillIn_char hNone, ih, ofTemplate_char hNone, List.flatMap_cons, List.append_assoc]
      rfl

theorem label_eq (policy : LabelPolicy) (newText oldText : String) :
    policy.label newText oldText = String.ofList
      ((ofTemplate policy.template.toList).flatMap (fill newText.toList oldText.toList)) := by
  simp [label, fillIn_eq]

/-- A template has one reading, which does not depend on the names. Each label is this reading with
the names put in, so names that look like placeholders are not filled again; with the placeholders
themselves for names it is the template. Wherever a placeholder occurs in the template, a name is put
in there. -/
theorem label_one_pass (template : String) :
    ∃ tokens, Reads template.toList tokens ∧
      (∀ others, Reads template.toList others → others = tokens) ∧
      (∀ token ∈ placeholders, ∀ before after,
        template.toList = before ++ (token.spelling ++ after) →
          ∃ front back, tokens = front ++ token :: back ∧ Reads before front ∧ Reads after back) ∧
      ∀ minOldFields,
        (∀ newText oldText, (LabelPolicy.mk minOldFields template).label newText oldText =
          String.ofList (tokens.flatMap (fill newText.toList oldText.toList))) ∧
        (LabelPolicy.mk minOldFields template).label "\x7bnew\x7d" "\x7bold\x7d" = template := by
  refine ⟨ofTemplate template.toList, reads_ofTemplate _, fun others h => h.eq_ofTemplate, ?_, ?_⟩
  · intro token hToken before after hTemplate
    exact ⟨_, _, hTemplate ▸ ofTemplate_append hToken before after, reads_ofTemplate before,
      reads_ofTemplate after⟩
  · intro minOldFields
    refine ⟨label_eq _, ?_⟩
    have hFill : fill "\x7bnew\x7d".toList "\x7bold\x7d".toList = spelling := by
      funext token
      cases token <;> rfl
    rw [label_eq, hFill, flatMap_spelling_ofTemplate, String.ofList_toList]

/-- A brace before a placeholder, a placeholder torn apart by another one, and one left open. -/
example : (LabelPolicy.mk 0 "\x7b\x7bnew\x7d \x7bn\x7bold\x7dew\x7d \x7bold").label
    "\x7bold\x7d" "é" = "\x7b\x7bold\x7d \x7bnéew\x7d \x7bold" := by decide +kernel

end LabelPolicy
end NoteForm
