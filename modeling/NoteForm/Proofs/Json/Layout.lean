import NoteForm.Json.Layout
import NoteForm.Proofs.Json.Quoted
import NoteForm.Proofs.Json.Scanning

/-! A written value is scanned as the form it has. Doubles are left out, since the digits they are
written with are not looked at here. -/
namespace NoteForm.Json

mutual

/-- Whether no number in a value is a double. -/
def isIntegral : Json → Bool
  | .number (.double _) => false
  | .array items => areIntegralItems items
  | .object members => areIntegralMembers members
  | _ => true

def areIntegralItems : List Json → Bool
  | [] => true
  | item :: rest => item.isIntegral && areIntegralItems rest

def areIntegralMembers : List (String × Json) → Bool
  | [] => true
  | (_, value) :: rest => value.isIntegral && areIntegralMembers rest

end

theorem areIntegralItems_iff {items : List Json} :
    areIntegralItems items = true ↔ ∀ item ∈ items, item.isIntegral = true := by
  induction items with
  | nil => simp [areIntegralItems]
  | cons item rest ih => simp [areIntegralItems, ih]

theorem areIntegralMembers_iff {members : List (String × Json)} :
    areIntegralMembers members = true ↔ ∀ member ∈ members, member.2.isIntegral = true := by
  induction members with
  | nil => simp [areIntegralMembers]
  | cons member rest ih => simp [areIntegralMembers, ih]

/-- A list without faults is one item after the other and the bracket. -/
theorem toItems_eq_ofList (items : List Json) : toItems items = .ofList (items.map toSource) := by
  induction items with
  | nil => rfl
  | cons item rest ih => rw [toItems, ih, List.map_cons, Items.ofList]

/-- A member in the form it has when it is written correctly. -/
def toMember (member : String × Json) : Quoted × Source := (.ofString member.1, member.2.toSource)

/-- An object without faults is one member after the other and the brace. -/
theorem toMembers_eq_ofList (members : List (String × Json)) :
    toMembers members = .ofList (members.map toMember) := by
  induction members with
  | nil => rfl
  | cons member rest ih => rw [toMembers, ih, List.map_cons, toMember, Members.ofList]

/-- A layout that adds nothing but blanks to what has to stand in the text. -/
structure Layout.AddsBlanks (layout : Layout) : Prop where
  lineBreak : ∀ level, Blank (layout.lineBreak level)
  colon : ∃ blanks, layout.colon = ':' :: blanks ∧ Blank blanks

/-- Line breaks and indentation are blanks. -/
theorem Layout.pretty_addsBlanks : Layout.pretty.AddsBlanks where
  lineBreak level c hc := by
    rcases List.mem_cons.1 hc with rfl | hc
    · decide
    · rw [List.eq_of_mem_replicate hc]
      decide
  colon := ⟨[' '], rfl, by simp [Blank, Source.isBlank]⟩

/-- A member as it is written. -/
def renderMember (layout : Layout) (level : Nat) (member : String × Json) : List Char :=
  renderString member.1 ++ layout.colon ++ render layout level member.2

@[simp] theorem blank_nil : Blank [] := by simp [Blank]

variable {layout : Layout}

/-- Written items are separated by commas. -/
theorem separated_render (hLayout : layout.AddsBlanks) (level : Nat) {before after : List Char}
    (hBefore : Blank before) (hAfter : Blank after) (item : Json) (items : List Json) :
    Separated ((item :: items).map (render layout level))
      (before ++ (render layout level item ++ (renderItems layout level items ++ after))) := by
  induction items generalizing item before with
  | nil => exact .last (.blanks hBefore hAfter)
  | cons next items ih =>
      have hItem : Padded (render layout level item) _ := .blanks hBefore blank_nil
      simpa [renderItems] using Separated.more hItem (ih (hLayout.lineBreak level) next)

/-- Written members are separated by commas. -/
theorem separated_renderMember (hLayout : layout.AddsBlanks) (level : Nat)
    {before after : List Char} (hBefore : Blank before) (hAfter : Blank after)
    (member : String × Json) (members : List (String × Json)) :
    Separated ((member :: members).map (renderMember layout level))
      (before ++ (renderMember layout level member ++
        (renderMembers layout level members ++ after))) := by
  induction members generalizing member before with
  | nil => exact .last (.blanks hBefore hAfter)
  | cons next members ih =>
      have hMember : Padded (renderMember layout level member) _ := .blanks hBefore blank_nil
      simpa [renderMembers, renderMember] using
        Separated.more hMember (ih (hLayout.lineBreak level) next)

/-- A written list is a pair of brackets around the items, or around nothing at all. -/
theorem enclosed_render (hLayout : layout.AddsBlanks) (level : Nat) (items : List Json) :
    Enclosed '[' ']' (items.map (render layout (level + 1))) (render layout level (.array items)) := by
  cases items with
  | nil => exact .none blank_nil
  | cons item items =>
      have hItems : Enclosed '[' ']' _ _ := .some (separated_render hLayout (level + 1)
        (hLayout.lineBreak (level + 1)) (hLayout.lineBreak level) item items)
      simpa [render] using hItems

/-- A written object is a pair of braces around the members, or around nothing at all. -/
theorem enclosed_renderMember (hLayout : layout.AddsBlanks) (level : Nat)
    (members : List (String × Json)) :
    Enclosed '\x7b' '\x7d' (members.map (renderMember layout (level + 1)))
      (render layout level (.object members)) := by
  cases members with
  | nil => exact .none blank_nil
  | cons member members =>
      have hMembers : Enclosed '\x7b' '\x7d' _ _ :=
        .some (separated_renderMember hLayout (level + 1) (hLayout.lineBreak (level + 1))
          (hLayout.lineBreak level) member members)
      simpa [render, renderMember] using hMembers

/-- A written member is a name between marks, a colon and a value. -/
theorem memberText_renderMember (hLayout : layout.AddsBlanks) (level : Nat)
    (member : String × Json) :
    MemberText (escape member.1.toList) (render layout level member.2)
      (renderMember layout level member) := by
  obtain ⟨blanks, hColon, hBlanks⟩ := hLayout.colon
  simpa [renderMember, renderString, hColon] using MemberText.colon blank_nil hBlanks

mutual

/-- A written value is scanned as its form. -/
theorem scans_render (hLayout : layout.AddsBlanks) (level : Nat) (value : Json)
    (h : value.isIntegral = true) : Scans (render layout level value) value.toSource := by
  cases value with
  | null => exact scans_null
  | bool value =>
      cases value with
      | true => exact scans_true
      | false => exact scans_false
  | number value =>
      cases value with
      | double bits => simp [isIntegral] at h
      | integer value lower upper => exact scans_ofInt lower upper
  | string text =>
      rw [toSource, ← Quoted.ofBody_escape]
      exact scans_string (spells_escape _).isBody
  | array items =>
      rw [toSource, toItems_eq_ofList]
      exact scans_list (enclosed_render hLayout level items)
        (scans_renderItems hLayout (level + 1) items h)
  | object members =>
      rw [toSource, toMembers_eq_ofList]
      exact scans_object (enclosed_renderMember hLayout level members)
        (scans_renderMembers hLayout (level + 1) members h)

theorem scans_renderItems (hLayout : layout.AddsBlanks) (level : Nat) (items : List Json)
    (h : areIntegralItems items = true) :
    List.Forall₂ Scans (items.map (render layout level)) (items.map toSource) := by
  cases items with
  | nil => exact .nil
  | cons item rest =>
      obtain ⟨hItem, hRest⟩ := Bool.and_eq_true_iff.1 h
      exact .cons (scans_render hLayout level item hItem)
        (scans_renderItems hLayout level rest hRest)

theorem scans_renderMembers (hLayout : layout.AddsBlanks) (level : Nat)
    (members : List (String × Json)) (h : areIntegralMembers members = true) :
    List.Forall₂ ScansMember (members.map (renderMember layout level)) (members.map toMember) := by
  cases members with
  | nil => exact .nil
  | cons member rest =>
      obtain ⟨hValue, hRest⟩ := Bool.and_eq_true_iff.1 h
      have hMember : ScansMember (renderMember layout level member) (toMember member) := by
        rw [toMember, ← Quoted.ofBody_escape]
        exact .member (spells_escape _).isBody (memberText_renderMember hLayout level member)
          (scans_render hLayout level member.2 hValue)
      exact .cons hMember (scans_renderMembers hLayout level rest hRest)

end

/-- A text written for a file is scanned to its end, as the form of the value. -/
theorem scan_pretty {value : Json} (h : value.isIntegral = true) :
    Source.scan value.pretty.toList = (value.toSource, []) := by
  rw [pretty, String.toList_ofList]
  exact (scans_render Layout.pretty_addsBlanks 0 value h).scan

end NoteForm.Json
