import NoteForm.Proofs.Json.Record
import NoteForm.Proofs.Json.Spelling

/-! What is read from a text that keeps to the rules, kind by kind: which texts are read at all, and
as what. -/
namespace NoteForm.Json

variable {own : List Char} {levels : Nat}

/-- The text of a word of 64 bits: its decimal digits. -/
def WordText (word : UInt64) (own : List Char) : Prop := own = (toString word.toNat).toList

def BoolText (value : Bool) (own : List Char) : Prop := own = (toString value).toList

theorem stringText_render (layout : Layout) (level : Nat) (text : String) :
    StringText text (render layout level (.string text)) :=
  ⟨_, spells_escape text.toList, by simp [render, renderString]⟩

theorem ofInt_toNat (word : UInt64) : Decimal.ofInt word.toNat = (toString word.toNat).toList := by
  have hDigits : toString word.toNat = String.ofList (Nat.toDigits 10 word.toNat) :=
    Nat.repr_eq_ofList_toDigits
  rw [hDigits, String.toList_ofList]
  rfl

theorem wordText_render (layout : Layout) (level : Nat) (word : UInt64) :
    WordText word (render layout level (.number (.ofWord word))) :=
  ofInt_toNat word

theorem boolText_render (layout : Layout) (level : Nat) (value : Bool) :
    BoolText value (render layout level (.bool value)) := by
  cases value <;> rfl

/-- A text is the text of one string only. -/
theorem StringText.unique {text other : String} (h : StringText text own)
    (hOther : StringText other own) : text = other := by
  obtain ⟨body, hBody, rfl⟩ := h
  obtain ⟨otherBody, hOtherBody, hSame⟩ := hOther
  obtain rfl : body = otherBody := by simpa using hSame
  rw [← String.ofList_toList (s := text), hBody.unique hOtherBody, String.ofList_toList]

/-- A text that keeps to the rules of numbers is scanned as a number. -/
theorem scan_eq_scanNumber (h : IsNumber own) : Source.scan own = Source.scanNumber own := by
  obtain ⟨c, behind, rfl, hFirst⟩ := Source.exists_startsNumber h
  exact Source.scanValue_of_startsNumber hFirst _ behind

/-- The kinds of texts that keep to the rules, with their forms. -/
theorem IsJson.form_cases (h : IsJson own) :
    (own = ['n', 'u', 'l', 'l'] ∧ form own = .null) ∨
      (∃ value, BoolText value own ∧ form own = .bool value) ∨
      (∃ value, form own = .number value ∧ Source.scanNumber own = (.number value, [])) ∨
      (∃ body, IsBody body ∧ own = '"' :: (body ++ ['"']) ∧ form own = .string (.ofBody body)) ∨
      (∃ items, form own = .list items) ∨ ∃ members, form own = .object members := by
  cases h with
  | null => exact .inl ⟨rfl, scans_null.form_eq⟩
  | true => exact .inr (.inl ⟨Bool.true, rfl, scans_true.form_eq⟩)
  | false => exact .inr (.inl ⟨Bool.false, rfl, scans_false.form_eq⟩)
  | number hNumber =>
      obtain ⟨value, hScans⟩ := scans_number hNumber
      refine .inr (.inr (.inl ⟨value, hScans.form_eq, ?_⟩))
      rw [← scan_eq_scanNumber hNumber, hScans.scan]
  | string hBody =>
      exact .inr (.inr (.inr (.inl ⟨_, hBody, rfl, (scans_string hBody).form_eq⟩)))
  | list hText hItems =>
      have hScans := List.forall₂_map_right_iff.2
        (List.forall₂_same.2 fun item hItem => (hItems item hItem).scans)
      exact .inr (.inr (.inr (.inr (.inl ⟨_, (scans_list hText hScans).form_eq⟩))))
  | object hPieces hText hKeys hValues =>
      have hMembers := forall₂_scansMember hPieces hKeys fun member hMember =>
        (hValues member hMember).scans
      exact .inr (.inr (.inr (.inr (.inr ⟨_, (scans_object hText hMembers).form_eq⟩))))

namespace Decoder

/-- A string is read from its texts and from no others. -/
theorem string_form_eq_ok_iff (h : IsJson own) {text : String} :
    string levels (form own) = .ok text ↔ StringText text own := by
  constructor
  · intro hRead
    rcases h.form_cases with ⟨-, hForm⟩ | ⟨value, -, hForm⟩ | ⟨value, hForm, -⟩ |
      ⟨body, hBody, rfl, hForm⟩ | ⟨items, hForm⟩ | ⟨members, hForm⟩ <;> rw [hForm] at hRead
    case inr.inr.inr.inl => exact ⟨body, (Quoted.meaning_ofBody_eq_ok_iff hBody).1 hRead, rfl⟩
    all_goals simp [string] at hRead
  · rintro ⟨body, hSpells, rfl⟩
    rw [(scans_string hSpells.isBody).form_eq]
    exact (Quoted.meaning_ofBody_eq_ok_iff hSpells.isBody).2 hSpells

/-- A boolean is read from its word and from nothing else. -/
theorem bool_form_eq_ok_iff (h : IsJson own) {value : Bool} :
    bool levels (form own) = .ok value ↔ BoolText value own := by
  constructor
  · intro hRead
    rcases h.form_cases with ⟨-, hForm⟩ | ⟨found, hFound, hForm⟩ | ⟨number, hForm, -⟩ |
      ⟨body, hBody, rfl, hForm⟩ | ⟨items, hForm⟩ | ⟨members, hForm⟩ <;> rw [hForm] at hRead
    case inr.inl =>
      obtain rfl := Except.ok.inj hRead
      exact hFound
    all_goals simp [bool] at hRead
  · rintro rfl
    cases value with
    | true => exact congrArg (bool levels) scans_true.form_eq
    | false => exact congrArg (bool levels) scans_false.form_eq

/-- A word is read from its decimal text and from no other. -/
theorem word_form_eq_ok_iff (h : IsJson own) {kind : String} {word : UInt64} :
    Decoder.word kind levels (form own) = .ok word ↔ WordText word own := by
  constructor
  · intro hRead
    obtain ⟨value, lower, upper, hSource, hWord⟩ := exists_of_integer_eq_ok hRead
    rcases h.form_cases with ⟨-, hForm⟩ | ⟨found, -, hForm⟩ | ⟨number, hForm, hScan⟩ |
      ⟨body, -, -, hForm⟩ | ⟨items, hForm⟩ | ⟨members, hForm⟩ <;> rw [hForm] at hSource
    case inr.inr.inl =>
      obtain rfl := Source.number.inj hSource
      obtain rfl := toNat_of_wordOfInt? hWord
      rw [WordText, Source.eq_ofInt_of_scanNumber hScan, List.append_nil, ofInt_toNat]
    all_goals cases hSource
  · rintro rfl
    have hScans : Scans (toString word.toNat).toList (.number (some (.ofWord word))) := by
      rw [← ofInt_toNat]
      exact scans_ofInt _ _
    rw [hScans.form_eq]
    exact integer_of_ofInt? (wordOfInt?_toNat word) levels

variable {α : Type} {decode : Decoder α}

/-- Items are read one by one. -/
theorem items_ofList_eq_ok_iff {sources : List Source} {values : List α}
    (h : ∀ source ∈ sources, source.isLoneBracket = false) :
    items decode levels (.ofList sources) = .ok values ↔
      List.Forall₂ (fun source value => decode levels source = .ok value) sources values := by
  induction sources generalizing values with
  | nil => cases values <;> simp [Items.ofList, items]
  | cons source rest ih =>
      obtain ⟨hSource, hRest⟩ := List.forall_mem_cons.1 h
      simp only [Items.ofList, items, hSource, Bool.false_eq_true, if_false]
      constructor
      · intro hRead
        obtain ⟨value, hValue, hRead⟩ := exists_of_bind_eq_ok hRead
        obtain ⟨others, hOthers, hRead⟩ := exists_of_bind_eq_ok hRead
        obtain rfl := Except.ok.inj hRead
        exact .cons hValue ((ih hRest).1 hOthers)
      · rintro (_ | ⟨hValue, hOthers⟩)
        simp only [hValue, (ih hRest).2 hOthers, bind, Except.bind]

/-- Nothing stands like a closing bracket where a text keeps to the rules. -/
theorem isLoneBracket_form (h : IsJson own) : (form own).isLoneBracket = false := by
  have hSkip := h.skip_form
  cases hForm : form own with
  | missing next =>
      rw [hForm] at hSkip
      cases hSkip
  | _ => rfl

/-- A list is read item by item. -/
theorem list_form_eq_ok_iff {pieces : List (List Char)} (h : ListText pieces own)
    {values : List α} : list decode (levels + 1) (form own) = .ok values ↔
      List.Forall₂ (fun piece value => decode levels (form piece) = .ok value) pieces values := by
  have hScans : List.Forall₂ Scans pieces (pieces.map form) := List.forall₂_map_right_iff.2
    (List.forall₂_same.2 fun piece hPiece => (h.items piece hPiece).scans)
  rw [(scans_list h.enclosed hScans).form_eq, list, items_ofList_eq_ok_iff,
    List.forall₂_map_left_iff]
  exact List.forall_mem_map.2 fun piece hPiece => isLoneBracket_form (h.items piece hPiece)

end Decoder

/-- A member of a text under its name, with the form of its value. -/
def formed (member : String × List Char) : String × Source := (member.1, form member.2)

namespace RecordFormat

variable {σ α β : Type} {format : RecordFormat σ α} {members : List (String × List Char)}

/-- A record is read from the members of an object, whatever their order and their spelling. -/
theorem decode_form (h : ObjectText members own) :
    format.decode (levels + 1) (form own) =
      (members.map formed).foldlM (format.take levels) format.blank >>= format.finishObject := by
  obtain ⟨entries, hForm, hEntries⟩ := h.exists_form
  rw [hForm, decode]
  exact format.decodeMembers_ofList levels format.blank (List.forall₂_map_left_iff.2 hEntries)

section

variable {name : String} {decode : Decoder β} {get : σ → Option β} {set : β → σ → σ}
  {draft after : σ} (h : format.IsField name decode get set)
  (hFold : (members.map formed).foldlM (format.take levels) draft = .ok after)

include h hFold

/-- A field gets what is read from the text under its name. -/
theorem IsField.exists_of_written {text : List Char} (hMember : (name, text) ∈ members) :
    ∃ value, decode levels (form text) = .ok value ∧ get after = some value :=
  h.exists_of_mem hFold (List.mem_map_of_mem hMember)

/-- A field whose name is not written stays as it is. -/
theorem IsField.get_of_missing (hMissing : ∀ text, (name, text) ∉ members) :
    get after = get draft := by
  apply h.get_of_forall_ne hFold
  intro member hMember hName
  obtain ⟨⟨other, text⟩, hWritten, rfl⟩ := List.mem_map.1 hMember
  obtain rfl : other = name := hName
  exact hMissing text hWritten

end

/-- The members of an object are taken in if no member of the record is repeated and each of the
record's members can be read. Other members do not matter. -/
theorem Partitioned.exists_foldlM_formed_iff (h : format.Partitioned)
    (hText : ObjectText members own) :
    (∃ draft, (members.map formed).foldlM (format.take levels) format.blank = .ok draft) ↔
      (∀ own ∈ format.fields, (members.map Prod.fst).count own.name ≤ 1) ∧
        ∀ member ∈ members, (∃ own ∈ format.fields, own.name = member.1) →
          format.Accepts levels (formed member) := by
  have hNames : (members.map formed).map Prod.fst = members.map Prod.fst := by
    rw [List.map_map]
    rfl
  rw [h.exists_foldlM_iff, hNames, List.forall_mem_map]
  apply and_congr
  · refine forall₂_congr fun own hOwn => ?_
    rw [h.isSet_blank hOwn]
    rfl
  · refine forall₂_congr fun member hMember => ⟨fun hAccepts _ => hAccepts, fun hAccepts => ?_⟩
    by_cases hKnown : ∃ own ∈ format.fields, own.name = member.1
    · exact hAccepts hKnown
    · refine accepts_of_foreign (List.find?_eq_none.2 fun own hOwn hName => ?_)
        (hText.values member hMember).skip_form
      exact hKnown ⟨own, hOwn, of_decide_eq_true hName⟩

end RecordFormat
end NoteForm.Json
