import Mathlib.Data.List.Forall2
import NoteForm.Capture
import NoteForm.Json.Record
import NoteForm.Json.Text
import NoteForm.Proofs.Json.Decode
import NoteForm.Proofs.Json.Layout

/-! Reading what was written, kind by kind. A value may be written in several ways, since the order
of some members is free; each of them is read as the value. -/
namespace NoteForm.Json

variable {α : Type}

theorem depthOfItems_le_iff {items : List Json} {levels : Nat} :
    depthOfItems items ≤ levels ↔ ∀ item ∈ items, item.depth ≤ levels := by
  induction items with
  | nil => simp [depthOfItems]
  | cons item rest ih => rw [depthOfItems, Nat.max_le, ih, List.forall_mem_cons]

theorem depthOfMembers_le_iff {members : List (String × Json)} {levels : Nat} :
    depthOfMembers members ≤ levels ↔ ∀ member ∈ members, member.2.depth ≤ levels := by
  induction members with
  | nil => simp [depthOfMembers]
  | cons member rest ih => rw [depthOfMembers, Nat.max_le, ih, List.forall_mem_cons]

/-- Reading a written value gives this value. It fails where too few levels are left for the value,
and for no other reason. -/
def Decoder.Reads (decode : Decoder α) (written : Json) (value : α) : Prop :=
  ∀ levels, decode levels written.toSource = within levels written.depth value

/-- An array takes up one of the levels that are left. -/
theorem Decoder.reads_array {decode : Decoder α} {items : List Json} {value : α}
    (hNone : decode 0 (.list (toItems items)) = .error .tooDeep)
    (h : ∀ levels, decode (levels + 1) (.list (toItems items)) =
      within levels (depthOfItems items) value) :
    decode.Reads (.array items) value := by
  intro levels
  cases levels with
  | zero => exact hNone
  | succ levels => rw [depth, within_succ_succ, ← h levels, toSource]

/-- An object takes up one of the levels that are left. -/
theorem Decoder.reads_object {decode : Decoder α} {members : List (String × Json)} {value : α}
    (hNone : decode 0 (.object (toMembers members)) = .error .tooDeep)
    (h : ∀ levels, decode (levels + 1) (.object (toMembers members)) =
      within levels (depthOfMembers members) value) :
    decode.Reads (.object members) value := by
  intro levels
  cases levels with
  | zero => exact hNone
  | succ levels => rw [depth, within_succ_succ, ← h levels, toSource]

/-- What is read from the form of a value is also read from its text. -/
theorem decodeText_pretty {decode : Decoder α} {written : Json} {value : α}
    (hReads : decode.Reads written value) (hIntegral : written.isIntegral = true) (levels : Nat) :
    decodeText decode levels written.pretty = within levels written.depth value := by
  simp only [decodeText, scan_pretty hIntegral, hReads levels]
  exact map_within id

theorem reads_decodeValue (value : Json) : Decoder.Reads decodeValue value value.arranged :=
  fun levels => decodeValue_toSource levels value

/-- A value in order is read as it is. -/
theorem reads_of_ordered {value : Json} (h : value.Ordered) :
    Decoder.Reads decodeValue value value := by
  have hReads := reads_decodeValue value
  rwa [arranged_of_ordered value h] at hReads

@[simp] theorem wordOfInt?_toNat (word : UInt64) : wordOfInt? word.toNat = some word := by
  have hUpper := word.toNat_lt
  rw [wordOfInt?, if_pos ⟨by omega, by omega⟩, Int.toNat_natCast, UInt64.ofNat_toNat]

@[simp] theorem viewIdOfInt?_toInt (id : Int32) : viewIdOfInt? id.toInt = some id := by
  have hLower := id.le_toInt
  have hUpper := id.toInt_lt
  rw [viewIdOfInt?, if_pos ⟨by omega, by omega⟩, Int32.ofInt_toInt]

namespace Decoder

theorem reads_string (text : String) : string.Reads (.string text) text :=
  fun _ => within_zero.symm

theorem reads_bool (value : Bool) : bool.Reads (.bool value) value :=
  fun _ => within_zero.symm

/-- An integer is read if it is in the range of the kind that is asked for. -/
theorem integer_of_ofInt? {kind : String} {ofInt? : Int → Option α} {value : Int} {word : α}
    {lower : -0x8000000000000000 ≤ value} {upper : value < 0x10000000000000000}
    (h : ofInt? value = some word) (levels : Nat) :
    integer kind ofInt? levels (.number (some (.integer value lower upper))) = .ok word := by
  rw [integer, h]

theorem reads_word (kind : String) (word : UInt64) :
    (Decoder.word kind).Reads (.number (.ofWord word)) word :=
  fun levels => (integer_of_ofInt? (wordOfInt?_toNat word) levels).trans within_zero.symm

theorem reads_viewId (id : Int32) : viewId.Reads (.number (.ofId id)) id :=
  fun levels => (integer_of_ofInt? (viewIdOfInt?_toInt id) levels).trans within_zero.symm

/-- The items of a list are read one by one, and the deepest of them decides. -/
theorem items_toItems {decode : Decoder α} {written : List Json} {values : List α}
    (h : List.Forall₂ decode.Reads written values) (levels : Nat) :
    items decode levels (toItems written) = within levels (depthOfItems written) values := by
  induction h with
  | nil => exact within_zero.symm
  | @cons item value written values hHead hTail ih =>
      simp only [toItems, items, isLoneBracket_toSource, hHead levels, ih]
      exact within_bind (map_within (value :: ·))

/-- A list is read if each of its items is. -/
theorem reads_list {decode : Decoder α} {written : List Json} {values : List α}
    (h : List.Forall₂ decode.Reads written values) :
    (list decode).Reads (.array written) values :=
  reads_array rfl (items_toItems h)

/-- A present value is written like the value itself, and never as `null`. -/
theorem reads_option {decode : Decoder α} {written : Json} {value : α}
    (hPresent : written ≠ .null) (h : decode.Reads written value) :
    (option decode).Reads written (some value) := by
  intro levels
  have hSource : written.toSource ≠ .null := by
    cases written with
    | null => exact absurd rfl hPresent
    | _ => simp [toSource]
  rw [option.eq_2 _ _ _ hSource, h levels, map_within]

/-- Nothing in the text of an integer is escaped. -/
@[simp]
theorem escape_ofInt (value : Int) : escape (Decimal.ofInt value) = Decimal.ofInt value := by
  have hPlain : ∀ c ∈ Decimal.ofInt value, escapeChar c = [c] := by
    intro c hc
    have hFirst := Source.startsNumber_of_mem_ofInt hc
    exact escapeChar_of_visible (hFirst.ne (by decide)) (hFirst.ne (by decide))
      hFirst.not_lt_blank
  rw [escape, List.flatMap_congr hPlain, List.flatMap_singleton']

/-- A view id is read back from the key it is written as. -/
@[simp]
theorem viewIdKey_viewIdName (id : Int32) : viewIdKey (.ofString (viewIdName id)) = .ok id := by
  have hLower := id.le_toInt
  have hUpper := id.toInt_lt
  have hMark : ¬ContinuesNumber ['"'] := not_continuesNumber_cons (by decide) []
  have hNumber : Source.scanNumber (Decimal.ofInt id.toInt ++ ['"']) =
      (.number (some (.ofId id)), ['"']) :=
    Source.scanNumber_ofInt (by omega) (by omega) hMark
  have hId : viewId 0 (.number (some (.ofId id))) = .ok id := reads_viewId id 0
  obtain ⟨c, text, hText, hFirst⟩ := Source.ofInt_eq_cons id.toInt
  simp only [viewIdKey, Quoted.ofString, viewIdName, String.toList_ofList, escape_ofInt]
  rw [hText] at hNumber ⊢
  apply (if_pos hFirst).trans
  simp only [if_true, hNumber, bind, Except.bind, hId]

/-- A member that is read as a state and the id of its view. -/
def ReadsView (decode : Decoder α) (member : String × Json) (entry : Int32 × α) : Prop :=
  member.1 = viewIdName entry.1 ∧ decode.Reads member.2 entry.2

/-- Members with view ids for keys are read one by one, and the deepest state decides. -/
theorem viewMembers_toMembers {decode : Decoder α} {written : List (String × Json)}
    {entries : List (Int32 × α)} (h : List.Forall₂ decode.ReadsView written entries)
    (levels : Nat) :
    viewMembers decode levels (toMembers written) =
      within levels (depthOfMembers written) entries := by
  induction h with
  | nil => exact within_zero.symm
  | @cons member entry written entries hHead hTail ih =>
      obtain ⟨name, value⟩ := member
      obtain ⟨rfl, hValue⟩ := hHead
      simp only [toMembers, viewMembers, viewIdKey_viewIdName, hValue levels, ih]
      exact within_bind (map_within (entry :: ·))

/-- An object of views is read if each of them is. -/
theorem reads_byViewId {decode : Decoder α} {written : List (String × Json)}
    {entries : List (Int32 × α)} (h : List.Forall₂ decode.ReadsView written entries) :
    (byViewId decode).Reads (.object written) entries :=
  reads_object rfl (viewMembers_toMembers h)

end Decoder

namespace RecordFormat

variable {σ : Type} {format : RecordFormat σ α} {levels : Nat} {draft : σ} {record : α}

/-- A record is read from an object if it is read from the members. -/
theorem reads_object {members : List (String × Json)}
    (h : ∀ levels, format.decodeMembers levels format.blank (toMembers members) =
      within levels (depthOfMembers members) record) :
    Decoder.Reads format.decode (.object members) record :=
  Decoder.reads_object rfl h

/-- An object ends well if its draft is a record. -/
theorem decodeMembers_nil (h : format.finish draft = .ok record) :
    format.decodeMembers levels draft (toMembers []) = within levels (depthOfMembers []) record := by
  simp only [toMembers, decodeMembers, finishObject, h]
  exact within_zero.symm

/-- A field that is not set yet takes the value of the member with its name. -/
theorem decodeMembers_field {β : Type} {name : String} {decode : Decoder β}
    {get : σ → Option β} {set : β → σ → σ} {written : Json} {value : β}
    {rest : List (String × Json)}
    (hFind : format.find? name = some (field name decode get set)) (hUnset : get draft = none)
    (hReads : decode.Reads written value)
    (hRest : format.decodeMembers levels (set value draft) (toMembers rest) =
      within levels (depthOfMembers rest) record) :
    format.decodeMembers levels draft (toMembers ((name, written) :: rest)) =
      within levels (depthOfMembers ((name, written) :: rest)) record := by
  have hField : format.fieldFor draft (.ofString name) =
      .ok (some (field name decode get set)) := by
    simp [fieldFor, Quoted.ofString, bind, Except.bind, hFind, field, hUnset]
  have hDecode : (field name decode get set).decode levels written.toSource draft =
      within levels written.depth (set value draft) := by
    simp only [field, hReads levels, map_within]
  simp only [toMembers, decodeMembers, hField]
  change ((field name decode get set).decode levels written.toSource draft >>= fun draft =>
    format.decodeMembers levels draft (toMembers rest)) = _
  rw [hDecode]
  exact within_bind hRest

/-- The members for a part of a record that is written only if it is present. -/
def ReadsOptional {β : Type} (decode : Decoder β) (name : String) :
    List (String × Json) → Option β → Prop
  | members, none => members = []
  | members, some value => ∃ written, members = [(name, written)] ∧ written ≠ .null ∧
      decode.Reads written value

/-- A part that is absent leaves its field unset. -/
theorem decodeMembers_optional {β : Type} {name : String} {decode : Decoder β}
    {get : σ → Option (Option β)} {set : Option β → σ → σ}
    {members rest : List (String × Json)} {value : Option β}
    (hFind : format.find? name = some (field name decode.option get set))
    (hUnset : get draft = none) (hMembers : ReadsOptional decode name members value)
    (hRest : format.decodeMembers levels
      (value.elim draft fun value => set (some value) draft) (toMembers rest) =
        within levels (depthOfMembers rest) record) :
    format.decodeMembers levels draft (toMembers (members ++ rest)) =
      within levels (depthOfMembers (members ++ rest)) record := by
  cases value with
  | none =>
      obtain rfl : members = [] := hMembers
      exact hRest
  | some value =>
      obtain ⟨written, rfl, hPresent, hReads⟩ := hMembers
      exact decodeMembers_field hFind hUnset (Decoder.reads_option hPresent hReads) hRest

end RecordFormat
end NoteForm.Json
