import NoteForm.Proofs.Json.Forms

/-! What a value has to be if something is read from it. -/
namespace NoteForm.Json

variable {α : Type} {levels : Nat} {written : Json}

/-- What is read from a value in order is the value. -/
theorem eq_of_decodeValue {value : Json} (hOrdered : written.Ordered)
    (h : decodeValue levels written.toSource = .ok value) : value = written := by
  rw [decodeValue_toSource, arranged_of_ordered written hOrdered, within] at h
  split at h
  · exact (Except.ok.inj h).symm
  · cases h

/-- A view id is only read from the number it is written as. -/
theorem eq_of_viewId {id : Int32} (h : Decoder.viewId levels written.toSource = .ok id) :
    written = .number (.ofId id) := by
  obtain ⟨value, lower, upper, hSource, hId⟩ := Decoder.exists_of_integer_eq_ok h
  obtain rfl := toInt_of_viewIdOfInt? hId
  cases written with
  | number number =>
      obtain rfl := Option.some.inj (Source.number.inj hSource)
      rfl
  | _ => cases hSource

namespace Decoder

variable {decode : Decoder α}

/-- Only `null` is read as an absent value. -/
theorem option_toSource_eq_ok {result : Option α}
    (h : option decode levels written.toSource = .ok result) :
    (written = .null ∧ result = none) ∨
      ∃ value, decode levels written.toSource = .ok value ∧ result = some value := by
  cases written with
  | null => exact Or.inl ⟨rfl, (Except.ok.inj h).symm⟩
  | _ =>
      obtain ⟨value, hValue, rfl⟩ := exists_of_map_eq_ok h
      exact Or.inr ⟨value, hValue, rfl⟩

theorem items_toItems_eq_ok {written : List Json} {values : List α}
    (h : items decode levels (toItems written) = .ok values) :
    List.Forall₂ (fun item value => decode levels item.toSource = .ok value) written values := by
  rw [toItems_eq_ofList, items_ofList_eq_ok_iff
    (List.forall_mem_map.2 fun item _ => isLoneBracket_toSource item)] at h
  exact List.forall₂_map_left_iff.1 h

/-- A list is only read from an array, item by item. -/
theorem list_toSource_eq_ok {values : List α} (h : list decode levels written.toSource = .ok values) :
    ∃ items below, written = .array items ∧
      List.Forall₂ (fun item value => decode below item.toSource = .ok value) items values := by
  cases written with
  | array items =>
      cases levels with
      | zero => cases h
      | succ below => exact ⟨items, below, rfl, items_toItems_eq_ok h⟩
  | _ => cases levels <;> cases h

theorem viewMembers_toMembers_eq_ok {written : List (String × Json)} {entries : List (Int32 × α)}
    (h : viewMembers decode levels (toMembers written) = .ok entries) :
    List.Forall₂ (fun member entry => member.1 = viewIdName entry.1 ∧
      decode levels member.2.toSource = .ok entry.2) written entries := by
  induction written generalizing entries with
  | nil =>
      obtain rfl : [] = entries := Except.ok.inj h
      exact List.Forall₂.nil
  | cons member rest ih =>
      rw [toMembers, viewMembers] at h
      obtain ⟨id, hId, h⟩ := exists_of_bind_eq_ok h
      obtain ⟨value, hValue, h⟩ := exists_of_bind_eq_ok h
      obtain ⟨others, hRest, h⟩ := exists_of_bind_eq_ok h
      obtain rfl := Except.ok.inj h
      exact List.Forall₂.cons ⟨viewIdKey_eq_ok_iff.1 hId, hValue⟩ (ih hRest)

/-- States by view id are only read from an object, each from the member with the name of its id. -/
theorem byViewId_toSource_eq_ok {entries : List (Int32 × α)}
    (h : byViewId decode levels written.toSource = .ok entries) :
    ∃ members below, written = .object members ∧
      List.Forall₂ (fun member entry => member.1 = viewIdName entry.1 ∧
        decode below member.2.toSource = .ok entry.2) members entries := by
  cases written with
  | object members =>
      cases levels with
      | zero => cases h
      | succ below => exact ⟨members, below, rfl, viewMembers_toMembers_eq_ok h⟩
  | _ => cases levels <;> cases h

end Decoder

end NoteForm.Json
