import NoteForm.Json.Record
import NoteForm.Proofs.Except
import NoteForm.Proofs.Json.Layout

/-! Records read from the members of an object, in whatever order they stand and whatever stands among
them: each field is read from the member with its name, and is unset if there is none. Nothing is read
if a field has two members or cannot be read from its member. -/
namespace NoteForm.Json

mutual

/-- Nothing is wrong with a value that is passed over. -/
theorem skip_toSource (value : Json) : value.toSource.skip = .ok () := by
  cases value with
  | null => rfl
  | bool value => rfl
  | number value => rfl
  | string value => rfl
  | array items => exact skip_toItems items
  | object members => exact skip_toMembers members

@[simp] theorem skip_toItems (items : List Json) : (toItems items).skip = .ok () := by
  cases items with
  | nil => rfl
  | cons item rest =>
      simp only [toItems, Items.skip, skip_toSource item, skip_toItems rest]
      rfl

@[simp]
theorem skip_toMembers (members : List (String × Json)) : (toMembers members).skip = .ok () := by
  cases members with
  | nil => rfl
  | cons member rest =>
      simp only [toMembers, Members.skip, Quoted.ofString, skip_toSource member.2,
        skip_toMembers rest]
      rfl

end

/-- Members under the names that their keys mean. -/
def Names (members : List (String × Source)) (entries : List (Quoted × Source)) : Prop :=
  List.Forall₂ (fun member entry => entry.1.meaning = .ok member.1 ∧ entry.2 = member.2) members
    entries

/-- A member of a value with the form it is written in. -/
def named (member : String × Json) : String × Source := (member.1, member.2.toSource)

theorem names_toMember (members : List (String × Json)) :
    Names (members.map named) (members.map toMember) :=
  List.forall₂_map_left_iff.2 (List.forall₂_map_right_iff.2
    (List.forall₂_same.2 fun _ _ => ⟨rfl, rfl⟩))

namespace RecordFormat

variable {σ α β : Type} (format : RecordFormat σ α)

/-- What a member does to the draft. -/
def take (levels : Nat) (draft : σ) (member : String × Source) : Except Fault σ :=
  match format.find? member.1 with
  | none => (fun _ => draft) <$> member.2.skip
  | some field =>
      if field.isSet draft then .error (.repeatedMember member.1)
      else field.decode levels member.2 draft

/-- A record is read by taking its members in one after the other. -/
theorem decodeMembers_ofList (levels : Nat) (draft : σ) {members : List (String × Source)}
    {entries : List (Quoted × Source)} (h : Names members entries) :
    format.decodeMembers levels draft (.ofList entries) =
      members.foldlM (format.take levels) draft >>= format.finishObject := by
  induction h generalizing draft with
  | nil => rfl
  | @cons member entry members entries hHead _ ih =>
      obtain ⟨name, value⟩ := member
      obtain ⟨key, source⟩ := entry
      obtain ⟨hKey, hSame⟩ : key.meaning = .ok name ∧ source = value := hHead
      subst hSame
      rw [List.foldlM_cons, take, Members.ofList, decodeMembers, fieldFor]
      cases hFind : format.find? name with
      | none =>
          cases hSkip : source.skip <;>
            simp [hKey, hFind, bind, Except.bind, Functor.map, Except.map, ih]
      | some field =>
          cases hSet : field.isSet draft with
          | true => simp [hKey, hFind, hSet, bind, Except.bind]
          | false =>
              cases hDecode : field.decode levels source draft <;>
                simp [hKey, hFind, hSet, hDecode, bind, Except.bind, ih]

/-- A record that is read from an object has been put together from its members. -/
theorem exists_of_decode_object {levels : Nat} {members : List (String × Json)} {record : α}
    (h : format.decode levels (object members).toSource = .ok record) :
    ∃ below draft, (members.map named).foldlM (format.take below) format.blank = .ok draft ∧
      format.finishObject draft = .ok record := by
  cases levels with
  | zero => cases h
  | succ below =>
      rw [toSource, toMembers_eq_ofList, decode,
        format.decodeMembers_ofList below format.blank (names_toMember members)] at h
      obtain ⟨draft, hFold, hFinish⟩ := exists_of_bind_eq_ok h
      exact ⟨below, draft, hFold, hFinish⟩

variable {format} {name : String} {decode : Decoder β} {get : σ → Option β} {set : β → σ → σ}

/-- Whether a field leaves a part of the draft as it is. -/
def Leaves {γ : Type} (own : RecordField σ) (part : σ → γ) : Prop :=
  ∀ levels source draft after, own.decode levels source draft = .ok after → part after = part draft

theorem leaves_field {γ : Type} {part : σ → γ}
    (h : ∀ value draft, part (set value draft) = part draft) :
    Leaves (field name decode get set) part := by
  intro levels source draft after hDecode
  obtain ⟨value, -, rfl⟩ := exists_of_map_eq_ok hDecode
  exact h value draft

/-- A field of a format that has a part of the draft to itself. -/
structure IsField (format : RecordFormat σ α) (name : String) (decode : Decoder β)
    (get : σ → Option β) (set : β → σ → σ) : Prop where
  find : format.find? name = some (field name decode get set)
  get_set : ∀ value draft, get (set value draft) = some value
  apart : ∀ other ∈ format.fields, other.name ≠ name → Leaves other get

namespace IsField

variable (h : format.IsField name decode get set) {levels : Nat} {draft after : σ}

include h

/-- A member with the name of the field is read as its value. -/
theorem get_take {source : Source} (hTake : format.take levels draft (name, source) = .ok after) :
    get draft = none ∧ ∃ value, decode levels source = .ok value ∧ get after = some value := by
  simp only [take, h.find] at hTake
  split at hTake
  · cases hTake
  · rename_i hUnset
    obtain ⟨value, hValue, rfl⟩ := exists_of_map_eq_ok hTake
    exact ⟨by simpa [field] using hUnset, value, hValue, h.get_set value draft⟩

/-- Any other member leaves the field alone. -/
theorem get_take_of_ne {member : String × Source} (hName : member.1 ≠ name)
    (hTake : format.take levels draft member = .ok after) : get after = get draft := by
  unfold take at hTake
  split at hTake
  · obtain ⟨_, -, rfl⟩ := exists_of_map_eq_ok hTake
    rfl
  · rename_i other hFind
    split at hTake
    · cases hTake
    · have hOther : other.name = member.1 := by simpa using List.find?_some hFind
      exact h.apart other (List.mem_of_find?_eq_some hFind) (hOther ▸ hName) _ _ _ _ hTake

/-- A field that is set keeps its value to the end. -/
theorem get_foldlM_of_set {members : List (String × Source)} {value : β}
    (hSet : get draft = some value)
    (hFold : members.foldlM (format.take levels) draft = .ok after) : get after = some value := by
  induction members generalizing draft with
  | nil =>
      obtain rfl : draft = after := Except.ok.inj hFold
      exact hSet
  | cons member rest ih =>
      rw [List.foldlM_cons] at hFold
      obtain ⟨next, hTake, hRest⟩ := exists_of_bind_eq_ok hFold
      by_cases hName : member.1 = name
      · subst hName
        rw [(h.get_take hTake).1] at hSet
        cases hSet
      · exact ih (by rw [h.get_take_of_ne hName hTake, hSet]) hRest

/-- At the end a field has the value that is read from the member with its name, if there is one. -/
theorem get_foldlM {members : List (String × Source)} (hUnset : get draft = none)
    (hFold : members.foldlM (format.take levels) draft = .ok after) :
    (members.find? (·.1 = name)).map (fun member => decode levels member.2) =
      (get after).map .ok := by
  induction members generalizing draft with
  | nil =>
      obtain rfl : draft = after := Except.ok.inj hFold
      rw [hUnset]
      rfl
  | cons member rest ih =>
      rw [List.foldlM_cons] at hFold
      obtain ⟨next, hTake, hRest⟩ := exists_of_bind_eq_ok hFold
      by_cases hName : member.1 = name
      · subst hName
        obtain ⟨-, value, hValue, hSet⟩ := h.get_take hTake
        rw [h.get_foldlM_of_set hSet hRest, List.find?_cons_of_pos (by simp)]
        exact congrArg some hValue
      · rw [← ih (by rw [h.get_take_of_ne hName hTake, hUnset]) hRest,
          List.find?_cons_of_neg (by simpa using hName)]

/-- The member with the name of the field can be read, and the field gets what is read from it. -/
theorem exists_of_mem {members : List (String × Source)} {source : Source}
    (hFold : members.foldlM (format.take levels) draft = .ok after)
    (hMember : (name, source) ∈ members) :
    ∃ value, decode levels source = .ok value ∧ get after = some value := by
  induction members generalizing draft with
  | nil => cases hMember
  | cons member rest ih =>
      rw [List.foldlM_cons] at hFold
      obtain ⟨next, hTake, hRest⟩ := exists_of_bind_eq_ok hFold
      rcases List.mem_cons.1 hMember with rfl | hMember
      · obtain ⟨-, value, hValue, hSet⟩ := h.get_take hTake
        exact ⟨value, hValue, h.get_foldlM_of_set hSet hRest⟩
      · exact ih hRest hMember

/-- Without a member of its name a field stays as it is. -/
theorem get_of_forall_ne {members : List (String × Source)}
    (hFold : members.foldlM (format.take levels) draft = .ok after)
    (hOther : ∀ member ∈ members, member.1 ≠ name) : get after = get draft := by
  induction members generalizing draft with
  | nil =>
      obtain rfl : draft = after := Except.ok.inj hFold
      rfl
  | cons member rest ih =>
      rw [List.foldlM_cons] at hFold
      obtain ⟨next, hTake, hRest⟩ := exists_of_bind_eq_ok hFold
      obtain ⟨hName, hOther⟩ := List.forall_mem_cons.1 hOther
      rw [ih hRest hOther, h.get_take_of_ne hName hTake]

end IsField

variable (format) in
/-- Whether each field has a part of the draft to itself, which is unset at first. -/
def Partitioned : Prop :=
  ∀ own ∈ format.fields, ∃ (β : Type) (name : String) (decode : Decoder β) (get : σ → Option β)
    (set : β → σ → σ), own = field name decode get set ∧
      format.IsField name decode get set ∧ get format.blank = none

variable (format) in
/-- Whether a member can be taken in as the first one. -/
def Accepts (levels : Nat) (member : String × Source) : Prop :=
  ∃ draft, format.take levels format.blank member = .ok draft

/-- A blank draft accepts a member of its own exactly if the value can be read. -/
theorem IsField.accepts_iff (h : format.IsField name decode get set)
    (hBlank : get format.blank = none) {levels : Nat} {source : Source} :
    format.Accepts levels (name, source) ↔ ∃ value, decode levels source = .ok value := by
  simp only [Accepts, take, h.find, field, hBlank]
  cases decode levels source <;> simp [Functor.map, Except.map]

/-- A member that is none of the record's is passed over. -/
theorem accepts_of_foreign {levels : Nat} {member : String × Source}
    (hForeign : format.find? member.1 = none) (hSkip : member.2.skip = .ok ()) :
    format.Accepts levels member :=
  ⟨format.blank, by simp [take, hForeign, hSkip, Functor.map, Except.map]⟩

namespace Partitioned

variable (h : format.Partitioned) {levels : Nat} {draft next : σ} {member : String × Source}
  {own : RecordField σ}

include h

/-- A member sets the field of its name and no other. -/
theorem isSet_take (hTake : format.take levels draft member = .ok next)
    (hOwn : own ∈ format.fields) :
    own.isSet next = (own.isSet draft || decide (own.name = member.1)) := by
  obtain ⟨β, name, decode, get, set, rfl, hField, -⟩ := h own hOwn
  change (get next).isSome = ((get draft).isSome || decide (name = member.1))
  by_cases hName : member.1 = name
  · subst hName
    obtain ⟨-, value, -, hSet⟩ := hField.get_take hTake
    simp [hSet]
  · rw [hField.get_take_of_ne hName hTake, decide_eq_false (Ne.symm hName), Bool.or_false]

theorem find?_name (hOwn : own ∈ format.fields) : format.find? own.name = some own := by
  obtain ⟨β, name, decode, get, set, rfl, hField, -⟩ := h own hOwn
  exact hField.find

/-- In a blank draft nothing is set. -/
@[simp] theorem isSet_blank (hOwn : own ∈ format.fields) : own.isSet format.blank = false := by
  obtain ⟨β, name, decode, get, set, rfl, -, hBlank⟩ := h own hOwn
  simp [field, hBlank]

/-- A member is taken in if its field is not set yet and it can be taken in at all. -/
theorem exists_take_iff : (∃ next, format.take levels draft member = .ok next) ↔
    (∀ own ∈ format.fields, own.name = member.1 → own.isSet draft = false) ∧
      format.Accepts levels member := by
  cases hFind : format.find? member.1 with
  | none =>
      have hOther : ∀ own ∈ format.fields, own.name ≠ member.1 := by
        intro own hOwn hName
        rw [← hName, h.find?_name hOwn] at hFind
        cases hFind
      have hSkip (draft : σ) : (∃ next, format.take levels draft member = .ok next) ↔
          member.2.skip = .ok () := by
        simp only [take, hFind]
        cases member.2.skip <;> simp [Functor.map, Except.map]
      rw [Accepts, hSkip, hSkip]
      exact (and_iff_right fun own hOwn hName => absurd hName (hOther own hOwn)).symm
  | some own =>
      -- No other field has this name, so this one alone says whether the member comes twice.
      have hOwn := List.mem_of_find?_eq_some hFind
      have hName : own.name = member.1 := by simpa using List.find?_some hFind
      have hOnly : ∀ other ∈ format.fields, other.name = member.1 → other = own := by
        intro other hOther hSame
        have hFound := h.find?_name hOther
        rw [hSame, hFind] at hFound
        exact (Option.some.inj hFound).symm
      obtain ⟨β, name, decode, get, set, rfl, -, hBlank⟩ := h own hOwn
      have hDecode (draft : σ) : (∃ next, format.take levels draft member = .ok next) ↔
          get draft = none ∧ ∃ value, decode levels member.2 = .ok value := by
        simp only [take, hFind, field]
        cases get draft <;> cases decode levels member.2 <;>
          simp [Functor.map, Except.map]
      rw [Accepts, hDecode, hDecode, and_iff_right hBlank]
      apply and_congr_left'
      constructor
      · intro hUnset other hOther hSame
        rw [hOnly other hOther hSame]
        simp [field, hUnset]
      · intro hUnset
        simpa [field] using hUnset _ hOwn hName

/-- Members are taken in one after the other if no field has two of them or is set already, and if
each can be taken in at all. -/
theorem exists_foldlM_iff {members : List (String × Source)} :
    (∃ after, members.foldlM (format.take levels) draft = .ok after) ↔
      (∀ own ∈ format.fields,
        (members.map Prod.fst).count own.name + (own.isSet draft).toNat ≤ 1) ∧
        ∀ member ∈ members, format.Accepts levels member := by
  induction members generalizing draft with
  | nil =>
      simp [Bool.toNat_le, pure, Except.pure]
  | cons member rest ih =>
      have hStep : (∃ after, (member :: rest).foldlM (format.take levels) draft = .ok after) ↔
          ∃ next, format.take levels draft member = .ok next ∧
            ∃ after, rest.foldlM (format.take levels) next = .ok after := by
        rw [List.foldlM_cons]
        cases format.take levels draft member <;> simp [bind, Except.bind]
      -- Taking a member in sets its field: one name fewer is left and one field more is set.
      have hCount (next : σ) (hTake : format.take levels draft member = .ok next)
          (own : RecordField σ) (hOwn : own ∈ format.fields) :
          (rest.map Prod.fst).count own.name + (own.isSet next).toNat ≤ 1 ↔
            ((member :: rest).map Prod.fst).count own.name + (own.isSet draft).toNat ≤ 1 := by
        have hUnset := (h.exists_take_iff.1 ⟨next, hTake⟩).1 own hOwn
        rw [h.isSet_take hTake hOwn, List.map_cons, List.count_cons]
        by_cases hName : own.name = member.1
        · simp [hName, hUnset hName]
        · simp [hName, Ne.symm hName]
      rw [hStep, List.forall_mem_cons]
      constructor
      · rintro ⟨next, hTake, hRest⟩
        obtain ⟨hOnce, hAll⟩ := ih.1 hRest
        exact ⟨fun own hOwn => (hCount next hTake own hOwn).1 (hOnce own hOwn),
          (h.exists_take_iff.1 ⟨next, hTake⟩).2, hAll⟩
      · rintro ⟨hOnce, hMember, hAll⟩
        have hUnset : ∀ own ∈ format.fields, own.name = member.1 → own.isSet draft = false := by
          intro own hOwn hName
          have hCountOwn := hOnce own hOwn
          rw [List.map_cons, List.count_cons, hName] at hCountOwn
          cases hSet : own.isSet draft with
          | false => rfl
          | true =>
              rw [hSet] at hCountOwn
              simp at hCountOwn
        obtain ⟨next, hTake⟩ := h.exists_take_iff.2 ⟨hUnset, hMember⟩
        exact ⟨next, hTake, ih.2 ⟨fun own hOwn => (hCount next hTake own hOwn).2 (hOnce own hOwn),
          hAll⟩⟩

end Partitioned

/-- A part that may be absent is what is read from its member, and absent without a member. -/
theorem IsField.bind_member? {γ : Type} {decode : Decoder (Option β)}
    {get : σ → Option (Option β)} {set : Option β → σ → σ}
    (h : format.IsField name decode get set) {levels : Nat} {draft after : σ}
    {members : List (String × Json)} (hUnset : get draft = none)
    (hFold : (members.map named).foldlM (format.take levels) draft = .ok after)
    {read : Json → Option γ} {meaning : β → Option γ}
    (hRead : ∀ written part, (object members).member? name = some written →
      decode levels written.toSource = .ok part → read written = part.bind meaning) :
    ((object members).member? name).bind read = ((get after).getD none).bind meaning := by
  have hGet : ((object members).member? name).map (fun written => decode levels written.toSource) =
      (get after).map .ok := by
    rw [← h.get_foldlM hUnset hFold, member?, List.find?_map, Option.map_map, Option.map_map]
    rfl
  cases hMember : (object members).member? name with
  | none =>
      rw [hMember] at hGet
      rw [Option.map_eq_none_iff.1 hGet.symm]
      rfl
  | some written =>
      rw [hMember] at hGet
      obtain ⟨part, hPart, hDecode⟩ := Option.map_eq_some_iff.1 hGet.symm
      rw [hPart]
      exact hRead written part hMember hDecode.symm

end RecordFormat
end NoteForm.Json
