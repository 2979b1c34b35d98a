import Mathlib.Data.List.Forall2
import NoteForm.Editor
import NoteForm.Proofs.Capture
import NoteForm.Proofs.Json.Spelling

/-! Which values can be captured as containers, and what is captured from them. Any value may be
handed over, and one that lacks something is captured as nothing at all. -/
namespace NoteForm

namespace Json

/-- The value is an object with this member. Of members with one name the first counts, though a
value that was read has no two of them. -/
def Holds (value : Json) (name : String) (member : Json) : Prop :=
  ∃ before after, value = .object (before ++ (name, member) :: after) ∧
    ∀ other ∈ before, other.1 ≠ name

/-- The value lists integers of 32 bits under one name, and has an object of views in the object
under the other. -/
structure Usable (value : Json) (items : List Json) (views : List (String × Json)) : Prop where
  ids : value.Holds "customViewIds" (.array items)
  integers : ∀ item ∈ items, ∃ n lower upper, item = .number (.integer n lower upper) ∧
    -0x80000000 ≤ n ∧ n < 0x80000000
  views : ∃ hierarchy, value.Holds "viewHierarchyState" hierarchy ∧
    hierarchy.Holds "views" (.object views)

/-- The row stands for the integer that is listed, with the state under its decimal text if there is
one. A state that is `null` is there. -/
def RowFor (views : List (String × Json)) (item : Json) (row : CapturedRow Json) : Prop :=
  (∃ lower upper, item = .number (.integer row.id.toInt lower upper)) ∧
    ∀ state, row.state = some state ↔ (object views).Holds (toString row.id.toInt) state

@[simp] theorem member?_eq_some_iff {value member : Json} {name : String} :
    value.member? name = some member ↔ value.Holds name member := by
  constructor
  · intro h
    unfold member? at h
    split at h
    · obtain ⟨⟨key, found⟩, hFound, rfl⟩ := Option.map_eq_some_iff.1 h
      obtain ⟨hKey, before, after, rfl, hBefore⟩ := List.find?_eq_some_iff_append.1 hFound
      obtain rfl : key = name := by simpa using hKey
      exact ⟨before, after, rfl, fun other hOther => by simpa using hBefore other hOther⟩
    · cases h
  · rintro ⟨before, after, rfl, hBefore⟩
    have hNone : before.find? (·.1 = name) = none :=
      List.find?_eq_none.2 fun other hOther => by simpa using hBefore other hOther
    simp [member?, List.find?_append, hNone]

@[simp] theorem array?_eq_some_iff {value : Json} {items : List Json} :
    value.array? = some items ↔ value = .array items := by
  cases value <;> simp [array?]

@[simp] theorem object?_eq_some_iff {value : Json} {members : List (String × Json)} :
    value.object? = some members ↔ value = .object members := by
  cases value <;> simp [object?]

/-- Only an integer of 32 bits is a view id. -/
theorem viewId?_eq_some_iff {item : Json} {id : Int32} :
    item.viewId? = some id ↔ ∃ lower upper, item = .number (.integer id.toInt lower upper) := by
  constructor
  · intro h
    unfold viewId? at h
    split at h
    · rename_i n lower upper
      obtain rfl := toInt_of_viewIdOfInt? h
      exact ⟨lower, upper, rfl⟩
    · cases h
  · rintro ⟨lower, upper, rfl⟩
    exact viewIdOfInt?_toInt id

/-- A list is usable if each of its items is. -/
theorem mapM_viewId?_eq_some_iff {items : List Json} {ids : List Int32} :
    items.mapM viewId? = some ids ↔
      List.Forall₂ (fun item id => item.viewId? = some id) items ids := by
  induction items generalizing ids with
  | nil => cases ids <;> simp
  | cons item rest ih =>
      rw [List.mapM_cons]
      cases hItem : item.viewId? with
      | none => cases ids <;> simp [hItem]
      | some id =>
          cases hRest : rest.mapM viewId? with
          | none => cases ids <;> simp [← ih, hRest]
          | some others => cases ids <;> simp [← ih, hRest, hItem]

/-- A list can be read as ids exactly if all items are integers of 32 bits. -/
theorem exists_viewIds_iff {items : List Json} :
    (∃ ids, items.mapM viewId? = some ids) ↔ ∀ item ∈ items, ∃ n lower upper,
      item = .number (.integer n lower upper) ∧ -0x80000000 ≤ n ∧ n < 0x80000000 := by
  simp only [mapM_viewId?_eq_some_iff, viewId?_eq_some_iff]
  constructor
  · rintro ⟨ids, hIds⟩
    induction hIds with
    | nil => simp
    | @cons item id items ids hItem _ ih =>
        obtain ⟨lower, upper, rfl⟩ := hItem
        have hLower := id.le_toInt
        have hUpper := id.toInt_lt
        exact List.forall_mem_cons.2 ⟨⟨id.toInt, lower, upper, rfl, by omega, by omega⟩, ih⟩
  · intro hIntegers
    induction items with
    | nil => exact ⟨[], List.Forall₂.nil⟩
    | cons item rest ih =>
        obtain ⟨⟨n, lower, upper, rfl, hLower, hUpper⟩, hRest⟩ := List.forall_mem_cons.1 hIntegers
        obtain ⟨ids, hIds⟩ := ih hRest
        obtain ⟨id, rfl⟩ : ∃ id : Int32, n = id.toInt :=
          ⟨Int32.ofInt n, (Int32.toInt_ofInt_of_le hLower (by omega)).symm⟩
        exact ⟨id :: ids, List.Forall₂.cons ⟨lower, upper, rfl⟩ hIds⟩

/-- A row for an item has the state that is looked up for its id. -/
theorem rowFor_iff {views : List (String × Json)} {item : Json} {row : CapturedRow Json} :
    RowFor views item row ↔ item.viewId? = some row.id ∧ row.state = stateOf views row.id := by
  have hName : viewIdName row.id = toString row.id.toInt := Decimal.ofList_ofInt row.id.toInt
  rw [RowFor, viewId?_eq_some_iff, stateOf, hName, Option.ext_iff]
  simp only [member?_eq_some_iff]

/-- Rows for the items of a list are what is captured under their ids. -/
theorem forall₂_rowFor_iff {views : List (String × Json)} {items : List Json}
    {captured : List (CapturedRow Json)} :
    List.Forall₂ (RowFor views) items captured ↔
      ∃ ids, items.mapM viewId? = some ids ∧ captured = capture ids (stateOf views) := by
  simp only [mapM_viewId?_eq_some_iff]
  constructor
  · intro h
    refine ⟨captured.map (·.id), ?_, ?_⟩
    · exact List.forall₂_map_right_iff.2 (h.imp fun _ _ hRow => (rowFor_iff.1 hRow).1)
    · induction h with
      | nil => rfl
      | @cons item row items captured hRow _ ih =>
          rw [List.map_cons, capture, List.map_cons, ← (rowFor_iff.1 hRow).2]
          exact congrArg _ ih
  · rintro ⟨ids, hIds, rfl⟩
    exact List.forall₂_map_right_iff.2 (hIds.imp fun _ _ hItem => rowFor_iff.2 ⟨hItem, rfl⟩)

/-- A value has ids if it lists them under the name for them. -/
theorem ids_container_eq_some_iff {value : Json} {ids : List Int32} :
    value.container.ids = some ids ↔
      ∃ items, value.Holds "customViewIds" (.array items) ∧ items.mapM viewId? = some ids := by
  change (value.member? _).bind (fun listed => listed.array?.bind (·.mapM viewId?)) = _ ↔ _
  simp only [Option.bind_eq_some_iff, member?_eq_some_iff, array?_eq_some_iff]
  grind

/-- A value has states if it has an object of views in its hierarchy. -/
theorem stateOf_container_eq_some_iff {value : Json} {states : Int32 → Option Json} :
    value.container.stateOf = some states ↔ ∃ hierarchy views,
      value.Holds "viewHierarchyState" hierarchy ∧ hierarchy.Holds "views" (.object views) ∧
        states = stateOf views := by
  change (value.member? _).bind (fun hierarchy => (hierarchy.member? _).bind fun views =>
    views.object?.bind (some <| stateOf ·)) = _ ↔ _
  simp only [Option.bind_eq_some_iff, member?_eq_some_iff, object?_eq_some_iff, Option.some.injEq]
  grind

/-- What can be captured from a value. -/
theorem capture_container_eq_ok_iff {value : Json} {captured : List (CapturedRow Json)} :
    value.container.capture = .ok captured ↔
      ∃ items views, value.Usable items views ∧ List.Forall₂ (RowFor views) items captured := by
  simp only [Container.capture_eq_ok_iff, ids_container_eq_some_iff,
    stateOf_container_eq_some_iff, forall₂_rowFor_iff]
  constructor
  · rintro ⟨ids, states, ⟨items, hItems, hIds⟩, ⟨hierarchy, views, hHierarchy, hViews, rfl⟩, rfl⟩
    exact ⟨items, views, ⟨hItems, exists_viewIds_iff.1 ⟨ids, hIds⟩, hierarchy, hHierarchy, hViews⟩,
      ids, hIds, rfl⟩
  · rintro ⟨items, views, ⟨hItems, -, hierarchy, hHierarchy, hViews⟩, ids, hIds, rfl⟩
    exact ⟨ids, _, ⟨items, hItems, hIds⟩, ⟨hierarchy, views, hHierarchy, hViews, rfl⟩, rfl⟩

/-- From a value of the right shape something can be captured. -/
theorem exists_capture_container_iff {value : Json} :
    (∃ captured, value.container.capture = .ok captured) ↔
      ∃ items views, value.Usable items views := by
  simp only [capture_container_eq_ok_iff]
  constructor
  · rintro ⟨captured, items, views, hUsable, -⟩
    exact ⟨items, views, hUsable⟩
  · rintro ⟨items, views, hUsable⟩
    obtain ⟨ids, hIds⟩ := exists_viewIds_iff.2 hUsable.integers
    exact ⟨_, items, views, hUsable, forall₂_rowFor_iff.2 ⟨ids, hIds, rfl⟩⟩

end Json

namespace Editor

/-- Rows are captured from the usable values and from no others: one row for each listed integer, in
the order of the list and with its repetitions, and no row for a view that is not listed. Any other
value, whatever its shape, leaves nothing to bring back. -/
theorem captured_iff_usable (value : Json) :
    ((∃ captured, value.container.capture = .ok captured) ↔
        ∃ items views, value.Usable items views) ∧
      (∀ captured, value.container.capture = .ok captured ↔
        ∃ items views, value.Usable items views ∧
          List.Forall₂ (Json.RowFor views) items captured) ∧
      ∀ editor : Editor Json, (editor.receive (some value.container)).hasPending = true ↔
        ∃ items views, value.Usable items views := by
  refine ⟨Json.exists_capture_container_iff, fun _ => Json.capture_container_eq_ok_iff, ?_⟩
  intro editor
  rw [← Json.exists_capture_container_iff]
  change (value.container.capture.toOption).isSome = true ↔ _
  cases value.container.capture <;> simp [Except.toOption]

/-- A double among the ids makes the value unusable, though it is a whole number. -/
example :
    let one := Json.Number.double 0x3ff0000000000000
    (Json.object [("customViewIds", .array [.number (.ofId 7), .number one]),
      ("viewHierarchyState", .object [("views", .object [("7", .null)])])]).container.capture =
        .error .ids := rfl

end Editor
end NoteForm
