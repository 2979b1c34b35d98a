import NoteForm.Proofs.Container
import NoteForm.Proofs.Json.Inversion

/-! Two readings of one container: a value that is read as a container has the ids and states that
are found in the value itself. -/
namespace NoteForm

open Json (Decoder RecordFormat viewIdName)

variable {levels : Nat} {written : Json}

/-- A member of an object in order is in order. -/
theorem Json.Ordered.member? {members : List (String × Json)} (h : (object members).Ordered)
    {name : String} {value : Json} (hMember : (object members).member? name = some value) :
    value.Ordered := by
  obtain ⟨member, hFound, rfl⟩ := Option.map_eq_some_iff.1 hMember
  exact (orderedMembers_iff members).1 h.2 member (List.mem_of_find?_eq_some hFound)

/-- What is read as ids is written as these ids. -/
theorem idsWrittenAs_of_decode {ids : List Int32}
    (h : Stored.decode levels written.toSource = .ok ids) : IdsWrittenAs ids written := by
  obtain ⟨items, below, rfl, hItems⟩ := Decoder.list_toSource_eq_ok h
  have hSame : List.Forall₂ Eq items (ids.map Stored.encode) :=
    List.forall₂_map_right_iff.2 (hItems.imp fun item id hId => Json.eq_of_viewId hId)
  rw [List.forall₂_eq_eq_eq] at hSame
  rw [hSame]
  rfl

/-- What is read as views is written as these views, if it is in order. -/
theorem Views.writtenAs_of_decode (hOrdered : written.Ordered) {views : Views Json}
    (h : Stored.decode levels written.toSource = .ok views) : views.WrittenAs written := by
  obtain ⟨entries, hEntries, rfl⟩ := exists_of_map_eq_ok h
  obtain ⟨members, below, rfl, hMembers⟩ := Decoder.byViewId_toSource_eq_ok hEntries
  have hSame : members = entries.map fun (id, state) => (viewIdName id, Stored.encode state) := by
    have hStates := (Json.orderedMembers_iff members).1 hOrdered.2
    clear hOrdered h hEntries
    induction hMembers with
    | nil => rfl
    | @cons member entry members entries hHead _ ih =>
        obtain ⟨hMember, hRest⟩ := List.forall_mem_cons.1 hStates
        obtain ⟨name, value⟩ := member
        obtain ⟨rfl, hValue⟩ := hHead
        obtain rfl : entry.2 = value := Json.eq_of_decodeValue hMember hValue
        rw [List.map_cons, ← ih hRest]
        rfl
  refine ⟨entries, ?_, by rw [hSame]⟩
  have hNames : (members.map Prod.fst).Nodup := hOrdered.1.nodup_keys
  rw [hSame, List.map_map] at hNames
  apply (Ascending.putAll_perm ?_).symm
  apply List.Nodup.of_map viewIdName
  rwa [List.map_map]

/-- The states of views that are written in order are in order. -/
theorem Views.WrittenAs.ordered {views : Views Json} (h : views.WrittenAs written)
    (hOrdered : written.Ordered) : ∀ state ∈ views.states, state.Ordered := by
  obtain ⟨members, rfl, hMembers⟩ := h.exists_members Json.Ordered
  exact hMembers.1 ((Json.orderedMembers_iff members).1 hOrdered.2)

theorem ViewHierarchy.isField_views :
    (format (S := Json)).IsField "views" Stored.decode id fun views _ => some views where
  find := rfl
  get_set _ _ := rfl
  apart := by
    intro other hOther hName
    obtain rfl := List.mem_singleton.1 hOther
    exact absurd rfl hName

/-- The states of a hierarchy that is read from an object are found in the object. -/
theorem ViewHierarchy.stateOf_of_decode {parts : List (String × Json)}
    (hOrdered : (Json.object parts).Ordered) {hierarchy : ViewHierarchy Json}
    (h : Stored.decode levels (Json.object parts).toSource = .ok hierarchy) :
    ((Json.object parts).member? "views").bind
      (fun views => views.object?.bind (some <| Json.stateOf ·)) =
        hierarchy.views.bind fun views => some views.find? := by
  obtain ⟨below, draft, hFold, hFinish⟩ := format.exists_of_decode_object h
  obtain rfl : ViewHierarchy.mk (draft.getD none) = hierarchy := Except.ok.inj hFinish
  refine isField_views.bind_member? rfl hFold fun written part hMember hPart => ?_
  rcases Decoder.option_toSource_eq_ok hPart with ⟨rfl, rfl⟩ | ⟨views, hViews, rfl⟩
  · rfl
  · have hViewsOrdered := hOrdered.member? hMember
    have hWritten := Views.writtenAs_of_decode hViewsOrdered hViews
    have hFound := hWritten.stateOf (hWritten.ordered hViewsOrdered)
    rwa [Json.arranged_of_ordered written hViewsOrdered] at hFound

namespace SavedState

theorem isField_viewIds :
    (format (S := Json)).IsField "customViewIds" Stored.decode Draft.viewIds
      fun viewIds draft => { draft with viewIds := some viewIds } where
  find := rfl
  get_set _ _ := rfl
  apart := by
    intro other hOther hName levels source draft after hDecode
    rcases List.mem_cons.1 hOther with rfl | hOther
    · exact absurd rfl hName
    · obtain rfl := List.mem_singleton.1 hOther
      obtain ⟨hierarchy, -, rfl⟩ := exists_of_map_eq_ok hDecode
      rfl

theorem isField_hierarchy :
    (format (S := Json)).IsField "viewHierarchyState" Stored.decode Draft.hierarchy
      fun hierarchy draft => { draft with hierarchy := some hierarchy } where
  find := rfl
  get_set _ _ := rfl
  apart := by
    intro other hOther hName levels source draft after hDecode
    rcases List.mem_cons.1 hOther with rfl | hOther
    · obtain ⟨viewIds, -, rfl⟩ := exists_of_map_eq_ok hDecode
      rfl
    · obtain rfl := List.mem_singleton.1 hOther
      exact absurd rfl hName

/-- A container that is read from an object has the ids and states that are found in the object. -/
theorem container_of_decode {members : List (String × Json)}
    (hOrdered : (Json.object members).Ordered)
    (hHierarchy : ∀ hierarchy, (Json.object members).member? "viewHierarchyState" = some hierarchy →
      hierarchy = .null ∨ ∃ parts, hierarchy = .object parts)
    {saved : SavedState Json}
    (h : Stored.decode levels (Json.object members).toSource = .ok saved) :
    (Json.object members).container = saved.container := by
  obtain ⟨below, draft, hFold, hFinish⟩ := format.exists_of_decode_object h
  obtain rfl : SavedState.mk (draft.viewIds.getD none) (draft.hierarchy.getD none) = saved :=
    Except.ok.inj hFinish
  have hIds : ((Json.object members).member? "customViewIds").bind
      (fun listed => listed.array?.bind (·.mapM Json.viewId?)) =
        (draft.viewIds.getD none).bind some := by
    refine isField_viewIds.bind_member? rfl hFold fun written part hMember hPart => ?_
    rcases Decoder.option_toSource_eq_ok hPart with ⟨rfl, rfl⟩ | ⟨ids, hDecode, rfl⟩
    · rfl
    · have hFound := (idsWrittenAs_of_decode hDecode).viewIds
      rwa [Json.arranged_of_ordered written (hOrdered.member? hMember)] at hFound
  have hStates : ((Json.object members).member? "viewHierarchyState").bind
      (fun hierarchy => (hierarchy.member? "views").bind fun views =>
        views.object?.bind (some <| Json.stateOf ·)) =
        (draft.hierarchy.getD none).bind fun hierarchy => hierarchy.views.bind fun views =>
          some views.find? := by
    refine isField_hierarchy.bind_member? rfl hFold fun written part hMember hPart => ?_
    rcases Decoder.option_toSource_eq_ok hPart with ⟨rfl, rfl⟩ | ⟨hierarchy, hDecode, rfl⟩
    · rfl
    · rcases hHierarchy written hMember with rfl | ⟨parts, rfl⟩
      · cases below <;> cases hDecode
      · exact ViewHierarchy.stateOf_of_decode (hOrdered.member? hMember) hDecode
  rw [Option.bind_fun_some] at hIds
  exact congrArg₂ Container.mk hIds hStates

end SavedState

/-- A value in order that names the parts of a container, and so does the hierarchy in it. A list of
the parts without their names can be read as a container too, but nothing is found in it by name. -/
structure Json.NamesParts (value : Json) : Prop where
  ordered : value.Ordered
  isObject : ∃ members, value = .object members
  hierarchy : ∀ hierarchy, value.member? "viewHierarchyState" = some hierarchy →
    hierarchy = .null ∨ ∃ parts, hierarchy = .object parts

/-- A container and a mere value are captured alike. Whatever a value with named parts is read as,
the same rows are captured from both, or from neither for the same reason; and from the value that a
container is written as, in any of its forms, the same is captured as from the container. A state that
is `null` is told from one that is missing. -/
theorem readings_captured_alike :
    (∀ (value : Json) (saved : SavedState Json), value.NamesParts →
      Stored.ofJson value = .ok saved → value.container.capture = saved.container.capture) ∧
    ∀ (saved : SavedState Json) (written : Json), (∀ state ∈ saved.states, state.Ordered) →
      saved.WrittenAs written → written.arranged.container.capture = saved.container.capture := by
  constructor
  · intro value saved hParts hRead
    obtain ⟨members, rfl⟩ := hParts.isObject
    rw [SavedState.container_of_decode hParts.ordered hParts.hierarchy hRead]
  · intro saved written hStates hWritten
    rw [hWritten.container hStates]

/-- A value with a repeated id, a `null` state, a state nobody asks for and members of no concern. -/
def strayValue : Json :=
  .object [("customViewIds", .array [.number (.ofId (-5)), .number (.ofId 7), .number (.ofId (-5))]),
    ("theme", .string "dark"),
    ("viewHierarchyState", .object [("focus", .bool true),
      ("views", .object [("-5", .null), ("12", .string "other")])])]

theorem namesParts_strayValue : strayValue.NamesParts where
  ordered := by
    simp only [strayValue, Json.Ordered, Json.OrderedMembers, Json.OrderedItems, Ascending.Sorted]
    decide
  isObject := ⟨_, rfl⟩
  hierarchy := by
    intro hierarchy hFound
    obtain rfl := Option.some.inj hFound
    exact Or.inr ⟨_, rfl⟩

theorem readings_captured_alike_stray : ∃ saved : SavedState Json,
    Stored.ofJson strayValue = .ok saved ∧
      saved.container.capture = .ok [⟨-5, some .null⟩, ⟨7, none⟩, ⟨-5, some .null⟩] ∧
      strayValue.container.capture = saved.container.capture ∧
      (Stored.encode saved).arranged.container.capture = saved.container.capture := by
  refine ⟨⟨some [-5, 7, -5], some ⟨some (.ofList [(-5, .null), (12, .string "other")])⟩⟩, rfl, rfl,
    readings_captured_alike.1 strayValue _ namesParts_strayValue rfl,
    readings_captured_alike.2 _ _ ?_ (SavedState.writtenAs_encode _)⟩
  intro state hState
  have hListed : state ∈ [Json.null, Json.string "other"] := hState
  rcases List.mem_cons.1 hListed with rfl | hListed
  · trivial
  · obtain rfl := List.mem_singleton.1 hListed
    trivial

/-- Without its name the part of a hierarchy is not found in the value. -/
example :
    let value := Json.object [("customViewIds", .array [.number (.ofId 1)]),
      ("viewHierarchyState", .array [.object [("1", .null)]])]
    ∃ saved : SavedState Json, Stored.ofJson value = .ok saved ∧
      saved.container.capture = .ok [⟨1, some .null⟩] ∧
      value.container.capture = .error .states :=
  ⟨⟨some [1], some ⟨some (.ofList [(1, .null)])⟩⟩, rfl, rfl, rfl⟩

end NoteForm
