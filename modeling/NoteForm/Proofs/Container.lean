import NoteForm.Proofs.Records

/-! A saved container looks the same whether it is read as a container or as a mere value: its ids
are the items of one member, and its states stand under the decimal names of their ids. -/
namespace NoteForm

namespace Json

/-- Different view ids have different names, since each is read back from its name. -/
theorem viewIdName_inj {id other : Int32} : viewIdName id = viewIdName other ↔ id = other := by
  constructor
  · intro h
    have hKey := Decoder.viewIdKey_viewIdName id
    rw [h, Decoder.viewIdKey_viewIdName] at hKey
    exact (Except.ok.inj hKey).symm
  · rintro rfl
    rfl

@[simp] theorem mapM_viewId? (ids : List Int32) :
    (ids.map fun id => Json.number (.ofId id)).mapM viewId? = some ids := by
  induction ids with
  | nil => rfl
  | cons id rest ih =>
      rw [List.map_cons, List.mapM_cons, ih]
      simp only [viewId?, Number.ofId, viewIdOfInt?_toInt]
      rfl

theorem arrangedMembers_eq_map (members : List (String × Json)) :
    arrangedMembers members = members.map fun (name, value) => (name, value.arranged) := by
  induction members with
  | nil => rfl
  | cons member rest ih => rw [arrangedMembers, ih, List.map_cons]

/-- Of members with the same name the last one is found once they are gathered. -/
theorem find?_arrangedMembers (members : List (String × Json)) (name : String) :
    (Ascending.putAll Prod.fst (arrangedMembers members) []).find? (·.1 = name) =
      (members.reverse.find? (·.1 = name)).map fun (name, value) => (name, value.arranged) := by
  rw [Ascending.find?_putAll, List.find?_nil, Option.or_none, arrangedMembers_eq_map,
    ← List.map_reverse, List.find?_map]
  rfl

/-- Of members with one name the last is found once they are gathered. -/
theorem member?_arranged (members : List (String × Json)) (name : String) :
    (object members).arranged.member? name =
      (members.reverse.find? (·.1 = name)).map (·.2.arranged) := by
  rw [arranged, member?, find?_arrangedMembers, Option.map_map]
  rfl

end Json

open Json (viewIdName)

namespace OptionalWrittenAs

variable {α β : Type} {name : String} {writtenAs : α → Json → Prop} {part : Option α}
  {members : List (String × Json)} (h : OptionalWrittenAs name writtenAs part members)

include h

theorem find?_of_ne {other : String} (hName : name ≠ other) :
    members.reverse.find? (·.1 = other) = none := by
  cases part with
  | none =>
      obtain rfl : members = [] := h
      rfl
  | some held =>
      obtain ⟨written, -, rfl⟩ := h
      simp [hName]

/-- A part is read from its member, and absent if it is not written. -/
theorem bind_find? {read : Json → Option β} {meaning : α → Option β}
    (hRead : ∀ held written, part = some held → writtenAs held written →
      read written.arranged = meaning held) :
    ((members.reverse.find? (·.1 = name)).map (·.2.arranged)).bind read =
      part.bind meaning := by
  cases part with
  | none =>
      obtain rfl : members = [] := h
      rfl
  | some held =>
      obtain ⟨written, hWritten, rfl⟩ := h
      simp [hRead held written rfl hWritten]

end OptionalWrittenAs

/-- The ids are found in the member that is written for them. -/
theorem IdsWrittenAs.viewIds {ids : List Int32} {written : Json} (h : IdsWrittenAs ids written) :
    written.arranged.array?.bind (·.mapM Json.viewId?) = some ids := by
  obtain rfl := h
  have hOrdered : (Stored.encode ids).Ordered := by
    apply (Json.orderedItems_iff _).2
    intro item hItem
    obtain ⟨id, -, rfl⟩ := List.mem_map.1 hItem
    exact trivial
  rw [Json.arranged_of_ordered _ hOrdered]
  exact Json.mapM_viewId? ids

/-- The states under the names of the views are those of the views. -/
theorem Views.WrittenAs.stateOf {views : Views Json} {written : Json}
    (h : views.WrittenAs written) (hStates : ∀ state ∈ views.states, state.Ordered) :
    written.arranged.object?.bind (some <| Json.stateOf ·) = some views.find? := by
  obtain ⟨entries, hPerm, rfl⟩ := h
  apply congrArg some
  funext id
  have hName : ((fun member : String × Json => decide (member.1 = viewIdName id)) ∘
      fun (entry : Int32 × Json) => (viewIdName entry.1, Stored.encode entry.2)) =
        fun entry => decide (entry.1 = id) := by
    funext entry
    exact decide_eq_decide.2 Json.viewIdName_inj
  have hFound : entries.reverse.find? (·.1 = id) = views.entries.find? (·.1 = id) :=
    Ascending.find?_eq_of_perm ((List.reverse_perm entries).trans hPerm)
      views.ascending.nodup_keys id
  change (Json.object _).arranged.member? (viewIdName id) = _
  rw [Json.member?_arranged, ← List.map_reverse, List.find?_map, hName, hFound, Option.map_map,
    Views.find?]
  cases hEntry : views.entries.find? (·.1 = id) with
  | none => rfl
  | some entry =>
      have hState := hStates entry.2 (List.mem_map_of_mem (List.mem_of_find?_eq_some hEntry))
      exact congrArg some (Json.arranged_of_ordered entry.2 hState)

/-- The states of a hierarchy are those of its views. -/
theorem ViewHierarchy.WrittenAs.stateOf {hierarchy : ViewHierarchy Json} {written : Json}
    (h : hierarchy.WrittenAs written) (hStates : ∀ state ∈ hierarchy.states, state.Ordered) :
    (written.arranged.member? "views").bind
      (fun views => views.object?.bind (some <| Json.stateOf ·)) =
        hierarchy.views.bind fun views => some views.find? := by
  obtain ⟨members, hMembers, rfl⟩ := h
  rw [Json.member?_arranged]
  exact hMembers.bind_find? fun views written hPresent hWritten =>
    hWritten.stateOf fun state hState => hStates state (mem_states hPresent hState)

/-- A written container has the ids and states it was written with, if the states are in order. -/
theorem SavedState.WrittenAs.container {saved : SavedState Json} {written : Json}
    (h : saved.WrittenAs written) (hStates : ∀ state ∈ saved.states, state.Ordered) :
    written.arranged.container = saved.container := by
  obtain ⟨idMembers, hierarchyMembers, hIds, hHierarchy, rfl⟩ := h
  have hIdsFound : (idMembers ++ hierarchyMembers).reverse.find? (·.1 = "customViewIds") =
      idMembers.reverse.find? (·.1 = "customViewIds") := by
    rw [List.reverse_append, List.find?_append, hHierarchy.find?_of_ne (by decide),
      Option.none_or]
  have hStatesFound :
      (idMembers ++ hierarchyMembers).reverse.find? (·.1 = "viewHierarchyState") =
        hierarchyMembers.reverse.find? (·.1 = "viewHierarchyState") := by
    rw [List.reverse_append, List.find?_append, hIds.find?_of_ne (by decide), Option.or_none]
  have hReadIds :
      ((Json.object (idMembers ++ hierarchyMembers)).arranged.member? "customViewIds").bind
        (fun listed => listed.array?.bind (·.mapM Json.viewId?)) = saved.viewIds.bind some := by
    rw [Json.member?_arranged, hIdsFound]
    exact hIds.bind_find? fun ids written _ hWritten => hWritten.viewIds
  have hReadStates :
      ((Json.object (idMembers ++ hierarchyMembers)).arranged.member? "viewHierarchyState").bind
        (fun hierarchy => (hierarchy.member? "views").bind fun views =>
          views.object?.bind (some <| Json.stateOf ·)) =
        saved.hierarchy.bind fun hierarchy => hierarchy.views.bind fun views =>
          some views.find? := by
    rw [Json.member?_arranged, hStatesFound]
    exact hHierarchy.bind_find? fun hierarchy written hPresent hWritten =>
      hWritten.stateOf fun state hState => hStates state (mem_states hPresent hState)
  rw [Option.bind_fun_some] at hReadIds
  exact congrArg₂ Container.mk hReadIds hReadStates

end NoteForm
