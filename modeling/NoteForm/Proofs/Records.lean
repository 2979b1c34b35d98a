import NoteForm.Records
import NoteForm.Proofs.Json.Reading

/-! Saved containers are read as they were written. Nothing fixes the order in which the views are
written, so a container has several written forms, of which `Stored.encode` gives one. -/
namespace NoteForm

open Json (Decoder RecordFormat)

/-- The members for a part that is written only if it is present, in one of its forms. -/
def OptionalWrittenAs {α : Type} (name : String) (writtenAs : α → Json → Prop) :
    Option α → List (String × Json) → Prop
  | none, members => members = []
  | some part, members => ∃ written, writtenAs part written ∧ members = [(name, written)]

namespace OptionalWrittenAs

variable {α : Type} {name : String} {writtenAs : α → Json → Prop} {part : Option α}
  {members : List (String × Json)}

/-- A part is encoded in one of its forms, and an absent one as no member. -/
theorem optionalMember [Stored α] (hEncode : ∀ held, writtenAs held (Stored.encode held))
    (name : String) (part : Option α) :
    OptionalWrittenAs name writtenAs part (NoteForm.optionalMember name part) := by
  cases part with
  | none => rfl
  | some held => exact ⟨Stored.encode held, hEncode held, rfl⟩

/-- A part is read from any of its forms, and an absent part from no member at all. -/
theorem reads {decode : Decoder α} (h : OptionalWrittenAs name writtenAs part members)
    (hReads : ∀ held written, part = some held → writtenAs held written →
      written ≠ .null ∧ decode.Reads written held) :
    RecordFormat.ReadsOptional decode name members part := by
  cases part with
  | none => exact h
  | some held =>
      obtain ⟨written, hWritten, rfl⟩ := h
      exact ⟨written, rfl, hReads held written rfl hWritten⟩

/-- What can be said of every form of the part can be said of the value of each member. -/
theorem forall_mem_iff {p : Json → Prop} {q : α → Prop}
    (h : OptionalWrittenAs name writtenAs part members)
    (hPart : ∀ held written, writtenAs held written → (p written ↔ q held)) :
    (∀ member ∈ members, p member.2) ↔ ∀ held, part = some held → q held := by
  cases part with
  | none =>
      obtain rfl : members = [] := h
      simp
  | some held =>
      obtain ⟨written, hWritten, rfl⟩ := h
      simpa using hPart held written hWritten

end OptionalWrittenAs

section

variable {S : Type}

def Views.states (views : Views S) : List S := views.entries.map Prod.snd

def ViewHierarchy.states (hierarchy : ViewHierarchy S) : List S :=
  (hierarchy.views.map Views.states).getD []

/-- The states of all views in a container. -/
def SavedState.states (saved : SavedState S) : List S :=
  (saved.hierarchy.map ViewHierarchy.states).getD []

theorem ViewHierarchy.mem_states {hierarchy : ViewHierarchy S} {views : Views S}
    (h : hierarchy.views = some views) {state : S} (hState : state ∈ views.states) :
    state ∈ hierarchy.states := by
  rw [states, h]
  exact hState

theorem ViewHierarchy.forall_mem_states_iff {hierarchy : ViewHierarchy S} {q : S → Prop} :
    (∀ state ∈ hierarchy.states, q state) ↔
      ∀ views, hierarchy.views = some views → ∀ state ∈ views.states, q state := by
  cases hViews : hierarchy.views <;> simp [states, hViews]

theorem SavedState.mem_states {saved : SavedState S} {hierarchy : ViewHierarchy S}
    (h : saved.hierarchy = some hierarchy) {state : S} (hState : state ∈ hierarchy.states) :
    state ∈ saved.states := by
  rw [states, h]
  exact hState

theorem SavedState.forall_mem_states_iff {saved : SavedState S} {q : S → Prop} :
    (∀ state ∈ saved.states, q state) ↔
      ∀ hierarchy, saved.hierarchy = some hierarchy → ∀ state ∈ hierarchy.states, q state := by
  cases hHierarchy : saved.hierarchy <;> simp [states, hHierarchy]

/-- Views are gathered again from any order of them. -/
theorem Views.ofList_eq_of_perm {views : Views S} {entries : List (Int32 × S)}
    (h : entries.Perm views.entries) : ofList entries = views := by
  cases views with
  | mk ordered ascending => simp [ofList, Ascending.putAll_eq_of_perm ascending h]

end

/-- View ids are written in one way only. -/
def IdsWrittenAs (ids : List Int32) (written : Json) : Prop := written = Stored.encode ids

namespace IdsWrittenAs

theorem encode (ids : List Int32) : IdsWrittenAs ids (Stored.encode ids) := rfl

variable {ids : List Int32} {written : Json} (h : IdsWrittenAs ids written)

include h

/-- Ids are read as they were written. They are never taken for a missing part. -/
theorem reads : written ≠ .null ∧ (Stored.decode : Decoder (List Int32)).Reads written ids := by
  obtain rfl := h
  refine ⟨by simp [Stored.encode], ?_⟩
  exact Decoder.reads_list (List.forall₂_map_left_iff.2 (List.forall₂_same.2
    fun id _ => Decoder.reads_viewId id))

theorem isIntegral : written.isIntegral = true := by
  obtain rfl := h
  apply Json.areIntegralItems_iff.2
  intro item hItem
  obtain ⟨id, -, rfl⟩ := List.mem_map.1 hItem
  rfl

theorem depth_le : written.depth ≤ 1 := by
  obtain rfl := h
  apply Nat.succ_le_succ
  apply Json.depthOfItems_le_iff.2
  intro item hItem
  obtain ⟨id, -, rfl⟩ := List.mem_map.1 hItem
  exact Nat.le_refl 0

end IdsWrittenAs

variable {S : Type} [Stored S] {written : Json}

namespace Views

/-- Whether a value holds the views, each under its own name, in any order. -/
def WrittenAs (views : Views S) (written : Json) : Prop :=
  ∃ entries : List (Int32 × S), entries.Perm views.entries ∧
    written = .object (entries.map fun (id, state) => (Json.viewIdName id, Stored.encode state))

/-- Views are encoded in their own order, which is one of the orders allowed. -/
theorem writtenAs_encode (views : Views S) : views.WrittenAs (Stored.encode views) :=
  ⟨views.entries, List.Perm.refl _, rfl⟩

variable {views : Views S} (h : views.WrittenAs written)

include h

/-- Views are read from any of their forms if their states are read as they are written. -/
theorem WrittenAs.reads
    (hStates : ∀ state ∈ views.states, Decoder.Reads Stored.decode (Stored.encode state) state) :
    written ≠ .null ∧ (Stored.decode : Decoder (Views S)).Reads written views := by
  obtain ⟨entries, hPerm, rfl⟩ := h
  refine ⟨by simp, ?_⟩
  have hEntries : (Decoder.byViewId Stored.decode).Reads
      (.object (entries.map fun (id, state) => (Json.viewIdName id, Stored.encode state)))
      entries := by
    apply Decoder.reads_byViewId
    apply List.forall₂_map_left_iff.2
    apply List.forall₂_same.2
    intro entry hEntry
    exact ⟨rfl, hStates entry.2 (List.mem_map_of_mem (hPerm.mem_iff.1 hEntry))⟩
  intro levels
  change ofList <$> Decoder.byViewId Stored.decode levels _ = _
  rw [hEntries levels, Json.map_within, ofList_eq_of_perm hPerm]

/-- What can be said of every written state can be said of the value of each member. -/
theorem WrittenAs.exists_members (p : Json → Prop) :
    ∃ members, written = .object members ∧
      ((∀ member ∈ members, p member.2) ↔ ∀ state ∈ views.states, p (Stored.encode state)) := by
  obtain ⟨entries, hPerm, rfl⟩ := h
  refine ⟨_, rfl, ?_⟩
  simp only [List.forall_mem_map, states, hPerm.mem_iff]

/-- Doubles can only come from states. -/
theorem WrittenAs.isIntegral_iff :
    written.isIntegral = true ↔
      ∀ state ∈ views.states, (Stored.encode state).isIntegral = true := by
  obtain ⟨members, rfl, hMembers⟩ := WrittenAs.exists_members h (·.isIntegral = true)
  rw [← hMembers]
  exact Json.areIntegralMembers_iff

/-- Views are one level deeper than their deepest state. -/
theorem WrittenAs.depth_le_iff {levels : Nat} :
    written.depth ≤ levels + 1 ↔ ∀ state ∈ views.states, (Stored.encode state).depth ≤ levels := by
  obtain ⟨members, rfl, hMembers⟩ := WrittenAs.exists_members h (·.depth ≤ levels)
  rw [← hMembers, Json.depth, Nat.add_le_add_iff_right]
  exact Json.depthOfMembers_le_iff

end Views

namespace ViewHierarchy

def WrittenAs (hierarchy : ViewHierarchy S) (written : Json) : Prop :=
  ∃ members, OptionalWrittenAs "views" Views.WrittenAs hierarchy.views members ∧
    written = .object members

/-- A hierarchy is encoded in one of its forms. -/
theorem writtenAs_encode (hierarchy : ViewHierarchy S) :
    hierarchy.WrittenAs (Stored.encode hierarchy) :=
  ⟨_, .optionalMember Views.writtenAs_encode "views" hierarchy.views, rfl⟩

variable {hierarchy : ViewHierarchy S} (h : hierarchy.WrittenAs written)

include h

/-- A hierarchy is read from any of its forms, whether it has views or not. -/
theorem WrittenAs.reads
    (hStates : ∀ state ∈ hierarchy.states,
      Decoder.Reads Stored.decode (Stored.encode state) state) :
    written ≠ .null ∧ (Stored.decode : Decoder (ViewHierarchy S)).Reads written hierarchy := by
  obtain ⟨members, hMembers, rfl⟩ := h
  have hViews : RecordFormat.ReadsOptional Stored.decode "views" members hierarchy.views :=
    hMembers.reads fun views written hPresent hWritten =>
      hWritten.reads fun state hState => hStates state (mem_states hPresent hState)
  refine ⟨by simp, RecordFormat.reads_object fun levels => ?_⟩
  rw [← List.append_nil members]
  apply RecordFormat.decodeMembers_optional rfl rfl hViews
  apply RecordFormat.decodeMembers_nil
  obtain ⟨views⟩ := hierarchy
  cases views <;> rfl

theorem WrittenAs.isIntegral_iff :
    written.isIntegral = true ↔
      ∀ state ∈ hierarchy.states, (Stored.encode state).isIntegral = true := by
  obtain ⟨members, hMembers, rfl⟩ := h
  rw [forall_mem_states_iff,
    ← hMembers.forall_mem_iff fun views written hWritten => hWritten.isIntegral_iff]
  exact Json.areIntegralMembers_iff

/-- A hierarchy is two levels deeper than its deepest state. -/
theorem WrittenAs.depth_le_iff {levels : Nat} :
    written.depth ≤ levels + 2 ↔
      ∀ state ∈ hierarchy.states, (Stored.encode state).depth ≤ levels := by
  obtain ⟨members, hMembers, rfl⟩ := h
  rw [forall_mem_states_iff,
    ← hMembers.forall_mem_iff fun views written hWritten => hWritten.depth_le_iff, Json.depth,
    Nat.add_le_add_iff_right]
  exact Json.depthOfMembers_le_iff

end ViewHierarchy

namespace SavedState

/-- Whether a value is a form of the container. Its parts stand in their order, and absent ones are
left out. -/
def WrittenAs (saved : SavedState S) (written : Json) : Prop :=
  ∃ idMembers hierarchyMembers,
    OptionalWrittenAs "customViewIds" IdsWrittenAs saved.viewIds idMembers ∧
    OptionalWrittenAs "viewHierarchyState" ViewHierarchy.WrittenAs saved.hierarchy
      hierarchyMembers ∧
    written = .object (idMembers ++ hierarchyMembers)

/-- A container is encoded in one of its forms. -/
theorem writtenAs_encode (saved : SavedState S) : saved.WrittenAs (Stored.encode saved) :=
  ⟨_, _, .optionalMember IdsWrittenAs.encode "customViewIds" saved.viewIds,
    .optionalMember ViewHierarchy.writtenAs_encode "viewHierarchyState" saved.hierarchy, rfl⟩

variable {saved : SavedState S} (h : saved.WrittenAs written)

include h

/-- A container is read as it was written, whatever order its views were written in. -/
theorem WrittenAs.reads
    (hStates : ∀ state ∈ saved.states, Decoder.Reads Stored.decode (Stored.encode state) state) :
    (Stored.decode : Decoder (SavedState S)).Reads written saved := by
  obtain ⟨idMembers, hierarchyMembers, hIds, hHierarchy, rfl⟩ := h
  have hReadIds : RecordFormat.ReadsOptional Stored.decode "customViewIds" idMembers
      saved.viewIds :=
    hIds.reads fun ids written _ hWritten => hWritten.reads
  have hReadHierarchy : RecordFormat.ReadsOptional Stored.decode "viewHierarchyState"
      hierarchyMembers saved.hierarchy :=
    hHierarchy.reads fun hierarchy written hPresent hWritten =>
      hWritten.reads fun state hState => hStates state (mem_states hPresent hState)
  apply RecordFormat.reads_object
  intro levels
  apply RecordFormat.decodeMembers_optional rfl rfl hReadIds
  rw [← List.append_nil hierarchyMembers]
  apply RecordFormat.decodeMembers_optional rfl (by cases saved.viewIds <;> rfl) hReadHierarchy
  apply RecordFormat.decodeMembers_nil
  obtain ⟨viewIds, hierarchy⟩ := saved
  cases viewIds <;> cases hierarchy <;> rfl

/-- The ids of a container are integers, so again doubles can only come from states. -/
theorem WrittenAs.isIntegral_iff :
    written.isIntegral = true ↔
      ∀ state ∈ saved.states, (Stored.encode state).isIntegral = true := by
  obtain ⟨idMembers, hierarchyMembers, hIds, hHierarchy, rfl⟩ := h
  have hIdsIntegral : ∀ member ∈ idMembers, member.2.isIntegral = true :=
    (hIds.forall_mem_iff (q := fun _ => True) fun ids written hWritten =>
      iff_true_intro hWritten.isIntegral).2 fun _ _ => trivial
  rw [forall_mem_states_iff,
    ← hHierarchy.forall_mem_iff fun hierarchy written hWritten => hWritten.isIntegral_iff]
  apply Json.areIntegralMembers_iff.trans
  rw [List.forall_mem_append, and_iff_right hIdsIntegral]

/-- A container is three levels deeper than its deepest state. -/
theorem WrittenAs.depth_le_iff {levels : Nat} :
    written.depth ≤ levels + 3 ↔
      ∀ state ∈ saved.states, (Stored.encode state).depth ≤ levels := by
  obtain ⟨idMembers, hierarchyMembers, hIds, hHierarchy, rfl⟩ := h
  have hIdsDepth : ∀ member ∈ idMembers, member.2.depth ≤ levels + 2 :=
    (hIds.forall_mem_iff (q := fun _ => True) fun ids written hWritten =>
      iff_true_intro (Nat.le_trans hWritten.depth_le (by omega))).2 fun _ _ => trivial
  rw [forall_mem_states_iff,
    ← hHierarchy.forall_mem_iff fun hierarchy written hWritten => hWritten.depth_le_iff,
    Json.depth, Nat.add_le_add_iff_right, Json.depthOfMembers_le_iff, List.forall_mem_append,
    and_iff_right hIdsDepth]

end SavedState
end NoteForm
