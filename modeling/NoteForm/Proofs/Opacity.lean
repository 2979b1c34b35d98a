import NoteForm.Session

/-! Row states are opaque to an editor. If every state that is put into it goes through a function,
then every state that comes out of it has gone through that function, and nothing else changes. -/
namespace NoteForm

variable {S S' : Type} (f : S → S')

def Views.map (views : Views S) : Views S' where
  entries := views.entries.map fun (id, state) => (id, f state)
  ascending := by
    have hKeys := views.ascending
    rw [Ascending.Sorted] at hKeys ⊢
    rwa [List.pairwise_map]

def ViewHierarchy.map (hierarchy : ViewHierarchy S) : ViewHierarchy S' :=
  ⟨hierarchy.views.map (Views.map f)⟩

/-- The container with `f` applied to the state of every view. -/
def SavedState.map (saved : SavedState S) : SavedState S' :=
  ⟨saved.viewIds, saved.hierarchy.map (ViewHierarchy.map f)⟩

def CapturedRow.map (row : CapturedRow S) : CapturedRow S' := ⟨row.id, row.state.map f⟩

/-- The view of a container in which every state has gone through `f`. -/
def Container.map (container : Container S) : Container S' :=
  ⟨container.ids, container.stateOf.map fun stateOf id => (stateOf id).map f⟩

/-- The state found for a view has gone through the function. -/
@[simp] theorem Views.find?_map (views : Views S) (id : Int32) :
    (views.map f).find? id = (views.find? id).map f := by
  simp only [find?, map, List.find?_map, Option.map_map]
  rfl

/-- What a capture sees of a container are the same ids with other states. -/
@[simp] theorem SavedState.container_map (saved : SavedState S) :
    (saved.map f).container = saved.container.map f := by
  obtain ⟨viewIds, hierarchy⟩ := saved
  cases hierarchy with
  | none => rfl
  | some hierarchy =>
      obtain ⟨views⟩ := hierarchy
      cases views with
      | none => rfl
      | some views =>
          have hStates : (views.map f).find? = fun id => (views.find? id).map f :=
            funext (views.find?_map f)
          exact congrArg (Container.mk viewIds ∘ some) hStates

/-- A container is usable whatever its states are, and the captured rows have the same ids. -/
@[simp] theorem Container.capture_map (container : Container S) :
    (container.map f).capture = container.capture.map (List.map (CapturedRow.map f)) := by
  obtain ⟨ids, stateOf⟩ := container
  cases ids with
  | none => rfl
  | some ids =>
      cases stateOf with
      | none => rfl
      | some stateOf =>
          simp only [capture, map, Option.map_some, NoteForm.capture, Except.map, List.map_map]
          rfl

/-- The line with its state, if it brings one, gone through `f`. -/
def Line.map : Line S → Line S'
  | .computed row => .computed row
  | .restored position previousId state => .restored position previousId (state.map f)

namespace Editor

def map (editor : Editor S) : Editor S' :=
  ⟨editor.pending.map (List.map (CapturedRow.map f)), editor.policy⟩

def Request.map : Request S → Request S'
  | .receive container => .receive (container.map (Container.map f))
  | .load rebuild fields => .load rebuild fields
  | .rows rebuild fields => .rows rebuild fields
  | .takePending => .takePending

/-- The reply with `f` applied to the states in it. Ids, positions and computed rows stay, and a row
without a state stays without one. -/
def Reply.map : Reply S → Reply S'
  | .received => .received
  | .lines shown => .lines (shown.map (Line.map f))
  | .rows computed => .rows computed
  | .taken captured => .taken (captured.map (List.map (CapturedRow.map f)))

@[simp] theorem capturable_map (container : Option (Container S)) :
    capturable (container.map (Container.map f)) =
      (capturable container).map (List.map (CapturedRow.map f)) := by
  cases container with
  | none => rfl
  | some container =>
      simp only [capturable, Option.map_some, Option.bind_some, Container.capture_map]
      cases container.capture <;> rfl

@[simp] theorem restore_map (captured : List (CapturedRow S)) :
    restore (captured.map (CapturedRow.map f)) = (restore captured).map (Line.map f) := by
  simp only [restore, List.zipIdx_map, List.map_map]
  rfl

@[simp] theorem replayed?_map (editor : Editor S) (rebuild : Rebuild) :
    (editor.map f).replayed? rebuild =
      (editor.replayed? rebuild).map (List.map (CapturedRow.map f)) := by
  unfold replayed?
  split <;> rfl

/-- A load brings rows back on the same occasions, with other states and with all else the same. -/
@[simp] theorem load_map (editor : Editor S) (rebuild : Rebuild) (fields : List NoteField) :
    (editor.map f).load rebuild fields =
      ((editor.load rebuild fields).1.map (Line.map f), (editor.load rebuild fields).2.map f) := by
  simp only [load, replayed?_map]
  cases editor.replayed? rebuild with
  | none => simp only [Option.map_none, List.map_map]; rfl
  | some captured => simp only [Option.map_some, restore_map]; rfl

/-- One request: the same reply with other states, and the same editor with other states. -/
@[simp] theorem answer_map (editor : Editor S) (request : Request S) :
    (editor.map f).answer (request.map f) =
      ((editor.answer request).1.map f, (editor.answer request).2.map f) := by
  cases request with
  | receive container =>
      simp only [Request.map, answer, receive, capturable_map]
      rfl
  | load rebuild fields =>
      simp only [Request.map, answer, load_map]
      rfl
  | rows rebuild fields => rfl
  | takePending => rfl

/-- A whole session, whatever containers it deals with. -/
@[simp] theorem run_map (editor : Editor S) (requests : List (Request S)) :
    (editor.map f).run (requests.map (Request.map f)) =
      ((editor.run requests).1.map (Reply.map f), (editor.run requests).2.map f) := by
  induction requests generalizing editor with
  | nil => rfl
  | cons request rest ih => simp only [List.map_cons, run, answer_map, ih]

@[simp]
theorem hasPending_map (editor : Editor S) : (editor.map f).hasPending = editor.hasPending :=
  Option.isSome_map

end Editor

/-- What a host asks of an editor if it keeps its states in containers of the library. -/
inductive HostRequest (S : Type) where
  | receive (saved : Option (SavedState S))
  | load (rebuild : Rebuild) (fields : List NoteField)
  | rows (rebuild : Rebuild) (fields : List NoteField)
  | takePending

namespace HostRequest

def request : HostRequest S → Editor.Request S
  | .receive saved => .receive (saved.map SavedState.container)
  | .load rebuild fields => .load rebuild fields
  | .rows rebuild fields => .rows rebuild fields
  | .takePending => .takePending

/-- The request with `f` applied to every state in its container. -/
def map : HostRequest S → HostRequest S'
  | .receive saved => .receive (saved.map (SavedState.map f))
  | .load rebuild fields => .load rebuild fields
  | .rows rebuild fields => .rows rebuild fields
  | .takePending => .takePending

@[simp] theorem request_map (host : HostRequest S) : (host.map f).request = host.request.map f := by
  cases host with
  | receive saved =>
      cases saved with
      | none => rfl
      | some saved => exact congrArg (Editor.Request.receive ∘ some) (saved.container_map f)
  | load rebuild fields => rfl
  | rows rebuild fields => rfl
  | takePending => rfl

end HostRequest

namespace Editor

/-- The session of a new editor with such a host. -/
def hostSession (policy : LabelPolicy) (requests : List (HostRequest S)) :
    List (Reply S) × Editor S :=
  (new policy).run (requests.map HostRequest.request)

/-- A whole session of a host that keeps its states in containers. -/
@[simp] theorem hostSession_map (policy : LabelPolicy) (requests : List (HostRequest S)) :
    hostSession policy (requests.map (HostRequest.map f)) =
      ((hostSession policy requests).1.map (Reply.map f), (hostSession policy requests).2.map f) := by
  have hRequests : (requests.map (HostRequest.map f)).map HostRequest.request =
      (requests.map HostRequest.request).map (Request.map f) := by
    rw [List.map_map, List.map_map]
    exact List.map_congr_left fun host _ => host.request_map f
  rw [hostSession, hRequests]
  exact run_map f (new policy) _

/-- Row states are opaque. Let the states in the containers of any session go through any function.
Then request by request the replies are the same with the states in them gone through the function,
and rows wait after the same requests. So two sessions that differ in nothing but their states have
the same replies once the states are blanked out. -/
theorem row_states_opaque (policy : LabelPolicy) (requests : List (HostRequest S)) :
    (hostSession policy (requests.map (HostRequest.map f))).1 =
        (hostSession policy requests).1.map (Reply.map f) ∧
      (∀ n, (hostSession policy ((requests.take n).map (HostRequest.map f))).2.hasPending =
        (hostSession policy (requests.take n)).2.hasPending) ∧
      ∀ others : List (HostRequest S'),
        others.map (HostRequest.map fun _ => ()) = requests.map (HostRequest.map fun _ => ()) →
        (hostSession policy others).1.map (Reply.map fun _ => ()) =
          (hostSession policy requests).1.map (Reply.map fun _ => ()) := by
  refine ⟨by rw [hostSession_map], ?_, ?_⟩
  · intro n
    rw [hostSession_map, hasPending_map]
  · intro others hSame
    have hBlank := hostSession_map (fun _ : S => ()) policy requests
    rw [← hSame, hostSession_map] at hBlank
    exact (Prod.mk.inj hBlank).1

/-- What these rows hold is replaced by its length or by anything else. The row with the id five has
no state, whatever the others hold. -/
theorem row_states_opaque_lengths :
    let requests : List (HostRequest String) :=
      [.receive (some ⟨some [7, 5, 3], (SavedState.ofRows [(7, "seven"), (3, "three")]).hierarchy⟩),
        .load .refresh [⟨"Front", "A"⟩], .load .initial [⟨"Front", "A"⟩]]
    let others : List (HostRequest Nat) :=
      [.receive (some ⟨some [7, 5, 3], (SavedState.ofRows [(7, 1), (3, 2)]).hierarchy⟩),
        .load .refresh [⟨"Front", "A"⟩], .load .initial [⟨"Front", "A"⟩]]
    (hostSession .standard (requests.map (HostRequest.map String.length))).1 =
        [.received, .lines [.computed ⟨"Front", "A", 0⟩],
          .lines [.restored 0 7 (some 5), .restored 1 5 none, .restored 2 3 (some 5)]] ∧
      (hostSession .standard others).1.map (Reply.map fun _ => ()) =
        (hostSession .standard requests).1.map (Reply.map fun _ => ()) := by
  intro requests others
  obtain ⟨hReplies, -, hBlank⟩ := row_states_opaque String.length .standard requests
  exact ⟨hReplies.trans (by decide), hBlank others rfl⟩

end Editor
end NoteForm
