import Mathlib.Data.List.Induction
import NoteForm.Session
import NoteForm.Proofs.Histories

/-! Which rows wait at a point of a session can be read off the requests before it: those of the
last container, if it could be captured and nothing has ended the wait since. Containers are
arbitrary here, so it does not matter whether they are saved ones or values of any shape. -/
namespace NoteForm.Editor

variable {S : Type}

/-- Whether rows captured before a request wait no longer after it. -/
def Request.endsWait : Request S → Bool
  | .receive _ => true
  | .load rebuild _ => rebuild.isInitial
  | .rows .. => false
  | .takePending => true

/-- The rows of the last container of a history, if no later request has ended their wait. This
speaks of the requests alone and not of any editor. -/
def Waiting (history : List (Request S)) (captured : List (CapturedRow S)) : Prop :=
  ∃ before container after, history = before ++ .receive (some container) :: after ∧
    container.capture = .ok captured ∧ ∀ request ∈ after, request.endsWait = false

@[simp] theorem not_waiting_nil (captured : List (CapturedRow S)) : ¬Waiting [] captured := by
  rintro ⟨before, container, after, hSplit, -⟩
  simp at hSplit

/-- The last request either begins the wait itself or lets an earlier one go on. -/
theorem waiting_concat_iff (history : List (Request S)) (request : Request S)
    (captured : List (CapturedRow S)) :
    Waiting (history ++ [request]) captured ↔
      (∃ container, request = .receive (some container) ∧ container.capture = .ok captured) ∨
        (request.endsWait = false ∧ Waiting history captured) := by
  have hBegins (requests : List (Request S)) : Waiting requests captured ↔
      ∃ before event after, requests = before ++ event :: after ∧
        (∃ container, event = .receive (some container) ∧ container.capture = .ok captured) ∧
        ∀ later ∈ after, later.endsWait = false := by
    constructor
    · rintro ⟨before, container, after, hSplit, hCapture, hAfter⟩
      exact ⟨before, _, after, hSplit, ⟨container, rfl, hCapture⟩, hAfter⟩
    · rintro ⟨before, event, after, hSplit, ⟨container, rfl, hCapture⟩, hAfter⟩
      exact ⟨before, container, after, hSplit, hCapture, hAfter⟩
  rw [hBegins, hBegins, exists_begins_concat_iff, and_comm]

/-- Rows that are brought back are all that a load shows. -/
theorem load_of_replayed {editor : Editor S} {rebuild : Rebuild} {captured : List (CapturedRow S)}
    (h : editor.replayed? rebuild = some captured) (fields : List NoteField) :
    editor.load rebuild fields = (restore captured, { editor with pending := none }) := by
  simp only [load, h]

theorem load_of_not_replayed {editor : Editor S} {rebuild : Rebuild}
    (h : editor.replayed? rebuild = none) (fields : List NoteField) :
    editor.load rebuild fields = ((editor.rows rebuild fields).map .computed, editor) := by
  simp only [load, h]

@[simp] theorem getElem?_restore (captured : List (CapturedRow S)) (i : Nat) :
    (restore captured)[i]? = captured[i]?.map fun row => .restored i row.id row.state := by
  simp [restore, List.getElem?_map, List.getElem?_zipIdx, Option.map_map, Function.comp_def]

/-- What one request does to the waiting rows. -/
theorem pending_answer (editor : Editor S) (request : Request S) :
    (editor.answer request).2.pending = match request with
      | .receive container => capturable container
      | request => if request.endsWait then none else editor.pending := by
  cases request with
  | receive container => rfl
  | rows rebuild fields => rfl
  | takePending => rfl
  | load rebuild fields =>
      simp only [answer, Request.endsWait]
      cases hReplayed : editor.replayed? rebuild with
      | some captured =>
          have hInitial : rebuild.isInitial = true := by
            by_contra hOther
            simp [replayed?, hOther] at hReplayed
          simp [load_of_replayed hReplayed, hInitial]
      | none =>
          rw [load_of_not_replayed hReplayed]
          by_cases hInitial : rebuild.isInitial = true
          · simpa [replayed?, hInitial] using hReplayed
          · simp [hInitial]

/-- No request changes how carried fields are labelled. -/
@[simp] theorem policy_answer (editor : Editor S) (request : Request S) :
    (editor.answer request).2.policy = editor.policy := by
  cases request with
  | receive container => rfl
  | rows rebuild fields => rfl
  | takePending => rfl
  | load rebuild fields =>
      simp only [answer]
      cases hReplayed : editor.replayed? rebuild with
      | some captured => rw [load_of_replayed hReplayed]
      | none => rw [load_of_not_replayed hReplayed]

/-- Rows can only be captured from a container that is there. -/
theorem capturable_eq_some_iff (container : Option (Container S))
    (captured : List (CapturedRow S)) :
    capturable container = some captured ↔
      ∃ present, container = some present ∧ present.capture = .ok captured := by
  cases container with
  | none => simp [capturable]
  | some present =>
      cases hCapture : present.capture <;> simp [capturable, Except.toOption, hCapture]

/-- A session answers its first part as if nothing followed, and its second part from there. -/
theorem run_append (editor : Editor S) (first second : List (Request S)) :
    editor.run (first ++ second) =
      ((editor.run first).1 ++ ((editor.run first).2.run second).1,
        ((editor.run first).2.run second).2) := by
  induction first generalizing editor with
  | nil => rfl
  | cons request rest ih => simp [run, ih]

@[simp] theorem length_run (editor : Editor S) (requests : List (Request S)) :
    (editor.run requests).1.length = requests.length := by
  induction requests generalizing editor with
  | nil => rfl
  | cons request rest ih => simp [run, ih]

/-- The editor after a request of a session depends on what came before it. -/
theorem run_concat (editor : Editor S) (history : List (Request S)) (request : Request S) :
    (editor.run (history ++ [request])).2 = ((editor.run history).2.answer request).2 := by
  rw [run_append]
  rfl

/-- The reply to a request does not depend on the requests behind it. -/
theorem getElem?_run (editor : Editor S) (history later : List (Request S))
    (request : Request S) :
    (editor.run (history ++ request :: later)).1[history.length]? =
      some ((editor.run history).2.answer request).1 := by
  rw [run_append, List.getElem?_append_right (Nat.le_of_eq (length_run editor history))]
  simp [run]

@[simp] theorem policy_run (editor : Editor S) (history : List (Request S)) :
    (editor.run history).2.policy = editor.policy := by
  induction history using List.reverseRecOn with
  | nil => rfl
  | append_singleton history request ih => simp [run_concat, ih]

/-- After every session of a new editor the rows it holds are those that wait by its history. -/
theorem pending_run_iff (policy : LabelPolicy) (history : List (Request S))
    (captured : List (CapturedRow S)) :
    ((new policy).run history).2.pending = some captured ↔ Waiting history captured := by
  induction history using List.reverseRecOn with
  | nil => simp [run, new]
  | append_singleton history request ih =>
      rw [run_concat, pending_answer, waiting_concat_iff, ← ih]
      cases request with
      | receive container => simp [capturable_eq_some_iff, Request.endsWait]
      | load rebuild fields =>
          cases hInitial : rebuild.isInitial <;> simp [Request.endsWait, hInitial]
      | rows rebuild fields => simp [Request.endsWait]
      | takePending => simp [Request.endsWait]

theorem hasPending_run_iff (policy : LabelPolicy) (history : List (Request S)) :
    ((new policy).run history).2.hasPending = true ↔ ∃ captured, Waiting history captured := by
  simp only [hasPending, Option.isSome_iff_exists, pending_run_iff]

/-- Waiting rows are brought back by an initial load and by no other. -/
theorem replayed_run_iff (policy : LabelPolicy) (history : List (Request S)) (rebuild : Rebuild)
    (captured : List (CapturedRow S)) :
    ((new policy).run history).2.replayed? rebuild = some captured ↔
      rebuild.isInitial = true ∧ Waiting history captured := by
  rw [replayed?]
  cases rebuild.isInitial with
  | false => simp
  | true => simp [pending_run_iff]

/-- Captured rows are brought back at most once. At every point of every session of a new editor, a
load brings rows back exactly if it is an initial one and they wait by the history; they are then its
whole result, numbered in the order of their capture, and wait no longer. Every other load gives the
rows for the note's fields and leaves what waits alone. Whether anything waits after a request is
likewise a matter of the history up to it. -/
theorem waiting_rows_replayed_once (policy : LabelPolicy) (history later : List (Request S))
    (request : Request S) :
    let before := ((new policy).run history).2
    let after := ((new policy).run (history ++ [request])).2
    (after.hasPending = true ↔ ∃ captured, Waiting (history ++ [request]) captured) ∧
      ∀ rebuild fields, request = .load rebuild fields → ∃ lines,
        ((new policy).run (history ++ request :: later)).1[history.length]? = some (.lines lines) ∧
        (∀ captured, before.replayed? rebuild = some captured ↔
          rebuild = .initial ∧ Waiting history captured) ∧
        (∀ captured, rebuild = .initial → Waiting history captured →
          (∀ i, lines[i]? = captured[i]?.map fun row => Line.restored i row.id row.state) ∧
            after.pending = none) ∧
        (¬(rebuild = .initial ∧ ∃ captured, Waiting history captured) →
          lines = (before.rows rebuild fields).map .computed ∧ after.pending = before.pending) := by
  intro before after
  refine ⟨hasPending_run_iff policy _, ?_⟩
  rintro rebuild fields rfl
  have hInitial : rebuild.isInitial = true ↔ rebuild = .initial := by
    cases rebuild <;> simp [Rebuild.isInitial]
  have hReplayed (captured) : before.replayed? rebuild = some captured ↔
      rebuild = .initial ∧ Waiting history captured := by
    rw [← hInitial]
    exact replayed_run_iff policy history rebuild captured
  have hAfter : after = (before.load rebuild fields).2 := run_concat _ history _
  refine ⟨(before.load rebuild fields).1, getElem?_run _ history later _, hReplayed, ?_, ?_⟩
  · intro captured hLoad hWaiting
    rw [hAfter, load_of_replayed ((hReplayed captured).2 ⟨hLoad, hWaiting⟩)]
    exact ⟨getElem?_restore captured, rfl⟩
  · intro hNothing
    have hNone : before.replayed? rebuild = none := by
      rw [Option.eq_none_iff_forall_ne_some]
      intro captured hSome
      obtain ⟨hLoad, hWaiting⟩ := (hReplayed captured).1 hSome
      exact hNothing ⟨hLoad, captured, hWaiting⟩
    rw [hAfter, load_of_not_replayed hNone]
    exact ⟨rfl, rfl⟩

theorem waiting_rows_replayed_after_refresh :
    ∃ lines, ((new .standard).run
        [.receive (some (SavedState.ofRows [(7, "seven"), (3, "three")]).container),
          .load .refresh [⟨"Front", "A"⟩], .load .initial [⟨"Front", "A"⟩]]).1[2]? =
        some (.lines lines) ∧
      lines[1]? = some (.restored 1 3 (some "three")) := by
  obtain ⟨-, hLoad⟩ := waiting_rows_replayed_once .standard
    [.receive (some (SavedState.ofRows [(7, "seven"), (3, "three")]).container),
      .load .refresh [⟨"Front", "A"⟩]] [] (.load .initial [⟨"Front", "A"⟩])
  obtain ⟨lines, hLines, -, hBack, -⟩ := hLoad .initial _ rfl
  have hWaiting : Waiting
      [.receive (some (SavedState.ofRows [(7, "seven"), (3, "three")]).container),
        .load .refresh [⟨"Front", "A"⟩]] [⟨7, some "seven"⟩, ⟨3, some "three"⟩] :=
    ⟨[], _, [.load .refresh [⟨"Front", "A"⟩]], rfl, rfl,
      by simp [Request.endsWait, Rebuild.isInitial]⟩
  obtain ⟨hSecond, -⟩ := hBack _ rfl hWaiting
  exact ⟨lines, hLines, hSecond 1⟩

end NoteForm.Editor
