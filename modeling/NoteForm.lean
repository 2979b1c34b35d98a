import NoteForm.Records
import NoteForm.Files.AppFiles
import NoteForm.Session
import NoteForm.Proofs.SuccessiveMoves
import NoteForm.Proofs.LabelTemplate
import NoteForm.Proofs.Teardown
import NoteForm.Proofs.Readings
import NoteForm.Proofs.Opacity
import NoteForm.Proofs.DepthLimit
import NoteForm.Proofs.Files.Store
import NoteForm.Proofs.Acceptance
import NoteForm.Proofs.LinksWithin
import NoteForm.Proofs.SlotFaults
import NoteForm.Proofs.Conservation
import NoteForm.Proofs.DeclarationOrder
import NoteForm.Proofs.BlankNotes
import NoteForm.Proofs.Edits
import NoteForm.Proofs.Labels
import NoteForm.Proofs.LinkSets
import NoteForm.Proofs.UsableValues
import NoteForm.Proofs.StoredPolicy
import NoteForm.Proofs.ForeignMembers
