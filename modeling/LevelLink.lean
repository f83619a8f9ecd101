import LevelLink.Client.Basic
import LevelLink.Link.Summary
import LevelLink.Proofs.Client.Closing
import LevelLink.Proofs.Client.Configuring
import LevelLink.Proofs.Client.Queueing
import LevelLink.Proofs.Delta.Concatenation
import LevelLink.Proofs.Delta.Production
import LevelLink.Proofs.Delta.Size
import LevelLink.Proofs.Level.Canonical
import LevelLink.Proofs.Link.Nesting
import LevelLink.Proofs.Link.Removal
import LevelLink.Proofs.Link.Serving
import LevelLink.Proofs.Service.Listing
import LevelLink.Proofs.Starting
import LevelLink.Proofs.Stream.Collecting
import LevelLink.Proofs.Stream.Editing
import LevelLink.Proofs.Stream.Refusal
import LevelLink.Proofs.Stream.Roster
import LevelLink.Proofs.Transfer.Cancelling
import LevelLink.Proofs.Transfer.Progressing
import LevelLink.Proofs.Wire.Outcome
