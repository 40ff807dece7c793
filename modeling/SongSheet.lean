import SongSheet.FileTree
import SongSheet.Main
import SongSheet.Mixer
import SongSheet.Proofs.Mixer.Volume
import SongSheet.Proofs.Playback.Accord
import SongSheet.Proofs.Playback.Drift
import SongSheet.Proofs.Playback.Hearing
import SongSheet.Proofs.Playback.Independence
import SongSheet.Proofs.Sheet.Document
import SongSheet.Proofs.Sheet.Extension
import SongSheet.Proofs.Sheet.Layout
import SongSheet.Proofs.Sheet.LoopLimit
import SongSheet.Proofs.Sheet.NestedLoops
import SongSheet.Proofs.Sheet.Playable
import SongSheet.Proofs.Sheet.Provenance
import SongSheet.Proofs.Sheet.Refusal
import SongSheet.Proofs.Sheet.Spelling
import SongSheet.Proofs.Sheet.Unrolling
import SongSheet.Proofs.Token.Desk
