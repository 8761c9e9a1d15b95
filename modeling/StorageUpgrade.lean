import StorageUpgrade.Main
import StorageUpgrade.Position
import StorageUpgrade.Proofs.Batch
import StorageUpgrade.Proofs.Canonical
import StorageUpgrade.Proofs.Collision
import StorageUpgrade.Proofs.Duality
import StorageUpgrade.Proofs.Meaning
import StorageUpgrade.Proofs.NoChange
import StorageUpgrade.Proofs.Padding
import StorageUpgrade.Proofs.Persistence
import StorageUpgrade.Proofs.Relocation
import StorageUpgrade.Proofs.Safety
import StorageUpgrade.Proofs.Succession
import StorageUpgrade.Proofs.Termination
import StorageUpgrade.Proofs.Verdict
import StorageUpgrade.Proofs.Faults
import StorageUpgrade.Proofs.RecordOrder
import StorageUpgrade.Proofs.Accounting
import StorageUpgrade.Proofs.Digits
import StorageUpgrade.Proofs.Numerals
import StorageUpgrade.Proofs.Views
import StorageUpgrade.Proofs.SummaryText
import StorageUpgrade.Proofs.Pairing
import StorageUpgrade.Proofs.Csv
import StorageUpgrade.Proofs.LineFeeds
import StorageUpgrade.Proofs.Notes
import StorageUpgrade.Proofs.ViewEnds
