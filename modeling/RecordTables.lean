import RecordTables.Files.System
import RecordTables.Main
import RecordTables.Proofs.Session
import RecordTables.Proofs.Schema.SingleCounts
import RecordTables.Proofs.Schema.Reordering
import RecordTables.Proofs.Document.Declarations
import RecordTables.Proofs.Bootstrap
import RecordTables.Proofs.Instance.Typing
import RecordTables.Proofs.Instance.Totality
import RecordTables.Proofs.Instance.Counts
import RecordTables.Proofs.Instance.Agreement
import RecordTables.Proofs.Instance.Effect
import RecordTables.Proofs.Instance.Keeping
import RecordTables.Proofs.Instance.Deriving
import RecordTables.Proofs.Instance.Registration
import RecordTables.Proofs.Instance.Belonging
import RecordTables.Proofs.Instance.Required
import RecordTables.Proofs.Render.Module
import RecordTables.Proofs.Instance.Commuting
import RecordTables.Proofs.Instance.Sequences
import RecordTables.Proofs.Record.Storing
import RecordTables.Proofs.Instance.RoundTrip
import RecordTables.Proofs.Instance.Accessors
import RecordTables.Proofs.Schema.Faults
import RecordTables.Proofs.Record.Integers
import RecordTables.Proofs.Instance.Integers
import RecordTables.Proofs.Render.Writing
import RecordTables.Proofs.Number.Writing
import RecordTables.Proofs.Render.Outline
import RecordTables.Proofs.Instance.Describing
import RecordTables.Proofs.Record.Rendering
import RecordTables.Proofs.Instance.Telling
import RecordTables.Proofs.Files.System
import RecordTables.Proofs.Generator.Effect
import RecordTables.Proofs.Generator.Arguments
import RecordTables.Proofs.Generator.Checking
