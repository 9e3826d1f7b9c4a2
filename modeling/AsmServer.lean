import AsmServer.Session.Requests
import AsmServer.Language.Lookup
import AsmServer.Workspace.FileSystem
import AsmServer.Proofs.Registry.Lookup
import AsmServer.Proofs.Registry.Reachability
import AsmServer.Proofs.Registry.Edges
import AsmServer.Proofs.Registry.Agenda
import AsmServer.Proofs.Registry.Consistency
import AsmServer.Proofs.Text.Utf8
import AsmServer.Proofs.Uri.Percent
import AsmServer.Proofs.Uri.Canonical
import AsmServer.Proofs.Registry.Holding
import AsmServer.Proofs.Registry.Operations
import AsmServer.Proofs.Registry.Loading
import AsmServer.Proofs.Registry.Termination
import AsmServer.Proofs.Project.History
import AsmServer.Proofs.Workspace.Turns
import AsmServer.Proofs.Workspace.Coverage
import AsmServer.Proofs.Project.Requests
import AsmServer.Proofs.Workspace.Results
import AsmServer.Proofs.Registry.Following
import AsmServer.Proofs.Registry.Closing
import AsmServer.Proofs.Workspace.Buffers
import AsmServer.Proofs.Session.Events
import AsmServer.Proofs.Session.Attending
import AsmServer.Proofs.Session.Precedence
import AsmServer.Proofs.Registry.Closure
import AsmServer.Proofs.Session.Closure
import AsmServer.Proofs.Catalog
import AsmServer.Proofs.Language
import AsmServer.Proofs.Uri.Relative
import AsmServer.Proofs.Registry.Naming
import AsmServer.Proofs.Registry.Flattening
import AsmServer.Proofs.Registry.Addressing
import AsmServer.Proofs.Answer.Attribution
import AsmServer.Proofs.Answer.Diagnostics
import AsmServer.Proofs.Project.Attempts
import AsmServer.Proofs.Workspace.Steps
import AsmServer.Proofs.Workspace.Progress
import AsmServer.Proofs.Session.Runs
import AsmServer.Proofs.Session.Messages
import AsmServer.Proofs.Session.Publishing
import AsmServer.Proofs.Registry.Generations
import AsmServer.Proofs.Workspace.Numbering
import AsmServer.Proofs.Registry.Pinning
import AsmServer.Proofs.Workspace.Pinning
import AsmServer.Proofs.Workspace.Entries
import AsmServer.Proofs.Session.Cycles
import AsmServer.Proofs.Session.Timers
import AsmServer.Proofs.Session.Versions
import AsmServer.Proofs.Debouncer.Conservation
import AsmServer.Proofs.Uri.Spelling
import AsmServer.Proofs.Answer.Spans
import AsmServer.Proofs.Answer.Distribution
import AsmServer.Proofs.Answer.Renaming
import AsmServer.Proofs.Answer.Completion
import AsmServer.Proofs.Answer.SymbolSearch
import AsmServer.Proofs.Uri.Lexical
import AsmServer.Proofs.Assembly.Confinement
import AsmServer.Proofs.Assembly.Reading
import AsmServer.Proofs.Assembly.Listing
import AsmServer.Proofs.Assembly.Console
import AsmServer.Proofs.Offsets.Columns
import AsmServer.Proofs.Code.Runs
import AsmServer.Proofs.Code.Cursor
import AsmServer.Proofs.Registry.Moments
import AsmServer.Proofs.Assembly.Attachment
import AsmServer.Proofs.Code.Directives
import AsmServer.Proofs.Session.Saving
import AsmServer.Proofs.Offsets.Reports
