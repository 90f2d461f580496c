import VersionedObjects.Association
import VersionedObjects.Bisection
import VersionedObjects.Declaration.ClassDecl
import VersionedObjects.Declaration.Expr
import VersionedObjects.Declaration.Printer
import VersionedObjects.Declaration.Structured.Printer
import VersionedObjects.Declaration.Structured.Reader
import VersionedObjects.Declaration.TypeExpr
import VersionedObjects.Dynamic.Construction
import VersionedObjects.Dynamic.EvalError
import VersionedObjects.Dynamic.Interpreter
import VersionedObjects.Dynamic.LoadedClass
import VersionedObjects.Dynamic.Loading
import VersionedObjects.Dynamic.Operations
import VersionedObjects.Dynamic.Runtime
import VersionedObjects.Dynamic.Value
import VersionedObjects.Emission.Body
import VersionedObjects.Emission.Class
import VersionedObjects.Emission.Identifier
import VersionedObjects.Emission.Item
import VersionedObjects.Files.Directories
import VersionedObjects.Files.FileError
import VersionedObjects.Files.Generator
import VersionedObjects.Files.Host
import VersionedObjects.Files.Loading
import VersionedObjects.Files.Machine
import VersionedObjects.Files.Path
import VersionedObjects.Framing.Facts
import VersionedObjects.Framing.FramingError
import VersionedObjects.Framing.Pipeline
import VersionedObjects.Framing.Redirection
import VersionedObjects.Framing.Rule
import VersionedObjects.Grammar.Declaration
import VersionedObjects.Grammar.Format
import VersionedObjects.Grammar.Outcome
import VersionedObjects.Grammar.SyntaxError
import VersionedObjects.Grammar.Token
import VersionedObjects.Inspection.Basic
import VersionedObjects.Inspection.Dynamic
import VersionedObjects.Inspection.Store
import VersionedObjects.Json.Basic
import VersionedObjects.Json.Printer
import VersionedObjects.Json.Reader
import VersionedObjects.Main
import VersionedObjects.Number.Binary64
import VersionedObjects.Number.Layout
import VersionedObjects.Number.Shortest
import VersionedObjects.Proofs.Associations
import VersionedObjects.Proofs.Computations
import VersionedObjects.Proofs.Declaration.Equality
import VersionedObjects.Proofs.Declaration.Inheritance
import VersionedObjects.Proofs.Dynamic.AccessorSafety
import VersionedObjects.Proofs.Dynamic.Alike
import VersionedObjects.Proofs.Dynamic.Ancestry
import VersionedObjects.Proofs.Dynamic.AnnouncedParts
import VersionedObjects.Proofs.Dynamic.CarelessModules
import VersionedObjects.Proofs.Dynamic.Constants
import VersionedObjects.Proofs.Dynamic.Counterpart
import VersionedObjects.Proofs.Dynamic.CreationNotices
import VersionedObjects.Proofs.Dynamic.EnclosedCode
import VersionedObjects.Proofs.Dynamic.Evaluation
import VersionedObjects.Proofs.Dynamic.FailedInstantiation
import VersionedObjects.Proofs.Dynamic.FailedLoading
import VersionedObjects.Proofs.Dynamic.FirstRecord
import VersionedObjects.Proofs.Dynamic.HeraldingClasses
import VersionedObjects.Proofs.Dynamic.InitialValues
import VersionedObjects.Proofs.Dynamic.Instances
import VersionedObjects.Proofs.Dynamic.Instantiation
import VersionedObjects.Proofs.Dynamic.LoadedTables
import VersionedObjects.Proofs.Dynamic.MadeParts
import VersionedObjects.Proofs.Dynamic.Preservation
import VersionedObjects.Proofs.Dynamic.RecordAccess
import VersionedObjects.Proofs.Dynamic.SideBySide
import VersionedObjects.Proofs.Dynamic.Simulation
import VersionedObjects.Proofs.Dynamic.SlotMerging
import VersionedObjects.Proofs.Dynamic.SuperclassParts
import VersionedObjects.Proofs.Dynamic.TypedValues
import VersionedObjects.Proofs.Emission.EmittedModules
import VersionedObjects.Proofs.Emission.ItemNames
import VersionedObjects.Proofs.Emission.MemberNames
import VersionedObjects.Proofs.Emission.RenderedModules
import VersionedObjects.Proofs.Emission.Rendering
import VersionedObjects.Proofs.Emission.UnambiguousClasses
import VersionedObjects.Proofs.Files.OneFile
import VersionedObjects.Proofs.Files.Outputs
import VersionedObjects.Proofs.Files.Places
import VersionedObjects.Proofs.Files.Products
import VersionedObjects.Proofs.Files.Trees
import VersionedObjects.Proofs.Framing.Accounts
import VersionedObjects.Proofs.Framing.ClassByClass
import VersionedObjects.Proofs.Framing.FramedAgain
import VersionedObjects.Proofs.Framing.FramedModule
import VersionedObjects.Proofs.Framing.GuardedClasses
import VersionedObjects.Proofs.Framing.Hindrances
import VersionedObjects.Proofs.Framing.Host
import VersionedObjects.Proofs.Framing.MovedStorage
import VersionedObjects.Proofs.Framing.Ownership
import VersionedObjects.Proofs.Framing.RecordNames
import VersionedObjects.Proofs.Framing.Selection
import VersionedObjects.Proofs.Grammar.Decimals
import VersionedObjects.Proofs.Grammar.Expressions
import VersionedObjects.Proofs.Grammar.FaultPlaces
import VersionedObjects.Proofs.Grammar.Literals
import VersionedObjects.Proofs.Grammar.Properties
import VersionedObjects.Proofs.Grammar.Reads
import VersionedObjects.Proofs.Grammar.RoundTrip
import VersionedObjects.Proofs.Grammar.Sourced
import VersionedObjects.Proofs.Grammar.Untypeable
import VersionedObjects.Proofs.Grammar.WellNamed
import VersionedObjects.Proofs.Number.Layout
import VersionedObjects.Proofs.Number.Rounding
import VersionedObjects.Proofs.Number.Shortest
import VersionedObjects.Proofs.Shell.Arguments
import VersionedObjects.Proofs.Shell.BrokenSessions
import VersionedObjects.Proofs.Shell.FrameTable
import VersionedObjects.Proofs.Shell.OpenFrames
import VersionedObjects.Proofs.Shell.SessionSafety
import VersionedObjects.Proofs.Store.Ascending
import VersionedObjects.Proofs.Store.Balance
import VersionedObjects.Proofs.Store.Bookkeeping
import VersionedObjects.Proofs.Store.Calls
import VersionedObjects.Proofs.Store.ChainEdits
import VersionedObjects.Proofs.Store.Changes
import VersionedObjects.Proofs.Store.ClosedRecords
import VersionedObjects.Proofs.Store.Closing
import VersionedObjects.Proofs.Store.ClosingSteps
import VersionedObjects.Proofs.Store.Coherence
import VersionedObjects.Proofs.Store.Collection
import VersionedObjects.Proofs.Store.CommitCheck
import VersionedObjects.Proofs.Store.CommitOrder
import VersionedObjects.Proofs.Store.CommitOutcome
import VersionedObjects.Proofs.Store.CommittedValues
import VersionedObjects.Proofs.Store.Confinement
import VersionedObjects.Proofs.Store.FailedCommit
import VersionedObjects.Proofs.Store.FirstWrites
import VersionedObjects.Proofs.Store.FrameBooks
import VersionedObjects.Proofs.Store.History
import VersionedObjects.Proofs.Store.Independence
import VersionedObjects.Proofs.Store.KeptEntries
import VersionedObjects.Proofs.Store.LaterWorlds
import VersionedObjects.Proofs.Store.Ledger
import VersionedObjects.Proofs.Store.LedgerOmission
import VersionedObjects.Proofs.Store.LedgerThinning
import VersionedObjects.Proofs.Store.LinearHistory
import VersionedObjects.Proofs.Store.MadeObjects
import VersionedObjects.Proofs.Store.Making
import VersionedObjects.Proofs.Store.MakingSites
import VersionedObjects.Proofs.Store.ManagerBooks
import VersionedObjects.Proofs.Store.Mirroring
import VersionedObjects.Proofs.Store.Noninterference
import VersionedObjects.Proofs.Store.Notices
import VersionedObjects.Proofs.Store.Omission
import VersionedObjects.Proofs.Store.OmittedWrites
import VersionedObjects.Proofs.Store.OpenTable
import VersionedObjects.Proofs.Store.Opening
import VersionedObjects.Proofs.Store.Overtaking
import VersionedObjects.Proofs.Store.Publication
import VersionedObjects.Proofs.Store.Renaming
import VersionedObjects.Proofs.Store.SnapshotReads
import VersionedObjects.Proofs.Store.Thinning
import VersionedObjects.Proofs.Store.Tidy
import VersionedObjects.Proofs.Store.TouchedObjects
import VersionedObjects.Proofs.Store.Touching
import VersionedObjects.Proofs.Store.VisibleObjects
import VersionedObjects.Proofs.Store.WorldOmission
import VersionedObjects.Proofs.Store.WorldThinning
import VersionedObjects.Proofs.Store.WritableFrame
import VersionedObjects.Proofs.Store.Writing
import VersionedObjects.Report.Basic
import VersionedObjects.Report.Classes
import VersionedObjects.Report.Command
import VersionedObjects.Report.Errors
import VersionedObjects.Report.Framing
import VersionedObjects.Report.Reader
import VersionedObjects.Report.Store
import VersionedObjects.Settings
import VersionedObjects.Shell.Command
import VersionedObjects.Shell.Console
import VersionedObjects.Shell.Program
import VersionedObjects.Shell.Session
import VersionedObjects.Shell.Usage
import VersionedObjects.Store.Access
import VersionedObjects.Store.Chain
import VersionedObjects.Store.Generation
import VersionedObjects.Store.Lifecycle
import VersionedObjects.Store.Retention
import VersionedObjects.Store.Scope
import VersionedObjects.Store.World
import VersionedObjects.Text.Backspace
import VersionedObjects.Text.Blank
import VersionedObjects.Text.Break
import VersionedObjects.Text.Cluster
import VersionedObjects.Text.LetterCase
import VersionedObjects.Text.Lines
import VersionedObjects.Text.Printable
import VersionedObjects.Text.Quoted
import VersionedObjects.Text.Ranges
