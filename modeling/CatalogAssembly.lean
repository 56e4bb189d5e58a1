import CatalogAssembly.Assembly.Error
import CatalogAssembly.Assembly.Placement
import CatalogAssembly.Assembly.Run
import CatalogAssembly.Binary64.Basic
import CatalogAssembly.Binary64.Shortest
import CatalogAssembly.CommandLine.Arguments
import CatalogAssembly.CommandLine.Consulted
import CatalogAssembly.CommandLine.Session
import CatalogAssembly.FilePath
import CatalogAssembly.Files
import CatalogAssembly.Fragment
import CatalogAssembly.Identity
import CatalogAssembly.Json.Literal
import CatalogAssembly.Json.Printer
import CatalogAssembly.Json.Reader
import CatalogAssembly.Json.Value
import CatalogAssembly.Kind
import CatalogAssembly.Log.Event
import CatalogAssembly.Log.Filter
import CatalogAssembly.Log.Report
import CatalogAssembly.Main
import CatalogAssembly.Noted
import CatalogAssembly.Path.Basic
import CatalogAssembly.Path.Text
import CatalogAssembly.Pattern.Basic
import CatalogAssembly.Pattern.Class
import CatalogAssembly.Pattern.Piece
import CatalogAssembly.Pattern.Reader
import CatalogAssembly.Schema.Document
import CatalogAssembly.Schema.Error
import CatalogAssembly.Schema.Registry
import CatalogAssembly.Schema.Rule
import CatalogAssembly.Settings.Basic
import CatalogAssembly.Settings.Source
import CatalogAssembly.Text.Alphanumeric
import CatalogAssembly.Text.Blank
import CatalogAssembly.Text.Digits
import CatalogAssembly.Text.Hex
import CatalogAssembly.Text.Printable
import CatalogAssembly.Text.Quoted
import CatalogAssembly.Text.Ranges
import CatalogAssembly.Text.Upper
import CatalogAssembly.Toml.Reader
import CatalogAssembly.Toml.Scalar
import CatalogAssembly.Toml.Tree
import CatalogAssembly.Toml.Value
import CatalogAssembly.Proofs.Identity
import CatalogAssembly.Proofs.Lens
import CatalogAssembly.Proofs.Outcome
import CatalogAssembly.Proofs.Frame
import CatalogAssembly.Proofs.Modes
import CatalogAssembly.Proofs.States
import CatalogAssembly.Proofs.Edit
import CatalogAssembly.Proofs.Slot
import CatalogAssembly.Proofs.Exchange
import CatalogAssembly.Proofs.Revision
import CatalogAssembly.Proofs.Tracks
import CatalogAssembly.Proofs.Release
import CatalogAssembly.Proofs.Resolved
import CatalogAssembly.Proofs.History
import CatalogAssembly.Proofs.Skips
import CatalogAssembly.Proofs.PathGrammar
import CatalogAssembly.Proofs.PathText
import CatalogAssembly.Proofs.PathBytes
import CatalogAssembly.Proofs.PathSpelling
import CatalogAssembly.Proofs.PathFields
import CatalogAssembly.Proofs.Registration
import CatalogAssembly.Proofs.Rounding
import CatalogAssembly.Proofs.ByteOrder
import CatalogAssembly.Proofs.UniqueNames
import CatalogAssembly.Proofs.Documents
import CatalogAssembly.Proofs.Equivalence
import CatalogAssembly.Proofs.IntegerIds
import CatalogAssembly.Proofs.Redelivery
import CatalogAssembly.Proofs.Unmatched
import CatalogAssembly.Proofs.SettingsPlaces
import CatalogAssembly.Proofs.SettingsChoice
import CatalogAssembly.Proofs.FileFrame
import CatalogAssembly.Proofs.CommandLine
