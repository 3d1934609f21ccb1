import XmlToJson.Binary64.Basic
import XmlToJson.Binary64.Shortest
import XmlToJson.Binary64.Text
import XmlToJson.CommandLine.Batch
import XmlToJson.CommandLine.Help
import XmlToJson.CommandLine.Invocation
import XmlToJson.CommandLine.Options
import XmlToJson.CommandLine.Profile
import XmlToJson.CommandLine.Run
import XmlToJson.Conversion
import XmlToJson.Conversion.File
import XmlToJson.Conversion.Markup
import XmlToJson.Conversion.State
import XmlToJson.Conversion.Tree
import XmlToJson.Encoding
import XmlToJson.Entries
import XmlToJson.Failure
import XmlToJson.Files.Path
import XmlToJson.Files.Reading
import XmlToJson.Files.Tree
import XmlToJson.Host
import XmlToJson.Json.Number
import XmlToJson.Json.Object
import XmlToJson.Json.Reader
import XmlToJson.Json.Value
import XmlToJson.Json.Writer
import XmlToJson.Log
import XmlToJson.Main
import XmlToJson.Markup.Cursor
import XmlToJson.Markup.Fault
import XmlToJson.Markup.Progress
import XmlToJson.Markup.Reference
import XmlToJson.Markup.Scan
import XmlToJson.Markup.Token
import XmlToJson.Markup.Tokenizer
import XmlToJson.Metrics
import XmlToJson.Numeral.Decimal
import XmlToJson.Numeral.Integer
import XmlToJson.Numeral.Literal
import XmlToJson.Position
import XmlToJson.Proofs.Acceptance
import XmlToJson.Proofs.Agreement
import XmlToJson.Proofs.Alphabet
import XmlToJson.Proofs.Balance
import XmlToJson.Proofs.Batches
import XmlToJson.Proofs.Bookkeeping
import XmlToJson.Proofs.Calls
import XmlToJson.Proofs.CharacterNumbers
import XmlToJson.Proofs.Coercion
import XmlToJson.Proofs.Concatenation
import XmlToJson.Proofs.Configuration
import XmlToJson.Proofs.Conservation
import XmlToJson.Proofs.Contributions
import XmlToJson.Proofs.Declarations
import XmlToJson.Proofs.Decoding
import XmlToJson.Proofs.Deliveries
import XmlToJson.Proofs.Descent
import XmlToJson.Proofs.DocumentTypes
import XmlToJson.Proofs.Effects
import XmlToJson.Proofs.EntityNames
import XmlToJson.Proofs.Escapes
import XmlToJson.Proofs.Events
import XmlToJson.Proofs.Faults
import XmlToJson.Proofs.Histories
import XmlToJson.Proofs.Items
import XmlToJson.Proofs.JsonGrammar
import XmlToJson.Proofs.JsonReading
import XmlToJson.Proofs.JsonRoundTrips
import XmlToJson.Proofs.JsonWriting
import XmlToJson.Proofs.Layers
import XmlToJson.Proofs.Limits
import XmlToJson.Proofs.Locality
import XmlToJson.Proofs.Machine
import XmlToJson.Proofs.Materials
import XmlToJson.Proofs.NeverBack
import XmlToJson.Proofs.NumberLiterals
import XmlToJson.Proofs.Numerals
import XmlToJson.Proofs.Output
import XmlToJson.Proofs.Paths
import XmlToJson.Proofs.Places
import XmlToJson.Proofs.Profiles
import XmlToJson.Proofs.Relocation
import XmlToJson.Proofs.Rendering
import XmlToJson.Proofs.RepeatedKeys
import XmlToJson.Proofs.Reports
import XmlToJson.Proofs.Restoration
import XmlToJson.Proofs.Rounding
import XmlToJson.Proofs.Scalars
import XmlToJson.Proofs.Seams
import XmlToJson.Proofs.Sections
import XmlToJson.Proofs.Shapes
import XmlToJson.Proofs.Tiling
import XmlToJson.Proofs.Tokens
import XmlToJson.Proofs.Transparency
import XmlToJson.Proofs.Validation
import XmlToJson.Proofs.Written
import XmlToJson.Scalar
import XmlToJson.Settings
import XmlToJson.Text.Alphanumeric
import XmlToJson.Text.Classes
import XmlToJson.Text.Printable
import XmlToJson.Text.Search
