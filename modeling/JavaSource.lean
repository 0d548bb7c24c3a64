import JavaSource.Text.Search
import JavaSource.Text.Blank
import JavaSource.Text.Quoted
import JavaSource.Imports
import JavaSource.Layout.Session
import JavaSource.CompilationUnit
import JavaSource.Part
import JavaSource.Manifest.Basic
import JavaSource.Toml.Value
import JavaSource.Toml.Quoted
import JavaSource.Toml.Document
import JavaSource.Manifest.OfToml
import JavaSource.Manifest.Validation
import JavaSource.Manifest.Building
import JavaSource.Text.Difference
import JavaSource.Output
import JavaSource.Main
import JavaSource.Proofs.FirstClaim
import JavaSource.Proofs.ImportSoundness
import JavaSource.Proofs.ImportExactness
import JavaSource.Proofs.WellFormed
import JavaSource.Proofs.DocOrder
import JavaSource.Proofs.ClassOrder
import JavaSource.Proofs.LinkText
import JavaSource.Proofs.CommentEnd
import JavaSource.Proofs.DepthPrinter
import JavaSource.Proofs.FilePaths
import JavaSource.Proofs.LinkRoundTrip
import JavaSource.Proofs.OwnFiles
import JavaSource.Proofs.CheckReport
import JavaSource.Proofs.BareNames
import JavaSource.Proofs.Modifiers
import JavaSource.Proofs.SettledNames
import JavaSource.Proofs.NestedParts
import JavaSource.Proofs.DocLines
import JavaSource.Proofs.BodyLines
import JavaSource.Proofs.SavedFiles
import JavaSource.Proofs.TypeGrammar
import JavaSource.Proofs.ClauseTypes
import JavaSource.Proofs.ErasedTypes
import JavaSource.Proofs.TypeText
import JavaSource.Proofs.Callables
import JavaSource.Proofs.HeaderLines
import JavaSource.Proofs.LinkSpelling
import JavaSource.Proofs.CutText
import JavaSource.Proofs.LineForms
import JavaSource.Proofs.Labels
import JavaSource.Proofs.ReadableData
import JavaSource.Proofs.AddedKeys
import JavaSource.Proofs.NameSegments
import JavaSource.Proofs.DiskTree
import JavaSource.Proofs.SourceSearch
import JavaSource.Proofs.DiskPaths
import JavaSource.Proofs.DiskWrites
import JavaSource.Proofs.SavedSources
import JavaSource.Proofs.WrittenFiles
