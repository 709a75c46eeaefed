import SlogHelpers.Main
import SlogHelpers.Proofs.Source.Containment
import SlogHelpers.Proofs.Source.Validity
import SlogHelpers.Proofs.Severity
import SlogHelpers.Proofs.Source.Literal
import SlogHelpers.Proofs.Source.SectionReading
import SlogHelpers.Proofs.Text.Upper
import SlogHelpers.Proofs.Source.LevelHelpers
import SlogHelpers.Proofs.Command.FileTree
import SlogHelpers.Proofs.Command.Saving
import SlogHelpers.Proofs.Command.AllOrNothing
import SlogHelpers.Proofs.Config.Layering
import SlogHelpers.Proofs.Config.Encoding
import SlogHelpers.Proofs.Config.Canonical
import SlogHelpers.Proofs.Source.LoggerLevels
import SlogHelpers.Proofs.Source.Derivation
import SlogHelpers.Proofs.Document.Written
import SlogHelpers.Proofs.Source.Imports
import SlogHelpers.Proofs.Source.TypeInContext
import SlogHelpers.Proofs.Source.Recovery
import SlogHelpers.Proofs.Source.TypeTreeReading
import SlogHelpers.Proofs.Source.LineBreaks
import SlogHelpers.Proofs.Config.Outcome
import SlogHelpers.Proofs.Config.Rearranging
import SlogHelpers.Proofs.Config.Applying
import SlogHelpers.Proofs.Config.Batches
import SlogHelpers.Proofs.Source.Escapes
import SlogHelpers.Proofs.Source.ImportPath
import SlogHelpers.Proofs.Document.Acceptance
import SlogHelpers.Proofs.Command.Printing
import SlogHelpers.Proofs.Command.CommandLine
import SlogHelpers.Proofs.Source.Hygiene
import SlogHelpers.Proofs.Source.Rounds
import SlogHelpers.Proofs.Vocabulary.Dump
