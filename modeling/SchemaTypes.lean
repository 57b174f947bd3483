import SchemaTypes.Main
import SchemaTypes.Proofs.AliasScope
import SchemaTypes.Proofs.AliasTables
import SchemaTypes.Proofs.Blocks
import SchemaTypes.Proofs.Comments.Passes
import SchemaTypes.Proofs.Dependencies
import SchemaTypes.Proofs.DocComments
import SchemaTypes.Proofs.Evaluation
import SchemaTypes.Proofs.FieldLines
import SchemaTypes.Proofs.ImportChains
import SchemaTypes.Proofs.IndexAgreement
import SchemaTypes.Proofs.IndexContents
import SchemaTypes.Proofs.Output
import SchemaTypes.Proofs.QuotedNames
import SchemaTypes.Proofs.Regeneration
import SchemaTypes.Proofs.RelativeReferences
import SchemaTypes.Proofs.RequestPairs
import SchemaTypes.Proofs.Resolution
import SchemaTypes.Proofs.StringSpellings
import SchemaTypes.Proofs.Termination
import SchemaTypes.Proofs.TypeStructure
import SchemaTypes.Proofs.Unfolding
import SchemaTypes.Proofs.WatcherLife
import SchemaTypes.Proofs.Wrappers
