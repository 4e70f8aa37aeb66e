import Shaderlift.Analysis.Stages
import Shaderlift.Bytecode
import Shaderlift.Main
import Shaderlift.Proofs.Accepted.Access
import Shaderlift.Proofs.Accepted.Accessors
import Shaderlift.Proofs.Accepted.Bindings
import Shaderlift.Proofs.Accepted.Coordinates
import Shaderlift.Proofs.Accepted.Linking
import Shaderlift.Proofs.Accepted.Pixels
import Shaderlift.Proofs.Accepted.Signatures
import Shaderlift.Proofs.Accepted.Spelling
import Shaderlift.Proofs.Accepted.Switches
import Shaderlift.Proofs.Analysis.Needed
import Shaderlift.Proofs.Cache.Keys
import Shaderlift.Proofs.Cache.Transparency
import Shaderlift.Proofs.Call.Promotion
import Shaderlift.Proofs.Call.Transparency
import Shaderlift.Proofs.Diagnostic.Order
import Shaderlift.Proofs.Layout.Image
import Shaderlift.Proofs.Layout.Saturation
import Shaderlift.Proofs.Lowering.Arguments
import Shaderlift.Proofs.Numbering
import Shaderlift.Proofs.Program.Lookup
import Shaderlift.Proofs.Program.Validity
import Shaderlift.Proofs.Reading.Nesting
import Shaderlift.Proofs.Source.Occurrences
