import Typecodes.Fingerprint.WriterStep
import Typecodes.Proofs.FirstEntry
import Typecodes.Proofs.LayerUnion
import Typecodes.Proofs.Transparency
import Typecodes.Session
import Typecodes.Proofs.RegistryGrowth
import Typecodes.Proofs.ItemFormats
import Typecodes.Proofs.StockedParts
import Typecodes.Proofs.TuplesByItems
import Typecodes.Proofs.FailurePropagation
import Typecodes.Proofs.ResolverContract
import Typecodes.Proofs.OutstandingViews
import Typecodes.Proofs.ArrivalOrder
import Typecodes.Proofs.FingerprintGrammar
import Typecodes.Proofs.FirstOffence
import Typecodes.Proofs.CallAccounts
import Typecodes.Proofs.LatestWrite
import Typecodes.Proofs.AnalysisSteps
import Typecodes.Proofs.UnfoldedCodes
import Typecodes.Proofs.RefusedViews
import Typecodes.Proofs.ElementaryAgreement
import Typecodes.Proofs.FullRegistry
import Typecodes.Proofs.PartialEncodings
import Typecodes.Proofs.SingleInstallation
import Typecodes.Proofs.WriterContents
