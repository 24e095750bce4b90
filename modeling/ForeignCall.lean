import ForeignCall.Proofs.Binding.Agreement
import ForeignCall.Proofs.Plan.Layout
import ForeignCall.Proofs.Plan.Lengths
import ForeignCall.Proofs.Plan.RoundTrip
import ForeignCall.Proofs.Registry.Contents
import ForeignCall.Proofs.Registry.Runs
import ForeignCall.Proofs.Binding.LastWins
import ForeignCall.Proofs.Binding.Accounting
import ForeignCall.Proofs.Frame.Writes
import ForeignCall.Proofs.Plan.Cells
import ForeignCall.Proofs.Resolution.AliasChains
import ForeignCall.Proofs.Planning.Alike
import ForeignCall.Proofs.Planning.SameTypes
import ForeignCall.Proofs.Planning.Transparency
import ForeignCall.Proofs.Plan.Acceptance
import ForeignCall.Proofs.Conversion.Independence
import ForeignCall.Proofs.Resolution.Keywords
import ForeignCall.Proofs.Conversion.Arrays
import ForeignCall.Proofs.Conversion.Required
import ForeignCall.Proofs.Conversion.ArrayReading
import ForeignCall.Proofs.Plan.ArrayResults
import ForeignCall.Proofs.Conversion.Integers
import ForeignCall.Proofs.Conversion.Reencoding
import ForeignCall.Proofs.Conversion.Texts
import ForeignCall.Proofs.Planning.Spellings
import ForeignCall.Proofs.Planning.HostTypes
import ForeignCall.Proofs.Planning.Success
import ForeignCall.Proofs.Frame.Errors
import ForeignCall.Proofs.Plan.Errors
import ForeignCall.Proofs.Binding.Introspection
import ForeignCall.Proofs.Conversion.Conformity
import ForeignCall.Proofs.Identifiers
import ForeignCall.Proofs.Plan.HeldBytes
import ForeignCall.Proofs.Plan.Keys
import ForeignCall.Proofs.Frame.Codecs
import ForeignCall.Proofs.Signature.Table
import ForeignCall.Proofs.TypeNames
import ForeignCall.Proofs.SharedLibraries
