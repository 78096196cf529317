import SelectiveDisclosure.Agent
import SelectiveDisclosure.Bytes
import SelectiveDisclosure.Commitment
import SelectiveDisclosure.Content
import SelectiveDisclosure.Credential.Basic
import SelectiveDisclosure.Decimal.Binary64
import SelectiveDisclosure.Decimal.Shortest
import SelectiveDisclosure.Digest
import SelectiveDisclosure.Disclosure
import SelectiveDisclosure.Ed25519.Curve
import SelectiveDisclosure.Ed25519.Signature
import SelectiveDisclosure.Fault
import SelectiveDisclosure.Finding
import SelectiveDisclosure.Hash.Blake2b
import SelectiveDisclosure.Hash.Blake3
import SelectiveDisclosure.Hash.Lanes
import SelectiveDisclosure.Hash.Sha512
import SelectiveDisclosure.Hasher
import SelectiveDisclosure.Identifier.Basic
import SelectiveDisclosure.Identifier.Codec
import SelectiveDisclosure.Json.Basic
import SelectiveDisclosure.Json.Document
import SelectiveDisclosure.Json.Edit
import SelectiveDisclosure.Json.Literal
import SelectiveDisclosure.Json.Numeral
import SelectiveDisclosure.Json.Printer
import SelectiveDisclosure.Json.Shape
import SelectiveDisclosure.Json.Tree
import SelectiveDisclosure.NonceSource
import SelectiveDisclosure.OrderedMap
import SelectiveDisclosure.Presentation
import SelectiveDisclosure.Proofs.AcceptedPresentations
import SelectiveDisclosure.Proofs.Base58
import SelectiveDisclosure.Proofs.DigestOrder
import SelectiveDisclosure.Proofs.DigestTexts
import SelectiveDisclosure.Proofs.DisclosedCopies
import SelectiveDisclosure.Proofs.DisclosureFindings
import SelectiveDisclosure.Proofs.DisclosureSoundness
import SelectiveDisclosure.Proofs.EvidencePaths
import SelectiveDisclosure.Proofs.EvidenceTree
import SelectiveDisclosure.Proofs.FaithfulTexts
import SelectiveDisclosure.Proofs.HiddenProperties
import SelectiveDisclosure.Proofs.HolderBinding
import SelectiveDisclosure.Proofs.Identifier.Acceptance
import SelectiveDisclosure.Proofs.Identifier.EntryPoints
import SelectiveDisclosure.Proofs.Identifier.Layout
import SelectiveDisclosure.Proofs.Identifier.RoundTrip
import SelectiveDisclosure.Proofs.Identifier.Spellings
import SelectiveDisclosure.Proofs.IdentifierBinding
import SelectiveDisclosure.Proofs.Issuance
import SelectiveDisclosure.Proofs.Json.MemberOrder
import SelectiveDisclosure.Proofs.Json.Quoting
import SelectiveDisclosure.Proofs.Json.Ranges
import SelectiveDisclosure.Proofs.Json.ReadBack
import SelectiveDisclosure.Proofs.Json.Scanning
import SelectiveDisclosure.Proofs.Json.Trees
import SelectiveDisclosure.Proofs.Json.Unambiguous
import SelectiveDisclosure.Proofs.Messages
import SelectiveDisclosure.Proofs.NestedFindings
import SelectiveDisclosure.Proofs.NonceDraws
import SelectiveDisclosure.Proofs.PartyKeys
import SelectiveDisclosure.Proofs.Predicates
import SelectiveDisclosure.Proofs.Presenting
import SelectiveDisclosure.Proofs.PrunedNonces
import SelectiveDisclosure.Proofs.Rehashing
import SelectiveDisclosure.Proofs.Reissuance
import SelectiveDisclosure.Proofs.Reordering
import SelectiveDisclosure.Proofs.RepeatedDisclosure
import SelectiveDisclosure.Proofs.RootBinding
import SelectiveDisclosure.Proofs.SaltedPreimages
import SelectiveDisclosure.Proofs.SchemaBinding
import SelectiveDisclosure.Proofs.ShortestDecimals
import SelectiveDisclosure.Proofs.SignedMessages
import SelectiveDisclosure.Proofs.StatementTexts
import SelectiveDisclosure.Proofs.Tampering
import SelectiveDisclosure.Proofs.Traversals
import SelectiveDisclosure.Proofs.UncheckedIssuers
import SelectiveDisclosure.Proofs.Wire.Exchange
import SelectiveDisclosure.Proofs.Wire.Numbers
import SelectiveDisclosure.Proofs.Wire.Readers
import SelectiveDisclosure.Proofs.Wire.RoundTrip
import SelectiveDisclosure.Radix
import SelectiveDisclosure.Session
import SelectiveDisclosure.Statement
import SelectiveDisclosure.Testing.Parties
import SelectiveDisclosure.Testing.Samples
import SelectiveDisclosure.Testing.Vectors
import SelectiveDisclosure.Text.Base58
import SelectiveDisclosure.Text.Blank
import SelectiveDisclosure.Text.Hex
import SelectiveDisclosure.Text.Printable
import SelectiveDisclosure.Text.Quoted
import SelectiveDisclosure.Verification
import SelectiveDisclosure.Wire.Reader
import SelectiveDisclosure.Wire.Writer
