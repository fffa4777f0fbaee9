import RecordSchema.Json.Equality
import RecordSchema.Json.Members
import RecordSchema.Json.Numeral
import RecordSchema.Json.Token
import RecordSchema.Json.Parser
import RecordSchema.Path
import RecordSchema.Text.Quoted
import RecordSchema.Text.Complaint
import RecordSchema.Decimal.Scientific
import RecordSchema.Kind
import RecordSchema.Schemas
import RecordSchema.Schemas.Resolve
import RecordSchema.Error
import RecordSchema.Fault
import RecordSchema.Schemas.Validate
import RecordSchema.Schemas.Encode
import RecordSchema.Codec.Failure
import RecordSchema.Codec
import RecordSchema.Codec.Layout
import RecordSchema.Codec.Options
import RecordSchema.Record
import RecordSchema.TestRead.Exchange
import RecordSchema.TestRead.Page
import RecordSchema.TestRead.Slice
import RecordSchema.TestRead.Stream
import RecordSchema.TestRead.Catalogue
import RecordSchema.Installation
import RecordSchema.Proofs.Location
import RecordSchema.Proofs.Members
import RecordSchema.Proofs.Conformance
import RecordSchema.Proofs.NormalForm
import RecordSchema.Proofs.Encoding
import RecordSchema.Proofs.FieldGroups
import RecordSchema.Proofs.Fitting
import RecordSchema.Proofs.Catalogue
import RecordSchema.Proofs.Ordered
import RecordSchema.Proofs.StrayKeys
import RecordSchema.Proofs.RoundTrip
import RecordSchema.Proofs.Reencoding
import RecordSchema.Proofs.Overflow
import RecordSchema.Proofs.Spelling
import RecordSchema.Proofs.Violation
import RecordSchema.Proofs.Precedence
import RecordSchema.Proofs.Reachability
import RecordSchema.Proofs.InstalledOnce
import RecordSchema.Proofs.Transparency
import RecordSchema.Proofs.Locality
import RecordSchema.Proofs.Independence
import RecordSchema.Proofs.Blame
import RecordSchema.Proofs.NullPolicy
import RecordSchema.Proofs.RepeatedKeys
import RecordSchema.Proofs.PostOrder
import RecordSchema.Proofs.Aggregates
import RecordSchema.Proofs.FailureSite
import RecordSchema.Proofs.PathText
import RecordSchema.Proofs.BareSets
import RecordSchema.Proofs.Representation
