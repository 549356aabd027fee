import Envelope.Bytes
import Envelope.Bytes.Hex
import Envelope.Limits
import Envelope.Block
import Envelope.Aes.Field
import Envelope.Aes.Substitution
import Envelope.Aes
import Envelope.Sha256
import Envelope.Hmac
import Envelope.ChaCha20
import Envelope.Poly1305
import Envelope.Aead.Keyed
import Envelope.Aead.Gcm
import Envelope.Aead.Ccm
import Envelope.Aead.Eax
import Envelope.Aead.ChaChaPoly
import Envelope.Padding
import Envelope.Text.Unprinted
import Envelope.Text.Quoted
import Envelope.Text.Shortest
import Envelope.Json.Problem
import Envelope.Json.Numeral
import Envelope.Json.Document
import Envelope.Json.Decode
import Envelope.Json.Render
import Envelope.Error
import Envelope.Key
import Envelope.Nonce
import Envelope.Engine.Cbc
import Envelope.Engine.Aead
import Envelope.Engine
import Envelope.Suite
import Envelope.Transport.Pace
import Envelope.Transport.Reader
import Envelope.Transport.Room
import Envelope.Transport.Writer
import Envelope.Bytes.Utf8
import Envelope.Source
import Envelope.Source.Memory
import Envelope.Source.Stream
import Envelope.Header.Scan
import Envelope.Header.Plain
import Envelope.Header.Authenticated
import Envelope.Header
import Envelope.Config
import Envelope.Report.Counts
import Envelope.Report.Duration
import Envelope.Report.Stages
import Envelope.Report.Summary
import Envelope.Transfer
import Envelope.Sealer
import Envelope.WithKey
import Envelope.Proofs.Bytes
import Envelope.Proofs.Run
import Envelope.Proofs.Reader
import Envelope.Proofs.Source
import Envelope.Proofs.Scan
import Envelope.Proofs.Scan.Fields
import Envelope.Proofs.Header.Plain
import Envelope.Proofs.Header.Authenticated
import Envelope.Proofs.Header
import Envelope.Proofs.Header.PrefixFree
import Envelope.Proofs.Header.Tag
import Envelope.Proofs.Header.Truncated
import Envelope.Proofs.Source.Reads
import Envelope.Proofs.Source.Rewind
import Envelope.Proofs.Source.Lawful
import Envelope.Proofs.Header.Dispatch
import Envelope.Proofs.Header.Stream
import Envelope.Proofs.Header.Remarked
import Envelope.Proofs.Header.Taken
import Envelope.Proofs.Aes
import Envelope.Proofs.Aead
import Envelope.Proofs.Engine.Cbc
import Envelope.Proofs.Engine.Aead
import Envelope.Proofs.Engine
import Envelope.Proofs.Writer
import Envelope.Proofs.Transfer
import Envelope.Proofs.Sealer
import Envelope.Proofs.WithKey
import Envelope.Proofs.Streaming
import Envelope.Proofs.Engine.RoundTrip
import Envelope.Proofs.RoundTrip
import Envelope.Proofs.Transfer.FailClosed
import Envelope.Proofs.FailClosed
import Envelope.Proofs.Engine.Canonical
import Envelope.Proofs.Canonical
import Envelope.Proofs.Keying
import Envelope.Proofs.Nonce
import Envelope.Proofs.Nonce.Runs
import Envelope.Proofs.Interchange
import Envelope.Proofs.Transfer.Outcome
import Envelope.Proofs.Fronts
import Envelope.Proofs.Failures
import Envelope.Proofs.Engine.Pieces
import Envelope.Proofs.Engine.Refused
import Envelope.Proofs.Engine.Standard
import Envelope.Proofs.SetUp
import Envelope.Proofs.Transfer.Accounts
import Envelope.Proofs.Accounts
import Envelope.Proofs.Source.Requests
