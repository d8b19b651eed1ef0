import Shadownet.Foundation.Trace
import Shadownet.Foundation.Unicode
import Shadownet.Go.Basic
import Shadownet.Issuer.EpochTable
import Shadownet.Foundation.Base64
import Shadownet.Foundation.Bitstring
import Shadownet.Go.Http
import Shadownet.Python.Exceptions
import Shadownet.Python.Status
import Shadownet.Issuer.Revocation
import Shadownet.Foundation.Interleaving
import Shadownet.Go.Identifiers
import Shadownet.Foundation.Json
import Shadownet.Go.Json
import Shadownet.Go.Jcs
import Shadownet.Issuer.Csr
import Shadownet.Issuer.Handler
import Shadownet.Issuer.Issuance
import Shadownet.Issuer.Possession
import Shadownet.Foundation.Canonical
import Shadownet.Python.Values
import Shadownet.Python.Jcs
import Shadownet.Python.Crypto
import Shadownet.Python.Identifiers
import Shadownet.Python.Envelope
import Shadownet.Python.Message
import Shadownet.Python.Binding
import Shadownet.Foundation.Fallible
import Shadownet.Python.Credential
import Shadownet.Receiver.Pipeline
import Shadownet.Receiver.Paths
import Shadownet.Receiver.Runs
import Shadownet.Receiver.Holder
import Shadownet.Receiver.Classification
import Shadownet.Receiver.Replay
import Shadownet.Receiver.Concurrency
import Shadownet.Receiver.Async
import Shadownet.Receiver.Rotation
import Shadownet.Foundation.Document
import Shadownet.Go.Document
import Shadownet.Python.Json
import Shadownet.Python.Document
import Shadownet.Foundation.Writer
import Shadownet.Interop.Jcs
import Shadownet.Interop.Faithful
import Shadownet.Cards.Verifier
import Shadownet.Cards.Signed
import Shadownet.Go.AgentCard
import Shadownet.Interop.Base58
import Shadownet.Interop.Marshal
import Shadownet.Cards.Producer
import Shadownet.Interop.Decoded
import Shadownet.Interop.Names
import Shadownet.Cards.Provider
import Shadownet.Issuer.Server
import Shadownet.Cards.Hub
import Shadownet.Issuer.Authz
import Shadownet.Issuer.Delegates
import Shadownet.Issuer.Queue
import Shadownet.Issuer.Paths
import Shadownet.Issuer.Lifetime
import Shadownet.Issuer.Ceremony
import Shadownet.Issuer.Lifecycle
import Shadownet.Issuer.Parking
import Shadownet.Receiver.Provider
import Shadownet.Interop.Authorization
import Shadownet.Python.Csr
import Shadownet.Interop.Requests
import Shadownet.Issuer.Idempotency
import Shadownet.Receiver.Errors
import Shadownet.Foundation.Recency
import Shadownet.JavaScript.Basic
import Shadownet.Webhook.Handler
import Shadownet.Webhook.Replay
import Shadownet.Issuer.Duplicates
import Shadownet.X402.Payment
import Shadownet.X402.Paywall
import Shadownet.X402.Paths
import Shadownet.X402.Ledger
import Shadownet.X402.Nonces
import Shadownet.X402.Budget
import Shadownet.Postgres.Store
import Shadownet.Postgres.Agreement
import Shadownet.Foundation.Split
import Shadownet.Go.Runes
import Shadownet.Identifiers.Codec
import Shadownet.Identifiers.Domains
import Shadownet.Identifiers.Canonical
import Shadownet.Identifiers.Classes
import Shadownet.Go.Trailing
import Shadownet.Issuer.Bounds
import Shadownet.Python.Lifetime
import Shadownet.Foundation.Interference
import Shadownet.Webhook.Isolation
import Shadownet.Webhook.Inbox
import Shadownet.Python.Urllib
import Shadownet.Python.Addressing
import Shadownet.Python.Tls
import Shadownet.Interop.ProviderText
import Shadownet.Identifiers.Addresses
import Shadownet.Python.Onboarding
import Shadownet.Receiver.Endpoints
import Shadownet.Cards.Pruning
import Shadownet.Foundation.Decimal
import Shadownet.Foundation.Pairs
import Shadownet.Go.Net
import Shadownet.Hermes.Adapter
import Shadownet.Hermes.Avm
import Shadownet.Identifiers.Base58
import Shadownet.Issuer.Listener
import Shadownet.JavaScript.Url
import Shadownet.OpenClaw.Connect
import Shadownet.X402.Terms
import Shadownet.Cards.Errors
import Shadownet.Python.Retry
import Shadownet.Foundation.Gzip
import Shadownet.Interop.StatusLookup
import Shadownet.Interop.StatusSize
import Shadownet.Postgres.Commits
import Shadownet.Postgres.Concurrency
import Shadownet.Postgres.Equivalence
import Shadownet.Python.Gzip
import Shadownet.Receiver.StatusBody
import Shadownet.Interop.Issued
import Shadownet.Provider.Agreement
import Shadownet.Provider.Served
import Shadownet.Python.Loads
import Shadownet.Cards.Fetch
import Shadownet.Interop.Tokens
import Shadownet.Interop.Envelopes
