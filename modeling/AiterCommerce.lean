import AiterCommerce.Machine.Checked
import AiterCommerce.Machine.History
import AiterCommerce.Machine.Tickets
import AiterCommerce.Concurrent.Prog
import AiterCommerce.Concurrent.System
import AiterCommerce.Concurrent.Logic
import AiterCommerce.Concurrent.Soundness
import AiterCommerce.Concurrent.Fallible
import AiterCommerce.Concurrent.Alone
import AiterCommerce.Concurrent.Undo
import AiterCommerce.Concurrent.Progress
import AiterCommerce.Concurrent.Own
import AiterCommerce.Concurrent.Bounded
import AiterCommerce.Concurrent.Sequence
import AiterCommerce.Concurrent.Shell
import AiterCommerce.Concurrent.Tally
import AiterCommerce.Concurrent.Moments
import AiterCommerce.Refinement.Simulation
import AiterCommerce.Throttle.FixedWindow
import AiterCommerce.Sorting.Stable
import AiterCommerce.Encoding.Base64
import AiterCommerce.Encoding.Decimal
import AiterCommerce.Encoding.Delimited
import AiterCommerce.Encoding.Value
import AiterCommerce.Encoding.Record
import AiterCommerce.Encoding.Format
import AiterCommerce.Core.Amount
import AiterCommerce.Core.Cart
import AiterCommerce.Core.Catalog
import AiterCommerce.Core.Checkout
import AiterCommerce.Core.Merchant
import AiterCommerce.Core.Order
import AiterCommerce.Core.Pricing
import AiterCommerce.Core.Receipt
import AiterCommerce.Core.Reserve
import AiterCommerce.Core.Serde
import AiterCommerce.Core.Signing
import AiterCommerce.Core.Store
import AiterCommerce.Core.SledStore
import AiterCommerce.Server.Api
import AiterCommerce.Server.Auth
import AiterCommerce.Server.Cart
import AiterCommerce.Server.Client
import AiterCommerce.Server.Config
import AiterCommerce.Server.Envelope
import AiterCommerce.Server.Error
import AiterCommerce.Server.Feed
import AiterCommerce.Server.Footprint
import AiterCommerce.Server.Http
import AiterCommerce.Server.Mcp
import AiterCommerce.Server.Metrics
import AiterCommerce.Server.Pages
import AiterCommerce.Server.RateLimit
import AiterCommerce.Server.Razorpay
import AiterCommerce.Server.Reserve
import AiterCommerce.Server.Router
import AiterCommerce.Server.Seed
import AiterCommerce.Server.Session
import AiterCommerce.Server.State
import AiterCommerce.Server.Stdio
import AiterCommerce.Server.System
import AiterCommerce.Server.Webhook
import AiterCommerce.Guarantees.Abandoned
import AiterCommerce.Guarantees.Acknowledged
import AiterCommerce.Guarantees.Advertised
import AiterCommerce.Guarantees.Authority
import AiterCommerce.Guarantees.BaseUrl
import AiterCommerce.Guarantees.Books
import AiterCommerce.Guarantees.CartMap
import AiterCommerce.Guarantees.Carts
import AiterCommerce.Guarantees.Completion
import AiterCommerce.Guarantees.Consents
import AiterCommerce.Guarantees.Counted
import AiterCommerce.Guarantees.Deadlock
import AiterCommerce.Guarantees.DemoRequests
import AiterCommerce.Guarantees.DemoStore
import AiterCommerce.Guarantees.Durable
import AiterCommerce.Guarantees.Exact
import AiterCommerce.Guarantees.ExactlyOnce
import AiterCommerce.Guarantees.Expiry
import AiterCommerce.Guarantees.FailClosed
import AiterCommerce.Guarantees.FreshIds
import AiterCommerce.Guarantees.Frozen
import AiterCommerce.Guarantees.Grammar
import AiterCommerce.Guarantees.Headroom
import AiterCommerce.Guarantees.HexSignature
import AiterCommerce.Guarantees.Interference
import AiterCommerce.Guarantees.Lifecycle
import AiterCommerce.Guarantees.LlmsTxt
import AiterCommerce.Guarantees.Mediation
import AiterCommerce.Guarantees.Money
import AiterCommerce.Guarantees.Monitored
import AiterCommerce.Guarantees.Paging
import AiterCommerce.Guarantees.Printed
import AiterCommerce.Guarantees.Quota
import AiterCommerce.Guarantees.Ranking
import AiterCommerce.Guarantees.ReadQuota
import AiterCommerce.Guarantees.Reconcile
import AiterCommerce.Guarantees.Rest
import AiterCommerce.Guarantees.Rollback
import AiterCommerce.Guarantees.Scraped
import AiterCommerce.Guarantees.Settings
import AiterCommerce.Guarantees.Settlement
import AiterCommerce.Guarantees.Shown
import AiterCommerce.Guarantees.SignedGate
import AiterCommerce.Guarantees.Sold
import AiterCommerce.Guarantees.Spend
import AiterCommerce.Guarantees.Stages
import AiterCommerce.Guarantees.Stdio
import AiterCommerce.Guarantees.Timeline
import AiterCommerce.Guarantees.Told
import AiterCommerce.Guarantees.Totals
import AiterCommerce.Guarantees.Versions
import AiterCommerce.Guarantees.Wire
