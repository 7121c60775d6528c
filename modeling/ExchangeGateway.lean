import ExchangeGateway.Lib.Transition
import ExchangeGateway.Lib.Progress
import ExchangeGateway.Lib.Backlog
import ExchangeGateway.Lib.CanonicalText
import ExchangeGateway.Lib.KeyedList
import ExchangeGateway.Lib.FixedPoint
import ExchangeGateway.Lib.IntText
import ExchangeGateway.Lib.PercentCoding
import ExchangeGateway.Connector
import ExchangeGateway.Json
import ExchangeGateway.Core.OrderState
import ExchangeGateway.Core.Decimal
import ExchangeGateway.Core.DecimalExact
import ExchangeGateway.Core.DecimalText
import ExchangeGateway.Core.DecimalArith
import ExchangeGateway.Core.DecimalGrammar
import ExchangeGateway.Core.Risk
import ExchangeGateway.Core.RiskExact
import ExchangeGateway.Core.EventLog
import ExchangeGateway.Core.Record
import ExchangeGateway.Core.Events
import ExchangeGateway.Core.Oms
import ExchangeGateway.Core.Reconcile
import ExchangeGateway.Core.System
import ExchangeGateway.Core.Ledger
import ExchangeGateway.Core.LogFile
import ExchangeGateway.Core.LogFaults
import ExchangeGateway.Core.Sections
import ExchangeGateway.Core.Observation
import ExchangeGateway.Core.Ownership
import ExchangeGateway.Core.AtMostOnce
import ExchangeGateway.Core.Lifecycle
import ExchangeGateway.Core.Exclusive
import ExchangeGateway.Core.Replay
import ExchangeGateway.Core.Legs
import ExchangeGateway.Core.Recall
import ExchangeGateway.Core.Routing
import ExchangeGateway.Core.Delivery
import ExchangeGateway.Core.Position
import ExchangeGateway.Core.Measured
import ExchangeGateway.Core.Exposure
import ExchangeGateway.Core.Stale
import ExchangeGateway.Core.Absence
import ExchangeGateway.Core.Reasons
import ExchangeGateway.Core.Convergence
import ExchangeGateway.Core.Isolation
import ExchangeGateway.Core.Idempotence
import ExchangeGateway.Core.Confluence
import ExchangeGateway.Core.Retry
import ExchangeGateway.Core.RetryBounds
import ExchangeGateway.Core.Settings
import ExchangeGateway.Core.Audit
import ExchangeGateway.Core.AuditRun
import ExchangeGateway.Core.LegNotes
import ExchangeGateway.Exchange.Resilient
import ExchangeGateway.Exchange.Placement
import ExchangeGateway.Exchange.Cancel
import ExchangeGateway.Exchange.Amend
import ExchangeGateway.Exchange.Binance
import ExchangeGateway.Exchange.Session
import ExchangeGateway.Exchange.Handover
import ExchangeGateway.Exchange.Okx
import ExchangeGateway.Exchange.Frames
import ExchangeGateway.Exchange.Feed
import ExchangeGateway.Exchange.Notifier
import ExchangeGateway.Exchange.Signing
import ExchangeGateway.Exchange.OkxAmend
import ExchangeGateway.Exchange.Paths
import ExchangeGateway.Exchange.Refusal
import ExchangeGateway.Exchange.Lookup
import ExchangeGateway.Exchange.Listing
import ExchangeGateway.Exchange.Custody
import ExchangeGateway.Exchange.OkxSigning
import ExchangeGateway.Exchange.Market
import ExchangeGateway.Exchange.Replacement
import ExchangeGateway.Exchange.Requote
import ExchangeGateway.Exchange.Padding
import ExchangeGateway.Exchange.Symbols
import ExchangeGateway.Exchange.Adoption
import ExchangeGateway.Rest.Support
import ExchangeGateway.Rest.Orders
import ExchangeGateway.Rest.Dialogue
import ExchangeGateway.Rest.DemoRoutes
import ExchangeGateway.Startup
import ExchangeGateway.Exchange.RequestTarget
