import Codrik.Skills.Mutations
import Codrik.Interaction.Sessions
import Codrik.Llm.Streaming
import Codrik.Runtime.WebhookFrame
import Codrik.Interfaces.JsonDecoding
import Codrik.Runtime.Rfc3339
import Codrik.Runtime.Sqlite.Backoff
import Codrik.Runtime.Sqlite.ContextWindow
import Codrik.Runtime.Sqlite.ArtifactSafety
import Codrik.Runtime.Sqlite.StagingLeases
import Codrik.Runtime.Sqlite.GatewayContent
import Codrik.Runtime.Runner.Completion
import Codrik.Runtime.Sqlite.Control
import Codrik.Runtime.Sqlite.Leases
import Codrik.Runtime.Sqlite.AttemptLife
import Codrik.Runtime.Sqlite.Protection
import Codrik.Runtime.Sqlite.Bookkeeping
import Codrik.Runtime.Sqlite.WebhookDedup
import Codrik.Runtime.Sqlite.ResultBundles
import Codrik.Runtime.Sqlite.DeferredResults
import Codrik.Runtime.Sqlite.Context
import Codrik.Runtime.Sqlite.Elsewhere
import Codrik.Runtime.Sqlite.GatewayFencing
import Codrik.Runtime.Sqlite.Mailboxes
import Codrik.Runtime.Sqlite.BundleProtocol
import Codrik.Interfaces.BundleWire
import Codrik.Runtime.Sqlite.LinkLimits
import Codrik.Runtime.Sqlite.LinkCodes
import Codrik.Interfaces.Reticulum.Framing
import Codrik.Interfaces.Reticulum.Settling
import Codrik.Runtime.StreamFollowing
import Codrik.Interfaces.Reticulum.Ingress
import Codrik.Interfaces.Telegram.Redelivery
import Codrik.Runtime.Ipc.RequestFrames
import Codrik.Runtime.Dispatcher
import Codrik.Runtime.OutboxWorker
import Codrik.Interfaces.Telegram.Polling
import Codrik.Interfaces.RequestMetadata
import Codrik.Runtime.Ipc.DeliverySinks
