import MapGo.Basic
import MapGo.Transition
import MapGo.Worker.Store
import MapGo.Worker.Process
import MapGo.Worker.Fencing
import MapGo.Worker.Delivery
import MapGo.Worker.Notifications
import MapGo.Companion.Consent
import MapGo.Companion.Ingestion
import MapGo.Precedence
import MapGo.Tracking
import MapGo.Route.Schema
import MapGo.Route.Evaluate
import MapGo.Route.Optimize
import MapGo.Route.Soundness
import MapGo.Route.Search
import MapGo.Route.BeamOrder
import MapGo.Route.Simulation
import MapGo.Route.Timeline
import MapGo.Route.Detour
import MapGo.Route.Timing
import MapGo.Route.Rating
import MapGo.ListEdit
import MapGo.Patch.Structure
import MapGo.Patch.Replan
import MapGo.Patch.Encoding
import MapGo.Patch.Proposal
import MapGo.Patch.Validate
import MapGo.Patch.Versioning
import MapGo.Patch.Acceptance
import MapGo.Patch.Exactness
import MapGo.Patch.Obligations
import MapGo.Patch.WellFormed
import MapGo.Patch.Protection
import MapGo.Patch.Review
import MapGo.Patch.Dynamic
import MapGo.Patch.Labels
import MapGo.Patch.Resume
import MapGo.Companion.TripEvents
import MapGo.Companion.TripState
import MapGo.Companion.ReplanBudget
import MapGo.Companion.TripVersions
import MapGo.Companion.LiveTrips
import MapGo.Companion.TripStream
import MapGo.Companion.CompletedStops
import MapGo.Postcondition
import MapGo.Planning.Schema
import MapGo.Planning.WrittenTimes
import MapGo.Planning.TimeZones
import MapGo.Planning.Evaluation
import MapGo.Planning.Critic
import MapGo.Planning.Orchestrator
import MapGo.Planning.Service
import MapGo.Planning.Handoffs
import MapGo.Planning.Protocol
import MapGo.Planning.Enforcement
import MapGo.Attempts
import MapGo.Generation
import MapGo.Runtime.Lock
import MapGo.Runtime.Values
import MapGo.Shared.State
import MapGo.Shared.Protocol
import MapGo.Shared.FormalPlan
import MapGo.Shared.Restarts
import MapGo.Transport.Schema
import MapGo.Transport.Worker
import MapGo.Transport.Memory
import MapGo.Transport.Stream
import MapGo.Transport.Copies
import MapGo.Transport.Bounded
import MapGo.Messages.Router
import MapGo.Messages.Memory
import MapGo.Messages.Poison
import MapGo.Exits
import MapGo.Planning.Workflow
import MapGo.Planning.Operations
import MapGo.Planning.Finalization
import MapGo.Planning.TraceBounds
import MapGo.Planning.Idempotency
import MapGo.Json
import MapGo.Records
import MapGo.Text
import MapGo.Regex
import MapGo.Conversation.Request
import MapGo.Conversation.Answers
import MapGo.Conversation.Continuation
import MapGo.Conversation.Failure
import MapGo.Conversation.Preferences
import MapGo.Conversation.Constraints
import MapGo.Conversation.Questions
import MapGo.Conversation.Answerable
import MapGo.Conversation.Closure
import MapGo.Server.BodyLimit
import MapGo.Agents.Tools
import MapGo.Agents.Runtime
import MapGo.Agents.ToolLoop
import MapGo.Agents.RunCost
import MapGo.Planning.TaskGraph
import MapGo.Companion.StateUpdates
import MapGo.Intent.RuleParser
import MapGo.Intent.Totality
import MapGo.Loaded
import MapGo.Planning.CriticCall
import MapGo.Transport.Replies
import MapGo.Agents.Search
import MapGo.JsonPath
import MapGo.Agents.Minimization
import MapGo.Assoc
import MapGo.Server.ProxyCache
import MapGo.Runtime.Counters
import MapGo.Messages.Idempotency
import MapGo.Runtime.Queues
import MapGo.Runtime.ValueBounds
import MapGo.Runtime.CompareSet
import MapGo.Maps.DistanceMatrix
import MapGo.Maps.Circuit
import MapGo.Canonical
import MapGo.Messages.Integrity
import MapGo.Agents.Planner
import MapGo.Choice
import MapGo.Planning.Uncertainty
import MapGo.Server.Stats
import MapGo.Browser.RouteOrder
import MapGo.Agents.Gate
import MapGo.Patch.Representable
import MapGo.Route.Timetable
import MapGo.Patch.Agreement
import MapGo.Regex.Append
import MapGo.Intent.Appended
import MapGo.Pacing
import MapGo.Runtime.RateWindows
import MapGo.Server.RateLimit
import MapGo.Server.AiBudget
import MapGo.Maps.PoiSearch
import MapGo.Agents.Recall
import MapGo.Planning.Supervisor
import MapGo.Agents.McpClient
import MapGo.Conversation.Memory
import MapGo.Server.Passwords
import MapGo.Server.Accounts
import MapGo.Server.Friends
import MapGo.Server.Leaderboard
