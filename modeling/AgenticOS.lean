import AgenticOS.Persistent.TaskQueue.Attempts
import AgenticOS.Pipelines.Completion
import AgenticOS.OmniRoute.Budgets.Windows
import AgenticOS.OmniRoute.Scheduler.Agreement
import AgenticOS.OmniRoute.Scheduler.Fairness
import AgenticOS.OmniRoute.Scheduler.Overdue
import AgenticOS.OmniRoute.Scheduler.Workers
import AgenticOS.OmniRoute.CircuitBreaker.FailureRate
import AgenticOS.OmniRoute.CircuitBreaker.Evidence
import AgenticOS.OmniRoute.Learning.Reads
import AgenticOS.OmniRoute.Learning.Trends
import AgenticOS.OmniRoute.RateLimiter.TokenRate
import AgenticOS.OmniRoute.RateLimiter.WindowLimit
import AgenticOS.OmniRoute.RateLimiter.LeakyReads
import AgenticOS.OmniRoute.Executor.Quorum
import AgenticOS.OmniRoute.Executor.Retries
import AgenticOS.Orchestration.Agreement
import AgenticOS.Orchestration.TaskOrchestrator.Cancellation
import AgenticOS.Orchestration.Recovery
import AgenticOS.Orchestration.ResultMerger
import AgenticOS.Orchestration.SwarmIntelligence
import AgenticOS.Pipelines.Dependence
import AgenticOS.Workflows.Versions
import AgenticOS.Workflows.Approvals
import AgenticOS.Workflows.Cancellation
import AgenticOS.Workflows.Pinning
import AgenticOS.EventBus.Progress
import AgenticOS.Mcp.Accounting
import AgenticOS.Orchestrator.Release
import AgenticOS.Orchestrator.Extraction
import AgenticOS.Packages.Rollback
import AgenticOS.Packages.RoundTrip
import AgenticOS.Plugins.Closure
import AgenticOS.Plugins.Resolution
import AgenticOS.Swarm.Membership
import AgenticOS.Swarm.Counterfactual.Universes
import AgenticOS.Cluster.Consensus
import AgenticOS.Cluster.Leadership
import AgenticOS.Cluster.RegistryMap
import AgenticOS.Cluster.Failover
import AgenticOS.Distributed.Replication
import AgenticOS.Distributed.EventBus
import AgenticOS.Distributed.Heartbeats
import AgenticOS.Distributed.Lifecycle
import AgenticOS.OmniRoute.Aggregation.ExtractJson
import AgenticOS.OmniRoute.Aggregation.LeastQuantity
import AgenticOS.OmniRoute.Aggregation.OrderIndependence
import AgenticOS.OmniRoute.Aggregation.Similarity
import AgenticOS.Persistent.JobScheduler
import AgenticOS.Persistent.JobRuns
import AgenticOS.Security.Authorization
import AgenticOS.Security.SingleUse
import AgenticOS.Security.AirGap
import AgenticOS.Security.Workspaces
import AgenticOS.Security.Egress.Exactness
import AgenticOS.Executive.GoalManager
import AgenticOS.Costs.Ledger
import AgenticOS.Container.Cycles
import AgenticOS.Lifecycle.StaysStopped
import AgenticOS.Desktop.Download
import AgenticOS.Desktop.Version
import AgenticOS.Ecosystem.Mirror
import AgenticOS.OmniRoute.RateLimiter.Permits
import AgenticOS.OmniRoute.RoutingPolicies.Precedence
import AgenticOS.OmniRoute.RoutingPolicies.Restrictive
import AgenticOS.OmniRoute.Router.Ranking
