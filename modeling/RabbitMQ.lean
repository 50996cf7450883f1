import RabbitMQ.Client
import RabbitMQ.Client.Agreement
import RabbitMQ.Client.GracefulShutdown
import RabbitMQ.Client.Options
import RabbitMQ.Client.PublishWithCache
import RabbitMQ.Client.PublishWithCache.Freshness
import RabbitMQ.Client.Refinement
import RabbitMQ.Client.Shutdown
import RabbitMQ.Client.Stranding
import RabbitMQ.Client.Truthful
import RabbitMQ.Client.Waiters
import RabbitMQ.Connection.Backoff
import RabbitMQ.Connection.Budget
import RabbitMQ.Connection.ChannelPool
import RabbitMQ.Connection.ChannelPool.Closing
import RabbitMQ.Connection.ChannelPool.Dedicated
import RabbitMQ.Connection.ChannelPool.Owners
import RabbitMQ.Connection.ChannelPool.Rotation
import RabbitMQ.Connection.ChannelPool.Slots
import RabbitMQ.Connection.Connection
import RabbitMQ.Connection.ConnectionString
import RabbitMQ.Connection.Lifecycle
import RabbitMQ.Connection.Ownership
import RabbitMQ.Connection.Reenabling
import RabbitMQ.Connection.Running
import RabbitMQ.Connection.Shutdown
import RabbitMQ.Consumers.ConsumePipeline
import RabbitMQ.Consumers.ConsumePipeline.Account
import RabbitMQ.Consumers.ConsumePipeline.Aside
import RabbitMQ.Consumers.ConsumePipeline.Containment
import RabbitMQ.Consumers.ConsumePipeline.Custody
import RabbitMQ.Consumers.ConsumePipeline.Decisions
import RabbitMQ.Consumers.ConsumePipeline.Reports
import RabbitMQ.Consumers.ConsumePipeline.Results
import RabbitMQ.Consumers.ConsumePipeline.Settlement
import RabbitMQ.Consumers.ConsumePipeline.Stages
import RabbitMQ.Consumers.ConsumerManager
import RabbitMQ.Consumers.ConsumerManager.Budget
import RabbitMQ.Consumers.ConsumerManager.Channels
import RabbitMQ.Consumers.ConsumerManager.Consumers
import RabbitMQ.Consumers.ConsumerManager.Duplicates
import RabbitMQ.Consumers.ConsumerManager.Episodes
import RabbitMQ.Consumers.ConsumerManager.Epochs
import RabbitMQ.Consumers.ConsumerManager.Frame
import RabbitMQ.Consumers.ConsumerManager.Holding
import RabbitMQ.Consumers.ConsumerManager.Leaving
import RabbitMQ.Consumers.ConsumerManager.Moves
import RabbitMQ.Consumers.ConsumerManager.OpenChannels
import RabbitMQ.Consumers.ConsumerManager.Recovery
import RabbitMQ.Consumers.ConsumerManager.Registry
import RabbitMQ.Consumers.ConsumerManager.Resting
import RabbitMQ.Consumers.ConsumerManager.Sources
import RabbitMQ.Consumers.ConsumerManager.Tags
import RabbitMQ.Consumers.ConsumerManager.Tending
import RabbitMQ.Consumers.ConsumerManager.Unsubscribing
import RabbitMQ.Consumers.Consuming
import RabbitMQ.Consumers.Consuming.Counting
import RabbitMQ.Consumers.Consuming.Draining
import RabbitMQ.Consumers.Consuming.Parking
import RabbitMQ.Consumers.Consuming.Sheltering
import RabbitMQ.Consumers.OptimizedPrefetch
import RabbitMQ.Consumers.OptimizedPrefetch.Progress
import RabbitMQ.Consumers.RetryPolicy
import RabbitMQ.Consumers.RetryPolicy.Redelivery
import RabbitMQ.Consumers.SequentialProcessor
import RabbitMQ.Consumers.SequentialProcessor.Conservation
import RabbitMQ.Consumers.SequentialProcessor.Contents
import RabbitMQ.Consumers.SequentialProcessor.DependencyOrder
import RabbitMQ.Consumers.SequentialProcessor.Inverse
import RabbitMQ.Consumers.SequentialProcessor.Release
import RabbitMQ.Consumers.SequentialProcessor.Retention
import RabbitMQ.Consumers.SequentialProcessor.Waits
import RabbitMQ.Consumers.SequentialProcessor.Wakeup
import RabbitMQ.Consumers.Shutdown
import RabbitMQ.Consumers.Shutdown.Handlers
import RabbitMQ.Consumers.Shutdown.Interruptions
import RabbitMQ.Consumers.SubscribeParallel
import RabbitMQ.Consumers.SubscribeParallel.Pools
import RabbitMQ.Consumers.WorkerPool
import RabbitMQ.Consumers.WorkerPool.Bookkeeping
import RabbitMQ.Consumers.WorkerPool.Reuse
import RabbitMQ.Consumers.WorkerPool.Workers
import RabbitMQ.Lib.Binary64
import RabbitMQ.Lib.Meter
import RabbitMQ.Lib.Number
import RabbitMQ.Lib.Observation
import RabbitMQ.Lib.OrderedMap
import RabbitMQ.Lib.PercentEncoding
import RabbitMQ.Lib.RoundRobin
import RabbitMQ.Lib.Timer
import RabbitMQ.Lib.Transition
import RabbitMQ.Lib.Update
import RabbitMQ.Messaging.FireAndForget
import RabbitMQ.Messaging.FireAndForget.Waiting
import RabbitMQ.Messaging.MessageCodec
import RabbitMQ.Messaging.PublishBatch
import RabbitMQ.Messaging.Publisher
import RabbitMQ.Messaging.Publisher.Metering
import RabbitMQ.Messaging.RoutablePublish
import RabbitMQ.Messaging.Rpc
import RabbitMQ.Messaging.Rpc.Conversation
import RabbitMQ.Messaging.Rpc.Conversation.Answers
import RabbitMQ.Messaging.Rpc.Conversation.Deadlines
import RabbitMQ.Messaging.Rpc.Conversation.Requester
import RabbitMQ.Messaging.Rpc.ReplyRoute
import RabbitMQ.Messaging.Rpc.ReplyRoute.Freshness
import RabbitMQ.Messaging.Rpc.ReplyRoute.Live
import RabbitMQ.Messaging.Rpc.Respond
import RabbitMQ.Messaging.Rpc.Respond.Calls
import RabbitMQ.Messaging.Rpc.Respond.Outcome
import RabbitMQ.Messaging.Rpc.Respond.Progress
import RabbitMQ.Messaging.Rpc.Settlement
import RabbitMQ.Messaging.Topology
import RabbitMQ.Messaging.Topology.DeadLetters
import RabbitMQ.Messaging.Topology.Probes
import RabbitMQ.Resilience.CircuitBreaker
import RabbitMQ.Resilience.RateLimiter
import RabbitMQ.Resilience.RateLimiter.Admissions
import RabbitMQ.Resilience.RateLimiter.Blocking
import RabbitMQ.Resilience.RateLimiter.Bursts
import RabbitMQ.Resilience.RateLimiter.Disposal
import RabbitMQ.Resilience.RateLimiter.Doubles
import RabbitMQ.Resilience.RateLimiter.Doubles.Capacity
import RabbitMQ.Resilience.RateLimiter.Doubles.Exactness
import RabbitMQ.Resilience.RateLimiter.Doubles.Quotas
import RabbitMQ.Resilience.RateLimiter.Doubles.Runs
import RabbitMQ.Resilience.RateLimiter.Doubles.Statuses
import RabbitMQ.Resilience.RateLimiter.Doubles.WholeNumbers
import RabbitMQ.Resilience.RateLimiter.History
import RabbitMQ.Resilience.RateLimiter.Housekeeping
import RabbitMQ.Resilience.RateLimiter.Isolation
import RabbitMQ.Resilience.RateLimiter.Pacing
import RabbitMQ.Resilience.RateLimiter.Retention
import RabbitMQ.Resilience.RateLimiter.Stamps
import RabbitMQ.Resilience.RateLimiter.Sweeps
import RabbitMQ.Resilience.RateLimiter.Windows
import RabbitMQ.Resilience.Strategies.FixedWindow
import RabbitMQ.Resilience.Strategies.TokenBucket
import RabbitMQ.Resilience.Strategies.WindowLog
import RabbitMQ.Utils.DescribeError
import RabbitMQ.Utils.EmitSafely
