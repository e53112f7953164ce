import NetCore.TransitionRuns
import NetCore.UniquePlacement
import NetCore.FuelLoop
import NetCore.ByteMemory
import NetCore.PendingViews
import NetCore.PacketFraming
import NetCore.SegmentedReceive
import NetCore.ReaderWriterLock
import NetCore.LockExclusion
import NetCore.SendBufferPool
import NetCore.SendBufferOwnership
import NetCore.SendBufferBounds
import NetCore.SendBufferLayout
import NetCore.ThreadIdentity
import NetCore.ThreadStart
import NetCore.StartUpExclusion
import NetCore.LockQueue
import NetCore.JobSerializer
import NetCore.ExecutionRight
import NetCore.SerializedExecution
import NetCore.JobOrder
import NetCore.ExecutionTurns
import NetCore.JobStorage
import NetCore.SendPipeline
import NetCore.SendConservation
import NetCore.SendQuiescence
import NetCore.PacketOrder
import NetCore.SendOverlap
import NetCore.CompletionPort
import NetCore.SessionLife
import NetCore.SessionListening
import NetCore.SessionTeardown
import NetCore.ServiceObjects
import NetCore.ObjectLifetime
import NetCore.MemoryTable
import NetCore.MemoryPools
import NetCore.PoolDiscipline
import NetCore.PacketGrammar
import NetCore.FrameSerialization
import NetCore.PriorityQueue
import NetCore.ReservedJobs
import NetCore.ReservationOrder
import NetCore.JobSystem
import NetCore.Schedulability
import NetCore.Cancellation
import NetCore.ClientServiceEx
import NetCore.TaskCompletion
import NetCore.SocketConservation
import NetCore.AcceptTokens
import NetCore.SessionAccounting
import NetCore.ReceiveBuffer
import NetCore.SendFailures
import NetCore.GuardNesting
import NetCore.ExecutionNesting
import NetCore.JobDataRelease
import NetCore.ReservedBytes
import NetCore.ServiceCalls
import NetCore.FailedCalls
import NetCore.ConnectOutcome
import NetCore.TaskQueries
import NetCore.TableConstruction
import NetCore.AllocationSizes
import NetCore.PopSequence
import NetCore.QueueDraining
import NetCore.DrainedJobs
import NetCore.Linearizations
import NetCore.HeldGuards
import NetCore.GuardedObjects
import NetCore.LockContainers
import NetCore.ContainerHistories
import NetCore.JobEffects
import NetCore.EndingRuns
import NetCore.JobCompletion
import NetCore.SendBufferGrowth
import NetCore.SendStream
import NetCore.WireFrames
import NetCore.PriorityHistories
import NetCore.StackHistories
import NetCore.ReceiveStream
import NetCore.ReceiveOrder
import NetCore.PoolGrowth
import NetCore.LockProgress
import NetCore.GuardedProgress
import NetCore.PacketDelivery
import NetCore.ReservedExecution
