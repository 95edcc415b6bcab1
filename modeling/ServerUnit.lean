import ServerUnit.WorkerNode.Acknowledgement
import ServerUnit.SenderUnit.SenderCore
import ServerUnit.Sched.Timeout
import ServerUnit.PacketProcessor.Validator
import ServerUnit.Server.Rules
import ServerUnit.PacketProcessor.Results
import ServerUnit.Server.Isolation
import ServerUnit.Server.Readiness
import ServerUnit.SenderUnit.Offers
import ServerUnit.SenderUnit.TemplateUpdate
import ServerUnit.Server.Reachable
import ServerUnit.SenderUnit.Dispatch
import ServerUnit.Server.Deadlock
import ServerUnit.Server.Atomic
import ServerUnit.Services.FileLog
import ServerUnit.Services.MonitorUserTable
import ServerUnit.DataExtractor.UserTables
import ServerUnit.Lib.LinkedList
import ServerUnit.Sched.TaskPool
import ServerUnit.Sched.TaskScheduler
import ServerUnit.Sched.Conservation
import ServerUnit.Sched.Occupancy
import ServerUnit.SenderUnit.TemplateCopies
import ServerUnit.WorkerNode.Identities
import ServerUnit.PacketProcessor.StatusUpdates
import ServerUnit.Sched.Removal
import ServerUnit.PacketProcessor.FinalResults
import ServerUnit.Server.Calls
import ServerUnit.SenderUnit.TemplateRace
import ServerUnit.PacketProcessor.Reception
import ServerUnit.DataExtractor.Registration
import ServerUnit.Sched.Handover
import ServerUnit.Server.Progress
import ServerUnit.PacketProcessor.RecordedStatus
import ServerUnit.Sched.Resend
import ServerUnit.WorkerNode.Balance
import ServerUnit.WorkerNode.SendOrder
import ServerUnit.Sched.ListLock
import ServerUnit.Sched.Strikes
import ServerUnit.SenderUnit.Reassignment
import ServerUnit.Lib.RunningMin
import ServerUnit.SenderUnit.IdealWorker
import ServerUnit.SenderUnit.StoredStats
import ServerUnit.Sink.Calls
import ServerUnit.Lib.OrderedInsert
import ServerUnit.Sink.Order
import ServerUnit.Lib.Counting
import ServerUnit.Sink.Race
import ServerUnit.SenderUnit.TemplateMerge
import ServerUnit.Sched.QuickestQueue
import ServerUnit.WorkerNode.UidDraws
import ServerUnit.Sched.ArrayBounds
import ServerUnit.PacketProcessor.Exceptions
import ServerUnit.Lib.FirstByKey
import ServerUnit.PacketProcessor.RegistryRuns
import ServerUnit.PacketProcessor.Tokenizer
import ServerUnit.WorkerNode.QueueLimits
import ServerUnit.Lib.BoundedQueue
import ServerUnit.DataExtractor.MissingFiles
import ServerUnit.Sched.PoolRuns
import ServerUnit.Lib.SqlText
import ServerUnit.Services.SqlStatement
import ServerUnit.Sched.Preemption
import ServerUnit.Socket.Session
import ServerUnit.Server.Stamps
import ServerUnit.Socket.Handlers
import ServerUnit.Socket.IoThreads
import ServerUnit.Socket.Receipts
import ServerUnit.Socket.Registrations
import ServerUnit.Lib.KeyedTable
import ServerUnit.Sched.EndlessJob
import ServerUnit.Services.InstanceTable
import ServerUnit.Services.MonitorInstanceTable
import ServerUnit.Services.RegisteredTemplates
import ServerUnit.Socket.SenderCoreThread
import ServerUnit.JsonSchema.Meaning
import ServerUnit.PacketProcessor.Schemas
import ServerUnit.JsonText.Grammar
import ServerUnit.JsonText.Numbers
import ServerUnit.JsonText.RoundTrip
import ServerUnit.PacketProcessor.PacketTexts
import ServerUnit.Socket.Texts
import ServerUnit.Socket.Overlap
