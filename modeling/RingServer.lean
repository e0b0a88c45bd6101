import RingServer.BufferQueue
import RingServer.Main
import RingServer.BufferUser
import RingServer.Kernel.Session
import RingServer.PoolUser
import RingServer.Scenario
import RingServer.Proofs.BufferRing.Interchange
import RingServer.Proofs.OwnedStack
import RingServer.Proofs.Loop.Buffers
import RingServer.Proofs.Loop.Faults
import RingServer.Proofs.Loop.Reuse
import RingServer.Proofs.LogLine
import RingServer.Proofs.Loop.Peers
import RingServer.Proofs.Loop.Refusals
import RingServer.Proofs.Loop.Bookkeeping
import RingServer.Proofs.Settings
import RingServer.Proofs.Loop.Balance
import RingServer.Proofs.Loop.Direct
import RingServer.Proofs.Loop.Reception
import RingServer.Proofs.Loop.Isolation
import RingServer.Proofs.SubmissionQueue
import RingServer.Proofs.SlotHistory
import RingServer.Proofs.Loop.Batches
import RingServer.Proofs.Loop.AccessLog
import RingServer.Proofs.WorkingSet
import RingServer.Proofs.RingParams
import RingServer.Proofs.Loan
import RingServer.Proofs.BufferRing.Contents
import RingServer.Proofs.Environment
import RingServer.Proofs.Configuration
import RingServer.Proofs.HeldSet
import RingServer.Proofs.SlotWriter
import RingServer.Proofs.Words
import RingServer.Proofs.Regions
