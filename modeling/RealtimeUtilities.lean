import RealtimeUtilities.Tasks.ExactlyOnce
import RealtimeUtilities.Tasks.StopRequests
import RealtimeUtilities.Tasks.Shutdown
import RealtimeUtilities.Tasks.Cycles
import RealtimeUtilities.Tasks.Termination
import RealtimeUtilities.IPC.BondRace
import RealtimeUtilities.IPC.Sequential
import RealtimeUtilities.IPC.Overlapping
import RealtimeUtilities.IPC.Bytewise
import RealtimeUtilities.IPC.Lifecycle
import RealtimeUtilities.IPC.Watchdog
import RealtimeUtilities.Timer.Deadline
import RealtimeUtilities.Timer.CatchUp
import RealtimeUtilities.Timer.Schedule
import RealtimeUtilities.Diagnostics.Interface
import RealtimeUtilities.Diagnostics.Queue
import RealtimeUtilities.CircBuffer.Basic
import RealtimeUtilities.TimeSpan.Tracker
import RealtimeUtilities.TimeSpan.History
import RealtimeUtilities.TimeSpan.Measured
import RealtimeUtilities.CircBuffer.Consumer
import RealtimeUtilities.CircBuffer.Readers
import RealtimeUtilities.IPC.Stall
import RealtimeUtilities.IPC.Punctual
import RealtimeUtilities.TimeSpan.Statistics
import RealtimeUtilities.TimeSpan.Window
import RealtimeUtilities.CircBuffer.Stamped
import RealtimeUtilities.CircBuffer.Contents
import RealtimeUtilities.IPC.Latency
import RealtimeUtilities.Timer.SyncOffset
import RealtimeUtilities.Diagnostics.Performance
import RealtimeUtilities.Diagnostics.Trackers
import RealtimeUtilities.Double.Rounding
import RealtimeUtilities.Double.Error
import RealtimeUtilities.Timer.Difference
import RealtimeUtilities.Timer.Order
import RealtimeUtilities.Timer.Seconds
import RealtimeUtilities.Timer.Periodic
import RealtimeUtilities.IPC.Construction
import RealtimeUtilities.IPC.Detached
import RealtimeUtilities.IPC.Sizes
import RealtimeUtilities.Startup.Prefault
import RealtimeUtilities.Startup.Faults
import RealtimeUtilities.SharedMutex.HandedOut
import RealtimeUtilities.SharedMutex.Agreement
import RealtimeUtilities.IPC.Concurrent
import RealtimeUtilities.IPC.OneMutex
import RealtimeUtilities.IPC.Uninterrupted
import RealtimeUtilities.IPC.Stranded
