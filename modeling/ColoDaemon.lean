import ColoDaemon.Runs
import ColoDaemon.SortedInsert
import ColoDaemon.EventQueue
import ColoDaemon.EventLoop
import ColoDaemon.Cpg
import ColoDaemon.YellowCoroutine
import ColoDaemon.Daemon
import ColoDaemon.MainCoroutine
import ColoDaemon.DaemonStep
import ColoDaemon.Callbacks
import ColoDaemon.StepCases
import ColoDaemon.MainTurns
import ColoDaemon.Promotion
import ColoDaemon.EventLoss
import ColoDaemon.Wakeup
import ColoDaemon.Arbitration
import ColoDaemon.LateMessage
import ColoDaemon.Fencing
import ColoDaemon.DiskError
import ColoDaemon.YellowRetransmit
import ColoDaemon.FreshWin
import ColoDaemon.BeforeFailover
import ColoDaemon.SplitBrain
import ColoDaemon.ControlFlow
import ColoDaemon.StaleRequest
import ColoDaemon.OwnYank
import ColoDaemon.YellowPrimary
import ColoDaemon.RaiseTimeout
import ColoDaemon.CommandStore
import ColoDaemon.ArrayIsolation
import ColoDaemon.Joining
import ColoDaemon.QmpChannel
import ColoDaemon.QmpMoves
import ColoDaemon.QmpAnswers
import ColoDaemon.HealthCheck
import ColoDaemon.NoFalseAlarm
import ColoDaemon.ResourceAgent
import ColoDaemon.HalfOverwritten
import ColoDaemon.JsonText
import ColoDaemon.FindSecondary
import ColoDaemon.PlainWait
import ColoDaemon.Autoquit
import ColoDaemon.ClassFifo
import ColoDaemon.EventFifo
import ColoDaemon.YellowFrames
import ColoDaemon.YellowHistory
import ColoDaemon.PolledCall
import ColoDaemon.ChannelIo
import ColoDaemon.Json
import ColoDaemon.YankInstances
import ColoDaemon.ClientRequests
import ColoDaemon.ManagementValues
import ColoDaemon.QmpFrames
import ColoDaemon.QmpBalance
import ColoDaemon.QmpErrors
import ColoDaemon.ClientAnswers
import ColoDaemon.CoroutineStack
import ColoDaemon.YellowStack
import ColoDaemon.CoroutineCalls
import ColoDaemon.QList
import ColoDaemon.CallbackList
import ColoDaemon.PidFile
import ColoDaemon.AgentCalls
import ColoDaemon.AgentHost
import ColoDaemon.LogRotation
import ColoDaemon.Daemonize
import ColoDaemon.Watchdog
import ColoDaemon.Teardown
import ColoDaemon.FreedMain
import ColoDaemon.ListenerDrain
import ColoDaemon.StoppedQemu
import ColoDaemon.CpgGroup
