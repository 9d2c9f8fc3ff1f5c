import Osh.ActiveRuns
import Osh.BlockedRuns
import Osh.CounterRuns
import Osh.DispatchRuns
import Osh.EndedRuns
import Osh.ExpiredRuns
import Osh.Highwater
import Osh.IdleAlone
import Osh.IdleRuns
import Osh.MutexRuns
import Osh.Overtaking
import Osh.PriorityRuns
import Osh.Processor
import Osh.Progress
import Osh.QueueIsr
import Osh.QueueOnlyRuns
import Osh.RestartRuns
import Osh.RosterRuns
import Osh.RoundRuns
import Osh.RunTime
import Osh.RunnableAgain
import Osh.RwlockGrants
import Osh.SemaphoreRuns
import Osh.SleepRuns
import Osh.SuspendRuns
import Osh.SwitchRuns
import Osh.WakeRuns
