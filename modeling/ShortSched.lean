import ShortSched.General.Runs
import ShortSched.General.LevelQueues
import ShortSched.General.Ledger
import ShortSched.Machine
import ShortSched.RunqueueTheorems
import ShortSched.Layout
import ShortSched.WakeTheorems
import ShortSched.TickTheorems
import ShortSched.NiceTheorems
import ShortSched.SetschedulerTheorems
import ShortSched.Invariant
import ShortSched.ScheduleTheorems
import ShortSched.YieldTheorems
import ShortSched.ClassInvariant
import ShortSched.InvariantSteps
import ShortSched.OfTasks
import ShortSched.RunqueueRuns
import ShortSched.SchedulingOrder
import ShortSched.Preemption
import ShortSched.Reprioritise
import ShortSched.RequestedTime
import ShortSched.ForkTheorems
import ShortSched.StepTheorems
import ShortSched.LifeCycle
import ShortSched.TaskList
import ShortSched.NiceRuns
import ShortSched.ShortOrder
import ShortSched.ForkSafety
import ShortSched.ShortFork
import ShortSched.Links
import ShortSched.Starvation
import ShortSched.Budget
import ShortSched.ConsumedTime
import ShortSched.TimeSteps
import ShortSched.RunningTime
import ShortSched.SysNice
import ShortSched.ForkReap
import ShortSched.FirstSlices
import ShortSched.ShortLinks
import ShortSched.Family
import ShortSched.Hw2Syscalls
import ShortSched.WasShort
import ShortSched.TimeSlices
import ShortSched.Atomicity
import ShortSched.RoundRobin
import ShortSched.Getparam
import ShortSched.Interactivity
import ShortSched.Smp
import ShortSched.LoadBalance
import ShortSched.IdleBalance
import ShortSched.LinkedRunqueue
import ShortSched.LinkedTheorems
import ShortSched.LinkedRuns
import ShortSched.General.HashChains
import ShortSched.Pids
import ShortSched.PidTheorems
import ShortSched.PidRuns
import ShortSched.SleepStates
import ShortSched.Waiting
import ShortSched.WaitTheorems
import ShortSched.WaitInvariant
import ShortSched.WaitSteps
import ShortSched.Vfork
import ShortSched.WaitRuns
import ShortSched.WaitEvents
import ShortSched.Balancing
import ShortSched.General.SpinLocks
import ShortSched.Locks
import ShortSched.LockTheorems
import ShortSched.LockRuns
import ShortSched.Migration
import ShortSched.MigrationInvariant
import ShortSched.MigrationSteps
import ShortSched.AffinityRuns
import ShortSched.MigrationReturns
