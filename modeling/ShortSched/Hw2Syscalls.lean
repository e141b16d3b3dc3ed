import ShortSched.Sched

/-!
# `hw2_syscalls.c`

Three system calls that read the scheduling fields of a process by its pid.
-/

namespace ShortSched
namespace Sys

/-- `GET_PROCESS_AND_RETURN_IF_MISSING` -/
def getProcess (pid : ℤ) (s : Sys) : Except ℤ TaskId :=
  if pid < 0 then .error (-eINVAL)
  else match s.findTaskByPid pid with
    | none => .error (-eSRCH)
    | some p => .ok p

/-- What the three calls share: an answer `f` about a process of a policy that they are for. -/
def askProcess (pid : ℤ) (applies : TaskSched → Bool) (f : TaskSched → ℤ) (s : Sys) : ℤ :=
  match s.getProcess pid with
  | .error e => e
  | .ok p => if applies (s.task p).toTaskSched then f (s.task p).toTaskSched else -eINVAL

/-- `sys_is_short` -/
def sysIsShort (pid : ℤ) (s : Sys) : ℤ :=
  s.askProcess pid (fun p => p.policy = .short) fun p => if p.iAmOverdue = 0 then 1 else 0

/-- `sys_short_remaining_time`: `CHANGE_JIFFIS_TO_MS` of an `unsigned int`, returned as an
`int`. -/
def sysShortRemainingTime [Param] (pid : ℤ) (s : Sys) : ℤ :=
  s.askProcess pid (fun p => p.policy = .short) fun p =>
    (p.timeSlice * 1000 / UInt32.ofNat hz).toInt32.toInt

/-- `sys_was_short` -/
def sysWasShort (pid : ℤ) (s : Sys) : ℤ :=
  s.askProcess pid (fun p => p.policy ≠ .short) fun p => p.iWasShort

end Sys
end ShortSched
