import Mathlib.Data.Int.Basic

/-!
# Constants and unit conversions of `sched.h` and `sched.c`

`asm/param.h` is not in the tree, so the tick rate `HZ` is a parameter of everything below. Its
range has the 100 of i386, which the tree is for; the ports with `HZ` 1024 are outside of it.
-/

namespace ShortSched

/-- The kernel's tick rate, `HZ` of `asm/param.h`. -/
class Param where
  hz : ℕ
  hz_ge : 100 ≤ hz
  hz_le : hz ≤ 1000

export Param (hz hz_ge hz_le)

/-! ## Priorities -/

/-- `MAX_USER_RT_PRIO` -/
@[simp] def maxUserRtPrio : ℤ := 100

/-- `MAX_RT_PRIO` -/
@[simp] def maxRtPrio : ℤ := maxUserRtPrio

/-- `MAX_PRIO` -/
@[simp] def maxPrio : ℤ := maxRtPrio + 40

/-- `OVERDUE_PRIO` -/
@[simp] def overduePrio : ℤ := 139

/-- `NICE_TO_PRIO` -/
@[simp] def niceToPrio (nice : ℤ) : ℤ := maxRtPrio + nice + 20

/-- `PRIO_TO_NICE` -/
@[simp] def prioToNice (prio : ℤ) : ℤ := prio - maxRtPrio - 20

/-- `USER_PRIO` -/
@[simp] def userPrio (p : ℤ) : ℤ := p - maxRtPrio

/-- `MAX_USER_PRIO` -/
@[simp] def maxUserPrio : ℤ := userPrio maxPrio

/-! ## Tuning knobs -/

def prioBonusRatio : ℤ := 25
def interactiveDelta : ℤ := 2
def childPenalty : UInt32 := 95
def parentPenalty : UInt32 := 100
def exitWeight : UInt32 := 3

/-- `SCALE(v1, v1_max, v2_max)`, with C's division. -/
def scale (v1 v1Max v2Max : ℤ) : ℤ := (v1 * v2Max).tdiv v1Max

section hz
variable [Param]

/-- `MIN_TIMESLICE` -/
def minTimeslice : ℤ := 10 * hz / 1000

/-- `MAX_TIMESLICE` -/
def maxTimeslice : ℤ := 300 * hz / 1000

/-- `MAX_SLEEP_AVG` -/
def maxSleepAvg : UInt32 := UInt32.ofNat (2 * hz)

/-- `STARVATION_LIMIT` -/
def starvationLimit : ℤ := 2 * hz

/-! ## Requested times

`int` and `unsigned int` are 32 bits wide and wrap around. -/

/-- `CHANGE_MS_TO_JIFFIS`, an `int` product divided with truncation. -/
def changeMsToJiffis (hez : Int32) : Int32 := hez * Int32.ofNat hz / 1000

/-- `CHANGE_JIFFIS_TO_MS` of an `int` -/
def changeJiffisToMs (jifs : Int32) : Int32 := jifs * 1000 / Int32.ofNat hz

/-- `MAX_REQUESTED_TIME` -/
def maxRequestedTime : Int32 := changeMsToJiffis 3000

end hz

/-- `MIN_REQUESTED_TIME` -/
def minRequestedTime : Int32 := 1

/-- `INVALID_REQUESTED_TIME` -/
def invalidRequestedTime : Int32 := 0

/-! ## Error numbers and clone flags -/

def ePERM : ℤ := 1
def eSRCH : ℤ := 3
def eFAULT : ℤ := 14
def eINVAL : ℤ := 22

def cloneFs : UInt32 := 0x00000200
def clonePid : UInt32 := 0x00001000
def clonePtrace : UInt32 := 0x00002000
def cloneVfork : UInt32 := 0x00004000
def cloneParent : UInt32 := 0x00008000
def cloneNewns : UInt32 := 0x00020000

def pfForknoexec : UInt32 := 0x00000040
def pfSuperpriv : UInt32 := 0x00000100
def pfUsedfpu : UInt32 := 0x00100000
def ptPtraced : UInt32 := 0x00000001

end ShortSched
