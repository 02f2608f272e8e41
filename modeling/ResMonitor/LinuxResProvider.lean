import ResMonitor.ResStates

/-! # CPU readings on Linux

The provider turns the counters of `/proc/stat` and of `times` into
percentages of the time since its last reading. A counter that went backwards
makes it answer -1 instead. The counters themselves are parameters. -/

namespace ResMonitor

/-- The first four counters of `/proc/stat`. -/
structure CpuTimes where
  totalUser : UInt64
  totalNiced : UInt64
  totalSys : UInt64
  totalIdle : UInt64
  deriving DecidableEq, Repr

/-- What `times` returns and stores: clock ticks since boot, and those spent in
the system and by the user. -/
structure ProcessTimes where
  cpu : Int
  stime : Int
  utime : Int
  deriving DecidableEq, Repr

structure LinuxResProvider where
  /-- `lastTotalUser`, `lastTotalNiced`, `lastTotalSys`, `lastTotalIdle` -/
  lastTotal : CpuTimes
  /-- `lastCPU`, `lastSysCPU`, `lastUserCPU` -/
  last : ProcessTimes
  numProcessors : Int
  deriving DecidableEq, Repr

/-- One of the counters is below its last reading. -/
def CpuTimes.WentBackwards (last now : CpuTimes) : Prop :=
  now.totalUser < last.totalUser ∨ now.totalNiced < last.totalNiced ∨
    now.totalSys < last.totalSys ∨ now.totalIdle < last.totalIdle

instance (last now : CpuTimes) : Decidable (last.WentBackwards now) := by
  unfold CpuTimes.WentBackwards
  infer_instance

def ProcessTimes.WentBackwards (last now : ProcessTimes) : Prop :=
  now.cpu ≤ last.cpu ∨ now.stime < last.stime ∨ now.utime < last.utime

instance (last now : ProcessTimes) : Decidable (last.WentBackwards now) := by
  unfold ProcessTimes.WentBackwards
  infer_instance

namespace LinuxResProvider
variable {F : Type} [Double F]

def getSystemCpuUsage (p : LinuxResProvider) (now : CpuTimes) : F × LinuxResProvider :=
  let percent : F :=
    if p.lastTotal.WentBackwards now then
      -- overflow detection: the reading is to be skipped
      ((-1 : Int) : F)
    else
      let busy := (now.totalUser - p.lastTotal.totalUser) +
        (now.totalNiced - p.lastTotal.totalNiced) + (now.totalSys - p.lastTotal.totalSys)
      let total := busy + (now.totalIdle - p.lastTotal.totalIdle)
      ((busy.toNat : Int) : F) / ((total.toNat : Int) : F) * ((100 : Int) : F)
  (percent, { p with lastTotal := now })

def getSelfCpuUsage (p : LinuxResProvider) (now : ProcessTimes) : F × LinuxResProvider :=
  let percent : F :=
    if p.last.WentBackwards now then ((-1 : Int) : F)
    else
      (((now.stime - p.last.stime) + (now.utime - p.last.utime) : Int) : F) /
        ((now.cpu - p.last.cpu : Int) : F) / ((p.numProcessors : Int) : F) * ((100 : Int) : F)
  (percent, { p with last := now })

def getCpuState (p : LinuxResProvider) (total : CpuTimes) (now : ProcessTimes) :
    CpuState F × LinuxResProvider :=
  let (cpuInUse, p) := p.getSystemCpuUsage total
  let (monitorCpuInUse, p) := p.getSelfCpuUsage now
  (⟨cpuInUse, monitorCpuInUse⟩, p)

theorem getCpuState_of_wentBackwards {p : LinuxResProvider} {total : CpuTimes}
    (h : p.lastTotal.WentBackwards total) (now : ProcessTimes) :
    ((p.getCpuState total now).1 : CpuState F).cpuInUsePercentage = ((-1 : Int) : F) := by
  simp only [getCpuState, getSystemCpuUsage, if_pos h]

end LinuxResProvider

end ResMonitor
