import ApolloContrib.Library.Run
import Mathlib.Data.BitVec
import Mathlib.Logic.Function.Basic

namespace ApolloContrib.Intr

/-! The interrupt tasklets of `basa_main.c`, register access by register access,
among the events of the hardware. -/

def ZYNQ_CHAN_MAX : Nat := 16

def ZYNQ_INTR_CH_TX (ch : Nat) : BitVec 32 := 1#32 <<< ch
def ZYNQ_INTR_CH_TX_ERR (ch : Nat) : BitVec 32 := 1#32 <<< (ch + 16)
def ZYNQ_INTR_CH_TX_ALL (ch : Nat) : BitVec 32 := ZYNQ_INTR_CH_TX ch ||| ZYNQ_INTR_CH_TX_ERR ch
def ZYNQ_INTR_CH_RX (ch : Nat) : BitVec 32 := 1#32 <<< ch
def ZYNQ_INTR_CH_RX_ERR (ch : Nat) : BitVec 32 := 1#32 <<< (ch + 16)
def ZYNQ_INTR_CH_RX_ALL (ch : Nat) : BitVec 32 := ZYNQ_INTR_CH_RX ch ||| ZYNQ_INTR_CH_RX_ERR ch

def ZYNQ_PS_INTR_GPS_PPS_CHG : BitVec 32 := 1#32 <<< 4

/-- `ZYNQ_G_INTR_STATUS_TX` and `ZYNQ_G_INTR_STATUS_RX`. -/
inductive IntrDir where
  | tx
  | rx
deriving DecidableEq, Repr

/-- `ZYNQ_CHAN_PROC_TX`, `_TX_ERR`, `_RX` and `_RX_ERR`. -/
inductive ChanProc where
  | tx
  | txErr
  | rx
  | rxErr
deriving DecidableEq, Repr

def ChanProc.dir : ChanProc → IntrDir
  | .tx | .txErr => .tx
  | .rx | .rxErr => .rx

def ChanProc.mask : ChanProc → Nat → BitVec 32
  | .tx => ZYNQ_INTR_CH_TX
  | .txErr => ZYNQ_INTR_CH_TX_ERR
  | .rx => ZYNQ_INTR_CH_RX
  | .rxErr => ZYNQ_INTR_CH_RX_ERR

structure IntrRead where
  rdIntr : BitVec 32
  wrIntr : BitVec 32
  psIntr : BitVec 32

def IntrRead.reg (intr : IntrRead) : IntrDir → BitVec 32
  | .tx => intr.rdIntr
  | .rx => intr.wrIntr

/-- `zynq_gps_pps_changed`, `zynq_chan_tx_proc`, `zynq_chan_rx_proc` and
`zynq_chan_err_proc`. -/
inductive ProcCall where
  | gps
  | tx (ch : Nat)
  | rx (ch : Nat)
  | err (ch : Nat)
deriving DecidableEq, Repr

def ChanProc.call : ChanProc → Nat → ProcCall
  | .tx => .tx
  | .rx => .rx
  | .txErr | .rxErr => .err

def zynqChanProc (ch : Nat) (status : ChanProc → Bool) : List ProcCall :=
  (if status .tx then [.tx ch] else []) ++ (if status .rx then [.rx ch] else []) ++
    (if status .txErr || status .rxErr then [.err ch] else [])

def IntrRead.status (intr : IntrRead) (ch : Nat) (p : ChanProc) : Bool :=
  intr.reg p.dir &&& p.mask ch ≠ 0

def IntrRead.gps (intr : IntrRead) : List ProcCall :=
  if intr.psIntr &&& ZYNQ_PS_INTR_GPS_PPS_CHG ≠ 0 then [.gps] else []

/-- `zynq_tasklet`, when there is one interrupt vector, and `zynq_chan_tasklet`. -/
inductive Tasklet where
  | dev
  | chan (ch : Nat)
deriving DecidableEq, Repr

def Tasklet.calls (chanCnt : Nat) : Tasklet → IntrRead → List ProcCall
  | .dev, intr =>
      intr.gps ++ (List.range chanCnt).flatMap fun ch => zynqChanProc ch (intr.status ch)
  | .chan ch, intr => intr.gps ++ zynqChanProc ch (intr.status ch)

/-- The bits written back for a status register. Nothing is written when it was
read as zero. -/
def Tasklet.ack (dir : IntrDir) (reg : BitVec 32) : Tasklet → BitVec 32
  | .dev => reg
  | .chan ch =>
      if reg = 0 then 0
      else match dir with
        | .tx => ZYNQ_INTR_CH_TX_ALL ch
        | .rx => ZYNQ_INTR_CH_RX_ALL ch

inductive TaskletPc where
  | idle
  | readRx (rdIntr : BitVec 32)
  | readPs (rdIntr wrIntr : BitVec 32)
  | proc (intr : IntrRead) (calls : List ProcCall)
  | ackTx (intr : IntrRead)
  | ackRx (intr : IntrRead)
  | ackPs (intr : IntrRead)

/-- The device of a card. There are up to 16 channels, each with a tasklet when
there is more than one interrupt vector. -/
structure IntrConfig where
  chanCnt : Nat
  perChan : Bool
  chanCnt_le : chanCnt ≤ ZYNQ_CHAN_MAX

def IntrConfig.runs (cfg : IntrConfig) : Tasklet → Prop
  | .dev => cfg.perChan = false
  | .chan ch => cfg.perChan = true ∧ ch < cfg.chanCnt

instance (cfg : IntrConfig) : ∀ t, Decidable (cfg.runs t)
  | .dev => inferInstanceAs (Decidable (cfg.perChan = false))
  | .chan ch => inferInstanceAs (Decidable (cfg.perChan = true ∧ ch < cfg.chanCnt))

/-- `raised` counts the events of a kind on a channel, and `handled` those that came
before the last call to process them. `clearedUnread` records that a tasklet has
cleared a bit that it had read as clear. -/
structure IntrSystem where
  status : IntrDir → BitVec 32
  statusPs : BitVec 32
  pc : Tasklet → TaskletPc
  raised : Nat → ChanProc → Nat
  handled : Nat → ChanProc → Nat
  clearedUnread : Bool

namespace IntrSystem

variable (s : IntrSystem)

def raise (ch : Nat) (p : ChanProc) : IntrSystem :=
  { s with
    status := Function.update s.status p.dir (s.status p.dir ||| p.mask ch)
    raised := Function.update s.raised ch
      (Function.update (s.raised ch) p (s.raised ch p + 1)) }

def goto (t : Tasklet) (pc : TaskletPc) : IntrSystem :=
  { s with pc := Function.update s.pc t pc }

def process (call : ProcCall) : IntrSystem :=
  { s with
    handled := fun ch p => if p.call ch = call then s.raised ch p else s.handled ch p }

/-- A write of `mask` to a status register that was read as `reg`. -/
def write (dir : IntrDir) (mask reg : BitVec 32) : IntrSystem :=
  { s with
    status := Function.update s.status dir (s.status dir &&& ~~~mask)
    clearedUnread := s.clearedUnread || s.status dir &&& mask &&& ~~~reg ≠ 0 }

def afterReads (chanCnt : Nat) (t : Tasklet) (intr : IntrRead) : IntrSystem :=
  s.goto t (.proc intr (t.calls chanCnt intr))

def access (chanCnt : Nat) (t : Tasklet) : IntrSystem :=
  match s.pc t with
  | .idle => s.goto t (.readRx (s.status .tx))
  | .readRx rdIntr =>
      if t = .dev ∨ t = .chan 0 then s.goto t (.readPs rdIntr (s.status .rx))
      else s.afterReads chanCnt t ⟨rdIntr, s.status .rx, 0⟩
  | .readPs rdIntr wrIntr =>
      if t = .dev ∧ rdIntr = 0 ∧ wrIntr = 0 ∧ s.statusPs = 0 then s.goto t .idle
      else s.afterReads chanCnt t ⟨rdIntr, wrIntr, s.statusPs⟩
  | .proc intr (call :: calls) => (s.process call).goto t (.proc intr calls)
  | .proc intr [] => s.goto t (.ackTx intr)
  | .ackTx intr => (s.write .tx (t.ack .tx intr.rdIntr) intr.rdIntr).goto t (.ackRx intr)
  | .ackRx intr => (s.write .rx (t.ack .rx intr.wrIntr) intr.wrIntr).goto t (.ackPs intr)
  | .ackPs intr => { s.goto t .idle with statusPs := s.statusPs &&& ~~~intr.psIntr }

def init : IntrSystem where
  status := fun _ => 0
  statusPs := 0
  pc := fun _ => .idle
  raised := fun _ _ => 0
  handled := fun _ _ => 0
  clearedUnread := false

end IntrSystem

inductive IntrEvent where
  | raise (ch : Nat) (p : ChanProc)
  | raisePs (bits : BitVec 32)
  | tasklet (t : Tasklet)

def intrStep (cfg : IntrConfig) (s : IntrSystem) : IntrEvent → Option IntrSystem
  | .raise ch p => if ch < cfg.chanCnt then some (s.raise ch p) else none
  | .raisePs bits => some { s with statusPs := s.statusPs ||| bits }
  | .tasklet t => if cfg.runs t then some (s.access cfg.chanCnt t) else none

end ApolloContrib.Intr
