import ApolloContrib.Library.Bits

namespace ApolloContrib.Gps

open ApolloContrib.Library

/-! The clocks of a card, `basa_gps.c`: reading the GPS time, and setting the time of the
FPGA. -/

def NSEC_PER_USEC : Nat := 1000
def NSEC_PER_MSEC : Nat := 1000000
def USEC_PER_MSEC : Nat := 1000

structure Timespec where
  tvSec : Int
  tvNsec : Int
deriving DecidableEq

structure Tm where
  tmSec : Int
  tmMin : Int
  tmHour : Int
  tmMday : Int
  tmMon : Int
  tmYear : Int

abbrev Mktime := Nat → Nat → Nat → Nat → Nat → Nat → Int

structure GpsRegs where
  ntpLo : BitVec 32
  ntpHi : BitVec 32
  ntpDate : BitVec 32
  gpsLastTimeLo : BitVec 32
  gpsStatus : BitVec 32
  gpsConfig2 : BitVec 32
  gpsTimeHiInit : BitVec 32
  gpsTimeLoInit : BitVec 32

/-- The registers, the capabilities `GPS_SMOOTH` and `FPGA_TIME_INIT`, and
`zynq_gps_valid_once`. -/
structure GpsDev where
  regs : GpsRegs
  gpsSmooth : Bool
  fpgaTimeInit : Bool
  validOnce : Bool

structure GpsVal where
  lo : BitVec 32
  hi : BitVec 32
  date : BitVec 32
deriving DecidableEq

def ZYNQ_GPS_TIME_VALID : BitVec 32 := 1#32 <<< 0
def ZYNQ_GPS_INIT_SET : BitVec 32 := 1#32 <<< 29

def ZYNQ_GPS_TIME_NSEC_OFFSET : Nat := 1
def ZYNQ_GPS_TIME_USEC_OFFSET : Nat := 8
def ZYNQ_GPS_TIME_MSEC_OFFSET : Nat := 20
def ZYNQ_GPS_TIME_SEC_OFFSET : Nat := 0
def ZYNQ_GPS_TIME_MIN_OFFSET : Nat := 8
def ZYNQ_GPS_TIME_HOUR_OFFSET : Nat := 16
def ZYNQ_GPS_TIME_YEAR_OFFSET : Nat := 0
def ZYNQ_GPS_TIME_MON_OFFSET : Nat := 8
def ZYNQ_GPS_TIME_DAY_OFFSET : Nat := 16
def ZYNQ_GPS_PPS_LOCK_DELAY_OFFSET : Nat := 24

namespace GpsDev

variable (dev : GpsDev)

/-- A time that is not valid now may have been valid before. -/
def checkValidOnce : GpsDev :=
  if dev.gpsSmooth ∧ ¬ dev.validOnce then
    if dev.regs.gpsLastTimeLo &&& ZYNQ_GPS_TIME_VALID ≠ 0 ∨
        dev.regs.gpsStatus &&& ZYNQ_GPS_INIT_SET ≠ 0 then
      { dev with validOnce := true }
    else dev
  else dev

/-- `none` is the return of -1. -/
def zynqGetGpsTime : GpsDev × Option GpsVal :=
  let val : GpsVal := ⟨dev.regs.ntpLo, dev.regs.ntpHi, dev.regs.ntpDate⟩
  if val.lo = 0xFFFFFFFF then (dev, none)
  else if val.lo &&& ZYNQ_GPS_TIME_VALID = 0 then
    let dev := dev.checkValidOnce
    if dev.gpsSmooth ∧ dev.validOnce then (dev, some val) else (dev, none)
  else ({ dev with validOnce := true }, some val)

end GpsDev

def zynqGpsTimeTs (mktime : Mktime) (gpsVal : GpsVal) : Timespec where
  tvSec := mktime (2000 + (gpsVal.date &&& 0xff).toNat)
    ((gpsVal.date &&& 0xff00) >>> 8).toNat ((gpsVal.date &&& 0xff0000) >>> 16).toNat
    ((gpsVal.hi &&& 0xff0000) >>> 16).toNat ((gpsVal.hi &&& 0xff00) >>> 8).toNat
    (gpsVal.hi &&& 0xff).toNat
  tvNsec := ((gpsVal.lo &&& 0xfe) <<< 2).toNat +
    (gpsVal.lo >>> 8 &&& 0xfff).toNat * NSEC_PER_USEC +
    (gpsVal.lo >>> 20 &&& 0xfff).toNat * NSEC_PER_MSEC

def setBits (width : Nat) (word : BitVec 32) (offset : Nat) (data : Int) : BitVec 32 :=
  setBitField word offset (BitVec.ofInt width data)

def dateInit (val : BitVec 32) (t : Tm) : BitVec 32 :=
  setBits 8 val ZYNQ_GPS_TIME_DAY_OFFSET t.tmMday |||
    setBits 8 val ZYNQ_GPS_TIME_MON_OFFSET (t.tmMon + 1) |||
    setBits 8 val ZYNQ_GPS_TIME_YEAR_OFFSET (t.tmYear - 100) |||
    setBits 7 val ZYNQ_GPS_PPS_LOCK_DELAY_OFFSET 0x20

def hiInit (t : Tm) : BitVec 32 :=
  setBits 8 0 ZYNQ_GPS_TIME_SEC_OFFSET t.tmSec |||
    setBits 8 0 ZYNQ_GPS_TIME_MIN_OFFSET t.tmMin |||
    setBits 8 0 ZYNQ_GPS_TIME_HOUR_OFFSET t.tmHour

def loInit (tvNsec : Int) : BitVec 32 :=
  (setBits 7 0 ZYNQ_GPS_TIME_NSEC_OFFSET ((tvNsec.tmod NSEC_PER_USEC).shiftRight 3) |||
    setBits 12 0 ZYNQ_GPS_TIME_USEC_OFFSET ((tvNsec.tdiv NSEC_PER_USEC).tmod USEC_PER_MSEC) |||
    setBits 12 0 ZYNQ_GPS_TIME_MSEC_OFFSET (tvNsec.tdiv NSEC_PER_MSEC)) |||
    ZYNQ_GPS_TIME_VALID

def EPERM : Int := 1
def EAGAIN : Int := 11

/-- `ts` is the system time. -/
def zynqGpsInitFpgaTime (time64ToTm : Int → Tm) (dev : GpsDev) (ts : Timespec) :
    GpsDev × Int :=
  if ¬ dev.fpgaTimeInit then (dev, -EPERM)
  else
    let dev := dev.zynqGetGpsTime.1
    if dev.validOnce then (dev, -EAGAIN)
    else
      let t := time64ToTm ts.tvSec
      ({ dev with
        regs :=
          { dev.regs with
            gpsConfig2 := dateInit dev.regs.gpsConfig2 t
            gpsTimeHiInit := hiInit t
            gpsTimeLoInit := loInit ts.tvNsec } }, 0)

end ApolloContrib.Gps
