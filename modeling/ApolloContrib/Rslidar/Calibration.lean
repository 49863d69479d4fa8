import Mathlib.Algebra.Order.Floor.Ring
import Mathlib.Data.Rat.Floor

namespace ApolloContrib.Rslidar

/-! The variables of `rslidarParser.h`, and the functions of `calibration.cpp` that read
them. The arithmetic of `float` is exact here. -/

def TEMPERATURE_MIN : Int := 31

structure Pic where
  col : Nat
  distance : Nat → ℚ
  intensity : Nat → ℚ
  azimuthforeachP : Nat → Int

/-- The variables the header defines as `static`. `calibration` tells whether the pointer
is set. -/
structure Statics where
  calibration : Bool
  horiAngle : Nat → ℚ
  aIntensityCal : Nat → Nat → ℚ
  gChannelNum : Nat → Nat → Int
  curvesRate : Nat → ℚ
  temper : ℚ
  tempPacketNum : Nat
  numOfLasers : Nat
  temperatureRange : Nat
  pic : Pic

def Statics.init : Statics where
  calibration := false
  horiAngle _ := 0
  aIntensityCal _ _ := 0
  gChannelNum _ _ := 0
  curvesRate _ := 0
  temper := 31
  tempPacketNum := 0
  numOfLasers := 16
  temperatureRange := 40
  pic := ⟨0, fun _ => 0, fun _ => 0, fun _ => 0⟩

/-- The files that include the header. Each has a copy of the variables. -/
inductive TranslationUnit where
  | convert
  | rslidar16Parser
  | rslidar32Parser
  | calibration
deriving DecidableEq, Repr

abbrev Memory := TranslationUnit → Statics

def truncate (value : ℚ) : Int := if 0 ≤ value then ⌊value⌋ else ⌈value⌉

namespace Statics

variable (statics : Statics)

def estimateTemperature (temper : ℚ) : Int :=
  let temp := ⌊temper + 1 / 2⌋
  if temp < TEMPERATURE_MIN then TEMPERATURE_MIN
  else if temp > TEMPERATURE_MIN + statics.temperatureRange then
    TEMPERATURE_MIN + statics.temperatureRange
  else temp

def indexTemper : Nat := (statics.estimateTemperature statics.temper - TEMPERATURE_MIN).toNat

def pixelToDistance (pixelValue : Int) (passageway : Nat) : ℚ :=
  let channelNum := statics.gChannelNum passageway statics.indexTemper
  if pixelValue ≤ channelNum then 0 else ((pixelValue - channelNum : Int) : ℚ)

section Intensity

variable (exp : ℚ → ℚ) (pow : ℚ → ℚ → ℚ)

def refPwr (calIdx : Nat) (distance : ℚ) : ℚ :=
  let curve := fun row => statics.aIntensityCal row calIdx
  let refPwrTemp :=
    if distance ≤ 500 then curve 0 * exp (curve 1 - curve 2 * distance / 100) + curve 3
    else curve 4 * pow (distance / 100) 2 + curve 5 * pow (distance / 100) 1 +
      curve 6 * pow (distance / 100) 0
  max (min refPwrTemp 500) 4

def realPwr (intensity : ℚ) : ℚ :=
  let temp := statics.estimateTemperature statics.temper
  let realPwr := max (intensity / (1 + (temp - TEMPERATURE_MIN : Int) / 24)) 1
  if truncate realPwr < 126 then realPwr * 4
  else if truncate realPwr < 226 then (realPwr - 125) * 16 + 500
  else (realPwr - 225) * 256 + 2100

def calibrateIntensity (intensity : ℚ) (calIdx : Nat) (distance : Int) : ℚ :=
  let channelNum := statics.gChannelNum calIdx statics.indexTemper
  let uplimitDist := channelNum + 20000
  let sDist := if distance > channelNum then distance else channelNum
  let sDist := if sDist < uplimitDist then sDist else uplimitDist
  let algDist := sDist - channelNum
  let tempInten := 51 * statics.refPwr exp pow calIdx algDist / statics.realPwr intensity
  let tempInten :=
    if statics.numOfLasers = 32 then tempInten * statics.curvesRate calIdx else tempInten
  if truncate tempInten > 255 then 255 else tempInten

end Intensity

end Statics

def isABPacket (distance : Nat) : Nat := if distance &&& 32768 ≠ 0 then 1 else 0

def computeTemperature (bit1 bit2 : BitVec 8) : ℚ :=
  let bitneg := bit2 &&& 128
  let highbit := ((bit2 &&& 127).toNat : ℚ)
  let lowbit := ((bit1 >>> 3).toNat : ℚ)
  if bitneg = 128 then -1 * (highbit * 32 + lowbit) * (1 / 16)
  else (highbit * 32 + lowbit) * (1 / 16)

/-! The configuration files. A row is what one `fscanf` converts, and what it does not
convert keeps its value. -/

/-- A file that cannot be opened is `none`. -/
structure ConfigFiles where
  curves : Option (List (List ℚ))
  angle : Option (List (List ℚ))
  channel : Option (List (List Int))
  curvesRate : Option (List (List ℚ))

def scanf {α : Type} (row : List α) (buffer : Nat → α) : Nat → α := fun j => row.getD j (buffer j)

/-- The first `width` values of the buffer, in row `row` of the table. -/
def storeRow {α : Type} (table : Nat → Nat → α) (row width : Nat) (buffer : Nat → α) :
    Nat → Nat → α :=
  fun i j => if i = row ∧ j < width then buffer j else table i j

/-- The buffer is a new one in each round, with what was there before. -/
def loadCurves (width : Nat) (garbage : Nat → ℚ) (table : Nat → Nat → ℚ) :
    Nat → List (List ℚ) → Nat → Nat → ℚ
  | _, [] => table
  | loopi, row :: rows =>
      if loopi + 1 > 7 then table
      else loadCurves width garbage (storeRow table loopi width (scanf row garbage)) (loopi + 1)
        rows

/-- The angles of each row, the second of which is the horizontal one. -/
def loadAngles (lasers : Nat) (d : Nat → ℚ) : Nat → List (List ℚ) → Nat → ℚ
  | _, [] => d
  | loopk, row :: rows =>
      let d := Function.update d loopk (row.getD 1 (d loopk))
      if loopk + 1 > lasers - 1 then d else loadAngles lasers d (loopk + 1) rows

def loadChannels (lasers range : Nat) (c : Nat → Int) (table : Nat → Nat → Int) :
    Nat → List (List Int) → Nat → Nat → Int
  | _, [] => table
  | loopm, row :: rows =>
      let c := scanf row c
      let table := storeRow table loopm (range + 1) c
      if loopm + 1 > lasers - 1 then table
      else loadChannels lasers range c table (loopm + 1) rows

def loadRates (numOfLasers : Nat) (rates : Nat → ℚ) : Nat → List (List ℚ) → Nat → ℚ
  | _, [] => rates
  | loopk, row :: rows =>
      let rates := Function.update rates loopk (row.getD 0 (rates loopk))
      if loopk + 1 > numOfLasers - 1 then rates else loadRates numOfLasers rates (loopk + 1) rows

end ApolloContrib.Rslidar
