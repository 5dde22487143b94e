import LineFollower.Host
import LineFollower.Motors.Spi

/-!
# Parameter transfers

`l6470support.cpp`: the conversions between units and register values that the
commands and settings use, and the transfer of a register's bytes. Floating-point
arithmetic is exact rational arithmetic, up to the conversion to an integer.
An `unsigned long` is a bit vector of the host's width, stored least
significant byte first.
-/

namespace LineFollower

open Lib Lib.Exchange

variable (host : Host)

abbrev ULong := BitVec host.longBits

-- ---------------------------------------------------------------------------
-- Units
-- ---------------------------------------------------------------------------

/-- The file's own `ceil`, which rounds a negative fraction up twice. -/
def ceil (f : ℚ) : ULong host :=
  let i : BitVec 32 := host.toSigned 32 f
  if f = (i.toInt : ℚ) then i.signExtend host.longBits
  else (i + 1).signExtend host.longBits

def accCalc (stepsPerSecPerSec : ℚ) : ULong host :=
  let temp : ULong host := host.toSigned host.longBits (stepsPerSecPerSec * 0.137438)
  if temp > 0x00000FFF then 0x00000FFF else temp

def accParse (stepsPerSecPerSec : ULong host) : ℚ :=
    (stepsPerSecPerSec &&& 0x00000FFF).toNat / 0.137438

def decCalc (stepsPerSecPerSec : ℚ) : ULong host :=
  let temp : ULong host := host.toSigned host.longBits (stepsPerSecPerSec * 0.137438)
  if temp > 0x00000FFF then 0x00000FFF else temp

def maxSpdCalc (stepsPerSec : ℚ) : ULong host :=
  let temp := ceil host (stepsPerSec * 0.065536)
  if temp > 0x000003FF then 0x000003FF else temp

def maxSpdParse (stepsPerSec : ULong host) : ℚ := (stepsPerSec &&& 0x000003FF).toNat / 0.065536

def minSpdCalc (stepsPerSec : ℚ) : ULong host :=
  let temp : ULong host := host.toSigned host.longBits (stepsPerSec / 0.238)
  if temp > 0x00000FFF then 0x00000FFF else temp

def minSpdParse (stepsPerSec : ULong host) : ℚ := (stepsPerSec &&& 0x00000FFF).toNat * 0.238

def fsCalc (stepsPerSec : ℚ) : ULong host :=
  let temp : ULong host := host.toSigned host.longBits (stepsPerSec * 0.065536 - 0.5)
  if temp > 0x000003FF then 0x000003FF else temp

def fsParse (stepsPerSec : ULong host) : ℚ := ((stepsPerSec &&& 0x000003FF).toNat + 0.5) / 0.065536

def spdCalc (stepsPerSec : ℚ) : ULong host :=
  let temp : ULong host := host.toUnsigned host.longBits (stepsPerSec * 67.106)
  if temp > 0x000FFFFF then 0x000FFFFF else temp

-- ---------------------------------------------------------------------------
-- Bytes of a word
-- ---------------------------------------------------------------------------

def byteAt {w : Nat} (value : BitVec w) (k : Nat) : Byte := (value >>> (8 * k)).setWidth 8

def setByte {w : Nat} (value : BitVec w) (k : Nat) (b : Byte) : BitVec w :=
  (value &&& ~~~((0xFF : BitVec w) <<< (8 * k))) ||| (b.setWidth w <<< (8 * k))

/-- The bytes at the addresses below `n`, highest first. -/
def bytesBelow {w : Nat} (value : BitVec w) : Nat → List Byte
  | 0 => []
  | k + 1 => byteAt value k :: bytesBelow value k

-- ---------------------------------------------------------------------------
-- Transfers
-- ---------------------------------------------------------------------------

/-- The loop of `xferParam` with the addresses below the argument to go. The
union's array has four bytes. -/
def xferBytes (nValue : ULong host) : Nat → ULong host → Spi (ULong host)
  | 0, out => pure out
  | k + 1, out =>
    if k < 4 then do
      let answer ← spiXfer (byteAt nValue k)
      xferBytes nValue k (setByte out k answer)
    else fault .outOfBounds

def byteLength (nBitLength : Nat) : Nat := nBitLength / 8 + if nBitLength % 8 > 0 then 1 else 0

def xferParam (nValue : ULong host) (nBitLength : Nat) : Spi (ULong host) :=
  xferBytes host nValue (byteLength nBitLength) 0

/-- Every enumerator has its case, so the switch's default is not reached. -/
def paramHandler (param : ParamRegister) (value : ULong host) : Spi (ULong host) :=
  match param with
  | .absPos => xferParam host value 22
  | .elPos => xferParam host value 9
  | .mark => xferParam host value 22
  | .speed => xferParam host 0 20
  | .acc => xferParam host value 12
  | .decel => xferParam host value 12
  | .maxSpeed => xferParam host value 10
  | .minSpeed => xferParam host value 13
  | .fsSpd => xferParam host value 10
  | .kvalHold => xferParam host value 8
  | .kvalRun => xferParam host value 8
  | .kvalAcc => xferParam host value 8
  | .kvalDec => xferParam host value 8
  | .intSpd => xferParam host value 14
  | .stSlp => xferParam host value 8
  | .fnSlpAcc => xferParam host value 8
  | .fnSlpDec => xferParam host value 8
  | .kTherm => xferParam host (value &&& 0x0F) 8
  | .adcOut => xferParam host value 8
  | .ocdTh => xferParam host (value &&& 0x0F) 8
  | .stallTh => xferParam host (value &&& 0x7F) 8
  | .stepMode => xferParam host value 8
  | .alarmEn => xferParam host value 8
  | .config => xferParam host value 16
  | .status => xferParam host 0 16

-- ---------------------------------------------------------------------------
-- What they send
-- ---------------------------------------------------------------------------

variable {host}

@[simp] theorem length_bytesBelow {w : Nat} (value : BitVec w) (n : Nat) :
    (bytesBelow value n).length = n := by
  induction n with
  | zero => rfl
  | succ n ih => simp [bytesBelow, ih]

theorem byteAt_zero {w : Nat} (k : Nat) : byteAt (0#w) k = 0#8 := by
  simp [byteAt]

theorem bytesBelow_zero {w : Nat} (n : Nat) :
    bytesBelow (0#w) n = List.replicate n 0#8 := by
  induction n with
  | zero => rfl
  | succ n ih => simp [bytesBelow, byteAt_zero, ih, List.replicate_succ]

theorem xferBytes_sends (nValue : ULong host) {n : Nat} (hn : n ≤ 4) (out : ULong host) :
    Sends (bytesBelow nValue n) (xferBytes host nValue n out) := by
  induction n generalizing out with
  | zero => exact .pure out
  | succ k ih =>
    simp only [xferBytes, show k < 4 by omega, ↓reduceIte]
    exact (spiXfer_sends _).bind fun answer => ih (by omega) _

/-- What `paramHandler` puts on the line for a value: masked, or nothing for a
register that is only read. -/
def wireValue (param : ParamRegister) (value : ULong host) : ULong host :=
  match param with
  | .speed | .status => 0
  | .kTherm | .ocdTh => value &&& 0x0F
  | .stallTh => value &&& 0x7F
  | _ => value

theorem wireValue_zero (param : ParamRegister) :
    wireValue param (0 : ULong host) = 0 := by
  cases param <;> simp [wireValue]

/-- Every register is transferred in as many bytes as its documented length
needs. -/
theorem paramHandler_sends (param : ParamRegister) (value : ULong host) :
    Sends (bytesBelow (wireValue param value) (byteLength param.len))
      (paramHandler host param value) := by
  cases param <;> exact xferBytes_sends _ (by decide) 0

end LineFollower
