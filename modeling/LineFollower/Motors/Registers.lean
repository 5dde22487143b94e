import LineFollower.Host

/-!
# The L6470's registers and commands

The enumerations and constants of `l6470.h` and `l6470constants.h` that the
driver uses.
-/

namespace LineFollower

inductive Direction
  | fwd
  | rev
  deriving DecidableEq, Repr

def Direction.value : Direction → Byte
  | .fwd => 0x01
  | .rev => 0x00

inductive Action
  | absPosReset
  | absPosCopy
  deriving DecidableEq, Repr

def Action.value : Action → Byte
  | .absPosReset => 0x00
  | .absPosCopy => 0x08

inductive ParamRegister
  | absPos | elPos | mark | speed | acc | decel | maxSpeed | minSpeed
  | kvalHold | kvalRun | kvalAcc | kvalDec | intSpd | stSlp | fnSlpAcc | fnSlpDec
  | kTherm | adcOut | ocdTh | stallTh | fsSpd | stepMode | alarmEn | config | status
  deriving DecidableEq, Repr

namespace ParamRegister

def value : ParamRegister → Byte
  | absPos => 0x01
  | elPos => 0x02
  | mark => 0x03
  | speed => 0x04
  | acc => 0x05
  | decel => 0x06
  | maxSpeed => 0x07
  | minSpeed => 0x08
  | kvalHold => 0x09
  | kvalRun => 0x0A
  | kvalAcc => 0x0B
  | kvalDec => 0x0C
  | intSpd => 0x0D
  | stSlp => 0x0E
  | fnSlpAcc => 0x0F
  | fnSlpDec => 0x10
  | kTherm => 0x11
  | adcOut => 0x12
  | ocdTh => 0x13
  | stallTh => 0x14
  | fsSpd => 0x15
  | stepMode => 0x16
  | alarmEn => 0x17
  | config => 0x18
  | status => 0x19

/-- The register's length in bits, from the comments of `TL6470ParamRegisters`. -/
def len : ParamRegister → Nat
  | absPos => 22
  | elPos => 9
  | mark => 22
  | speed => 20
  | acc => 12
  | decel => 12
  | maxSpeed => 10
  | minSpeed => 13
  | kvalHold => 8
  | kvalRun => 8
  | kvalAcc => 8
  | kvalDec => 8
  | intSpd => 14
  | stSlp => 8
  | fnSlpAcc => 8
  | fnSlpDec => 8
  | kTherm => 8
  | adcOut => 8
  | ocdTh => 8
  | stallTh => 8
  | fsSpd => 10
  | stepMode => 8
  | alarmEn => 8
  | config => 16
  | status => 16

def all : List ParamRegister :=
  [absPos, elPos, mark, speed, acc, decel, maxSpeed, minSpeed, kvalHold, kvalRun, kvalAcc,
    kvalDec, intSpd, stSlp, fnSlpAcc, fnSlpDec, kTherm, adcOut, ocdTh, stallTh, fsSpd,
    stepMode, alarmEn, config, status]

end ParamRegister

def cmdNop : Byte := 0x00
def cmdSetParam : Byte := 0x00
def cmdGetParam : Byte := 0x20
def cmdRun : Byte := 0x50
def cmdMove : Byte := 0x40
def cmdGoTo : Byte := 0x60
def cmdGoToDir : Byte := 0x68
def cmdGoUntil : Byte := 0x82
def cmdReleaseSw : Byte := 0x92
def cmdStepClock : Byte := 0x58
def cmdGoHome : Byte := 0x70
def cmdGoMark : Byte := 0x78
def cmdResetPos : Byte := 0xD8
def cmdSoftStop : Byte := 0xB0
def cmdHardStop : Byte := 0xB8
def cmdSoftHiZ : Byte := 0xA0
def cmdHardHiZ : Byte := 0xA8

end LineFollower
