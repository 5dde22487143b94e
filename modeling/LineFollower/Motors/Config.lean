import LineFollower.Motors.Commands

/-!
# Configuration

`l6470config.cpp`: the setters and getters of registers and of their fields. A
setter of a field reads its register, replaces the bits of the field's mask
and writes the register back.
-/

namespace LineFollower

open Lib Lib.Exchange

def syncEn : Byte := 0x80
def syncSelMask : Byte := 0x70
def stepSelMask : Byte := 0x07
def configOscSelMask : Nat := 0x000F
def configSwModeMask : Nat := 0x0010
def configEnVsCompMask : Nat := 0x0020
def configOcSdMask : Nat := 0x0080
def configPowSrMask : Nat := 0x0300
def configFPwmDecMask : Nat := 0x1C00
def configFPwmIntMask : Nat := 0xE000
def lspdOpt : Nat := 0x1000
def configPowSr260Vus : ℤ := 0x0300

variable (host : Host)

def configSyncPin (pinFunc syncSteps : Byte) : Spi Unit := do
  let syncPinConfig := (← getParam host .stepMode).setWidth 8
  let syncPinConfig := syncPinConfig &&& 0x0F
  let syncPinConfig := syncPinConfig ||| ((pinFunc &&& syncEn) ||| (syncSteps &&& syncSelMask))
  setParam host .stepMode (syncPinConfig.setWidth host.longBits)

def configStepMode (stepMode : Byte) : Spi Unit := do
  let stepModeConfig := (← getParam host .stepMode).setWidth 8
  let stepModeConfig := stepModeConfig &&& ~~~stepSelMask
  let stepModeConfig := stepModeConfig ||| (stepMode &&& stepSelMask)
  setParam host .stepMode (stepModeConfig.setWidth host.longBits)

def getStepMode : Spi Byte := do
  return ((← getParam host .stepMode) &&& stepSelMask.setWidth host.longBits).setWidth 8

def setMaxSpeed (stepsPerSecond : ℚ) : Spi Unit :=
  setParam host .maxSpeed (maxSpdCalc host stepsPerSecond)

def getMaxSpeed : Spi ℚ := do
  return maxSpdParse host (← getParam host .maxSpeed)

def setMinSpeed (stepsPerSecond : ℚ) : Spi Unit := do
  let integerSpeed := minSpdCalc host stepsPerSecond
  let temp := (← getParam host .minSpeed) &&& BitVec.ofNat _ lspdOpt
  setParam host .minSpeed (integerSpeed ||| temp)

def getMinSpeed : Spi ℚ := do
  return minSpdParse host (← getParam host .minSpeed)

def setFullSpeed (stepsPerSecond : ℚ) : Spi Unit :=
  setParam host .fsSpd (fsCalc host stepsPerSecond)

def getFullSpeed : Spi ℚ := do
  return fsParse host (← getParam host .fsSpd)

def setAcc (stepsPerSecondPerSecond : ℚ) : Spi Unit :=
  setParam host .acc (accCalc host stepsPerSecondPerSecond)

def getAcc : Spi ℚ := do
  return accParse host (← getParam host .acc)

def setDec (stepsPerSecondPerSecond : ℚ) : Spi Unit :=
  setParam host .decel (decCalc host stepsPerSecondPerSecond)

def getDec : Spi ℚ := do
  return accParse host (← getParam host .decel)

def setOCThreshold (threshold : Byte) : Spi Unit :=
  setParam host .ocdTh ((0x0F &&& threshold).setWidth host.longBits)

def getOCThreshold : Spi Byte := do
  return ((← getParam host .ocdTh) &&& 0xF).setWidth 8

/-- `configVal &= ~mask; configVal |= (mask & value);` -/
def replaceField (configVal : ULong host) (mask : Nat) (value : ℤ) : ULong host :=
  (configVal &&& ~~~BitVec.ofNat _ mask) ||| (BitVec.ofNat _ mask &&& BitVec.ofInt _ value)

def setPWMFreq (divisor multiplier : ℤ) : Spi Unit := do
  let configVal ← getParam host .config
  let configVal := configVal &&& ~~~BitVec.ofNat _ configFPwmIntMask
  let configVal := configVal &&& ~~~BitVec.ofNat _ configFPwmDecMask
  let configVal := configVal |||
    ((BitVec.ofNat _ configFPwmIntMask &&& BitVec.ofInt _ divisor) |||
      (BitVec.ofNat _ configFPwmDecMask &&& BitVec.ofInt _ multiplier))
  setParam host .config configVal

/-- The getters of one field of CONFIG. -/
def getConfigField (mask : Nat) : Spi ℤ := do
  let configVal ← getParam host .config
  pure (configVal &&& BitVec.ofNat _ mask).toInt

def getPWMFreqDivisor : Spi ℤ := getConfigField host configFPwmIntMask

def getPWMFreqMultiplier : Spi ℤ := getConfigField host configFPwmDecMask

/-- The setters that replace one field of CONFIG. -/
def setConfigField (mask : Nat) (value : ℤ) : Spi Unit := do
  let configVal ← getParam host .config
  setParam host .config (replaceField host configVal mask value)

def setSlewRate (slewRate : ℤ) : Spi Unit := setConfigField host configPowSrMask slewRate

def getSlewRate : Spi ℤ := getConfigField host configPowSrMask

def setOCShutdown (OCShutdown : ℤ) : Spi Unit := setConfigField host configOcSdMask OCShutdown

def getOCShutdown : Spi ℤ := getConfigField host configOcSdMask

def setVoltageComp (vsCompMode : ℤ) : Spi Unit := setConfigField host configEnVsCompMask vsCompMode

def getVoltageComp : Spi ℤ := do
  let configVal ← getParam host .config
  pure (configVal &&& BitVec.ofNat _ configEnVsCompMask).toInt

def setSwitchMode (switchMode : ℤ) : Spi Unit := setConfigField host configSwModeMask switchMode

def getSwitchMode : Spi ℤ := getConfigField host configSwModeMask

def setOscMode (oscillatorMode : ℤ) : Spi Unit :=
  setConfigField host configOscSelMask oscillatorMode

def getOscMode : Spi ℤ := getConfigField host 0x000F

def setAccKVAL (kvalInput : Byte) : Spi Unit :=
  setParam host .kvalAcc (kvalInput.setWidth host.longBits)

def getAccKVAL : Spi Byte := do
  return (← getParam host .kvalAcc).setWidth 8

def setDecKVAL (kvalInput : Byte) : Spi Unit :=
  setParam host .kvalDec (kvalInput.setWidth host.longBits)

def getDecKVAL : Spi Byte := do
  return (← getParam host .kvalDec).setWidth 8

def setRunKVAL (kvalInput : Byte) : Spi Unit :=
  setParam host .kvalRun (kvalInput.setWidth host.longBits)

def getRunKVAL : Spi Byte := do
  return (← getParam host .kvalRun).setWidth 8

def setHoldKVAL (kvalInput : Byte) : Spi Unit :=
  setParam host .kvalHold (kvalInput.setWidth host.longBits)

def getHoldKVAL : Spi Byte := do
  return (← getParam host .kvalHold).setWidth 8

def setLoSpdOpt (enable : Bool) : Spi Unit := do
  let temp ← getParam host .minSpeed
  let temp := if enable then temp ||| BitVec.ofNat _ lspdOpt else temp &&& ~~~BitVec.ofNat _ lspdOpt
  setParam host .minSpeed temp

def getLoSpdOpt : Spi Bool := do
  return decide ((← getParam host .minSpeed) &&& BitVec.ofNat _ lspdOpt ≠ 0)

end LineFollower
