import LineFollower.Motors.Support

/-!
# Commands

`l6470commands.cpp`: the commands that the board uses, and those that move the
motor by a count or to a position. An opcode, then its arguments. The value of
an argument is a `long` or an `unsigned long`, of which the low bytes are sent.
-/

namespace LineFollower

open Lib Lib.Exchange

variable (host : Host)

def setParam (param : ParamRegister) (value : ULong host) : Spi Unit := do
  let _ ← spiXfer (param.value ||| cmdSetParam)
  let _ ← paramHandler host param value
  pure ()

def getParam (param : ParamRegister) : Spi (ULong host) := do
  let _ ← spiXfer (param.value ||| cmdGetParam)
  paramHandler host param 0

def getPos : Spi (ULong host) := do
  let temp ← getParam host .absPos
  pure (if temp &&& 0x00200000 ≠ 0 then temp ||| 0xffc00000 else temp)

def getMark : Spi (ULong host) := do
  let temp ← getParam host .mark
  pure (if temp &&& 0x00200000 ≠ 0 then temp ||| 0xffC00000 else temp)

def setMark (newMark : ULong host) : Spi Unit := setParam host .mark newMark

/-- A `long` and the `unsigned long` that it is passed as have the same bits. -/
def setPos (newPos : ULong host) : Spi Unit := setParam host .absPos newPos

/-- `for (int i = n - 1; i >= 0; i--) SPIXfer(bytePointer[i]);` -/
def sendBytes (integerSpeed : ULong host) : Nat → Spi Unit
  | 0 => pure ()
  | i + 1 => do
    let _ ← spiXfer (byteAt integerSpeed i)
    sendBytes integerSpeed i

def run (dir : Direction) (stepsPerSec : ℚ) : Spi Unit := do
  let _ ← spiXfer (cmdRun ||| dir.value)
  let integerSpeed := spdCalc host stepsPerSec
  let integerSpeed := if integerSpeed > 0xFFFFF then 0xFFFFF else integerSpeed
  sendBytes host integerSpeed 3

/-- `for (uint8_t i = i₀; i >= 0; i--) SPIXfer(bytePointer[i]);`. No `uint8_t`
fails the test, and `i--` makes 255 of 0. The storage is that of a `long`. -/
def sendBytesUnsigned (value : ULong host) (i : Byte) : Spi Unit :=
  if i ≥ 0 then
    if i.toNat < host.longBits / 8 then do
      let _ ← spiXfer (byteAt value i.toNat)
      sendBytesUnsigned value (i - 1)
    else fault .outOfBounds
  else pure ()
-- Within the storage the index falls, until it is outside.
termination_by if i.toNat < host.longBits / 8 then i.toNat + 1 else 0
decreasing_by
  rename_i hin
  have hsize := host.longBytes
  have hpred : (i - 1).toNat = (i.toNat + 255) % 256 := by
    rw [BitVec.toNat_sub, Nat.add_comm]
    rfl
  rw [if_pos hin]
  split <;> omega

def move (dir : Direction) (numSteps : ULong host) : Spi Unit := do
  let _ ← spiXfer (cmdMove ||| dir.value)
  let numSteps := if numSteps > 0x3FFFFF then 0x3FFFFF else numSteps
  sendBytesUnsigned host numSteps 2

def goTo (pos : ULong host) : Spi Unit := do
  let _ ← spiXfer cmdGoTo
  let pos := if pos.toInt > 0x3FFFFF then 0x3FFFFF else pos
  sendBytesUnsigned host pos 2

def goToDir (dir : Direction) (pos : ULong host) : Spi Unit := do
  let _ ← spiXfer (cmdGoToDir ||| dir.value)
  let pos := if pos.toInt > 0x3FFFFF then 0x3FFFFF else pos
  sendBytesUnsigned host pos 2

def goUntil (action : Action) (dir : Direction) (stepsPerSec : ℚ) : Spi Unit := do
  let _ ← spiXfer (cmdGoUntil ||| action.value ||| dir.value)
  let integerSpeed := spdCalc host stepsPerSec
  let integerSpeed := if integerSpeed > 0x3FFFFF then 0x3FFFFF else integerSpeed
  sendBytesUnsigned host integerSpeed 2

def resetPos : Spi Unit := do
  let _ ← spiXfer cmdResetPos
  pure ()

def softStop : Spi Unit := do
  let _ ← spiXfer cmdSoftStop
  pure ()

def hardStop : Spi Unit := do
  let _ ← spiXfer cmdHardStop
  pure ()

def hardHiZ : Spi Unit := do
  let _ ← spiXfer cmdHardHiZ
  pure ()

-- ---------------------------------------------------------------------------
-- What they send
-- ---------------------------------------------------------------------------

variable {host}

theorem command_sends (b : Byte) : Sends [b] (do let _ ← spiXfer b; pure ()) := by
  simpa only [List.append_nil] using (spiXfer_sends b).seq (Sends.pure ())

theorem setParam_sends (param : ParamRegister) (value : ULong host) :
    Sends ((param.value ||| cmdSetParam) :: bytesBelow (wireValue param value)
      (byteLength param.len))
      (setParam host param value) := by
  have h := (spiXfer_sends (param.value ||| cmdSetParam)).seq
    ((paramHandler_sends param value).seq (.pure ()))
  rw [List.append_nil, List.singleton_append] at h
  exact h

theorem getParam_sends (param : ParamRegister) :
    Sends ((param.value ||| cmdGetParam) :: List.replicate (byteLength param.len) 0)
      (getParam host param) := by
  have h := (spiXfer_sends (param.value ||| cmdGetParam)).seq
    (paramHandler_sends param (0 : ULong host))
  rw [wireValue_zero, show (0 : ULong host) = BitVec.ofNat _ 0 from rfl, bytesBelow_zero,
    List.singleton_append] at h
  exact h

theorem sendBytes_sends (integerSpeed : ULong host) (n : Nat) :
    Sends (bytesBelow integerSpeed n) (sendBytes host integerSpeed n) := by
  induction n with
  | zero => exact .pure ()
  | succ n ih => exact (spiXfer_sends _).seq ih

def runSpeed (host : Host) (stepsPerSec : ℚ) : ULong host :=
  let integerSpeed := spdCalc host stepsPerSec
  if integerSpeed > 0xFFFFF then 0xFFFFF else integerSpeed

theorem run_sends (dir : Direction) (stepsPerSec : ℚ) :
    Sends ((cmdRun ||| dir.value) :: bytesBelow (runSpeed host stepsPerSec) 3)
      (run host dir stepsPerSec) :=
  (spiXfer_sends _).seq (sendBytes_sends (runSpeed host stepsPerSec) 3)

end LineFollower
