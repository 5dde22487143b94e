import LineFollower.Motors.Config

/-!
# The board

`motors.cpp`: the operations of `Motors`, which address one chip after the
other by `m_nPosition`. The constructor's two assertions are compiled out by
the library's Release build and are not modelled.
-/

namespace LineFollower

open Lib Lib.Exchange

def statusBusy : Nat := 0x0002

variable (host : Host)

/-- The packets of the constructor. `bcm2835_spi_begin`, the reset pulse and the
delays that it makes before them are `powerUp`. -/
def new (nSpiChipSelect : Byte) : Spi Unit := do
  modifyVars fun _ =>
    { nSpiChipSelect, nPosition := 0, lIsConnected := false, rIsConnected := false }
  let config ← getParam host .config
  modifyVars fun self => if config = 0x2e88 then { self with lIsConnected := true } else self
  select 1
  let config ← getParam host .config
  modifyVars fun self => if config = 0x2e88 then { self with rIsConnected := true } else self

/-- The first command goes to the chip that happens to be selected. -/
def delete : Spi Unit := do
  hardHiZ
  select 0
  hardStop
  select 1
  hardStop
  modifyVars fun self => { self with lIsConnected := false, rIsConnected := false }

def setUp : Spi Unit := do
  select 0
  setParam host .config 0x2e8B
  configStepMode host 0x06
  setMaxSpeed host 400
  setMinSpeed host 0
  setAcc host 350
  setDec host 1000
  setPWMFreq host (0x00 <<< 13) (0x07 <<< 10)
  setSlewRate host configPowSr260Vus
  setOCThreshold host 0x09
  setOCShutdown host 0x0000
  setParam host .stSlp 0x00
  setParam host .fnSlpAcc 0x00
  setParam host .fnSlpDec 0x00
  setParam host .alarmEn 0x00
  setAccKVAL host 0x6F
  setDecKVAL host 0x64
  setRunKVAL host 0x64
  setHoldKVAL host 0x00
  select 1
  setParam host .config 0x2e8B
  configStepMode host 0x06
  setMaxSpeed host 400
  setMinSpeed host 0
  setAcc host 350
  setDec host 1000
  setPWMFreq host (0x00 <<< 13) (0x07 <<< 10)
  setSlewRate host configPowSr260Vus
  setOCThreshold host 0x09
  setOCShutdown host 0x0000
  setParam host .stSlp 0x00
  setParam host .fnSlpAcc 0x00
  setParam host .fnSlpDec 0x00
  setParam host .alarmEn 0x00
  setAccKVAL host 0x6F
  setDecKVAL host 0x64
  setRunKVAL host 0x64
  setHoldKVAL host 0x00

/-- Both branches read the selected chip; BUSY is active low. -/
def busyCheck : Spi ℤ := do
  let self ← getVars
  if self.nPosition = 0 then
    if (← getParam host .status) &&& BitVec.ofNat _ statusBusy ≠ 0 then pure 0 else pure 1
  else
    if (← getParam host .status) &&& BitVec.ofNat _ statusBusy ≠ 0 then pure 0 else pure 1

/-- `while (this->busyCheck()) ;` -/
def waitWhileBusy : Spi Unit := repeatWhile do return decide ((← busyCheck host) ≠ 0)

def setSpeed (speedLeft speedRight : ℤ) : Spi Unit := do
  select 0
  waitWhileBusy host
  select 1
  waitWhileBusy host
  select 0
  (if speedLeft ≥ 0 then run host .fwd speedLeft
    else run host .rev (-1 * speedLeft : ℤ))
  select 1
  (if speedRight ≥ 0 then run host .fwd speedRight
    else run host .rev (-1 * speedRight : ℤ))

def setMicrostep (step : Byte) : Spi Unit := do
  select 0
  configStepMode host step
  select 1
  configStepMode host step

def stop : Spi Unit := do
  select 0
  softStop
  select 1
  softStop
  select 0
  waitWhileBusy host
  select 1
  waitWhileBusy host
  select 0
  hardHiZ
  select 1
  hardHiZ

def getPositionLeft : Spi ℤ := do
  select 0
  return (← getPos host).toInt

def getPositionRight : Spi ℤ := do
  select 1
  return (← getPos host).toInt

def resetPosition : Spi Unit := do
  select 0
  resetPos
  select 1
  resetPos

def getBatteryVoltage : Spi ℤ := do
  select 0
  let voltage ← getVoltageComp host
  select 1
  let voltage := voltage + (← getVoltageComp host)
  return trunc ((voltage.tdiv 16 : ℚ) * 3.3 * 3.1)

-- ---------------------------------------------------------------------------
-- Operations by halves
-- ---------------------------------------------------------------------------

def leftThenRight (left right : Spi Unit) : Spi Unit := do
  select 0
  left
  select 1
  right

def configure : Spi Unit := do
  setParam host .config 0x2e8B
  configStepMode host 0x06
  setMaxSpeed host 400
  setMinSpeed host 0
  setAcc host 350
  setDec host 1000
  setPWMFreq host (0x00 <<< 13) (0x07 <<< 10)
  setSlewRate host configPowSr260Vus
  setOCThreshold host 0x09
  setOCShutdown host 0x0000
  setParam host .stSlp 0x00
  setParam host .fnSlpAcc 0x00
  setParam host .fnSlpDec 0x00
  setParam host .alarmEn 0x00
  setAccKVAL host 0x6F
  setDecKVAL host 0x64
  setRunKVAL host 0x64
  setHoldKVAL host 0x00

def drive (speed : ℤ) : Spi Unit :=
  if speed ≥ 0 then run host .fwd speed else run host .rev (-1 * speed : ℤ)

theorem setUp_eq : setUp host = leftThenRight (configure host) (configure host) := by
  simp only [setUp, leftThenRight, configure, bind_assoc]

theorem setSpeed_eq (speedLeft speedRight : ℤ) :
    setSpeed host speedLeft speedRight = (do
      leftThenRight (waitWhileBusy host) (waitWhileBusy host)
      leftThenRight (drive host speedLeft) (drive host speedRight)) := by
  simp only [setSpeed, leftThenRight, drive, bind_assoc]

theorem stop_eq :
    stop host = (do
      leftThenRight softStop softStop
      leftThenRight (waitWhileBusy host) (waitWhileBusy host)
      leftThenRight hardHiZ hardHiZ) := by
  simp only [stop, leftThenRight, bind_assoc]

theorem delete_eq :
    delete = (do
      hardHiZ
      leftThenRight hardStop hardStop
      modifyVars fun self => { self with lIsConnected := false, rIsConnected := false }) := by
  simp only [delete, leftThenRight, bind_assoc]

variable {host} in
theorem leftThenRight_ok {left right : Spi Unit} {self v : Motors} {as rest : List Packet}
    {log : List (Transfer × Packet)} :
    leftThenRight left right self as = ⟨.ok (), v, rest, log⟩ ↔
      ∃ v₁ as₁ l₁ l₂, left { self with nPosition := 0 } as = ⟨.ok (), v₁, as₁, l₁⟩ ∧
        right { v₁ with nPosition := 1 } as₁ = ⟨.ok (), v, rest, l₂⟩ ∧ log = l₁ ++ l₂ := by
  have hl : leftThenRight left right self as =
      (do left; select 1; right : Spi Unit) { self with nPosition := 0 } as := rfl
  have hr (v₁ : Motors) (as₁ : List Packet) :
      (do select 1; right : Spi Unit) v₁ as₁ = right { v₁ with nPosition := 1 } as₁ := rfl
  rw [hl, bind_ok]
  constructor
  · rintro ⟨⟨⟩, v₁, as₁, l₁, l₂, hleft, hright, rfl⟩
    exact ⟨v₁, as₁, l₁, l₂, hleft, hr v₁ as₁ ▸ hright, rfl⟩
  · rintro ⟨v₁, as₁, l₁, l₂, hleft, hright, rfl⟩
    exact ⟨(), v₁, as₁, l₁, l₂, hleft, (hr v₁ as₁).trans hright, rfl⟩

-- ---------------------------------------------------------------------------
-- The polling loop
-- ---------------------------------------------------------------------------

variable {host}

/-- What a poll of the selected chip makes of its STATUS. -/
def busyFlag (status : ULong host) : ℤ :=
  if status &&& BitVec.ofNat _ statusBusy ≠ 0 then 0 else 1

theorem busyCheck_eq (self : Motors) :
    busyCheck host self = (do return busyFlag (← getParam host .status) : Spi ℤ) self := by
  have hb (status : ULong host) :
      (if status &&& BitVec.ofNat _ statusBusy ≠ 0 then pure 0 else pure 1 : Spi ℤ) =
        pure (busyFlag status) := by
    unfold busyFlag
    split <;> rfl
  funext as
  simp only [busyCheck, bind_run, getVars, hb, ite_self]
  rfl

theorem busyCheck_sends : Sends [0x39, 0, 0] (busyCheck host) := by
  intro self chip hc
  rw [Emits, busyCheck_eq]
  exact (getParam_sends .status).map busyFlag self chip hc

/-- A check that finds the chip busy has made transfers. -/
theorem busyCheck_consumes :
    Consumes (do return decide ((← busyCheck host) ≠ 0) : Spi Bool) := by
  intro self as self' rest log h
  cases hc : packetIndex self.nPosition with
  | none =>
    obtain ⟨_, _, _, _, _, hz, -⟩ := bind_ok.mp h
    rw [busyCheck_eq] at hz
    simp [bind_run, getParam, spiXfer_fault hc] at hz
  | some chip =>
    have hlen := (busyCheck_sends.map (fun z => decide (z ≠ 0)) self chip hc).length_rest h
    simp at hlen
    omega

/-- The loop has no turn that the model leaves out. -/
theorem waitWhileBusy_eq :
    waitWhileBusy host = (do if (← busyCheck host) ≠ 0 then waitWhileBusy host else pure ()) := by
  conv => lhs; rw [waitWhileBusy, repeatWhile_eq busyCheck_consumes]
  simp only [bind_assoc, pure_bind, decide_eq_true_eq]
  rfl

-- ---------------------------------------------------------------------------
-- A poll of a chip at rest
-- ---------------------------------------------------------------------------

theorem one_lt_longBits (host : Host) : 1 < host.longBits :=
  host.le_longBits.trans_lt' (by decide)

theorem getLsbD_setByte_zero {w : Nat} (hw : 1 < w) (value : BitVec w) (b : Byte) :
    (setByte value 0 b).getLsbD 1 = b.getLsbD 1 := by
  have hlow : (255#w).getLsbD 1 = true := by
    rw [BitVec.getLsbD_ofNat]
    simp only [hw, decide_true, Bool.true_and]
    rfl
  simp only [setByte, BitVec.getLsbD_or, BitVec.getLsbD_and, BitVec.getLsbD_not]
  simp [hw, hlow]

theorem and_statusBusy_ne_zero {w : Nat} (hw : 1 < w) (x : BitVec w) :
    x &&& BitVec.ofNat w statusBusy ≠ 0 ↔ x.getLsbD 1 = true := by
  have htwo : BitVec.ofNat w statusBusy = BitVec.twoPow w 1 :=
    BitVec.eq_of_toNat_eq (by simp [BitVec.toNat_twoPow, statusBusy])
  rw [htwo, BitVec.and_twoPow]
  split
  · rename_i h
    have hne : BitVec.twoPow w 1 ≠ 0 := by
      intro h0
      have hbit := congrArg (fun y => BitVec.getLsbD y 1) h0
      simp [hw] at hbit
    exact ⟨fun _ => h, fun _ => hne⟩
  · rename_i h
    exact ⟨fun h0 => absurd rfl h0, fun h1 => absurd h1 h⟩

def statusWord (host : Host) (high low : Byte) : ULong host := setByte (setByte 0 1 high) 0 low

theorem busyFlag_statusWord (high low : Byte) :
    busyFlag (statusWord host high low) = if low.getLsbD 1 then 0 else 1 := by
  have hw := one_lt_longBits host
  simp only [busyFlag, and_statusBusy_ne_zero hw, statusWord, getLsbD_setByte_zero hw]

theorem getParam_status_run {self : Motors} {chip : Chip}
    (hc : packetIndex self.nPosition = some chip) (a b c : Packet) (rest : List Packet) :
    getParam host .status self (a :: b :: c :: rest) =
      ⟨.ok (statusWord host (b.get chip) (c.get chip)), self, rest,
        [(frame self chip 0x39, a), (frame self chip 0, b), (frame self chip 0, c)]⟩ := by
  simp [-bind_pure_comp, getParam, bind_run, spiXfer_cons hc, paramHandler, xferParam, byteLength,
    xferBytes, byteAt_zero]
  exact ⟨rfl, rfl⟩

theorem waitWhileBusy_run {self : Motors} {chip : Chip}
    (hc : packetIndex self.nPosition = some chip) {a b c : Packet}
    (hrest : (c.get chip).getLsbD 1 = true) (rest : List Packet) :
    waitWhileBusy host self (a :: b :: c :: rest) =
      ⟨.ok (), self, rest,
        [(frame self chip 0x39, a), (frame self chip 0, b), (frame self chip 0, c)]⟩ := by
  rw [waitWhileBusy_eq, bind_run, busyCheck_eq, bind_run, getParam_status_run hc]
  simp [busyFlag_statusWord, hrest]

end LineFollower
