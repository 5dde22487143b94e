import LineFollower.Bcm2835.Soc
import LineFollower.Motors.ShiftChain

/-!
# The constructor

Before its first transfer the constructor of `Motors` takes hold of the pins,
ends the transfer that an earlier process may have left, and pulls the reset
line low for ten milliseconds. So whatever state the controller, its queues and
the chips were in, the board then starts from chips that have just been reset
(`restart`). All of it, the pins apart, needs `/dev/mem`: with `/dev/gpiomem` alone
`bcm2835_init` succeeds and the constructor's first transfer faults
(`starts_iff`).
-/

namespace LineFollower

open Lib Lib.Exchange Bcm2835

/-- What the constructor does before its first transfer. The result of
`bcm2835_spi_begin` is dropped. -/
def powerUp (host : Host) : Driver Unit := do
  let _ ← spiBegin
  gpioFsel gpioResetOut gpioFselOutp
  gpioSet gpioResetOut
  gpioFsel gpioBusyIn gpioFselInpt
  gpioClr gpioResetOut
  delayMicroseconds host 10000
  gpioSet gpioResetOut
  delayMicroseconds host 10000

variable {S : Type} {hw : Hardware S} {host : Host} {lib : Bcm2835} {s : Soc S}

-- ---------------------------------------------------------------------------
-- The pins and the reset line
-- ---------------------------------------------------------------------------

/-- The pin of the reset line is an output, which is driven to `on`. -/
structure Held (d : Gpio) (on : Bool) : Prop where
  function : d.function gpioResetOut.toNat = gpioFselOutp.setWidth 3
  latch : d.latch gpioResetOut.toNat = on

theorem Held.resetLine {d : Gpio} {on : Bool} (h : Held d on) : hw.resetLine d = on :=
  (Hardware.resetLine_output h.function).trans h.latch

theorem Held.drive {d d' : Gpio} {on on' : Bool} (h : Held d on)
    (hpins : d'.pins = d.pins.after [.drive [gpioResetOut.toNat] on']) : Held d' on' := by
  have hfunction : d'.function = d.function := congrArg Pins.function hpins
  have hlatch := congrFun (congrArg Pins.latch hpins) gpioResetOut.toNat
  have hdriven :
      (if gpioResetOut.toNat ∈ [gpioResetOut.toNat] then on' else d.latch gpioResetOut.toNat) =
      on' := if_pos List.mem_cons_self
  exact ⟨hfunction ▸ h.function, hlatch.trans hdriven⟩

theorem fall_triple (hgpio : lib.mapped .gpio = true) (h : Held s.gpio true) :
    Triple hw.device (gpioClr gpioResetOut) lib s
      (fun _ lib' s' => lib = lib' ∧ Held s'.gpio false ∧ hw.timer.Passed 1 s.clock s'.clock ∧
        s'.since = s'.clock.micros ∧ s'.spi0 = s.spi0)
      (fun _ => True) := by
  refine (periWrite_triple hgpio trivial).weaken ?_
  rintro _ _ s' ⟨rfl, rfl⟩
  have hheld := h.drive (@driven_pins hw.bank s.gpio gpioResetOut (by decide)).2
  rw [Hardware.device_gpio hw s rfl, Hardware.wire, hheld.resetLine, h.resetLine]
  exact ⟨rfl, hheld, .advance s.clock, rfl, rfl⟩

theorem rise_triple (hgpio : lib.mapped .gpio = true) (h : Held s.gpio false) :
    Triple hw.device (gpioSet gpioResetOut) lib s
      (fun _ lib' s' => lib = lib' ∧ Held s'.gpio true ∧ hw.timer.Passed 1 s.clock s'.clock ∧
        s'.since = s'.clock.micros ∧ s'.spi0.ta = s.spi0.ta ∧
        s'.spi0.port.slave = hw.raised (s'.clock.micros - s.since) s.spi0.port.slave)
      (fun _ => True) := by
  refine (periWrite_triple hgpio trivial).weaken ?_
  rintro _ _ s' ⟨rfl, rfl⟩
  have hheld := h.drive (@driven_pins hw.bank s.gpio gpioResetOut (by decide)).1
  rw [Hardware.device_gpio hw s rfl, Hardware.wire, hheld.resetLine, h.resetLine]
  exact ⟨rfl, hheld, .advance s.clock, rfl, rfl, rfl⟩

theorem claim_triple (hgpio : lib.mapped .gpio = true) (hspi : lib.mapped .spi0 = true) :
    Triple hw.device
      (do
        let _ ← spiBegin
        gpioFsel gpioResetOut gpioFselOutp
        gpioSet gpioResetOut
        gpioFsel gpioBusyIn gpioFselInpt)
      lib s
      (fun _ lib' s' => lib = lib' ∧ s'.spi0.ta = false ∧ hw.timer.Passed 17 s.clock s'.clock ∧
        s'.gpio.pins = s.gpio.pins.after
          (Hardware.spiPins ++ [.select 22 1, .drive [22] true, .select 27 0]))
      (fun _ => True) := by
  have hreset : gpioResetOut.toNat < 54 := by decide
  have hbusy : gpioBusyIn.toNat < 54 := by decide
  have hpins := (@Hardware.gpioFsel_moves S hw _ hreset gpioFselOutp).seq
    ((Hardware.gpioSet_moves hreset).seq (Hardware.gpioFsel_moves hbusy gpioFselInpt))
  refine (Hardware.spiBegin_triple hgpio hspi).seq ?_
  rintro _ _ s₁ ⟨rfl, -, h₁, hta⟩
  refine (hpins lib s₁ hgpio).weaken ?_
  rintro _ _ s' ⟨rfl, h'⟩
  have hmoved := h₁.trans h'
  exact ⟨rfl, h'.ta hta, hmoved.clock, hmoved.pins⟩

theorem wait_triple {micros : BitVec 64} (hst : lib.mapped .st = true) (hpos : 0 < s.clock.micros)
    (hfit : s.clock.micros + micros.toNat + 12 * hw.timer.slack < 2 ^ 64) :
    Triple hw.device (delayMicroseconds host micros) lib s
      (fun _ lib' s' => lib = lib' ∧ s.clock.micros + micros.toNat ≤ s'.clock.micros ∧
        s'.clock.micros ≤ s.clock.micros + micros.toNat + 12 * hw.timer.slack ∧
        s'.gpio = s.gpio ∧ s'.spi0 = s.spi0 ∧ s'.since = s.since)
      (fun _ => True) := by
  have hwait := (hw.shows_st s.gpio s.spi0 s.since).triple (delayMicroseconds_asks host micros)
    ⟨rfl, rfl, rfl⟩ (@delayMicroseconds_triple host hw.timer lib s.clock micros hst hpos hfit)
  refine hwait.mono ?_ fun _ _ => trivial
  rintro _ _ s' ⟨⟨rfl, hlow, hhigh⟩, hsame⟩
  exact ⟨rfl, hlow, hhigh, hsame⟩

theorem powerUp_eq : powerUp host = (do
    (do
      let _ ← spiBegin
      gpioFsel gpioResetOut gpioFselOutp
      gpioSet gpioResetOut
      gpioFsel gpioBusyIn gpioFselInpt)
    gpioClr gpioResetOut
    delayMicroseconds host 10000
    gpioSet gpioResetOut
    delayMicroseconds host 10000) := by
  simp only [powerUp, bind_assoc]

/-- The slaves have been reset by a pulse of at least ten milliseconds, and have
had as long to wake up. -/
theorem powerUp_triple (hmapped : ∀ block, lib.mapped block = true) (hwake : hw.wakeTime ≤ 10000)
    (hpos : 0 < s.clock.micros) (hfit : s.clock.micros + 20000 + 43 * hw.timer.slack < 2 ^ 64) :
    Triple hw.device (powerUp host) lib s
      (fun _ lib' s' => lib = lib' ∧ s'.spi0.ta = false ∧ hw.Awake s' ∧
        ∃ held slave, 10000 ≤ held ∧ s'.spi0.port.slave = hw.raised held slave)
      (fun _ => True) := by
  have hgpio := hmapped .gpio
  have hst := hmapped .st
  have hten : (10000 : BitVec 64).toNat = 10000 := rfl
  rw [powerUp_eq]
  refine (claim_triple hgpio (hmapped .spi0)).bind ?_
  rintro _ _ s₁ ⟨rfl, hta₁, hclock₁, hpins₁⟩
  have hheld₁ : Held s₁.gpio true :=
    ⟨congrFun (congrArg Pins.function hpins₁) 22, congrFun (congrArg Pins.latch hpins₁) 22⟩
  have hle₁ := hclock₁.le
  have hupper₁ := hclock₁.upper
  refine (fall_triple hgpio hheld₁).seq ?_
  rintro _ _ s₂ ⟨rfl, hheld₂, hclock₂, hsince₂, hspi₂⟩
  have hle₂ := hclock₂.le
  have hupper₂ := hclock₂.upper
  refine (wait_triple hst (by omega) (by omega)).seq ?_
  rintro _ _ s₃ ⟨rfl, hlow₃, hupper₃, hgpio₃, hspi₃, hsince₃⟩
  refine (rise_triple hgpio (hgpio₃ ▸ hheld₂)).seq ?_
  rintro _ _ s₄ ⟨rfl, hheld₄, hclock₄, hsince₄, hta₄, hslave₄⟩
  have hle₄ := hclock₄.le
  have hupper₄ := hclock₄.upper
  refine (wait_triple hst (by omega) (by omega)).weaken ?_
  rintro _ _ s₅ ⟨rfl, hlow₅, -, hgpio₅, hspi₅, hsince₅⟩
  refine ⟨rfl, ?_, ⟨?_, by omega⟩, s₄.clock.micros - s₃.since, s₃.spi0.port.slave, by omega, ?_⟩
  · rw [hspi₅, hta₄, hspi₃, hspi₂, hta₁]
  · rw [hgpio₅, hheld₄.resetLine]
  · rw [hspi₅, hslave₄]

-- ---------------------------------------------------------------------------
-- Packets
-- ---------------------------------------------------------------------------

theorem transferPacket_asks (p : ℕ) (t : Transfer) :
    Asks (Access.On .spi0) (transferPacket p t) := by
  have hbits (value mask : Word) : Asks (Access.On .spi0) (periSetBits spi0Cs value mask) :=
    periSetBits_asks spi0Cs value mask
  have hclk (value : Word) : Asks (Access.On .spi0) (periWrite spi0Clk value) :=
    periWrite_asks spi0Clk value
  refine .seq (.modifyVars _) ((hbits _ _).seq ((hclk _).seq ((hbits _ _).seq ?_)))
  exact (spiTransfern_asks p 2).seq (.bind .getVars fun _ => .pure _)

/-- The chips are awake and on the line. -/
def OnSoc {C : Type} (part : Part C) (hw : Hardware (ShiftChain C)) (lib : Bcm2835)
    (s : Soc (ShiftChain C))
    (chips : Chip → C) : Prop :=
  OnLine part lib s.spi0 chips ∧ hw.Awake s

section
variable {C : Type} {part : Part C} {hw : Hardware (ShiftChain C)} {nSpiChipSelect : Byte}
  {otherwise : Bus (ShiftChain C)}
  (hbus : hw.controller.bus = ShiftChain.bus part (chipLine nSpiChipSelect) otherwise)
  (hroom : 2 ≤ hw.controller.txRoom)
include hbus hroom

theorem soc_implements (p : ℕ) :
    Implements hw.device (transferPacket p) part.chain (fun t => t.nSpiChipSelect = nSpiChipSelect)
      (OnSoc part hw) := by
  rintro t lib s chips rfl ⟨hline, hawake⟩
  have htaken := transferPacket_taken hbus hroom rfl p hline.cut
  have hsoc :=
    (hw.shows_spi0 s.gpio s.since).triple (transferPacket_asks p t) ⟨hawake, rfl, rfl⟩ htaken
  obtain ⟨answer, lib', s', hrun, ⟨hline', hanswer⟩, hawake', -⟩ := hsoc.runs
  rw [hanswer hline] at hrun
  exact ⟨lib', s', hrun, hline', hawake'⟩

end

-- ---------------------------------------------------------------------------
-- After a restart
-- ---------------------------------------------------------------------------

/-- What the reset line does to the chips: after ten milliseconds they have the
registers `powerOn`, and take their first command. -/
structure Resets (quiescent : ChipState → Byte) (nSpiChipSelect : Byte)
    (otherwise : Bus (ShiftChain ChipState))
    (powerOn : Registers) (hw : Hardware (ShiftChain ChipState)) : Prop where
  bus : hw.controller.bus = ShiftChain.bus (registerFile quiescent)
    (chipLine nSpiChipSelect) otherwise
  room : 2 ≤ hw.controller.txRoom
  raised : ∀ held slave, 10000 ≤ held →
    hw.raised held slave = ShiftChain.load (registerFile quiescent) (idle fun _ => powerOn)
  wakes : hw.wakeTime ≤ 10000
  atRest : powerOn.AtRest

def restarted (host : Host) (nSpiChipSelect : Byte) (powerOn : Registers) (ops : List Operation) :
    Motors × (Chip → Registers) :=
  ops.foldl (Operation.next host) (constructed nSpiChipSelect fun _ => powerOn, fun _ => powerOn)

section
variable {quiescent : ChipState → Byte} {nSpiChipSelect : Byte}
    {otherwise : Bus (ShiftChain ChipState)}
  {powerOn : Registers} {hw : Hardware (ShiftChain ChipState)}
  (hresets : Resets quiescent nSpiChipSelect otherwise powerOn hw) {lib : Bcm2835}
  {s : Soc (ShiftChain ChipState)}
include hresets

theorem powerUp_onSoc (hmapped : ∀ block, lib.mapped block = true)
    (horder : lib.spiBitOrder = spiBitOrderMsbfirst) (hpos : 0 < s.clock.micros)
    (hfit : s.clock.micros + 20000 + 43 * hw.timer.slack < 2 ^ 64) :
    Triple hw.device (powerUp host) lib s
      (fun _ lib' s' => OnSoc (registerFile quiescent) hw lib' s' (idle fun _ => powerOn))
      (fun _ => True) := by
  refine (powerUp_triple hmapped hresets.wakes hpos hfit).weaken ?_
  rintro _ _ s' ⟨rfl, hta, hawake, held, slave, hheld, hslave⟩
  exact ⟨⟨⟨hmapped .spi0, horder⟩, hta, hslave.trans (hresets.raised held slave hheld)⟩, hawake⟩

omit hresets in
theorem restarted_runs (host : Host) (hrest : powerOn.AtRest) {ops : List Operation}
    (hops : ∀ op ∈ ops, op.Still) (self : Motors) :
    Runs (registerFile quiescent).chain (session host nSpiChipSelect ops) self
      (idle fun _ => powerOn) ()
      (restarted host nSpiChipSelect powerOn ops).1
      (idle (restarted host nSpiChipSelect powerOn ops).2) := by
  have hcalls := @forM_runs host (fun s _ => quiescent s) ops hops
    (constructed nSpiChipSelect fun _ => powerOn, fun _ => powerOn) ⟨.inr rfl, fun _ => hrest⟩
  have hnew := @new_runs host (fun s _ => quiescent s) self (fun _ => powerOn) nSpiChipSelect
  exact hnew.bind hcalls

/-- Whatever state an earlier process has left the pins, the controller, its
queues and the chips in, the constructor returns, and then any still operations do
what they do on chips that have just been reset, and nothing else. -/
theorem restart (host : Host) (p : ℕ) {ops : List Operation} (hops : ∀ op ∈ ops, op.Still)
    (hmapped : ∀ block, lib.mapped block = true) (horder : lib.spiBitOrder = spiBitOrderMsbfirst)
    (hpos : 0 < s.clock.micros) (hfit : s.clock.micros + 20000 + 43 * hw.timer.slack < 2 ^ 64)
    (self : Motors) :
    ∃ lib₁ s₁, Runs hw.device (powerUp host) lib s () lib₁ s₁ ∧
      (∃ lib' s', RunsOver hw.device (transferPacket p) (session host nSpiChipSelect ops)
          self lib₁ s₁ ()
          (restarted host nSpiChipSelect powerOn ops).1 lib' s' ∧
        OnSoc (registerFile quiescent) hw lib' s'
          (idle (restarted host nSpiChipSelect powerOn ops).2)) ∧
      ∀ v lib' s', RunsOver hw.device (transferPacket p) (session host nSpiChipSelect ops) self
          lib₁ s₁ () v
          lib' s' → v = (restarted host nSpiChipSelect powerOn ops).1 ∧
        OnSoc (registerFile quiescent) hw lib' s'
          (idle (restarted host nSpiChipSelect powerOn ops).2) := by
  have hpowerUp := @powerUp_onSoc host _ _ _ _ hw hresets lib s hmapped horder hpos hfit
  obtain ⟨_, lib₁, s₁, hup, hon⟩ := hpowerUp.runs
  have himplements := soc_implements hresets.bus hresets.room p
  have hlog := @session_log nSpiChipSelect host ops (fun op hop => (hops op hop).on _) self
  have hrun := @restarted_runs quiescent nSpiChipSelect powerOn host hresets.atRest ops hops self
  refine ⟨lib₁, s₁, hup, himplements.runsOver hlog hon hrun, fun v lib' s' hover => ?_⟩
  exact (himplements.only hlog hon hrun hover).2

end

def chipHardware (powerOn : Registers) : Hardware (ShiftChain ChipState) where
  bank := ⟨fun _ _ => true, fun _ => 0⟩
  timer := .counting
  controller := chipController
  asleep := ⟨fun _ s _ => (0, s), fun _ => id⟩
  raised held slave :=
    if 10 ≤ held then ShiftChain.load (registerFile fun _ => 0) (idle fun _ => powerOn) else slave
  wakeTime := 500

def powerOnRegisters : Registers
  | .config => 0x2e88
  | .status => BitVec.allOnes _
  | _ => 0

theorem chipHardware_resets :
    Resets (fun _ => 0) 0 ⟨fun _ s _ => (0, s), fun _ => id⟩ powerOnRegisters
    (chipHardware powerOnRegisters) where
  bus := chipController_bus
  room := by decide
  raised held slave h := if_pos (Nat.le_trans (by decide) h)
  wakes := by decide
  atRest := rfl

/-- A process that was killed in the middle of a packet, with a chip in the
middle of a command. -/
def abandoned : Soc (ShiftChain ChipState) where
  gpio := ⟨fun _ => 0, fun _ => false, 0⟩
  spi0 := ⟨spi0CsTa, 0, ⟨[0x51, 0x00], some 0x13, [0xFF],
    ⟨fun _ => ⟨some ⟨cmdRun, [], by decide⟩, fun _ => BitVec.allOnes _⟩, ⟨0x51, 0⟩⟩⟩, 0⟩
  clock := ⟨5, 0⟩
  since := 0

theorem restart_abandoned :
    ∃ lib₁ s₁, Runs (chipHardware powerOnRegisters).device (powerUp .lp64) initialised abandoned
      () lib₁ s₁ ∧
      (∃ lib' s', RunsOver (chipHardware powerOnRegisters).device (transferPacket 0)
          (session .lp64 0 [.setUp]) ⟨0, 0, false, false⟩ lib₁ s₁ ()
          (restarted .lp64 0 powerOnRegisters [.setUp]).1 lib' s' ∧
        OnSoc (registerFile fun _ => 0) (chipHardware powerOnRegisters) lib' s'
          (idle (restarted .lp64 0 powerOnRegisters [.setUp]).2)) ∧
      ∀ v lib' s', RunsOver (chipHardware powerOnRegisters).device (transferPacket 0)
          (session .lp64 0 [.setUp]) ⟨0, 0, false, false⟩ lib₁ s₁ () v lib' s' →
        v = (restarted .lp64 0 powerOnRegisters [.setUp]).1 ∧
        OnSoc (registerFile fun _ => 0) (chipHardware powerOnRegisters) lib' s'
          (idle (restarted .lp64 0 powerOnRegisters [.setUp]).2) :=
  restart chipHardware_resets .lp64 0 (by simp [Operation.Still]) (fun _ => rfl) rfl (by decide)
    (by decide) _

-- ---------------------------------------------------------------------------
-- Without the peripherals
-- ---------------------------------------------------------------------------

/-- With nothing but the pins the constructor makes its pulse, of any length. -/
theorem powerUp_pins (hgpio : lib.mapped .gpio = true) (hspi : lib.mapped .spi0 = false)
    (hst : lib.mapped .st = false) :
    Triple hw.device (powerUp host) lib s (fun _ lib' _ => lib = lib') (fun _ => True) := by
  have hpins {m : Driver Unit} {k : ℕ} {ws : List PinWrite} (hm : hw.Moves m k ws) (s : Soc S) :
      Triple hw.device m lib s (fun _ lib' _ => lib = lib') (fun _ => True) :=
    (hm lib s hgpio).weaken fun _ _ _ h => h.1
  have hreset : gpioResetOut.toNat < 54 := by decide
  have hbusy : gpioBusyIn.toNat < 54 := by decide
  have hbegin : Triple hw.device spiBegin lib s (fun _ lib' _ => lib = lib') (fun _ => True) := by
    refine Triple.getVars_bind ?_
    rw [if_pos hspi]
    exact .pure rfl
  refine hbegin.seq ?_
  rintro _ _ s₁ rfl
  refine (hpins (Hardware.gpioFsel_moves hreset gpioFselOutp) s₁).seq ?_
  rintro _ _ s₂ rfl
  refine (hpins (Hardware.gpioSet_moves hreset) s₂).seq ?_
  rintro _ _ s₃ rfl
  refine (hpins (Hardware.gpioFsel_moves hbusy gpioFselInpt) s₃).seq ?_
  rintro _ _ s₄ rfl
  refine (hpins (Hardware.gpioClr_moves hreset) s₄).seq ?_
  rintro _ _ s₅ rfl
  refine (delayMicroseconds_unmapped hst).seq ?_
  rintro _ _ s₆ rfl
  refine (hpins (Hardware.gpioSet_moves hreset) s₆).seq ?_
  rintro _ _ s₇ rfl
  exact delayMicroseconds_unmapped hst

theorem transferPacket_unmapped (hspi : lib.mapped .spi0 = false) (p : ℕ) (t : Transfer)
    (as : List Word) :
    (transferPacket p t lib as).result = .error (.fault .mapFailed) := by
  have hmap :
      Bcm2835.mapped { lib with mem := store lib.mem p [t.dataPacket.left, t.dataPacket.right] }
      spi0Cs.block = false := hspi
  have hselect : (spiChipSelect t.nSpiChipSelect
      { lib with mem := store lib.mem p [t.dataPacket.left, t.dataPacket.right] } as).result =
        .error (.fault .mapFailed) := by
    rw [spiChipSelect, periSetBits, periRead, bind_run, access_unmapped hmap]
  rw [transferPacket, bind_run]
  simp only [modifyVars]
  rw [bind_run, hselect]

theorem new_first (nSpiChipSelect : Byte) (self : Motors) :
    (new host nSpiChipSelect self []).result = .error .pending := rfl

theorem init_eq_one {sys : System} {lib : Bcm2835} :
    (init sys lib).1 = 1 ↔ sys.opens = true ∧ sys.maps = true := by
  unfold init
  split
  · rename_i h
    exact iff_of_true rfl (Bool.and_eq_true_iff.mp h)
  · rename_i h
    exact iff_of_false (by simp) (mt Bool.and_eq_true_iff.mpr h)

/-- `bcm2835_init` succeeds for any user whose device can be opened and mapped, but
then only for root does the constructor return. For another user its first packet
faults, after the pulse. -/
theorem starts_iff {quiescent : ChipState → Byte} {nSpiChipSelect : Byte}
    {otherwise : Bus (ShiftChain ChipState)} {powerOn : Registers}
    {hw : Hardware (ShiftChain ChipState)}
    (hresets : Resets quiescent nSpiChipSelect otherwise powerOn hw) (host : Host) (p : ℕ)
    (self : Motors)
    (sys : System) (hclosed : ∀ block, lib.mapped block = false)
    (horder : lib.spiBitOrder = spiBitOrderMsbfirst)
    {s : Soc (ShiftChain ChipState)} (hpos : 0 < s.clock.micros)
    (hfit : s.clock.micros + 20000 + 43 * hw.timer.slack < 2 ^ 64) :
    ((init sys lib).1 = 1 ↔ sys.opens = true ∧ sys.maps = true) ∧
      ((init sys lib).1 = 1 →
        ((∃ lib₁ s₁ v lib' s', Runs hw.device (powerUp host) (init sys lib).2 s () lib₁ s₁ ∧
            RunsOver hw.device (transferPacket p) (new host nSpiChipSelect) self lib₁ s₁ () v lib'
              s') ↔
          sys.root = true) ∧
        (sys.root = false → ∃ lib₁ s₁, Runs hw.device (powerUp host) (init sys lib).2 s () lib₁ s₁ ∧
          ∀ t as, (transferPacket p t lib₁ as).result = .error (.fault .mapFailed))) := by
  refine ⟨init_eq_one, fun hone => ?_⟩
  obtain ⟨hopens, hmaps⟩ := init_eq_one.mp hone
  have hinit : init sys lib = (1, { lib with
      mapped := fun block => if sys.root then true else block == .gpio || lib.mapped block }) := by
    simp only [init, hopens, hmaps, Bool.and_self, ↓reduceIte]
  have huser (hroot : sys.root = false) :
      ∃ s₁, Runs hw.device (powerUp host) (init sys lib).2 s () (init sys lib).2 s₁ ∧
        ∀ t as, (transferPacket p t (init sys lib).2 as).result = .error (.fault .mapFailed) := by
    have hmapped (block : Block) : (init sys lib).2.mapped block = (block == .gpio) := by
      simp only [hinit, hroot, hclosed, Bool.false_eq_true, ↓reduceIte, Bool.or_false]
    obtain ⟨_, lib₁, s₁, hrun, rfl⟩ :=
      (@powerUp_pins _ hw host (init sys lib).2 s (hmapped _) (hmapped _) (hmapped _)).runs
    exact ⟨s₁, hrun, transferPacket_unmapped (hmapped _) p⟩
  refine ⟨⟨?_, fun hroot => ?_⟩, fun hroot => ?_⟩
  · rintro ⟨lib₁, s₁, v, lib', s', hup, hover⟩
    by_contra hroot
    obtain ⟨s₁', hup', hfault⟩ := huser (Bool.eq_false_iff.mpr hroot)
    obtain ⟨-, rfl, rfl⟩ := hup.unique hup'
    obtain ⟨log, hrelays, hreturns⟩ := hover.returns
    cases hrelays with
    | nil =>
      have hpending := congrArg Outcome.result (hreturns [])
      rw [List.map_nil, List.append_nil, new_first] at hpending
      cases hpending
    | cons hfirst _ =>
      obtain ⟨log₁, -, hpacket⟩ := hfirst.returns
      have hok := congrArg Outcome.result (hpacket [])
      rw [hfault] at hok
      cases hok
  · have hmapped (block : Block) : (init sys lib).2.mapped block = true := by
      simp only [hinit, hroot, ↓reduceIte]
    have horder' : (init sys lib).2.spiBitOrder = spiBitOrderMsbfirst := by rw [hinit, horder]
    obtain ⟨_, lib₁, s₁, hup, hon⟩ :=
      (@powerUp_onSoc host _ _ _ _ hw hresets (init sys lib).2 s hmapped horder' hpos hfit).runs
    have hnew := @new_runs host (fun s _ => quiescent s) self (fun _ => powerOn) nSpiChipSelect
    obtain ⟨lib', s', hover, -⟩ :=
      (soc_implements hresets.bus hresets.room p).runsOver (new_log self) hon hnew
    exact ⟨lib₁, s₁, _, lib', s', hup, hover⟩
  · obtain ⟨s₁, hup, hfault⟩ := huser hroot
    exact ⟨_, s₁, hup, hfault⟩

theorem starts_iff_user :
    (init ⟨false, true, true⟩ ⟨fun _ => false, 1, fun _ => 0, 0, 0⟩).1 = 1 ∧
      ¬ (∃ lib₁ s₁ v lib' s', Runs (chipHardware powerOnRegisters).device (powerUp .lp64)
          (init ⟨false, true, true⟩ ⟨fun _ => false, 1, fun _ => 0, 0, 0⟩).2 abandoned () lib₁ s₁ ∧
          RunsOver (chipHardware powerOnRegisters).device (transferPacket 0) (new .lp64 0)
            ⟨0, 0, false, false⟩ lib₁ s₁ () v lib' s') ∧
      ∃ lib₁ s₁, Runs (chipHardware powerOnRegisters).device (powerUp .lp64)
          (init ⟨false, true, true⟩ ⟨fun _ => false, 1, fun _ => 0, 0, 0⟩).2 abandoned () lib₁ s₁ ∧
        ∀ t as, (transferPacket 0 t lib₁ as).result = .error (.fault .mapFailed) := by
  obtain ⟨hinit, hstarts⟩ := @starts_iff ⟨fun _ => false, 1, fun _ => 0, 0, 0⟩ _ _ _ _ _
    chipHardware_resets .lp64 0 ⟨0, 0, false, false⟩ ⟨false, true, true⟩
      (fun _ => rfl) rfl abandoned
    (by decide) (by decide)
  obtain ⟨hroot, hfault⟩ := hstarts (hinit.mpr ⟨rfl, rfl⟩)
  exact ⟨hinit.mpr ⟨rfl, rfl⟩, fun hreturns => Bool.false_ne_true (hroot.mp hreturns), hfault rfl⟩

end LineFollower
