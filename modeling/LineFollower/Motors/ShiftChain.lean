import LineFollower.Lib.Layer
import LineFollower.Motors.Line
import LineFollower.Motors.Session

/-!
# The chips as shift registers

On the line each chip holds one byte. A byte goes into the right chip, the
right chip's byte into the left one and the left chip's byte out; when the chip
select is released each chip takes the byte that it holds and loads its answer
to the next. What the slaves do on a line that is driven otherwise is left
open, and so is what a chip does, up to `registerFile`.

A packet on the line is answered as on the chain, so what a program of
transfers does on the chain it does on the controller, at any pace
(`session_on_line`). A packet that is cut short anywhere leaves no trace: the
next one is taken as if it had not been begun (`stop_after_cut`).
-/

namespace LineFollower

open Lib Lib.Exchange Bcm2835

/-- A chip of the chain: the answer that it loads, and what a byte makes of it. -/
structure Part (C : Type) where
  answer : C → Byte
  take : C → Byte → C

def Part.chain {C : Type} (part : Part C) : Device (Chip → C) Transfer Packet := fun chips t =>
  (⟨part.answer (chips .left), part.answer (chips .right)⟩,
    fun chip => part.take (chips chip) (t.dataPacket.get chip))

/-- A register file, with `quiescent` for the answers that are left open. -/
def registerFile (quiescent : ChipState → Byte) : Part ChipState where
  answer s := s.reply.getD (quiescent s)
  take s b := (s.step (fun s _ => quiescent s) b).2

structure ShiftChain (C : Type) where
  chips : Chip → C
  held : Packet

namespace ShiftChain

variable {C : Type} (part : Part C)

def load (chips : Chip → C) : ShiftChain C :=
  ⟨chips, ⟨part.answer (chips .left), part.answer (chips .right)⟩⟩

def shift (s : ShiftChain C) (b : Byte) : Byte × ShiftChain C :=
  (s.held.left, { s with held := ⟨s.held.right, b⟩ })

def latch (s : ShiftChain C) : ShiftChain C :=
  load part fun chip => part.take (s.chips chip) (s.held.get chip)

def bus (ℓ : Line) (otherwise : Bus (ShiftChain C)) : Bus (ShiftChain C) where
  shift ℓ' := if ℓ' = ℓ then ShiftChain.shift else otherwise.shift ℓ'
  release ℓ' := if ℓ' = ℓ then latch part else otherwise.release ℓ'

variable {part} {ℓ : Line} {otherwise : Bus (ShiftChain C)}

@[simp] theorem bus_shift : (bus part ℓ otherwise).shift ℓ = ShiftChain.shift := if_pos rfl

@[simp] theorem bus_release : (bus part ℓ otherwise).release ℓ = latch part := if_pos rfl

theorem serve_chips (s : ShiftChain C) (bytes : List Byte) :
    (serve ShiftChain.shift s bytes).2.chips = s.chips := by
  induction bytes generalizing s with
  | nil => rfl
  | cons b bytes ih => exact ih _

theorem serve_packet (s : ShiftChain C) (stray : List Byte) (packet : Packet) :
    (serve ShiftChain.shift s (stray ++ packet.bytes)).2 = ⟨s.chips, packet⟩ := by
  rw [serve_append_snd]
  exact congrArg (ShiftChain.mk · packet) (serve_chips s stray)

end ShiftChain

open ShiftChain

variable {C : Type} {part : Part C}

theorem latch_eq (chips : Chip → C) (t : Transfer) :
    latch part ⟨chips, t.dataPacket⟩ = load part (part.chain chips t).2 := rfl

theorem Packet.bytes_injective {p q : Packet} (h : p.bytes = q.bytes) : p = q := by
  obtain ⟨l, r⟩ := p
  obtain ⟨l', r'⟩ := q
  simpa [Packet.bytes] using h

-- ---------------------------------------------------------------------------
-- Packets on the line
-- ---------------------------------------------------------------------------

/-- No transfer is active, and the chips have loaded their answers. -/
structure OnLine (part : Part C) (lib : Bcm2835) (d : Spi0 (ShiftChain C)) (chips : Chip → C) :
    Prop where
  ready : lib.Ready
  ta : d.ta = false
  slave : d.port.slave = load part chips

/-- A transfer of a packet may have been cut short, of which the chips have
taken nothing. -/
structure CutOnLine (part : Part C) (ℓ : Line) (lib : Bcm2835) (d : Spi0 (ShiftChain C))
    (chips : Chip → C) : Prop where
  ready : lib.Ready
  line : d.ta = true → d.line = ℓ
  chips : d.port.slave.chips = chips

section
variable {hw : Controller (ShiftChain C)} {ℓ : Line} {otherwise : Bus (ShiftChain C)}
  (hbus : hw.bus = bus part ℓ otherwise) (hroom : 2 ≤ hw.txRoom) {lib : Bcm2835}
  {d : Spi0 (ShiftChain C)} {chips : Chip → C} {t : Transfer} (ht : t.line = ℓ) (p : ℕ)
include hbus hroom ht

omit hbus hroom ht in
theorem OnLine.cut (h : OnLine part lib d chips) : CutOnLine part ℓ lib d chips := by
  refine ⟨h.ready, fun hta => ?_, ?_⟩
  · rw [h.ta] at hta
    cases hta
  · rw [h.slave]
    rfl

/-- The chips take a packet, whatever was cut short before it. -/
theorem transferPacket_taken (h : CutOnLine part ℓ lib d chips) :
    Triple hw.device (transferPacket p t) lib d
      (fun answer lib' d' => OnLine part lib' d' (part.chain chips t).2 ∧
        (OnLine part lib d chips → answer = (part.chain chips t).1))
      (fun d' => (d'.ta = true → d'.line = ℓ) ∧ d'.port.slave.chips = chips) := by
  subst ht
  refine (transferPacket_spec hw lib d p t h.ready.mapped h.ready.order hroom h.line).mono ?_ ?_
  · rintro answer lib' d' ⟨stray, hsent⟩
    have hslave := hsent.slave
    rw [hbus, bus_release, bus_shift, serve_packet, h.chips, latch_eq] at hslave
    refine ⟨⟨⟨hsent.mapped ▸ h.ready.mapped, hsent.spiBitOrder ▸ h.ready.order⟩, hsent.ta, hslave⟩,
      ?_⟩
    intro hon
    have hanswer := hsent.answer hon.ta
    rw [hbus, bus_shift, hon.slave] at hanswer
    exact Packet.bytes_injective hanswer
  · rintro d' ⟨hline, stray, done, -, -, -, hslave⟩
    refine ⟨hline, ?_⟩
    rw [hslave, hbus, bus_shift, serve_chips, h.chips]

/-- A packet that is cut short is not taken. -/
theorem CutOnLine.again (h : CutOnLine part ℓ lib d chips) {as : List Word}
    {d' : Spi0 (ShiftChain C)}
    (hd : Serves hw.device d (transferPacket p t lib as).log d')
    (hpending : (transferPacket p t lib as).result = .error .pending) :
    CutOnLine part ℓ (transferPacket p t lib as).vars d' chips := by
  have hready := transferPacket_keeps p t lib as h.ready
  have hcut := (transferPacket_taken hbus hroom ht p h).safe as d' hd
  simp only [Outcome.Satisfies, hpending] at hcut
  exact ⟨hready, hcut.1, hcut.2⟩

end

def chipController : Controller (ShiftChain ChipState) :=
  .inStep (bus (registerFile fun _ => 0) (chipLine 0) ⟨fun _ s _ => (0, s), fun _ => id⟩)

def quietSpi (regs : Chip → Registers) : Spi0 (ShiftChain ChipState) :=
  ⟨0, 0, ⟨[], none, [], load (registerFile fun _ => 0) (idle regs)⟩, 0⟩

theorem chipController_bus : chipController.bus =
    bus (registerFile fun _ => 0) (chipLine 0) ⟨fun _ s _ => (0, s), fun _ => id⟩ := rfl

theorem quietSpi_onLine (regs : Chip → Registers) :
    OnLine (registerFile fun _ => 0) initialised (quietSpi regs) (idle regs) :=
  ⟨⟨rfl, rfl⟩, BitVec.getLsbD_zero, rfl⟩

-- ---------------------------------------------------------------------------
-- Programs on the line
-- ---------------------------------------------------------------------------

/-- All transfers are made with the chip select `nSpiChipSelect`. -/
def oneLine (nSpiChipSelect : Byte) : Discipline Motors Transfer Packet where
  vars self := self.nSpiChipSelect = nSpiChipSelect ∧ (self.nPosition = 0 ∨ self.nPosition = 1)
  full log := ∀ e ∈ log, e.1.nSpiChipSelect = nSpiChipSelect
  cut log := ∀ e ∈ log, e.1.nSpiChipSelect = nSpiChipSelect
  full_nil := by simp
  cut_nil := by simp
  full_append := fun h h' e he => (List.mem_append.mp he).elim (h e) (h' e)
  cut_append := fun h h' e he => (List.mem_append.mp he).elim (h e) (h' e)

section
variable {nSpiChipSelect : Byte} {α : Type} {m : Spi α} {self : Motors}

theorem oneLine_log (hm : (oneLine nSpiChipSelect).Follows m)
    (hself : (oneLine nSpiChipSelect).vars self)
    (as : List Packet) : ∀ e ∈ (m self as).log, e.1.nSpiChipSelect = nSpiChipSelect := by
  have hmeets := hm self as hself
  unfold Discipline.Meets at hmeets
  split at hmeets
  · exact hmeets.2
  · exact hmeets
  · exact hmeets.elim

theorem Sends.oneLine {bs : List Byte} (hm : Sends bs m) : (oneLine nSpiChipSelect).Follows m := by
  intro self as hself
  obtain ⟨chip, hc⟩ := exists_packetIndex hself.2
  obtain ⟨hvars, -, hlog⟩ := hm self chip hc as
  have hselect {e : Transfer × Packet} (he : e.1 ∈ bs.map (frame self chip)) :
      e.1.nSpiChipSelect = nSpiChipSelect := by
    obtain ⟨b, -, hb⟩ := List.mem_map.mp he
    rw [← hb]
    exact hself.1
  unfold Discipline.Meets
  generalize m self as = o at hvars hlog ⊢
  obtain ⟨result, v, rest, log⟩ := o
  obtain rfl : v = self := hvars
  cases result with
  | ok a => exact ⟨hself, fun e he => hselect (hlog ▸ List.mem_map_of_mem he)⟩
  | error stop =>
    cases stop with
    | pending => exact fun e he => hselect (hlog.subset (List.mem_map_of_mem he))
    | fault e => exact hlog

theorem leftThenRight_oneLine {left right : Spi Unit}
    (hleft : (oneLine nSpiChipSelect).Follows left)
    (hright : (oneLine nSpiChipSelect).Follows right) :
    (oneLine nSpiChipSelect).Follows (leftThenRight left right) :=
  Discipline.Follows.seq (.modifyVars fun _ h => ⟨h.1, .inl rfl⟩) <|
    hleft.seq <| Discipline.Follows.seq (.modifyVars fun _ h => ⟨h.1, .inr rfl⟩) hright

variable {host : Host}

theorem waitWhileBusy_oneLine : (oneLine nSpiChipSelect).Follows (waitWhileBusy host) :=
  .repeatWhile (busyCheck_sends.oneLine.bind fun _ => .pure _)

theorem configure_oneLine : (oneLine nSpiChipSelect).Follows (configure host) := by
  have hget (param : ParamRegister) : (oneLine nSpiChipSelect).Follows (getParam host param) :=
    (getParam_sends param).oneLine
  have hw (param : ParamRegister) (value : ULong host) :
      (oneLine nSpiChipSelect).Follows (setParam host param value) :=
      (setParam_sends param value).oneLine
  have hstep (stepMode : Byte) : (oneLine nSpiChipSelect).Follows (configStepMode host stepMode) :=
    (hget _).bind fun _ => hw _ _
  have hmin (stepsPerSecond : ℚ) :
      (oneLine nSpiChipSelect).Follows (setMinSpeed host stepsPerSecond) :=
    (hget _).bind fun _ => hw _ _
  have hpwm (divisor multiplier : ℤ) :
      (oneLine nSpiChipSelect).Follows (setPWMFreq host divisor multiplier) :=
    (hget _).bind fun _ => hw _ _
  have hfield (mask : ℕ) (value : ℤ) :
      (oneLine nSpiChipSelect).Follows (setConfigField host mask value) :=
    (hget _).bind fun _ => hw _ _
  unfold configure
  refine (hw .config _).seq
    ((hstep _).seq (Discipline.Follows.seq (hw .maxSpeed _) ((hmin _).seq ?_)))
  refine Discipline.Follows.seq (hw .acc _)
    (Discipline.Follows.seq (hw .decel _) ((hpwm _ _).seq ?_))
  apply Discipline.Follows.seq (hfield configPowSrMask _)
  apply Discipline.Follows.seq (hw .ocdTh _)
  apply Discipline.Follows.seq (hfield configOcSdMask _)
  refine (hw .stSlp _).seq ((hw .fnSlpAcc _).seq ((hw .fnSlpDec _).seq ((hw .alarmEn _).seq ?_)))
  refine Discipline.Follows.seq (hw .kvalAcc _) (Discipline.Follows.seq (hw .kvalDec _) ?_)
  exact Discipline.Follows.seq (hw .kvalRun _) (hw .kvalHold _)

theorem stop_oneLine : (oneLine nSpiChipSelect).Follows (stop host) := by
  have hcommand (b : Byte) : (oneLine nSpiChipSelect).Follows (do let _ ← spiXfer b; pure ()) :=
    (command_sends b).oneLine
  have hwait : (oneLine nSpiChipSelect).Follows (waitWhileBusy host) := waitWhileBusy_oneLine
  rw [stop_eq]
  refine (leftThenRight_oneLine (hcommand _) (hcommand _)).seq ?_
  exact (leftThenRight_oneLine hwait hwait).seq (leftThenRight_oneLine (hcommand _) (hcommand _))

theorem setSpeed_oneLine (l r : ℤ) : (oneLine nSpiChipSelect).Follows (setSpeed host l r) := by
  have hdrive (speed : ℤ) : (oneLine nSpiChipSelect).Follows (drive host speed) := by
    unfold drive
    split <;> exact (run_sends _ _).oneLine
  rw [setSpeed_eq]
  refine (leftThenRight_oneLine waitWhileBusy_oneLine waitWhileBusy_oneLine).seq ?_
  exact leftThenRight_oneLine (hdrive l) (hdrive r)

theorem new_oneLine : (oneLine nSpiChipSelect).Follows (new host nSpiChipSelect) := by
  have hconfig : (oneLine nSpiChipSelect).Follows (getParam host .config) :=
    (getParam_sends .config).oneLine
  refine Discipline.Follows.seq (.modifyVars fun _ _ => ⟨rfl, .inl rfl⟩)
    (hconfig.bind fun config => ?_)
  refine Discipline.Follows.seq (.modifyVars fun self h => ?_) ?_
  · split <;> exact h
  refine Discipline.Follows.seq (.modifyVars fun _ h => ⟨h.1, .inr rfl⟩) ?_
  refine hconfig.bind fun config => .modifyVars fun self h => ?_
  split <;> exact h

/-- A constructor is one for this chip select. -/
def Operation.On (nSpiChipSelect : Byte) : Operation → Prop
  | .new nSpiChipSelect' => nSpiChipSelect' = nSpiChipSelect
  | _ => True

theorem Operation.Still.on {op : Operation} (h : op.Still) (nSpiChipSelect : Byte) :
    op.On nSpiChipSelect := by
  cases op with
  | new nSpiChipSelect' => exact h.elim
  | _ => trivial

theorem select_oneLine {position : Byte} (h : position = 0 ∨ position = 1) :
    (oneLine nSpiChipSelect).Follows (select position) := .modifyVars fun _ hself => ⟨hself.1, h⟩

theorem getPos_oneLine : (oneLine nSpiChipSelect).Follows (getPos host) :=
  (getParam_sends .absPos).oneLine.bind fun _ => .pure _

theorem getPositionLeft_oneLine : (oneLine nSpiChipSelect).Follows (getPositionLeft host) :=
  (select_oneLine (.inl rfl)).seq (getPos_oneLine.bind fun _ => .pure _)

theorem getPositionRight_oneLine : (oneLine nSpiChipSelect).Follows (getPositionRight host) :=
  (select_oneLine (.inr rfl)).seq (getPos_oneLine.bind fun _ => .pure _)

theorem perform_oneLine {op : Operation} (h : op.On nSpiChipSelect) :
    (oneLine nSpiChipSelect).Follows (op.perform host) := by
  have hget (param : ParamRegister) : (oneLine nSpiChipSelect).Follows (getParam host param) :=
    (getParam_sends param).oneLine
  have hcommand (b : Byte) : (oneLine nSpiChipSelect).Follows (do let _ ← spiXfer b; pure ()) :=
    (command_sends b).oneLine
  have hleft : (oneLine nSpiChipSelect).Follows (select 0) := select_oneLine (.inl rfl)
  have hright : (oneLine nSpiChipSelect).Follows (select 1) := select_oneLine (.inr rfl)
  have hcomp : (oneLine nSpiChipSelect).Follows (getVoltageComp host) :=
    (hget _).bind fun _ => .pure _
  cases op with
  | new nSpiChipSelect' =>
    obtain rfl : nSpiChipSelect' = nSpiChipSelect := h
    exact new_oneLine
  | setUp =>
    rw [Operation.perform, setUp_eq]
    exact leftThenRight_oneLine configure_oneLine configure_oneLine
  | setSpeed l r => exact setSpeed_oneLine l r
  | setMicrostep step =>
    exact leftThenRight_oneLine ((hget _).bind fun _ => (setParam_sends _ _).oneLine)
      ((hget _).bind fun _ => (setParam_sends _ _).oneLine)
  | stop => exact stop_oneLine
  | busyCheck => exact busyCheck_sends.oneLine.bind fun _ => .pure ()
  | getPositionLeft => exact getPositionLeft_oneLine.bind fun _ => .pure ()
  | getPositionRight => exact getPositionRight_oneLine.bind fun _ => .pure ()
  | resetPosition => exact leftThenRight_oneLine (hcommand _) (hcommand _)
  | getBatteryVoltage =>
    refine Discipline.Follows.bind ?_ fun _ => .pure ()
    exact hleft.seq (hcomp.bind fun _ => hright.seq (hcomp.bind fun _ => .pure _))
  | delete =>
    rw [Operation.perform, delete_eq]
    refine (hcommand _).seq ((leftThenRight_oneLine (hcommand _) (hcommand _)).seq ?_)
    exact .modifyVars fun _ h => h

theorem assign_fresh (self : Motors) (m : Spi α) (v v' : Motors) :
    (do modifyVars fun _ => self; m : Spi α) v = (do modifyVars fun _ => self; m : Spi α) v' := rfl

theorem new_fresh (nSpiChipSelect : Byte) (self self' : Motors) :
    new host nSpiChipSelect self = new host nSpiChipSelect self' := by
  unfold new
  exact assign_fresh _ _ self self'

theorem new_log (self : Motors) (as : List Packet) :
    ∀ e ∈ (new host nSpiChipSelect self as).log, e.1.nSpiChipSelect = nSpiChipSelect := by
  have hfresh := @oneLine_log nSpiChipSelect Unit (new host nSpiChipSelect)
    ⟨nSpiChipSelect, 0, false, false⟩ new_oneLine ⟨rfl, .inl rfl⟩ as
  rw [new_fresh nSpiChipSelect self ⟨nSpiChipSelect, 0, false, false⟩]
  exact hfresh

theorem constructed_log {m : Spi α} (hm : (oneLine nSpiChipSelect).Follows m) (self : Motors)
    (as : List Packet) :
    ∀ e ∈ ((do new host nSpiChipSelect; m : Spi α) self as).log, e.1.nSpiChipSelect =
      nSpiChipSelect := by
  have hfresh : (do new host nSpiChipSelect; m : Spi α) self as =
      (do new host nSpiChipSelect; m : Spi α) ⟨nSpiChipSelect, 0, false, false⟩ as := by
    rw [bind_run, bind_run, new_fresh nSpiChipSelect self ⟨nSpiChipSelect, 0, false, false⟩]
  rw [hfresh]
  exact oneLine_log (new_oneLine.seq hm) ⟨rfl, .inl rfl⟩ as

theorem session_log {ops : List Operation} (hops : ∀ op ∈ ops, op.On nSpiChipSelect) (self : Motors)
    (as : List Packet) :
    ∀ e ∈ (session host nSpiChipSelect ops self as).log, e.1.nSpiChipSelect = nSpiChipSelect := by
  have hcalls : (oneLine nSpiChipSelect).Follows (ops.forM (Operation.perform host)) := by
    induction ops with
    | nil => exact .pure ()
    | cons op ops ih =>
      refine (perform_oneLine (hops op List.mem_cons_self)).seq (ih fun op' hop => ?_)
      exact hops op' (List.mem_cons_of_mem _ hop)
  exact constructed_log hcalls self as

end

theorem stop_first (host : Host) (self : Motors) : ∃ next : Spi Unit, ∀ as,
    stop host self as =
      (do let _ ← exchange (frame { self with nPosition := 0 } .left cmdSoftStop); next : Spi Unit)
        { self with nPosition := 0 } as := by
  refine ⟨do
    select 1
    softStop
    select 0
    waitWhileBusy host
    select 1
    waitWhileBusy host
    select 0
    hardHiZ
    select 1
    hardHiZ, fun as => ?_⟩
  cases as with
  | nil => rfl
  | cons a as => rfl

theorem stop_returns {host : Host} {self self' : Motors} {log : Log}
    (h : ∀ rest, stop host self (log.map Prod.snd ++ rest) = ⟨.ok (), self', rest, log⟩) :
    ∃ t a log', log = (t, a) :: log' ∧ ∀ a' rest,
      stop host self (((t, a') :: log').map Prod.snd ++ rest) =
        ⟨.ok (), self', rest, (t, a') :: log'⟩ := by
  obtain ⟨next, hfirst⟩ := stop_first host self
  cases log with
  | nil =>
    have hend := h []
    rw [hfirst] at hend
    simp [bind_run, exchange] at hend
  | cons e log =>
    obtain ⟨t, a⟩ := e
    refine ⟨t, a, log, rfl, fun a' rest => ?_⟩
    have hend := h rest
    rw [hfirst] at hend ⊢
    obtain ⟨b, v, as, l₁, l₂, hxfer, hnext, hlog⟩ := bind_ok.mp hend
    obtain ⟨rfl, rfl, rfl, rfl⟩ : a = b ∧ { self with nPosition := 0 } = v ∧
        log.map Prod.snd ++ rest = as ∧
        [(frame { self with nPosition := 0 } .left cmdSoftStop, a)] = l₁ := by
      simpa [exchange] using hxfer
    obtain ⟨⟨rfl, -⟩, rfl⟩ := List.cons.inj hlog
    exact bind_ok.mpr ⟨a', _, _, _, _, rfl, hnext, rfl⟩

-- ---------------------------------------------------------------------------
-- Runs on the controller
-- ---------------------------------------------------------------------------

section
variable {hw : Controller (ShiftChain C)} {nSpiChipSelect : Byte} {otherwise : Bus (ShiftChain C)}
  (hbus : hw.bus = bus part (chipLine nSpiChipSelect) otherwise) (hroom : 2 ≤ hw.txRoom)
  {lib : Bcm2835}
  {d : Spi0 (ShiftChain C)} {chips chips' : Chip → C}
include hbus hroom

theorem transferPacket_implements (p : ℕ) :
    Implements hw.device (transferPacket p) part.chain (fun t => t.nSpiChipSelect = nSpiChipSelect)
      (OnLine part) := by
  rintro t lib d chips rfl h
  obtain ⟨answer, lib', d', hrun, hon, hanswer⟩ :=
    (transferPacket_taken hbus hroom rfl p h.cut).runs
  rw [hanswer h] at hrun
  exact ⟨lib', d', hrun, hon⟩

/-- Operations of the board do on the controller what they do on the chain,
and nothing else. -/
theorem session_on_line (host : Host) (p : ℕ) (ops : List Operation)
    (hops : ∀ op ∈ ops, op.On nSpiChipSelect) (h : OnLine part lib d chips) {self self' : Motors}
    (hrun : Runs part.chain (session host nSpiChipSelect ops) self chips () self' chips') :
    (∃ lib' d', RunsOver hw.device (transferPacket p) (session host nSpiChipSelect ops)
        self lib d ()
        self' lib' d' ∧ OnLine part lib' d' chips') ∧
      ∀ v lib' d', RunsOver hw.device (transferPacket p) (session host nSpiChipSelect ops)
        self lib d () v
        lib' d' → v = self' ∧ OnLine part lib' d' chips' := by
  have hlog := @session_log nSpiChipSelect host ops hops self
  have himplements := @transferPacket_implements C part hw nSpiChipSelect otherwise hbus hroom p
  refine ⟨himplements.runsOver hlog h hrun, fun v lib' d' hover => ?_⟩
  exact (himplements.only hlog h hrun hover).2

/-- The emergency stop in the middle of the transfer of a packet: it leaves the
chips as it would have done before that packet, and nothing else. -/
theorem stop_after_cut (host : Host) (p : ℕ) {t : Transfer} (ht : t.nSpiChipSelect = nSpiChipSelect)
    {as : List Word} {d' : Spi0 (ShiftChain C)} (h : OnLine part lib d chips)
    (hd : Serves hw.device d (transferPacket p t lib as).log d')
    (hpending : (transferPacket p t lib as).result = .error .pending) {self self' : Motors}
    (hself : self.nSpiChipSelect = nSpiChipSelect)
    (hrun : Runs part.chain (stop host) self chips () self' chips') :
    (∃ lib' d'', RunsOver hw.device (transferPacket p) (stop host) self
        (transferPacket p t lib as).vars
        d' () self' lib' d'' ∧ OnLine part lib' d'' chips') ∧
      ∀ v lib' d'', RunsOver hw.device (transferPacket p) (stop host) self
        (transferPacket p t lib as).vars d' () v lib' d'' → v = self' ∧
          OnLine part lib' d'' chips' := by
  have hcut := CutOnLine.again hbus hroom (congrArg chipLine ht) p h.cut hd hpending
  have himplements := @transferPacket_implements C part hw nSpiChipSelect otherwise hbus hroom p
  have hselect {v : Motors} {log : Log}
      (hreturns : ∀ rest, stop host self (log.map Prod.snd ++ rest) = ⟨.ok (), v, rest, log⟩) :
      ∀ e ∈ log, e.1.nSpiChipSelect = nSpiChipSelect := by
    have hstop :=
      @oneLine_log _ _ (stop host) { self with nPosition := 0 } stop_oneLine ⟨hself, .inl rfl⟩
      (log.map Prod.snd ++ [])
    have hsame : stop host { self with nPosition := 0 } (log.map Prod.snd ++ []) = _ := hreturns []
    rw [hsame] at hstop
    exact hstop
  constructor
  · obtain ⟨log, hserves, hreturns⟩ := hrun.returns
    have hlog := hselect hreturns
    obtain ⟨t₁, a, log, rfl, hreturns'⟩ := stop_returns hreturns
    obtain ⟨rfl, hserves⟩ := hserves
    have hline₁ : t₁.line = chipLine nSpiChipSelect := congrArg chipLine (hlog _ List.mem_cons_self)
    obtain ⟨answer, lib₁, d₁, hfirst, hon, -⟩ :=
      (transferPacket_taken hbus hroom hline₁ p hcut).runs
    obtain ⟨lib₂, d₂, hrest, hon₂⟩ :=
      himplements.relays (fun e he => hlog e (List.mem_cons_of_mem _ he)) hon hserves
    exact ⟨lib₂, d₂, ⟨_, .cons hfirst hrest, hreturns' answer⟩, hon₂⟩
  · intro v lib' d'' hover
    obtain ⟨log, hrelays, hreturns⟩ := hover.returns
    have hlog := hselect hreturns
    obtain ⟨t₁, a, log, rfl, hreturns'⟩ := stop_returns hreturns
    have hline₁ : t₁.line = chipLine nSpiChipSelect := congrArg chipLine (hlog _ List.mem_cons_self)
    cases hrelays with
    | cons hfirst hrest =>
      obtain ⟨hon, -⟩ := (transferPacket_taken hbus hroom hline₁ p hcut).of_runs hfirst
      obtain ⟨chips₂, hserves, hon₂⟩ :=
        himplements.serves (fun e he => hlog e (List.mem_cons_of_mem _ he)) hon hrest
      -- with the chain's answer in the place of the one that is dropped
      obtain ⟨-, rfl, rfl⟩ :=
        hrun.only _ _ _ _ _ _ (hreturns' (part.chain chips t₁).1 []) ⟨rfl, hserves⟩
      exact ⟨rfl, hon₂⟩

end

theorem session_on_line_setUp :
    ∃ self' lib' d', RunsOver chipController.device (transferPacket 0)
        (session Host.lp64 0 [.setUp])
        ⟨0, 0, false, false⟩ initialised (quietSpi fun _ _ => BitVec.allOnes _) () self' lib' d' ∧
      OnLine (registerFile fun _ => 0) lib' d' (idle fun _ => configured Host.lp64 fun _ =>
        BitVec.allOnes _) := by
  obtain ⟨self', hrun⟩ := @session_runs Host.lp64 (fun _ _ => 0) ⟨0, 0, false, false⟩
    (fun _ _ => BitVec.allOnes _) 0 [.setUp] (by simp [Operation.Still]) fun _ => rfl
  obtain ⟨⟨lib', d', hover, hon⟩, -⟩ := session_on_line chipController_bus (by decide) Host.lp64 0
    [.setUp] (by simp [Operation.On]) (quietSpi_onLine _) hrun
  exact ⟨self', lib', d', hover, hon⟩

/-- The first packet of a RUN to the left chip, and the controller's answers
until the opcode is in the shift registers. -/
def runPacket : Transfer := ⟨0, 0, ⟨cmdRun ||| Direction.fwd.value, 0⟩⟩

def runPacketAnswers : List Word :=
  [0x40000, 0, 0, 0x40000, 0, 0x4000C, 0, 0x4000C, 0, 0x5008C, 0, 0x4008C, 0]

/-- The chips get the commands of `stop`, and nothing of the RUN. -/
theorem stop_after_cut_run :
    ∃ d' self' lib' d'',
      Serves chipController.device (quietSpi fun _ _ => BitVec.allOnes _)
        (transferPacket 0 runPacket initialised runPacketAnswers).log d' ∧
      d'.port.slave.held = ⟨0, 0x51⟩ ∧
      RunsOver chipController.device (transferPacket 0) (stop Host.lp64) ⟨0, 0, true, true⟩
        (transferPacket 0 runPacket initialised runPacketAnswers).vars d' () self' lib' d'' ∧
      OnLine (registerFile fun _ => 0) lib' d'' (idle fun _ _ => BitVec.allOnes _) := by
  have hrun :=
    @perform_runs Host.lp64 (fun _ _ => 0) ⟨0, 0, true, true⟩ (fun _ _ => BitVec.allOnes _) .stop
    trivial (.inl rfl) fun _ => rfl
  have hd : Serves chipController.device (quietSpi fun _ _ => BitVec.allOnes _)
      (transferPacket 0 runPacket initialised runPacketAnswers).log _ :=
    ⟨rfl, rfl, rfl, rfl, rfl, rfl, rfl, rfl, rfl, rfl, rfl, rfl, rfl, rfl⟩
  obtain ⟨⟨lib', d'', hover, hon⟩, -⟩ :=
    stop_after_cut chipController_bus (by decide) Host.lp64 0 rfl
    (quietSpi_onLine _) hd rfl rfl hrun
  exact ⟨_, _, lib', d'', hd, rfl, hover, hon⟩

end LineFollower
