import LineFollower.Lib.Client
import LineFollower.Motors.Settings
import LineFollower.Motors.PowerUp

/-!
# The board as a store

To a client that leaves the motors alone the two chips behind one selection are
two stores, each with a position, and the name of one of them (`Stores`): a setter
and a getter go to the selected store, `setUp` and `setMicrostep` to both. No such
client can tell the board from that, whatever it calls and however it chooses its
calls (`client_store`); not on the hardware either, from whatever state an earlier
process has left it in (`client_restart`).
-/

namespace LineFollower

open Lib Lib.Exchange Bcm2835

variable {host : Host} {nSpiChipSelect : Byte}

/-- The methods of a board that neither move a motor nor set its position, but for
`getBatteryVoltage`. -/
inductive Call (host : Host)
  | setUp
  | setMicrostep (step : Byte)
  | stop
  | busyCheck
  | getPositionLeft
  | getPositionRight
  | set (s : Setter host)
  | get (g : Getter)

namespace Call

def Result : Call host → Type
  | busyCheck | getPositionLeft | getPositionRight => ℤ
  | get g => g.Result host
  | _ => Unit

def perform : (c : Call host) → Spi c.Result
  | setUp => LineFollower.setUp host
  | setMicrostep step => LineFollower.setMicrostep host step
  | stop => LineFollower.stop host
  | busyCheck => LineFollower.busyCheck host
  | getPositionLeft => LineFollower.getPositionLeft host
  | getPositionRight => LineFollower.getPositionRight host
  | set s => s.perform
  | get g => g.perform host

end Call

-- ---------------------------------------------------------------------------
-- Two stores
-- ---------------------------------------------------------------------------

structure Stores where
  selected : Chip
  store : Chip → Store
  /-- ABS_POS. -/
  position : Chip → BitVec 22

namespace Stores

def both (b : Stores) (sets : List (Setting × ULong host)) : Stores :=
  { b with selected := .right, store := fun chip => (b.store chip).after sets }

def ofRegisters (selected : Chip) (regs : Chip → Registers) : Stores :=
  ⟨selected, fun chip => (regs chip).store, fun chip => regs chip .absPos⟩

def readPosition (host : Host) (b : Stores) (chip : Chip) : ℤ :=
  (extendPos ((b.position chip).setWidth host.longBits)).toInt

def step (b : Stores) : (c : Call host) → c.Result × Stores
  | .setUp => ((), b.both ((configureSetters host).flatMap Setter.sets))
  | .setMicrostep step => ((), b.both ((Setter.field (.configStepMode step) : Setter host).sets))
  | .stop => ((), { b with selected := .right })
  | .busyCheck => ((0 : ℤ), b)
  | .getPositionLeft => (b.readPosition host .left, { b with selected := .left })
  | .getPositionRight => (b.readPosition host .right, { b with selected := .right })
  | .set s =>
    ((), { b with store := Function.update b.store b.selected ((b.store b.selected).after s.sets) })
  | .get g => (g.ofSetting host (b.store b.selected g.setting), b)

end Stores

/-- The board and two idle chips, whose motors stand still, hold the stores. -/
structure Holds (board : Motors) (regs : Chip → Registers) (b : Stores) : Prop where
  selected : packetIndex board.nPosition = some b.selected
  store : ∀ chip, (regs chip).store = b.store chip
  position : ∀ chip, regs chip .absPos = b.position chip
  atRest : ∀ chip, (regs chip).AtRest

variable {self : Motors} {regs : Chip → Registers} {b : Stores}

theorem Holds.steady (h : Holds self regs b) : Steady (self, regs) where
  selected := (packetIndex_eq_some h.selected).imp And.left And.left
  atRest := h.atRest

theorem setMicrostep_store (step : Byte) (r : Registers) :
    ((Operation.setMicrostep step).effect host r).store =
      r.store.after (Setter.field (.configStepMode step) : Setter host).sets := by
  have hsetter : Does (configStepMode host step) _ _ := Setter.does (.field (.configStepMode step))
  have hnext := (configStepMode_does step).unique hsetter
  exact (congrArg Registers.store (congrFun hnext r)).trans (Setter.next_store _ r)

theorem Holds.both (h : Holds self regs b) (other : ChipState → Byte → Byte) {op : Operation}
    (hop : op.Still) (hright : (op.vars self).nPosition = 1) {sets : List (Setting × ULong host)}
    (hsets : ∀ r : Registers, (op.effect host r).store = r.store.after sets) :
    ∃ self' regs', Runs (chain other) (op.perform host) self (idle regs) () self' (idle regs') ∧
      Holds self' regs' (b.both sets) := by
  have hsteady := h.steady
  refine ⟨_, _, perform_runs op hop hsteady.selected hsteady.atRest, ?_, fun chip => ?_,
    fun chip => ?_,
    (hsteady.next op).atRest⟩
  · change packetIndex (op.vars self).nPosition = some .right
    rw [hright]
    exact packetIndex_right
  · exact (hsets (regs chip)).trans (congrArg (Store.after · sets) (h.store chip))
  · exact (effect_unwritten op (regs chip) (by decide)).trans (h.position chip)

theorem position_runs (other : ChipState → Byte → Byte) (self : Motors) (regs : Chip → Registers)
    {position : Byte} {chip : Chip} (hc : packetIndex position = some chip) :
    Runs (chain other) (do select position; return (← getPos host).toInt) self (idle regs)
      (extendPos ((regs chip .absPos).setWidth host.longBits)).toInt
      { self with nPosition := position }
      (idle regs) := by
  have hread : Does (do return (← getPos host).toInt) _ id := getPos_does.bind fun _ => .pure _
  have hrun := hread other { self with nPosition := position } chip regs hc
  rw [id, Function.update_eq_self] at hrun
  exact (Runs.modifyVars _ _ _).bind hrun

theorem Setter.next_atRest (s : Setter host) {r : Registers} (h : r.AtRest) :
    (s.next r).AtRest := by
  rw [Registers.AtRest, s.next_other r (by decide)]
  exact h

theorem Holds.set (h : Holds self regs b) (s : Setter host) :
    Holds self (Function.update regs b.selected (s.next (regs b.selected)))
      { b with store :=
        Function.update b.store b.selected ((b.store b.selected).after s.sets) } := by
  refine ⟨h.selected, fun chip => ?_, fun chip => ?_, fun chip => ?_⟩
  all_goals by_cases hchip : chip = b.selected
  · subst hchip
    simp only [Function.update_self]
    rw [s.next_store, h.store]
  · simp only [Function.update_of_ne hchip]
    exact h.store chip
  · subst hchip
    rw [Function.update_self, s.next_other _ (by decide)]
    exact h.position _
  · rw [Function.update_of_ne hchip]
    exact h.position chip
  · subst hchip
    rw [Function.update_self]
    exact s.next_atRest (h.atRest _)
  · rw [Function.update_of_ne hchip]
    exact h.atRest chip

theorem Call.runs (other : ChipState → Byte → Byte) (c : Call host) (h : Holds self regs b) :
    ∃ self' regs', Runs (chain other) c.perform self (idle regs) (b.step c).1 self' (idle regs') ∧
      Holds self' regs' (b.step c).2 := by
  have hposition {position : Byte} {chip : Chip} (hc : packetIndex position = some chip) :
      ∃ self' regs', Runs (chain other) (do select position; return (← getPos host).toInt) self
          (idle regs) (b.readPosition host chip) self' (idle regs') ∧
        Holds self' regs' { b with selected := chip } := by
    have hrun := @position_runs host other self regs _ _ hc
    rw [h.position chip] at hrun
    exact ⟨_, regs, hrun, hc, h.store, h.position, h.atRest⟩
  cases c with
  | setUp => exact @Holds.both host _ _ _ h other .setUp trivial rfl _ configured_store
  | setMicrostep step =>
    exact @Holds.both host _ _ _ h other (.setMicrostep step) trivial rfl _
      (setMicrostep_store step)
  | stop => exact @Holds.both host _ _ _ h other .stop trivial rfl [] fun _ => rfl
  | busyCheck => exact ⟨self, regs, busyCheck_runs h.selected (h.atRest _), h⟩
  | getPositionLeft => exact hposition packetIndex_left
  | getPositionRight => exact hposition packetIndex_right
  | set s => exact ⟨self, _, s.does other self b.selected regs h.selected, h.set s⟩
  | get g =>
    have hrun := @Getter.does host g other self b.selected regs h.selected
    rw [id, Function.update_eq_self] at hrun
    simp only [h.store] at hrun
    exact ⟨self, regs, hrun, h⟩

-- ---------------------------------------------------------------------------
-- Clients
-- ---------------------------------------------------------------------------

abbrev BoardClient (host : Host) := Client (Call host) Call.Result

variable {α : Type}

/-- A client of the board is told what it would be told by two stores, from
idle chips whose motors stand still. -/
theorem client_store (other : ChipState → Byte → Byte) (client : BoardClient host α)
    {selected : Chip} (hselected : packetIndex self.nPosition = some selected)
    (hrest : ∀ chip, (regs chip).AtRest) :
    ∃ self' regs', Runs (chain other) (client.perform Call.perform) self (idle regs)
        (client.eval Stores.step (Stores.ofRegisters selected regs)).1 self' (idle regs') ∧
      Holds self' regs' (client.eval Stores.step (Stores.ofRegisters selected regs)).2 := by
  have hstep (c : Call host) (v : Motors) (chips : Chips) (b : Stores)
      (h : ∃ regs, chips = idle regs ∧ Holds v regs b) :
      ∃ v' chips', Runs (chain other) c.perform v chips (b.step c).1 v' chips' ∧
        ∃ regs', chips' = idle regs' ∧ Holds v' regs' (b.step c).2 := by
    obtain ⟨regs, rfl, hholds⟩ := h
    obtain ⟨v', regs', hrun, hholds'⟩ := c.runs other hholds
    exact ⟨v', _, hrun, regs', rfl, hholds'⟩
  have hheld : Holds self regs (.ofRegisters selected regs) :=
    ⟨hselected, fun _ => rfl, fun _ => rfl, hrest⟩
  obtain ⟨self', _, hrun, regs', rfl, hholds'⟩ := Client.runs hstep client ⟨regs, rfl, hheld⟩
  exact ⟨self', regs', hrun, hholds'⟩

/-- Sets the run voltage of the right chip to another value than `setUp`, and
reads both. -/
def tuneRight (host : Host) : BoardClient host (Byte × Byte) :=
  .call .setUp fun _ =>
  .call (.set (.register (.setRunKVAL 0x70))) fun _ =>
  .call (.get .getRunKVAL) fun (right : Byte) =>
  .call .getPositionLeft fun _ =>
  .call (.get .getRunKVAL) fun (left : Byte) => .done (left, right)

theorem client_store_tuneRight :
    ∃ self' regs', Runs (chain fun _ _ => 0) ((tuneRight .lp64).perform Call.perform)
        ⟨0, 0, false, false⟩
        (idle fun _ _ => BitVec.allOnes _) (0x64, 0x70) self' (idle regs') := by
  obtain ⟨self', regs', hrun, -⟩ :=
    @client_store _ ⟨0, 0, false, false⟩ (fun _ _ => BitVec.allOnes _) _
    (fun _ _ => 0) (tuneRight .lp64) .left packetIndex_left fun _ => rfl
  exact ⟨self', regs', hrun⟩

theorem getParam_oneLine (param : ParamRegister) :
    (oneLine nSpiChipSelect).Follows (getParam host param) := (getParam_sends param).oneLine

theorem setParam_oneLine (param : ParamRegister) (value : ULong host) :
    (oneLine nSpiChipSelect).Follows (setParam host param value) :=
    (setParam_sends param value).oneLine

theorem Setter.oneLine (s : Setter host) : (oneLine nSpiChipSelect).Follows s.perform := by
  cases s with
  | field s => cases s <;> exact (getParam_oneLine _).bind fun _ => setParam_oneLine _ _
  | register s =>
    rw [perform, RegisterSetter.perform_eq]
    exact setParam_oneLine _ _

theorem Getter.oneLine (g : Getter) : (oneLine nSpiChipSelect).Follows (g.perform host) := by
  cases g with
  | field g => cases g <;> exact (getParam_oneLine _).bind fun _ => .pure _
  | getParam param h => exact getParam_oneLine param
  | _ => exact (getParam_oneLine _).bind fun _ => .pure _

theorem Call.oneLine (nSpiChipSelect : Byte) (c : Call host) :
    (oneLine nSpiChipSelect).Follows c.perform := by
  cases c with
  | setUp => exact @perform_oneLine _ host .setUp trivial
  | setMicrostep step => exact @perform_oneLine _ host (.setMicrostep step) trivial
  | stop => exact stop_oneLine
  | busyCheck => exact busyCheck_sends.oneLine
  | getPositionLeft => exact getPositionLeft_oneLine
  | getPositionRight => exact getPositionRight_oneLine
  | set s => exact s.oneLine
  | get g => exact g.oneLine

/-- Whatever state an earlier process has left the hardware in, a client of a
new board is told what it would be told by two stores of a chip that has just
been reset, and nothing else. -/
theorem client_restart {quiescent : ChipState → Byte} {otherwise : Bus (ShiftChain ChipState)}
    {powerOn : Registers} {hw : Hardware (ShiftChain ChipState)}
    (hresets : Resets quiescent nSpiChipSelect otherwise powerOn hw) {lib : Bcm2835}
    {s : Soc (ShiftChain ChipState)} (p : ℕ) (client : BoardClient host α)
    (hmapped : ∀ block, lib.mapped block = true) (horder : lib.spiBitOrder = spiBitOrderMsbfirst)
    (hpos : 0 < s.clock.micros) (hfit : s.clock.micros + 20000 + 43 * hw.timer.slack < 2 ^ 64)
    (self : Motors) :
    ∃ lib₁ s₁, Runs hw.device (powerUp host) lib s () lib₁ s₁ ∧
      (∃ self' lib' s', RunsOver hw.device (transferPacket p)
        (do new host nSpiChipSelect; client.perform Call.perform) self lib₁ s₁
        (client.eval Stores.step (Stores.ofRegisters .right fun _ => powerOn)).1 self' lib' s') ∧
      ∀ a self' lib' s', RunsOver hw.device (transferPacket p)
        (do new host nSpiChipSelect; client.perform Call.perform) self lib₁ s₁ a self' lib' s' →
        a = (client.eval Stores.step (Stores.ofRegisters .right fun _ => powerOn)).1 := by
  have hpowerUp := @powerUp_onSoc host _ _ _ _ hw hresets lib s hmapped horder hpos hfit
  obtain ⟨_, lib₁, s₁, hup, hon⟩ := hpowerUp.runs
  have himplements := soc_implements hresets.bus hresets.room p
  have hfollows : (oneLine nSpiChipSelect).Follows (client.perform Call.perform) :=
    Client.follows (Call.oneLine nSpiChipSelect) client
  have hlog := @constructed_log _ _ host _ hfollows self
  have hnew := @new_runs host (fun s _ => quiescent s) self (fun _ => powerOn) nSpiChipSelect
  have hright : packetIndex (constructed nSpiChipSelect fun _ => powerOn).nPosition = some .right :=
    packetIndex_right
  have hrest (chip : Chip) : ((fun _ => powerOn : Chip → Registers) chip).AtRest := hresets.atRest
  obtain ⟨self', regs', hclient, -⟩ := client_store (fun s _ => quiescent s) client hright hrest
  have hrun := hnew.seq hclient
  refine ⟨lib₁, s₁, hup, ?_, fun a self' lib' s' hover => (himplements.only hlog hon hrun hover).1⟩
  obtain ⟨lib', s', hover, -⟩ := himplements.runsOver hlog hon hrun
  exact ⟨self', lib', s', hover⟩

theorem client_restart_tuneRight :
    ∃ lib₁ s₁, Runs (chipHardware powerOnRegisters).device (powerUp .lp64) initialised abandoned
      () lib₁ s₁ ∧
      (∃ self' lib' s', RunsOver (chipHardware powerOnRegisters).device (transferPacket 0)
        (do new .lp64 0; (tuneRight .lp64).perform Call.perform) ⟨0, 0, false, false⟩ lib₁ s₁
        (0x64, 0x70)
        self' lib' s') ∧
      ∀ a self' lib' s', RunsOver (chipHardware powerOnRegisters).device (transferPacket 0)
        (do new .lp64 0; (tuneRight .lp64).perform Call.perform) ⟨0, 0, false, false⟩ lib₁ s₁ a
          self' lib' s' →
        a = (0x64, 0x70) :=
  client_restart chipHardware_resets 0 (tuneRight .lp64) (fun _ => rfl) rfl (by decide)
    (by decide) _

end LineFollower
