import LineFollower.Bcm2835.Polled
import LineFollower.Motors.RegisterFile

/-!
# A packet on the SPI line

`Motors::SPIXfer` sends its packet by the SPI controller, after it has set the
chip select, the clock and the mode. From any state in which no transfer is
active, at any pace, the slaves on the line of the packet get its two bytes and
are released, and the packet holds their answers (`transferPacket_spec`).
-/

namespace LineFollower

open Lib Lib.Exchange Bcm2835

variable {S : Type}

/-- The middle of `Motors::SPIXfer`, for a `dataPacket` at the address `p`. -/
def transferPacket (p : ℕ) (t : Transfer) : Driver Packet := do
  modifyVars fun self =>
    { self with mem := store self.mem p [t.dataPacket.left, t.dataPacket.right] }
  spiChipSelect t.nSpiChipSelect
  spiSetClockDivider spiClockDivider64
  spiSetDataMode spiMode3
  spiTransfern p 2
  let self ← getVars
  return ⟨self.mem p, self.mem (p + 1)⟩

def chipLine (nSpiChipSelect : Byte) : Line :=
  ⟨nSpiChipSelect.setWidth 2, spiMode3.setWidth 2, spiClockDivider64⟩

def Transfer.line (t : Transfer) : Line := chipLine t.nSpiChipSelect

-- ---------------------------------------------------------------------------
-- The settings
-- ---------------------------------------------------------------------------

section
variable {hw : Controller S} {d : Spi0 S}

theorem getLsbD_control {value mask : Word} {i : ℕ} (hi : i < 4) :
    (hw.setBits value mask d).control.getLsbD i =
      if mask.getLsbD i = true then value.getLsbD i else d.control.getLsbD i := by
  have hmask : ∀ i < 4, controlMask.getLsbD i = true := by decide
  rw [Controller.setBits_control, BitVec.getLsbD_and, getLsbD_setBits, hmask i hi, Bool.and_true]

theorem chipSelect_line (cs : Byte) :
    (hw.setBits (cs.setWidth 32) spi0CsCs d).line =
    { d.line with chipSelect := cs.setWidth 2 } := by
  have hlow : ∀ i < 2, spi0CsCs.getLsbD i = true := by decide
  have hhigh : ∀ i < 2, spi0CsCs.getLsbD (2 + i) = false := by decide
  simp only [Spi0.line, Controller.setBits_clk, Line.mk.injEq, and_true]
  constructor
  · apply BitVec.eq_of_getLsbD_eq
    intro i hi
    simp only [BitVec.getLsbD_extractLsb', hi, decide_true, Bool.true_and, Nat.zero_add]
    rw [getLsbD_control (by omega), if_pos (hlow i hi)]
    simp [hi, show i < 32 by omega]
  · apply BitVec.eq_of_getLsbD_eq
    intro i hi
    simp only [BitVec.getLsbD_extractLsb', hi, decide_true, Bool.true_and]
    rw [getLsbD_control (by omega), hhigh i hi, if_neg Bool.false_ne_true]

theorem dataMode_line (mode : Byte) :
    (hw.setBits (mode.setWidth 32 <<< 2) (spi0CsCpol ||| spi0CsCpha) d).line =
      { d.line with dataMode := mode.setWidth 2 } := by
  have hlow : ∀ i < 2, (spi0CsCpol ||| spi0CsCpha).getLsbD i = false := by decide
  have hhigh : ∀ i < 2, (spi0CsCpol ||| spi0CsCpha).getLsbD (2 + i) = true := by decide
  simp only [Spi0.line, Controller.setBits_clk, Line.mk.injEq, and_true]
  constructor
  · apply BitVec.eq_of_getLsbD_eq
    intro i hi
    simp only [BitVec.getLsbD_extractLsb', hi, decide_true, Bool.true_and, Nat.zero_add]
    rw [getLsbD_control (by omega), hlow i hi, if_neg Bool.false_ne_true]
  · apply BitVec.eq_of_getLsbD_eq
    intro i hi
    simp only [BitVec.getLsbD_extractLsb', hi, decide_true, Bool.true_and]
    rw [getLsbD_control (by omega), if_pos (hhigh i hi)]
    have hin : 2 + i < 32 ∧ ¬ 2 + i < 2 ∧ i < 32 := by omega
    rw [BitVec.getLsbD_shiftLeft, BitVec.getLsbD_setWidth, BitVec.getLsbD_setWidth,
      Nat.add_sub_cancel_left]
    simp only [hin, hi, decide_true, decide_false, Bool.not_false, Bool.true_and]

theorem setting_port {value mask : Word} (h7 : mask.getLsbD 7 = false) (h4 : mask.getLsbD 4 = false)
    (h5 : mask.getLsbD 5 = false) :
    (hw.setBits value mask d).port =
      { (hw.advance (hw.advance d)).port with
        shifter := if d.ta then (hw.advance (hw.advance d)).port.shifter else none } := by
  have hport :=
    @Controller.setBits_port S hw d value mask d.ta (by rw [h7, if_neg Bool.false_ne_true])
  have hstay : ¬ (d.ta = true ∧ d.ta = false) := by
    rintro ⟨ht, hf⟩
    exact Bool.false_ne_true (hf.symm.trans ht)
  rw [if_neg hstay, h4, h5] at hport
  exact hport

end

/-- What the settings leave alone: no byte is lost of a transfer that is
active, and the slave does not change without one. -/
structure Kept (hw : Controller S) (ℓ : Line) (d d' : Spi0 S) : Prop where
  ta : d'.ta = d.ta
  active : d.ta = true → d'.line = ℓ ∧ Port.Carries (hw.bus.shift ℓ) d.port [] [] d'.port
  quiet : d.ta = false → d'.port.slave = d.port.slave

namespace Kept

variable {hw : Controller S} {ℓ : Line} {d d' : Spi0 S}

theorem refl (hline : d.ta = true → d.line = ℓ) : Kept hw ℓ d d :=
  ⟨rfl, fun h => ⟨hline h, .refl _⟩, fun _ => rfl⟩

theorem advance (h : Kept hw ℓ d d') : Kept hw ℓ d (hw.advance d') := by
  refine ⟨h.ta, fun hta => ?_, fun hta => ?_⟩
  · obtain ⟨hline, hcarries⟩ := h.active hta
    exact ⟨hline, Controller.advance_carries hline hcarries⟩
  · rw [Controller.advance_quiet (h.ta.trans hta)]
    exact h.quiet hta

theorem setBits (value mask : Word) (h : Kept hw ℓ d d') (h7 : mask.getLsbD 7 = false)
    (h4 : mask.getLsbD 4 = false) (h5 : mask.getLsbD 5 = false)
    (hline : d'.line = ℓ → (hw.setBits value mask d').line = ℓ) :
    Kept hw ℓ d (hw.setBits value mask d') := by
  have htwice := h.advance.advance
  refine ⟨?_, fun hta => ?_, fun hta => ?_⟩
  · rw [Controller.setBits_ta, h7, if_neg Bool.false_ne_true]
    exact h.ta
  · rw [setting_port h7 h4 h5, h.ta, if_pos hta]
    exact ⟨hline (h.active hta).1, (htwice.active hta).2⟩
  · rw [setting_port h7 h4 h5]
    exact htwice.quiet hta

theorem clock (value : Word) (h : Kept hw ℓ d d')
    (hline : d'.line = ℓ → { d'.line with divider := value.setWidth 16 } = ℓ) :
    Kept hw ℓ d (hw.device d' (.write spi0Clk value)).2 := by
  have hnext := h.advance
  exact ⟨hnext.ta, fun hta => ⟨hline (h.active hta).1, (hnext.active hta).2⟩, hnext.quiet⟩

end Kept

/-- `SPIXfer`'s settings, also while a transfer with the same ones is active. -/
theorem settings_triple {hw : Controller S} {lib : Bcm2835} {d : Spi0 S} (t : Transfer)
    (hspi : lib.mapped .spi0 = true) (hline : d.ta = true → d.line = t.line) :
    Triple hw.device
      (do
        spiChipSelect t.nSpiChipSelect
        spiSetClockDivider spiClockDivider64
        spiSetDataMode spiMode3)
      lib d (fun _ lib' d' => lib = lib' ∧ d'.line = t.line ∧ Kept hw t.line d d')
        (Kept hw t.line d) := by
  have hclk : lib.mapped spi0Clk.block = true := hspi
  have hkept : Kept hw t.line d d := .refl hline
  refine (setBits_triple hspi hkept hkept.advance).seq ?_
  rintro _ _ d₁ ⟨rfl, rfl⟩
  have hkept₁ := hkept.setBits (t.nSpiChipSelect.setWidth 32) spi0CsCs rfl rfl rfl
    fun h => by rw [chipSelect_line, h]; rfl
  refine (periWrite_triple hclk hkept₁).seq ?_
  rintro _ _ d₂ ⟨rfl, rfl⟩
  have hkept₂ := hkept₁.clock (spiClockDivider64.setWidth 32) fun h => by rw [h]; rfl
  refine (setBits_triple hspi hkept₂ hkept₂.advance).weaken ?_
  rintro _ _ d₃ ⟨rfl, rfl⟩
  refine ⟨rfl, ?_, hkept₂.setBits _ _ rfl rfl rfl fun h => by rw [dataMode_line, h]; rfl⟩
  have hcs : (hw.setBits (t.nSpiChipSelect.setWidth 32) spi0CsCs d).line.chipSelect =
      t.nSpiChipSelect.setWidth 2 := by rw [chipSelect_line]
  rw [dataMode_line]
  exact congrArg (fun cs => (⟨cs, spiMode3.setWidth 2, spiClockDivider64⟩ : Line)) hcs

-- ---------------------------------------------------------------------------
-- A packet
-- ---------------------------------------------------------------------------

theorem transferPacket_keeps (p : ℕ) (t : Transfer) : Keeps Ready (transferPacket p t) := by
  refine (Keeps.modifyVars fun _ h => ⟨h.mapped, h.order⟩).seq ?_
  refine (spiChipSelect_keeps _).seq
    ((spiSetClockDivider_keeps _).seq ((spiSetDataMode_keeps _).seq ?_))
  exact (spiTransfern_keeps _ _).seq (Keeps.getVars.bind fun _ => .pure _)

theorem transferPacket_eq (p : ℕ) (t : Transfer) :
    transferPacket p t = (do
      modifyVars fun self =>
        { self with mem := store self.mem p [t.dataPacket.left, t.dataPacket.right] }
      (do
        spiChipSelect t.nSpiChipSelect
        spiSetClockDivider spiClockDivider64
        spiSetDataMode spiMode3)
      spiTransfern p 2
      let self ← getVars
      return ⟨self.mem p, self.mem (p + 1)⟩) := by
  simp only [transferPacket, bind_assoc]

def Packet.bytes (packet : Packet) : List Byte := [packet.left, packet.right]

/-- A packet that has been transferred after the bytes `stray` of a transfer
that was cut short, all in one chip select. -/
structure PacketSent (hw : Controller S) (t : Transfer) (lib : Bcm2835) (d : Spi0 S)
    (stray : List Byte)
    (answer : Packet) (lib' : Bcm2835) (d' : Spi0 S) : Prop where
  begins : stray <+: d.port.pending
  quiet : d.ta = false → stray = []
  slave : d'.port.slave = hw.bus.release t.line
    (serve (hw.bus.shift t.line) d.port.slave (stray ++ t.dataPacket.bytes)).2
  answer : d.ta = false →
    answer.bytes = (serve (hw.bus.shift t.line) d.port.slave t.dataPacket.bytes).1
  mapped : lib'.mapped = lib.mapped
  spiBitOrder : lib'.spiBitOrder = lib.spiBitOrder
  ta : d'.ta = false
  line : d'.line = t.line

/-- The slaves when the transfer of the packet is stopped. -/
structure PacketCut (hw : Controller S) (t : Transfer) (d d' : Spi0 S) : Prop where
  line : d'.ta = true → d'.line = t.line
  slave : ∃ stray done, stray <+: d.port.pending ∧ (d.ta = false → stray = []) ∧
    done <+: t.dataPacket.bytes ∧
    d'.port.slave = (serve (hw.bus.shift t.line) d.port.slave (stray ++ done)).2

theorem correctOrder_msbfirst {spiBitOrder : Byte} (h : spiBitOrder = spiBitOrderMsbfirst)
    (b : Byte) :
    correctOrder spiBitOrder b = b := by
  rw [correctOrder, h]
  rfl

theorem sentBytes_packet {lib : Bcm2835} (horder : lib.spiBitOrder = spiBitOrderMsbfirst) (p : ℕ)
    (packet : Packet) :
    sentBytes { lib with mem := store lib.mem p [packet.left, packet.right] } p 2 =
      packet.bytes := by
  have hcorrect (b : Byte) : correctOrder lib.spiBitOrder b = b := correctOrder_msbfirst horder b
  simp [sentBytes, List.range_succ, hcorrect, store, Packet.bytes]

theorem Kept.stray {hw : Controller S} {ℓ : Line} {d d₁ : Spi0 S} (h : Kept hw ℓ d d₁)
    {more : List Byte}
    (hmore : more <+: d₁.port.pending) (hquiet : d.ta = false → more = []) :
    ∃ stray, stray <+: d.port.pending ∧ (d.ta = false → stray = []) ∧
      ∀ bytes, (serve (hw.bus.shift ℓ) d₁.port.slave (more ++ bytes)).2 =
        (serve (hw.bus.shift ℓ) d.port.slave (stray ++ bytes)).2 := by
  cases hta : d.ta with
  | false =>
    obtain rfl := hquiet hta
    exact ⟨[], List.nil_prefix, fun _ => rfl, fun _ => by rw [h.quiet hta]⟩
  | true =>
    obtain ⟨done, hpending, -, hslave⟩ := (h.active hta).2
    rw [List.append_nil] at hpending
    refine ⟨done ++ more, ?_, fun hf => absurd hf.symm Bool.false_ne_true, fun bytes => ?_⟩
    · rw [hpending]
      exact (List.prefix_append_right_inj _).mpr hmore
    · rw [hslave, ← serve_append_snd, List.append_assoc]

/-- A packet is transferred, from any state of the controller in which a
transfer that is still active has the same settings. -/
theorem transferPacket_spec (hw : Controller S) (lib : Bcm2835) (d : Spi0 S) (p : ℕ) (t : Transfer)
    (hspi : lib.mapped .spi0 = true) (horder : lib.spiBitOrder = spiBitOrderMsbfirst)
    (hroom : 2 ≤ hw.txRoom) (hline : d.ta = true → d.line = t.line) :
    Triple hw.device (transferPacket p t) lib d
      (fun answer lib' d' => ∃ stray, PacketSent hw t lib d stray answer lib' d')
      (PacketCut hw t d) := by
  have hcut {d' : Spi0 S} (h : Kept hw t.line d d') : PacketCut hw t d d' := by
    obtain ⟨stray, hstray, hquiet, hslave⟩ := h.stray List.nil_prefix fun _ => rfl
    exact ⟨fun hta => (h.active (h.ta ▸ hta)).1, stray, [], hstray, hquiet,
      List.nil_prefix, hslave []⟩
  rw [transferPacket_eq]
  refine Triple.modifyVars_seq ?_
  refine ((settings_triple t (by exact hspi) hline).mono (fun _ _ _ => id) fun _ => hcut).seq ?_
  rintro _ _ d₁ ⟨rfl, hline₁, hkept⟩
  have hsent := sentBytes_packet horder p t.dataPacket
  have hcorrect (b : Byte) : correctOrder lib.spiBitOrder b = b := correctOrder_msbfirst horder b
  have htransfer := spiTransfernb_spec hw
    { lib with mem := store lib.mem p [t.dataPacket.left, t.dataPacket.right] } d₁ p p 2 hspi
    (.inr (.inr hroom))
  refine (htransfer.mono (fun _ _ _ => id) ?_).seq ?_
  · rintro d' ⟨hline', more, done, hmore, hquiet, hdone, hslave⟩
    obtain ⟨stray, hstray, hq, hall⟩ := hkept.stray hmore fun h => hquiet (hkept.ta.trans h)
    rw [hline₁] at hslave
    exact ⟨fun _ => hline'.trans hline₁, stray, done, hstray, hq, hsent ▸ hdone,
      hslave.trans (hall done)⟩
  · rintro _ lib₂ d₂ ⟨early, lead, h⟩
    refine Triple.getVars_bind (Triple.pure ?_)
    obtain ⟨stray, hstray, hq, hall⟩ := hkept.stray h.stray fun hta => by
      obtain ⟨rfl, rfl⟩ := h.quiet (hkept.ta.trans hta)
      rfl
    have hslave := h.slave
    rw [hline₁, hall] at hslave
    refine ⟨stray, hstray, hq, hsent ▸ hslave, fun hta => ?_, ?_, ?_, ta_of_control h.control, ?_⟩
    · obtain ⟨rfl, rfl⟩ := h.quiet (hkept.ta.trans hta)
      have hmem := congrArg Bcm2835.mem h.vars
      have hlen : (2 : Word).toNat = 2 := rfl
      rw [hline₁, hlen, hsent, List.nil_append, serve_nil, hkept.quiet hta] at hmem
      simp [Packet.bytes, hmem, serve, store, hcorrect]
    · rw [h.vars]
    · rw [h.vars]
    · exact (line_of_control h.control h.clk).trans hline₁

end LineFollower
