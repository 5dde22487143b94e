import LineFollower.Bcm2835.Transfer

/-!
# The polled transfers

`bcm2835_spi_transfernb` from any state of the controller, also when another
transfer has been cut short and is still active (`spiTransfernb_spec`). The
buffers may overlap as long as no answer is stored over a byte that is still
to go out.
-/

namespace LineFollower.Bcm2835

open Lib Lib.Exchange

variable {S : Type} {hw : Controller S}

-- ---------------------------------------------------------------------------
-- The beginning
-- ---------------------------------------------------------------------------

/-- The controller after the two writes that begin a transfer, as it would be
had no time passed since the queues were cleared. -/
def begun (hw : Controller S) (d : Spi0 S) : Spi0 S :=
  { hw.setBits spi0CsTa spi0CsTa (hw.setBits spi0CsClear spi0CsClear d) with
    port := (hw.setBits spi0CsClear spi0CsClear d).port }

theorem clear_line (d : Spi0 S) : (hw.setBits spi0CsClear spi0CsClear d).line = d.line :=
  Controller.setBits_line (by decide)

theorem begun_ta (d : Spi0 S) : (begun hw d).ta = true := by
  have hta : (hw.setBits spi0CsTa spi0CsTa (hw.setBits spi0CsClear spi0CsClear d)).ta = true := by
    rw [Controller.setBits_ta]
    rfl
  exact hta

theorem begun_line (d : Spi0 S) : (begun hw d).line = d.line := by
  have hline : (hw.setBits spi0CsTa spi0CsTa (hw.setBits spi0CsClear spi0CsClear d)).line =
      d.line := by
    rw [Controller.setBits_line (by decide), clear_line]
  exact hline

theorem begun_port (d : Spi0 S) :
    (begun hw d).port =
      { tx := []
        shifter := if d.ta then (hw.advance (hw.advance d)).port.shifter else none
        rx := []
        slave := (hw.advance (hw.advance d)).port.slave } :=
  Controller.clear_port

theorem begun_pending_le (hw : Controller S) (d : Spi0 S) :
    (begun hw d).port.pending.length ≤ d.ta.toNat := by
  rw [begun_port]
  cases hta : d.ta with
  | false => simp [Port.pending]
  | true => cases (hw.advance (hw.advance d)).port.shifter <;> simp [Port.pending]

/-- Of the bytes that were on their way, the slave has had the first, and at
most one is still in the shifter. -/
theorem begun_slave (hw : Controller S) (d : Spi0 S) :
    ∃ early, early ++ (begun hw d).port.pending <+: d.port.pending ∧
      (d.ta = false → early = [] ∧ (begun hw d).port.pending = []) ∧
      (begun hw d).port.slave = (serve (hw.bus.shift d.line) d.port.slave early).2 := by
  rw [begun_port]
  cases hta : d.ta with
  | false =>
    have hquiet : (hw.advance (hw.advance d)).port = d.port := by
      rw [Controller.advance_quiet (by exact hta), Controller.advance_quiet hta]
    exact ⟨[], by simp [Port.pending], by simp [Port.pending], by rw [hquiet]; rfl⟩
  | true =>
    obtain ⟨done, hpending, -, hslave⟩ := (Shifting.refl hw d).advance.advance.carries
    rw [List.append_nil] at hpending
    refine ⟨done, ?_, fun hf => absurd hf.symm Bool.false_ne_true, hslave⟩
    rw [hpending]
    exact (List.prefix_append_right_inj _).mpr (by simp [Port.pending])

/-- The slave when the transfer of `sent` is stopped: of the bytes on their way
it has had a beginning, and then a beginning of these. The chip select has not
been released. -/
structure Interrupted (hw : Controller S) (d : Spi0 S) (sent : List Byte) (d' : Spi0 S) : Prop where
  line : d'.line = d.line
  slave : ∃ stray done, stray <+: d.port.pending ∧ (d.ta = false → stray = []) ∧ done <+: sent ∧
    d'.port.slave = (serve (hw.bus.shift d.line) d.port.slave (stray ++ done)).2

variable {d d' : Spi0 S} {sent pushed popped : List Byte}

theorem Interrupted.of_carries {p₀ : Port S Byte} {early : List Byte} (hline : d'.line = d.line)
    (hearly : early ++ p₀.pending <+: d.port.pending)
    (hquiet : d.ta = false → early = [] ∧ p₀.pending = [])
    (hslave : p₀.slave = (serve (hw.bus.shift d.line) d.port.slave early).2)
    (h : Port.Carries (hw.bus.shift d.line) p₀ pushed popped d'.port) (hpushed : pushed <+: sent) :
    Interrupted hw d sent d' := by
  refine ⟨hline, ?_⟩
  obtain ⟨done, hdone, hslave'⟩ := h.slave_prefix
  rw [hslave, ← serve_append_snd] at hslave'
  rcases List.prefix_or_prefix_of_prefix hdone (List.prefix_append p₀.pending pushed) with hlead |
    ⟨t, rfl⟩
  · refine ⟨early ++ done, [], ?_, ?_, List.nil_prefix, by simpa using hslave'⟩
    · exact ((List.prefix_append_right_inj _).mpr hlead).trans hearly
    · intro hf
      obtain ⟨rfl, hnone⟩ := hquiet hf
      rw [hnone] at hlead
      simpa using hlead
  · refine ⟨early ++ p₀.pending, t, hearly, ?_, ?_, by simpa using hslave'⟩
    · intro hf
      obtain ⟨rfl, hnone⟩ := hquiet hf
      simpa using hnone
    · exact ((List.prefix_append_right_inj _).mp hdone).trans hpushed

theorem Interrupted.of_shifting (h : Shifting hw (begun hw d) pushed popped d')
    (hpushed : pushed <+: sent) :
    Interrupted hw d sent d' := by
  obtain ⟨early, hearly, hquiet, hslave⟩ := begun_slave hw d
  have hcarries := h.carries
  rw [begun_line] at hcarries
  exact .of_carries (h.line.trans (begun_line d)) hearly hquiet hslave hcarries hpushed

theorem Interrupted.start : Interrupted hw d sent d :=
  ⟨rfl, [], [], List.nil_prefix, fun _ => rfl, List.nil_prefix, rfl⟩

theorem Interrupted.advance_start : Interrupted hw d sent (hw.advance d) := by
  cases hta : d.ta with
  | false =>
    obtain ⟨hline, hslave⟩ := @Interrupted.start S hw d sent
    exact ⟨hline, by rw [Controller.advance_quiet hta]; exact hslave⟩
  | true =>
    obtain ⟨done, hdone, hslave⟩ := (Shifting.refl hw d).advance.carries.slave_prefix
    rw [List.append_nil] at hdone
    refine ⟨rfl, done, [], hdone, fun hf => ?_, List.nil_prefix, by rwa [List.append_nil]⟩
    rw [hta] at hf
    cases hf

theorem clearAndActivate_triple {lib : Bcm2835} (hspi : lib.mapped .spi0 = true) :
    Triple hw.device clearAndActivate lib d
      (fun _ lib' d' => lib = lib' ∧ Shifting hw (begun hw d) [] [] d' ∧ d'.port.tx = [])
      (Interrupted hw d sent) := by
  -- between the two writes the slave may take what was in the shifter
  have hbetween {d' : Spi0 S} (hline : d'.line = d.line)
      (h : Port.Carries (hw.bus.shift d.line) (begun hw d).port [] [] d'.port) :
      Interrupted hw d sent d' := by
    obtain ⟨early, hearly, hquiet, hslave⟩ := begun_slave hw d
    exact .of_carries hline hearly hquiet hslave h List.nil_prefix
  have hclear : Port.Carries (hw.bus.shift d.line) (begun hw d).port [] []
      (hw.setBits spi0CsClear spi0CsClear d).port := .refl _
  have hline : (hw.setBits spi0CsClear spi0CsClear d).line = d.line := clear_line d
  have hread := Controller.advance_carries hline hclear
  have hwritten := Controller.advance_carries (Controller.advance_line.trans hline) hread
  refine (setBits_triple hspi .start .advance_start).seq ?_
  rintro _ _ _ ⟨rfl, rfl⟩
  refine (setBits_triple hspi (hbetween hline hclear)
    (hbetween (Controller.advance_line.trans hline) hread)).weaken ?_
  rintro _ _ _ ⟨rfl, rfl⟩
  refine ⟨rfl, ⟨rfl, rfl, ?_⟩, ?_⟩
  · rw [begun_line, Controller.activate_port]
    exact hwritten
  · have htx : (hw.setBits spi0CsClear spi0CsClear d).port.tx = [] := by rw [Controller.clear_port]
    have hle := Nat.le_trans (@Controller.advance_tx_le S hw _)
      (@Controller.advance_tx_le S hw (hw.setBits spi0CsClear spi0CsClear d))
    rw [htx] at hle
    rw [Controller.activate_port]
    exact List.length_eq_zero_iff.mp (Nat.le_zero.mp hle)

-- ---------------------------------------------------------------------------
-- A buffer
-- ---------------------------------------------------------------------------

/-- What a transfer of `len` bytes from `tbuf` to `rbuf` has done. The slave
has had the bytes `early` and `lead` that were on their way, then the buffer,
and the chip select has been released; the answers from that to `lead` on have
been stored. -/
structure Transferred (hw : Controller S) (tbuf rbuf len : ℕ) (early lead : List Byte)
    (lib : Bcm2835)
    (d : Spi0 S) (lib' : Bcm2835) (d' : Spi0 S) : Prop where
  stray : early ++ lead <+: d.port.pending
  lead_le : lead.length ≤ 1
  quiet : d.ta = false → early = [] ∧ lead = []
  slave : d'.port.slave = hw.bus.release d.line
    (serve (hw.bus.shift d.line) d.port.slave (early ++ lead ++ sentBytes lib tbuf len)).2
  vars : lib' =
    { lib with
      mem := store lib.mem rbuf ((((serve (hw.bus.shift d.line)
        (serve (hw.bus.shift d.line) d.port.slave early).2
        (lead ++ sentBytes lib tbuf len)).1.take len).map (correctOrder lib.spiBitOrder)))
      txCnt := len
      rxCnt := len }
  control : d'.control = d.control &&& controlMask &&& ~~~spi0CsTa
  clk : d'.clk = d.clk
  idle : d'.port.pending = []
  /-- What has not been popped waits for the next CLEAR. -/
  rest : d'.port.rx.length = lead.length

theorem ta_of_control (h : d'.control = d.control &&& controlMask &&& ~~~spi0CsTa) :
    d'.ta = false := by
  have hta : spi0CsTa.getLsbD 7 = true := rfl
  rw [Spi0.ta, h, BitVec.getLsbD_and, BitVec.getLsbD_not, hta]
  simp

theorem line_of_control (h : d'.control = d.control &&& controlMask &&& ~~~spi0CsTa)
    (hclk : d'.clk = d.clk) : d'.line = d.line := by
  have hmask : ∀ i < 4, (controlMask &&& ~~~spi0CsTa).getLsbD i = true := by decide
  refine Spi0.line_congr (fun i hi => ?_) hclk
  rw [h, BitVec.and_assoc, BitVec.getLsbD_and, hmask i hi, Bool.and_true]

theorem begun_control (d : Spi0 S) :
    ((begun hw d).control &&& ~~~spi0CsTa ||| 0 &&& spi0CsTa) &&& controlMask =
      d.control &&& controlMask &&& ~~~spi0CsTa := by
  have hcontrol : (begun hw d).control =
      (((d.control &&& ~~~spi0CsClear ||| spi0CsClear &&& spi0CsClear) &&& controlMask) &&&
        ~~~spi0CsTa ||| spi0CsTa &&& spi0CsTa) &&& controlMask := by
    change (hw.setBits spi0CsTa spi0CsTa (hw.setBits spi0CsClear spi0CsClear d)).control = _
    rw [Controller.setBits_control, Controller.setBits_control]
  have hdisjoint : spi0CsClear &&& controlMask = 0 := rfl
  rw [hcontrol]
  apply BitVec.eq_of_getLsbD_eq
  intro i hi
  have hbit := congrArg (fun y => BitVec.getLsbD y i) hdisjoint
  simp only [BitVec.getLsbD_and, BitVec.getLsbD_or, BitVec.getLsbD_not, hi, decide_true,
    Bool.true_and] at hbit ⊢
  revert hbit
  cases spi0CsClear.getLsbD i <;> cases controlMask.getLsbD i <;> cases spi0CsTa.getLsbD i <;> simp

theorem prefix_sentBytes (lib : Bcm2835) (tbuf : ℕ) {n len : ℕ} (h : n ≤ len) :
    sentBytes lib tbuf n <+: sentBytes lib tbuf len := by
  obtain ⟨k, rfl⟩ := Nat.exists_eq_add_of_le h
  rw [sentBytes, sentBytes, List.range_add, List.map_append]
  exact List.prefix_append _ _

/-- A transfer of a buffer, from any state of the controller, at any pace. It
returns, and has sent the buffer and stored the answers; if it is stopped
before, a beginning of the buffer has gone out and the chip select is held. -/
theorem spiTransfernb_spec (hw : Controller S) (lib : Bcm2835) (d : Spi0 S) (tbuf rbuf : ℕ)
    (len : Word)
    (hspi : lib.mapped .spi0 = true)
    (hbuf : tbuf + len.toNat ≤ rbuf ∨ rbuf + d.ta.toNat ≤ tbuf ∨ len.toNat ≤ hw.txRoom) :
    Triple hw.device (spiTransfernb tbuf rbuf len) lib d
      (fun _ lib' d' => ∃ early lead, Transferred hw tbuf rbuf len.toNat early lead lib d lib' d')
      (Interrupted hw d (sentBytes lib tbuf len.toNat)) := by
  have hlead : (begun hw d).port.pending.length ≤ 1 :=
    (begun_pending_le hw d).trans (Bool.toNat_le _)
  have hrx₁ : (begun hw d).port.rx = [] := by rw [begun_port]
  have hcut {n : ℕ} (hn : n ≤ len.toNat) {popped : List Byte} {d' : Spi0 S}
      (h : Shifting hw (begun hw d) (sentBytes lib tbuf n) popped d') :
      Interrupted hw d (sentBytes lib tbuf len.toNat) d' :=
        .of_shifting h (prefix_sentBytes lib tbuf hn)
  refine Triple.modifyVars_seq ?_
  refine (clearAndActivate_triple (by exact hspi)).seq ?_
  rintro _ _ d₁ ⟨rfl, hs, htx⟩
  have hu : Underway hw tbuf rbuf len.toNat lib (begun hw d) []
      { lib with txCnt := 0, rxCnt := 0 } d₁ := by
    refine ⟨hs, by simp [store_nil], Nat.zero_le _, Nat.zero_le _, by simp [htx], fun _ _ _ => rfl⟩
  have hbuf₁ : tbuf + len.toNat ≤ rbuf ∨ rbuf + (begun hw d).port.pending.length ≤ tbuf ∨
      len.toNat ≤ hw.txRoom := by
    have hle := begun_pending_le hw d
    omega
  refine (transferLoop_triple hspi (begun_ta d) (fun n hn popped d' h => hcut hn h) hlead hrx₁
    hbuf₁ hu).seq ?_
  rintro _ lib₂ d₂ ⟨popped, hu₂, htx₂, hrx₂⟩
  have hs₂ := hu₂.shifting
  rw [htx₂] at hs₂
  have hcnt : popped.length = len.toNat := hu₂.rxCnt ▸ hrx₂
  have hspi₂ : lib₂.mapped .spi0 = true := hu₂.mapped ▸ hspi
  have hfit : (begun hw d).port.pending.length + (sentBytes lib tbuf len.toNat).length ≤
      popped.length + hw.rxRoom := by
    have hroom := hw.rxRoom_pos
    rw [length_sentBytes]
    omega
  refine (waitDone_triple hspi₂ (begun_ta d) hrx₁ hfit (fun d' h => hcut (Nat.le_refl _) h) hs₂).seq
    ?_
  rintro _ _ d₃ ⟨rfl, hs₃, hidle⟩
  refine (setBits_triple hspi₂ (hcut (Nat.le_refl _) hs₃) (hcut (Nat.le_refl _) hs₃.advance)).weaken
    ?_
  rintro _ _ _ ⟨rfl, rfl⟩
  obtain ⟨early, hearly, hquiet, hslave⟩ := begun_slave hw d
  have hport := @Controller.release_port S hw d₃ (hs₃.ta.trans (begun_ta d)) hidle
  rw [hs₃.line, begun_line] at hport
  have hall := hs₃.carries.slave_eq hidle
  have hpopped := List.prefix_iff_eq_take.mp hs₃.carries.popped_prefix
  have hcount := hs₃.carries.length
  rw [begun_line, hslave, ← serve_append_snd, ← List.append_assoc] at hall
  rw [begun_line, hrx₁, List.nil_append, hslave, hcnt] at hpopped
  rw [hrx₁, length_sentBytes, hidle, hcnt] at hcount
  refine ⟨early, (begun hw d).port.pending, hearly, hlead, hquiet, ?_, ?_, ?_, ?_, ?_, ?_⟩
  · rw [hport, hall]
  · have hvars := hu₂.vars
    rw [htx₂, hcnt, hpopped] at hvars
    exact hvars
  · rw [Controller.setBits_control, hs₃.control, begun_control]
  · exact hs₃.clk
  · rw [hport]
    exact (List.append_eq_nil_iff.mp hidle).2
  · rw [hport]
    change d₃.port.rx.length = _
    simp only [List.length_nil] at hcount
    omega

-- ---------------------------------------------------------------------------
-- From a controller at rest
-- ---------------------------------------------------------------------------

/-- The slave has had the bytes `sent`, given back `answers`, and been
released. -/
structure Exchanged (hw : Controller S) (sent answers : List Byte) (d d' : Spi0 S) : Prop where
  answers : answers = (serve (hw.bus.shift d.line) d.port.slave sent).1
  slave : d'.port.slave =
    hw.bus.release d.line (serve (hw.bus.shift d.line) d.port.slave sent).2
  control : d'.control = d.control &&& controlMask &&& ~~~spi0CsTa
  clk : d'.clk = d.clk
  idle : d'.port.pending = []

/-- The buffer itself, when no other transfer is active. -/
theorem spiTransfernb_exchanges (lib : Bcm2835) {tbuf rbuf : ℕ} {len : Word}
    (hspi : lib.mapped .spi0 = true) (hta : d.ta = false)
    (hbuf : tbuf + len.toNat ≤ rbuf ∨ rbuf ≤ tbuf ∨ len.toNat ≤ hw.txRoom) :
    Triple hw.device (spiTransfernb tbuf rbuf len) lib d
      (fun _ lib' d' => ∃ answers, Exchanged hw (sentBytes lib tbuf len.toNat) answers d d' ∧
        lib' =
          { lib with
            mem := store lib.mem rbuf (answers.map (correctOrder lib.spiBitOrder))
            txCnt := len.toNat
            rxCnt := len.toNat })
      (Interrupted hw d (sentBytes lib tbuf len.toNat)) := by
  refine (spiTransfernb_spec hw lib d tbuf rbuf len hspi (by simpa [hta] using hbuf)).weaken ?_
  rintro _ lib' d' ⟨early, lead, h⟩
  obtain ⟨rfl, rfl⟩ := h.quiet hta
  refine ⟨_, ⟨rfl, h.slave, h.control, h.clk, h.idle⟩, ?_⟩
  have hlen := length_serve (hw.bus.shift d.line) d.port.slave (sentBytes lib tbuf len.toNat)
  rw [length_sentBytes] at hlen
  have hvars := h.vars
  rw [List.nil_append, serve_nil, List.take_of_length_le (Nat.le_of_eq hlen)] at hvars
  exact hvars

/-- Answers over their own buffer, and more of them than the queues hold. -/
theorem spiTransfernb_exchanges_inPlace :
    Triple (Controller.inStep .register).device (spiTransfernb 0 0 20) initialised
      ⟨0, 0, ⟨[], none, [], 0⟩, 0⟩
      (fun _ lib' d' => ∃ answers,
        Exchanged (.inStep .register) (sentBytes initialised 0 20) answers
          ⟨0, 0, ⟨[], none, [], 0⟩, 0⟩ d' ∧
        lib' =
          { initialised with
            mem := store initialised.mem 0 (answers.map (correctOrder initialised.spiBitOrder))
            txCnt := 20
            rxCnt := 20 })
      (Interrupted (.inStep .register) ⟨0, 0, ⟨[], none, [], 0⟩, 0⟩ (sentBytes initialised 0 20)) :=
  spiTransfernb_exchanges initialised rfl rfl (.inr (.inl (Nat.le_refl 0)))

theorem begun_quiet (hta : d.ta = false) :
    (begun hw d).port.pending = [] ∧ (begun hw d).port.slave = d.port.slave := by
  obtain ⟨early, -, hquiet, hslave⟩ := begun_slave hw d
  obtain ⟨rfl, hnone⟩ := hquiet hta
  exact ⟨hnone, hslave⟩

theorem Exchanged.of_shifting (hta : d.ta = false) (h : Shifting hw (begun hw d) sent popped d')
    (hidle : d'.port.pending = []) :
    Exchanged hw sent (serve (hw.bus.shift d.line) d.port.slave sent).1 d
      (hw.setBits 0 spi0CsTa d') := by
  obtain ⟨hnone, hslave⟩ := @begun_quiet S hw d hta
  have hport := @Controller.release_port S hw d' (h.ta.trans (begun_ta d)) hidle
  have hall := h.carries.slave_eq hidle
  rw [h.line, begun_line] at hport
  rw [begun_line, hslave, hnone, List.nil_append] at hall
  refine ⟨rfl, ?_, ?_, h.clk, ?_⟩
  · rw [hport, hall]
  · rw [Controller.setBits_control, h.control, begun_control]
  · rw [hport]
    exact (List.append_eq_nil_iff.mp hidle).2

theorem popped_eq (hta : d.ta = false) (h : Shifting hw (begun hw d) sent popped d')
    (hlen : popped.length = sent.length) :
    popped = (serve (hw.bus.shift d.line) d.port.slave sent).1 := by
  obtain ⟨hnone, hslave⟩ := @begun_quiet S hw d hta
  have hpopped := h.carries.popped_prefix
  rw [begun_line, hslave, hnone, begun_port, List.nil_append, List.nil_append] at hpopped
  exact hpopped.eq_of_length (hlen.trans (length_serve _ _ _).symm)

/-- One byte is exchanged as a buffer of one byte is. -/
theorem spiTransfer_exchanges (lib : Bcm2835) (value : Byte) (hspi : lib.mapped .spi0 = true)
    (hta : d.ta = false) :
    Triple hw.device (spiTransfer value) lib d
      (fun a lib' d' => lib = lib' ∧ ∃ answer,
        Exchanged hw [correctOrder lib.spiBitOrder value] [answer] d d' ∧
        a = correctOrder lib.spiBitOrder answer)
      (Interrupted hw d [correctOrder lib.spiBitOrder value]) := by
  have hnone : (begun hw d).port.pending = [] := (begun_quiet hta).1
  have hrx₁ : (begun hw d).port.rx = [] := by rw [begun_port]
  have hcut {pushed popped : List Byte} {d' : Spi0 S}
      (h : Shifting hw (begun hw d) pushed popped d')
      (hpushed : pushed <+: [correctOrder lib.spiBitOrder value]) :
      Interrupted hw d [correctOrder lib.spiBitOrder value] d' := .of_shifting h hpushed
  have hroom {d' : Spi0 S} (h : Shifting hw (begun hw d) [] [] d') :
      d'.port.tx.length < hw.txRoom := by
    have hcount := h.carries.length
    have htxRoom := hw.txRoom_pos
    rw [hrx₁, hnone, Port.pending, List.length_append] at hcount
    simp only [List.length_nil] at hcount
    omega
  refine (clearAndActivate_triple hspi).seq ?_
  rintro _ _ d₁ ⟨rfl, hs, -⟩
  refine (waitFor_triple hspi (fun d => d.port.tx.length < hw.txRoom)
    (Shifting hw (begun hw d) [] [])
    (fun _ => Controller.txd_iff) (fun d' h => h.ta.trans (begun_ta d)) (fun _ h => h.advance)
    (fun d' h hfull => absurd (hroom h) hfull) (fun _ h => hcut h List.nil_prefix) hs).seq ?_
  rintro _ _ d₂ ⟨rfl, hs₂, -⟩
  refine Triple.getVars_bind ?_
  have hfifo : lib.mapped spi0Fifo.block = true := hspi
  refine (periWriteNb_triple hfifo (hcut hs₂ List.nil_prefix)).seq ?_
  rintro _ _ _ ⟨rfl, rfl⟩
  have hs₃ := hs₂.advance.push (hroom hs₂.advance) (correctOrder lib.spiBitOrder value)
  rw [Controller.device_push]
  have hfit : (begun hw d).port.pending.length + [correctOrder lib.spiBitOrder value].length ≤
      ([] : List Byte).length + hw.rxRoom := by
    have hrxRoom := hw.rxRoom_pos
    rw [hnone]
    simp only [List.length_nil, List.length_singleton]
    omega
  refine (waitDone_triple hspi (begun_ta d) hrx₁ hfit (fun _ h => hcut h (List.prefix_refl _))
    hs₃).seq ?_
  rintro _ _ d₄ ⟨rfl, hs₄, hidle⟩
  have hidle₅ : (hw.advance d₄).port = d₄.port := Controller.advance_idle hidle
  have hcount := hs₄.carries.length
  rw [hrx₁, hnone, hidle, List.length_nil, Nat.zero_add, Nat.add_zero, Nat.zero_add] at hcount
  obtain ⟨answer, hanswer⟩ := List.length_eq_one_iff.mp hcount
  refine (periReadNb_triple hfifo (hcut hs₄ (List.prefix_refl _))).bind ?_
  rw [Controller.device_pop (hidle₅ ▸ hanswer)]
  rintro _ _ _ ⟨rfl, rfl, rfl⟩
  have hs₅ := hs₄.advance.pop (hidle₅ ▸ hanswer)
  refine (setBits_triple hspi (hcut hs₅ (List.prefix_refl _))
    (hcut hs₅.advance (List.prefix_refl _))).seq ?_
  rintro _ _ _ ⟨rfl, rfl⟩
  have hdone := Exchanged.of_shifting hta hs₅ (by exact hidle₅ ▸ hidle)
  rw [← popped_eq hta hs₅ rfl] at hdone
  exact Triple.pure ⟨rfl, answer, hdone, by simp⟩

theorem spiTransfer_exchanges_register :
    Triple (Controller.inStep .register).device (spiTransfer 0x5A) initialised
      ⟨0, 0, ⟨[], none, [], 7⟩, 0⟩
      (fun a lib' d' => initialised = lib' ∧ ∃ answer,
        Exchanged (.inStep .register) [correctOrder initialised.spiBitOrder 0x5A] [answer]
          ⟨0, 0, ⟨[], none, [], 7⟩, 0⟩ d' ∧
        a = correctOrder initialised.spiBitOrder answer)
      (Interrupted (.inStep .register) ⟨0, 0, ⟨[], none, [], 7⟩, 0⟩
        [correctOrder initialised.spiBitOrder 0x5A]) :=
  spiTransfer_exchanges initialised 0x5A rfl rfl

end LineFollower.Bcm2835
