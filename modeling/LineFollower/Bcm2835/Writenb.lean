import LineFollower.Bcm2835.Polled

/-!
# A buffer that is only written

`bcm2835_spi_writenb` drops the answers: it empties the receive queue after
every byte and while it waits for the end. That keeps the controller from
stalling when the queue has room for two bytes. The slave gets what
`bcm2835_spi_transfernb` would give it.
-/

namespace LineFollower.Bcm2835

open Lib Lib.Exchange

variable {S : Type} {hw : Controller S} {lib : Bcm2835} {d d₁ : Spi0 S} {pushed popped : List Byte}
  {cut : Spi0 S → Prop}

-- ---------------------------------------------------------------------------
-- Emptying the receive queue
-- ---------------------------------------------------------------------------

theorem drainTurn_uses : Uses 1 drainTurn := by
  refine (periRead_uses _).bind fun _ => .ite ?_ (.pure _)
  exact ((periReadNb_uses _).bind fun _ => .pure _).mono (Nat.zero_le _)

section
variable (hspi : lib.mapped .spi0 = true) (hta : d₁.ta = true)
  (hcut : ∀ popped d, Shifting hw d₁ pushed popped d → cut d)
include hspi hta hcut

theorem drainTurn_triple (h : Shifting hw d₁ pushed popped d) :
    Triple hw.device drainTurn lib d
      (fun again lib' d' => lib = lib' ∧ (∃ popped', Shifting hw d₁ pushed popped' d') ∧
        Since hw 0 (lib, d) (lib, d') ∧ d.now < d'.now ∧ d'.port.tx.length ≤ d.port.tx.length ∧
        if again then d'.port.weight < d.port.weight else d'.port.rx = [])
      cut := by
  have hmap : lib.mapped spi0Cs.block = true := hspi
  have hactive : d.ta = true := h.ta.trans hta
  have hread := h.advance
  refine (periRead_triple hmap (hcut _ _ h)).bind ?_
  rintro _ _ _ ⟨rfl, rfl, rfl⟩
  change Triple hw.device (if hw.readCs (hw.advance d) &&& spi0CsRxd ≠ 0 then _ else _) lib
    (hw.advance d) _ cut
  split
  · rename_i hgo
    have hne : (hw.advance (hw.advance d)).port.rx ≠ [] :=
      Controller.advance_rx_ne_nil (Controller.rxd_iff.mp hgo)
    obtain ⟨b, rx, hrx⟩ := List.exists_cons_of_ne_nil hne
    have hfifo : lib.mapped spi0Fifo.block = true := hspi
    refine (periReadNb_triple hfifo (hcut _ _ hread)).bind ?_
    rw [Controller.device_pop hrx]
    rintro _ _ _ ⟨rfl, rfl, rfl⟩
    have hs : Since hw 0 (lib, d) (lib, hw.advance (hw.advance d)) :=
      (Since.advance hactive).trans (.advance hactive)
    have hweight := Port.weight_pop hrx
    have hle := hs.work_le
    simp only [work, Nat.zero_sub, Nat.mul_zero, Nat.zero_add] at hle
    refine Triple.pure ⟨rfl, ⟨_, hread.advance.pop hrx⟩, hs.trans (.of_work_lt rfl ?_),
      Nat.lt_add_of_pos_right (by decide : 0 < 2),
      Nat.le_trans Controller.advance_tx_le Controller.advance_tx_le, ?_⟩
    · simp only [work]
      omega
    · simp only [↓reduceIte]
      omega
  · rename_i hstop
    rw [Controller.rxd_iff, not_not] at hstop
    exact Triple.pure ⟨rfl, ⟨_, hread⟩, .advance hactive, Nat.lt_succ_self _,
      Controller.advance_tx_le,
      hstop⟩

theorem drainLoop_triple (h : Shifting hw d₁ pushed popped d) :
    Triple hw.device (repeatWhile drainTurn) lib d
      (fun _ lib' d' => lib = lib' ∧ (∃ popped', Shifting hw d₁ pushed popped' d') ∧
        Since hw 0 (lib, d) (lib, d') ∧ d.now < d'.now ∧ d'.port.tx.length ≤ d.port.tx.length ∧
        d'.port.rx = [])
      cut := by
  refine Triple.repeatWhile drainTurn_uses.consumes
    (fun lib' d' => lib = lib' ∧ (∃ popped', Shifting hw d₁ pushed popped' d') ∧
      Since hw 0 (lib, d) (lib, d') ∧ d'.port.tx.length ≤ d.port.tx.length)
    (measure fun p : Bcm2835 × Spi0 S => p.2.port.weight).wf ?_ ?_
    ⟨rfl, ⟨_, h⟩, .refl _, Nat.le_refl _⟩
  · rintro _ d₂ ⟨rfl, ⟨popped₂, h₂⟩, hs, htx⟩
    refine (drainTurn_triple hspi hta hcut h₂).weaken ?_
    rintro again _ d₃ ⟨rfl, hs₃, hsince, hnow, htx₃, hturn⟩
    cases again with
    | true => exact ⟨⟨rfl, hs₃, hs.trans hsince, Nat.le_trans htx₃ htx⟩, hturn⟩
    | false =>
      exact ⟨rfl, hs₃, hs.trans hsince, Nat.lt_of_le_of_lt hs.now_le hnow,
        Nat.le_trans htx₃ htx, hturn⟩
  · rintro _ d₂ ⟨-, ⟨_, h₂⟩, -⟩
    exact hcut _ _ h₂

end

-- ---------------------------------------------------------------------------
-- The loops
-- ---------------------------------------------------------------------------

theorem writeByte_triple (hspi : lib.mapped .spi0 = true) (hta : d₁.ta = true)
    (hroom : 2 ≤ hw.rxRoom) {p : ℕ} {b : Byte} (hb : correctOrder lib.spiBitOrder (lib.mem p) = b)
    (hcut : ∀ pushed', pushed' <+: pushed ++ [b] → ∀ popped d,
      Shifting hw d₁ pushed' popped d → cut d)
    (h : Shifting hw d₁ pushed popped d) (hfit : d.port.rx.length + d.port.pending.length ≤
      hw.txRoom + 1) :
    Triple hw.device
      (do
        repeatWhile do
          return decide ((← periRead spi0Cs) &&& spi0CsTxd = 0)
        let self ← getVars
        periWriteNb spi0Fifo ((correctOrder self.spiBitOrder (self.mem p)).setWidth 32)
        repeatWhile drainTurn)
      lib d
      (fun _ lib' d' => lib = lib' ∧ (∃ popped', Shifting hw d₁ (pushed ++ [b]) popped' d') ∧
        d'.port.rx.length + d'.port.pending.length ≤ hw.txRoom + 1)
      cut := by
  have hbefore {d' : Spi0 S} (h' : Shifting hw d₁ pushed popped d') : cut d' :=
    hcut _ (List.prefix_append _ _) _ _ h'
  refine (waitFor_triple hspi (fun d => d.port.tx.length < hw.txRoom) (Shifting hw d₁ pushed popped)
    (fun _ => Controller.txd_iff) (fun d' h' => h'.ta.trans hta) (fun _ h' => h'.advance) ?_
    (fun _ h' => hbefore h') h).seq ?_
  · -- with the transmit queue full there is room for the next answer
    rintro d' h' hfull ⟨hshift, hwhy⟩
    have hpending : d'.port.pending = d'.port.tx := by simp [Port.pending, hshift]
    have hcount := h.carries.length
    have hcount' := h'.carries.length
    have htxRoom := hw.txRoom_pos
    rw [hpending] at hcount'
    simp only [← List.length_eq_zero_iff] at hwhy
    omega
  · rintro _ _ d₂ ⟨rfl, h₂, htx⟩
    have hfifo : lib.mapped spi0Fifo.block = true := hspi
    have hlt : (hw.advance d₂).port.tx.length < hw.txRoom :=
      Nat.lt_of_le_of_lt Controller.advance_tx_le htx
    refine Triple.getVars_bind ((periWriteNb_triple hfifo (hbefore h₂)).seq ?_)
    rintro _ _ _ ⟨rfl, rfl⟩
    rw [hb, Controller.device_push]
    refine (drainLoop_triple hspi hta (hcut _ (List.prefix_refl _)) (h₂.advance.push hlt b)).weaken
      ?_
    rintro _ _ d₃ ⟨rfl, hs₃, -, -, htx₃, hrx₃⟩
    refine ⟨rfl, hs₃, ?_⟩
    have hshift : d₃.port.shifter.toList.length ≤ 1 := by cases d₃.port.shifter <;> simp
    simp only [Port.push, hlt, ↓reduceIte, List.length_append, List.length_singleton] at htx₃
    simp only [hrx₃, Port.pending, List.length_append, List.length_nil]
    omega

theorem drainDone_triple (hspi : lib.mapped .spi0 = true) (hta : d₁.ta = true)
    (hcut : ∀ popped d, Shifting hw d₁ pushed popped d → cut d)
    (h : Shifting hw d₁ pushed popped d) :
    Triple hw.device
      (repeatWhile do
        if (← periReadNb spi0Cs) &&& spi0CsDone = 0 then do
          repeatWhile drainTurn
          return true
        else return false)
      lib d
      (fun _ lib' d' => lib = lib' ∧ (∃ popped', Shifting hw d₁ pushed popped' d') ∧
        d'.port.pending = [])
      cut := by
  have huses : Uses 1 (do
      if (← periReadNb spi0Cs) &&& spi0CsDone = 0 then do
        repeatWhile drainTurn
        return true
      else return false : Driver Bool) := by
    refine (periReadNb_uses _).bind fun _ => .ite ?_ (.pure _)
    exact (drainTurn_uses.repeatWhile.seq (.pure _)).mono (Nat.zero_le _)
  have hmap : lib.mapped spi0Cs.block = true := hspi
  refine Triple.repeatWhile huses.consumes
    (fun lib' d' => lib = lib' ∧ ∃ popped', Shifting hw d₁ pushed popped' d')
    (waits_wellFounded hw.fair (work 0) fun p => p.2.now) ?_ ?_ ⟨rfl, _, h⟩
  · rintro _ d₂ ⟨rfl, popped₂, h₂⟩
    have hactive : d₂.ta = true := h₂.ta.trans hta
    refine (periReadNb_triple hmap (hcut _ _ h₂)).bind ?_
    rintro _ _ _ ⟨rfl, rfl, rfl⟩
    change Triple hw.device (if hw.readCs (hw.advance d₂) &&& spi0CsDone = 0 then _ else _) lib
      (hw.advance d₂) _ cut
    split
    · rename_i hz
      have hmore : (hw.advance d₂).port.pending ≠ [] :=
        fun hp => (@Controller.done_iff S hw (hw.advance d₂)).mpr ⟨hactive, hp⟩ hz
      refine (drainLoop_triple hspi hta hcut h₂.advance).seq ?_
      rintro _ _ d₃ ⟨rfl, hs₃, hsince, hnow, -, hrx⟩
      refine Triple.pure ⟨⟨rfl, hs₃⟩, ?_⟩
      refine ((Since.advance hactive).trans hsince).waits
        (Nat.lt_trans (Nat.lt_succ_self _) hnow) ?_
      rintro - hp ⟨hshift, hwhy⟩
      simp only at hp hshift hwhy
      rw [hp] at hrx
      have hrxRoom := hw.rxRoom_pos
      have htx : d₂.port.tx = [] := hwhy.resolve_right (by simp [hrx]; omega)
      have hidle : d₂.port.pending = [] := by simp [Port.pending, hshift, htx]
      exact hmore (by rw [Controller.advance_idle hidle, hidle])
    · rename_i hdone
      have hidle := ((@Controller.done_iff S hw (hw.advance d₂)).mp hdone).2
      exact Triple.pure ⟨rfl, ⟨_, h₂.advance⟩, hidle⟩
  · rintro _ d₂ ⟨-, _, h₂⟩
    exact hcut _ _ h₂

/-- The slave gets the buffer as from `spiTransfernb`, and memory does not
change. -/
theorem spiWritenb_exchanges (lib : Bcm2835) {tbuf : ℕ} {len : Word}
    (hspi : lib.mapped .spi0 = true)
    (hta : d.ta = false) (hroom : 2 ≤ hw.rxRoom) :
    Triple hw.device (spiWritenb tbuf len) lib d
      (fun _ lib' d' => lib = lib' ∧ ∃ answers,
        Exchanged hw (sentBytes lib tbuf len.toNat) answers d d')
      (Interrupted hw d (sentBytes lib tbuf len.toNat)) := by
  have hcut {pushed popped : List Byte} (hpushed : pushed <+: sentBytes lib tbuf len.toNat)
      {d' : Spi0 S} (h : Shifting hw (begun hw d) pushed popped d') :
      Interrupted hw d (sentBytes lib tbuf len.toNat) d' := .of_shifting h hpushed
  refine (clearAndActivate_triple hspi).seq ?_
  rintro _ _ d₁ ⟨rfl, hs, htx⟩
  have hrx₁ : (begun hw d).port.rx = [] := by rw [begun_port]
  have hfit : d₁.port.rx.length + d₁.port.pending.length ≤ hw.txRoom + 1 := by
    have hcount := hs.carries.length
    rw [hrx₁, (begun_quiet hta).1] at hcount
    simp only [List.length_nil] at hcount
    omega
  refine (Triple.forM_range
    (fun i lib' d' => lib = lib' ∧
      (∃ popped, Shifting hw (begun hw d) (sentBytes lib tbuf i) popped d') ∧
      d'.port.rx.length + d'.port.pending.length ≤ hw.txRoom + 1) ?_ ⟨rfl, ⟨_, hs⟩, hfit⟩).seq ?_
  · rintro i hi _ d₂ ⟨rfl, ⟨popped, h₂⟩, hfit₂⟩
    have hbyte := writeByte_triple hspi (begun_ta d) hroom rfl
      (fun pushed' hpushed popped d' h => hcut (hpushed.trans (sentBytes_succ lib tbuf i ▸
        prefix_sentBytes lib tbuf (Nat.succ_le_of_lt hi))) h) h₂ hfit₂
    rw [← sentBytes_succ] at hbyte
    exact hbyte
  · rintro _ _ d₂ ⟨rfl, ⟨popped, h₂⟩, -⟩
    refine (drainDone_triple hspi (begun_ta d) (fun _ _ h => hcut (List.prefix_refl _) h) h₂).seq ?_
    rintro _ _ d₃ ⟨rfl, ⟨_, h₃⟩, hidle⟩
    refine (setBits_triple hspi (hcut (List.prefix_refl _) h₃)
      (hcut (List.prefix_refl _) h₃.advance)).weaken ?_
    rintro _ _ _ ⟨rfl, rfl⟩
    exact ⟨rfl, _, .of_shifting hta h₃ hidle⟩

theorem spiWritenb_exchanges_register :
    Triple (Controller.inStep .register).device (spiWritenb 0 20) initialised
      ⟨0, 0, ⟨[], none, [], 0⟩, 0⟩
      (fun _ lib' d' => initialised = lib' ∧ ∃ answers,
        Exchanged (.inStep .register) (sentBytes initialised 0 20) answers
          ⟨0, 0, ⟨[], none, [], 0⟩, 0⟩ d')
      (Interrupted (.inStep .register) ⟨0, 0, ⟨[], none, [], 0⟩, 0⟩ (sentBytes initialised 0 20)) :=
  spiWritenb_exchanges initialised rfl rfl (by decide)

end LineFollower.Bcm2835
