import LineFollower.Bcm2835.Controller

/-!
# A transfer on the controller

What `bcm2835_spi_transfernb` does on the controller, at any pace. From the
activation on, the port has taken the bytes that the loop has pushed and given
those that it has popped (`Shifting`, `Underway`). Each turn of the outer loop
moves a byte, or finds that no time has passed (`Since`), so the transfer
returns as soon as the controller keeps moving.

The transfer may begin with another one cut short. Then the byte that was in
the shifter goes out before its own, and its answer is the first to be popped.
-/

namespace LineFollower.Bcm2835

open Lib Lib.Exchange

variable {S : Type}

def store (mem : ℕ → Byte) (p : ℕ) (bytes : List Byte) : ℕ → Byte := fun a =>
  if p ≤ a then (bytes[a - p]?).getD (mem a) else mem a

theorem store_nil (mem : ℕ → Byte) (p : ℕ) : store mem p [] = mem := by
  funext a
  simp [store]

theorem store_append_singleton (mem : ℕ → Byte) (p : ℕ) (bytes : List Byte) (b : Byte) :
    Function.update (store mem p bytes) (p + bytes.length) b = store mem p (bytes ++ [b]) := by
  funext a
  by_cases ha : a = p + bytes.length
  · subst ha
    simp [store]
  · rw [Function.update_of_ne ha]
    by_cases hp : p ≤ a
    · by_cases hlt : a - p < bytes.length
      · simp [store, hp, List.getElem?_append_left hlt]
      · have hgt : (bytes ++ [b]).length ≤ a - p := by
          simp only [List.length_append, List.length_singleton]
          omega
        simp [store, hp, List.getElem?_eq_none hgt, List.getElem?_eq_none (Nat.le_of_not_lt hlt)]
    · simp [store, hp]

def sentBytes (lib : Bcm2835) (tbuf n : ℕ) : List Byte :=
  (List.range n).map fun i => correctOrder lib.spiBitOrder (lib.mem (tbuf + i))

theorem sentBytes_succ (lib : Bcm2835) (tbuf n : ℕ) :
    sentBytes lib tbuf (n + 1) =
      sentBytes lib tbuf n ++ [correctOrder lib.spiBitOrder (lib.mem (tbuf + n))] := by
  simp [sentBytes, List.range_succ]

@[simp] theorem length_sentBytes (lib : Bcm2835) (tbuf n : ℕ) :
    (sentBytes lib tbuf n).length = n := by
  simp [sentBytes]

-- ---------------------------------------------------------------------------
-- A transfer that goes on
-- ---------------------------------------------------------------------------

/-- The controller since it was `d₁`: its settings are the same, the bytes
`pushed` have been pushed and `popped` been popped. -/
structure Shifting (hw : Controller S) (d₁ : Spi0 S) (pushed popped : List Byte) (d : Spi0 S) :
    Prop where
  control : d.control = d₁.control
  clk : d.clk = d₁.clk
  carries : Port.Carries (hw.bus.shift d₁.line) d₁.port pushed popped d.port

namespace Shifting

variable {hw : Controller S} {d₁ d : Spi0 S} {pushed popped : List Byte}

theorem refl (hw : Controller S) (d₁ : Spi0 S) : Shifting hw d₁ [] [] d₁ := ⟨rfl, rfl, .refl _⟩

theorem ta (h : Shifting hw d₁ pushed popped d) : d.ta = d₁.ta := by
  rw [Spi0.ta, h.control]
  rfl

theorem line (h : Shifting hw d₁ pushed popped d) : d.line = d₁.line := by
  rw [Spi0.line, h.control, h.clk]
  rfl

theorem advance (h : Shifting hw d₁ pushed popped d) :
    Shifting hw d₁ pushed popped (hw.advance d) :=
  ⟨h.control, h.clk, Controller.advance_carries h.line h.carries⟩

theorem push (h : Shifting hw d₁ pushed popped d) (hroom : d.port.tx.length < hw.txRoom)
    (b : Byte) :
    Shifting hw d₁ (pushed ++ [b]) popped { d with port := d.port.push hw.txRoom b } :=
  ⟨h.control, h.clk, h.carries.push hroom b⟩

theorem pop {b : Byte} {rx : List Byte} (h : Shifting hw d₁ pushed popped d)
    (hrx : d.port.rx = b :: rx) :
    Shifting hw d₁ pushed (popped ++ [b]) { d with port := d.port.pop } :=
  ⟨h.control, h.clk, h.carries.pop hrx⟩

end Shifting

def work (len : ℕ) (p : Bcm2835 × Spi0 S) : ℕ := 4 * (len - p.1.txCnt) + p.2.port.weight

/-- From `p` to `q` a byte has moved, or nothing has, and that for want of time
or of a byte that could. -/
structure Since (hw : Controller S) (len : ℕ) (p q : Bcm2835 × Spi0 S) : Prop where
  now_le : p.2.now ≤ q.2.now
  moved : work len q < work len p ∨
    (q.1 = p.1 ∧ q.2.port = p.2.port ∧
      ∀ n, p.2.now ≤ n → n < q.2.now → hw.pace n = 0 ∨ p.2.port.Stuck hw.rxRoom)

namespace Since

variable {hw : Controller S} {len : ℕ} {p q r : Bcm2835 × Spi0 S}

theorem refl (p : Bcm2835 × Spi0 S) : Since hw len p p :=
  ⟨Nat.le_refl _, .inr ⟨rfl, rfl, fun _ h h' => absurd (Nat.lt_of_le_of_lt h h') (Nat.lt_irrefl _)⟩⟩

theorem work_le (h : Since hw len p q) : work len q ≤ work len p := by
  rcases h.moved with hlt | ⟨hv, hp, -⟩
  · exact Nat.le_of_lt hlt
  · simp [work, hv, hp]

theorem trans (h : Since hw len p q) (h' : Since hw len q r) : Since hw len p r := by
  refine ⟨Nat.le_trans h.now_le h'.now_le, ?_⟩
  rcases h.moved with hlt | ⟨hv, hp, hwhy⟩
  · exact .inl (Nat.lt_of_le_of_lt h'.work_le hlt)
  · rcases h'.moved with hlt' | ⟨hv', hp', hwhy'⟩
    · exact .inl (by simpa [work, hv, hp] using hlt')
    · refine .inr ⟨hv'.trans hv, hp'.trans hp, fun n hn hn' => ?_⟩
      rcases Nat.lt_or_ge n q.2.now with hlow | hhigh
      · exact hwhy n hn hlow
      · exact hp ▸ hwhy' n hhigh hn'

theorem advance {lib : Bcm2835} {d : Spi0 S} (h : d.ta = true) :
    Since hw len (lib, d) (lib, hw.advance d) := by
  refine ⟨Nat.le_succ _, ?_⟩
  rcases Controller.advance_moved hw h with hlt | ⟨heq, hwhy⟩
  · exact .inl (Nat.add_lt_add_left hlt _)
  · refine .inr ⟨rfl, heq, fun n hn hn' => ?_⟩
    obtain rfl : n = d.now := Nat.le_antisymm (Nat.le_of_lt_succ hn') hn
    exact hwhy

theorem waits (h : Since hw len p q) (hnow : p.2.now < q.2.now)
    (hfree : q.1 = p.1 → q.2.port = p.2.port → ¬ p.2.port.Stuck hw.rxRoom) :
    Waits hw.pace (work len) (fun p => p.2.now) q p := by
  rcases h.moved with hlt | ⟨hv, hp, hwhy⟩
  · exact .inl hlt
  · refine .inr ⟨by simp [work, hv, hp], hnow, fun n hn hn' => ?_⟩
    exact (hwhy n hn hn').resolve_right (hfree hv hp)

theorem of_work_lt {lib lib' : Bcm2835} {d d' : Spi0 S} (hnow : d'.now = d.now)
    (hlt : work len (lib', d') < work len (lib, d)) : Since hw len (lib, d) (lib', d') :=
  ⟨Nat.le_of_eq hnow.symm, .inl hlt⟩

end Since

/-- The loop of the transfer of a buffer that began with the controller in
`d₁` and the variables `lib`. -/
structure Underway (hw : Controller S) (tbuf rbuf len : ℕ) (lib : Bcm2835) (d₁ : Spi0 S)
    (popped : List Byte) (lib' : Bcm2835) (d : Spi0 S) : Prop where
  shifting : Shifting hw d₁ (sentBytes lib tbuf lib'.txCnt) popped d
  vars : lib' =
    { lib with
      mem := store lib.mem rbuf (popped.map (correctOrder lib.spiBitOrder))
      txCnt := lib'.txCnt
      rxCnt := popped.length }
  tx_le : lib'.txCnt ≤ len
  rx_le : popped.length ≤ len
  waiting : d.port.tx.length ≤ lib'.txCnt
  /-- No answer has been stored over a byte that is still to go out. -/
  unread : ∀ i, lib'.txCnt ≤ i → i < len → lib'.mem (tbuf + i) = lib.mem (tbuf + i)

section
variable {hw : Controller S} {tbuf rbuf len : ℕ} {lib : Bcm2835} {d₁ : Spi0 S}

namespace Underway

variable {popped : List Byte} {lib' : Bcm2835} {d : Spi0 S}

theorem mapped (h : Underway hw tbuf rbuf len lib d₁ popped lib' d) : lib'.mapped = lib.mapped := by
  rw [h.vars]

theorem order (h : Underway hw tbuf rbuf len lib d₁ popped lib' d) :
    lib'.spiBitOrder = lib.spiBitOrder := by
  rw [h.vars]

theorem rxCnt (h : Underway hw tbuf rbuf len lib d₁ popped lib' d) :
    lib'.rxCnt = popped.length := by
  rw [h.vars]

theorem advance (h : Underway hw tbuf rbuf len lib d₁ popped lib' d) :
    Underway hw tbuf rbuf len lib d₁ popped lib' (hw.advance d) := by
  refine { h with shifting := h.shifting.advance, waiting := ?_ }
  refine Nat.le_trans ?_ h.waiting
  simp only [Controller.advance]
  split
  · exact Port.ticks_tx_le _
  · exact Nat.le_refl _

theorem push (h : Underway hw tbuf rbuf len lib d₁ popped lib' d) (hlt : lib'.txCnt < len)
    (hroom : d.port.tx.length < hw.txRoom) :
    Underway hw tbuf rbuf len lib d₁ popped { lib' with txCnt := lib'.txCnt + 1 }
      { d with
        port := d.port.push hw.txRoom
          (correctOrder lib'.spiBitOrder (lib'.mem (tbuf + lib'.txCnt))) } where
  shifting := by
    rw [h.order, h.unread _ (Nat.le_refl _) hlt, sentBytes_succ]
    exact h.shifting.push hroom _
  vars := by rw [h.vars]
  tx_le := hlt
  rx_le := h.rx_le
  waiting := by
    simp only [Port.push, hroom, ↓reduceIte, List.length_append, List.length_singleton]
    exact Nat.succ_le_succ h.waiting
  unread := fun i hi => h.unread i (Nat.le_of_succ_le hi)

theorem pop (h : Underway hw tbuf rbuf len lib d₁ popped lib' d) {b : Byte} {rx : List Byte}
    (hrx : d.port.rx = b :: rx) (hlt : lib'.rxCnt < len)
    (happart : ∀ i, lib'.txCnt ≤ i → i < len → tbuf + i ≠ rbuf + popped.length) :
    Underway hw tbuf rbuf len lib d₁ (popped ++ [b])
      { lib' with
        mem := Function.update lib'.mem (rbuf + lib'.rxCnt) (correctOrder lib'.spiBitOrder b)
        rxCnt := lib'.rxCnt + 1 }
      { d with port := d.port.pop } where
  shifting := h.shifting.pop hrx
  vars := by
    have hmem := store_append_singleton lib.mem rbuf (popped.map (correctOrder lib.spiBitOrder))
      (correctOrder lib.spiBitOrder b)
    rw [List.length_map] at hmem
    rw [h.order, h.rxCnt, show lib'.mem = _ from congrArg Bcm2835.mem h.vars, hmem]
    conv => lhs; rw [h.vars]
    simp
  tx_le := h.tx_le
  rx_le := by
    rw [h.rxCnt] at hlt
    rw [List.length_append]
    exact hlt
  waiting := h.waiting
  unread := by
    intro i hi hlen
    rw [h.rxCnt]
    simp only [Function.update_of_ne (happart i hi hlen)]
    exact h.unread i hi hlen

/-- An answer that is waiting is stored over no byte that is still to go out:
the buffers lie apart, or the answers behind, or the whole buffer has gone. -/
theorem apart (h : Underway hw tbuf rbuf len lib d₁ popped lib' d) (hrx₁ : d₁.port.rx = [])
    (hrx : d.port.rx ≠ [])
    (hbuf : tbuf + len ≤ rbuf ∨ rbuf + d₁.port.pending.length ≤ tbuf ∨ lib'.txCnt = len) :
    ∀ i, lib'.txCnt ≤ i → i < len → tbuf + i ≠ rbuf + popped.length := by
  intro i hi hlen
  have hcount := h.shifting.carries.length
  have hpos : 0 < d.port.rx.length := List.length_pos_iff.mpr hrx
  rw [hrx₁, length_sentBytes, List.length_nil] at hcount
  omega

end Underway

-- ---------------------------------------------------------------------------
-- The two inner loops
-- ---------------------------------------------------------------------------

theorem txTurn_uses (tbuf len : ℕ) : Uses 1 (txTurn tbuf len) := by
  refine (periRead_uses _).bind fun _ => Uses.getVars_bind fun _ => .ite ?_ (.pure _)
  exact ((periWriteNb_uses _ _).seq ((Uses.modifyVars _).seq (.pure _))).mono (Nat.zero_le _)

theorem rxTurn_uses (rbuf len : ℕ) : Uses 1 (rxTurn rbuf len) := by
  refine (periRead_uses _).bind fun _ => Uses.getVars_bind fun _ => .ite ?_ (.pure _)
  exact ((periReadNb_uses _).bind fun _ => (Uses.modifyVars _).seq (.pure _)).mono (Nat.zero_le _)

variable {cut : Spi0 S → Prop} (hspi : lib.mapped .spi0 = true) (hta : d₁.ta = true)
  (hcut : ∀ n ≤ len, ∀ popped d, Shifting hw d₁ (sentBytes lib tbuf n) popped d → cut d)
include hspi hta hcut

theorem txTurn_triple {popped : List Byte} {v : Bcm2835} {d : Spi0 S}
    (h : Underway hw tbuf rbuf len lib d₁ popped v d) :
    Triple hw.device (txTurn tbuf len) v d
      (fun again v' d' => Underway hw tbuf rbuf len lib d₁ popped v' d' ∧
        Since hw len (v, d) (v', d') ∧ d.now < d'.now ∧
        if again then v'.txCnt = v.txCnt + 1 else v'.txCnt = len ∨ hw.txRoom ≤ d'.port.tx.length)
      cut := by
  have hmap : v.mapped spi0Cs.block = true := h.mapped ▸ hspi
  have hactive : d.ta = true := h.shifting.ta.trans hta
  have hread := h.advance
  refine (periRead_triple hmap (hcut _ h.tx_le _ _ h.shifting)).bind ?_
  rintro _ _ _ ⟨rfl, rfl, rfl⟩
  refine Triple.getVars_bind ?_
  change Triple hw.device (if hw.readCs (hw.advance d) &&& spi0CsTxd ≠ 0 ∧ v.txCnt <
    len then _ else _)
    v (hw.advance d) _ cut
  split
  · rename_i hgo
    rw [Controller.txd_iff] at hgo
    have hwrite := hread.advance
    have hroom : (hw.advance (hw.advance d)).port.tx.length < hw.txRoom :=
      Nat.lt_of_le_of_lt Controller.advance_tx_le hgo.1
    have hfifo : v.mapped spi0Fifo.block = true := hmap
    refine (periWriteNb_triple hfifo (hcut _ h.tx_le _ _ hread.shifting)).seq ?_
    rintro _ _ _ ⟨rfl, rfl⟩
    refine Triple.modifyVars_seq (Triple.pure ?_)
    rw [Controller.device_push]
    refine ⟨hwrite.push hgo.2 hroom, ?_, Nat.lt_add_of_pos_right (by decide : 0 < 2), rfl⟩
    refine ((Since.advance hactive).trans (.advance hactive)).trans (.of_work_lt rfl ?_)
    simp only [work, Port.weight_push hroom]
    omega
  · rename_i hstop
    rw [Controller.txd_iff] at hstop
    refine Triple.pure ⟨hread, .advance hactive, Nat.lt_succ_self _, ?_⟩
    have hle := h.tx_le
    simp only [Bool.false_eq_true, ↓reduceIte]
    omega

theorem txLoop_triple {popped : List Byte} {v : Bcm2835} {d : Spi0 S}
    (h : Underway hw tbuf rbuf len lib d₁ popped v d) :
    Triple hw.device (repeatWhile (txTurn tbuf len)) v d
      (fun _ v' d' => Underway hw tbuf rbuf len lib d₁ popped v' d' ∧
        Since hw len (v, d) (v', d') ∧ d.now < d'.now ∧
        (v'.txCnt = len ∨ hw.txRoom ≤ d'.port.tx.length))
      cut := by
  refine Triple.repeatWhile (txTurn_uses tbuf len).consumes
    (fun v' d' => Underway hw tbuf rbuf len lib d₁ popped v' d' ∧ Since hw len (v, d) (v', d'))
    (measure fun p : Bcm2835 × Spi0 S => len - p.1.txCnt).wf ?_
    (fun v' d' h' => hcut _ h'.1.tx_le _ _ h'.1.shifting) ⟨h, .refl _⟩
  rintro v₁ d₂ ⟨hu, hs⟩
  refine (txTurn_triple hspi hta hcut hu).weaken ?_
  rintro again v₂ d₃ ⟨hu', hs', hnow, hturn⟩
  cases again with
  | true =>
    refine ⟨⟨hu', hs.trans hs'⟩, ?_⟩
    have hcnt : v₂.txCnt = v₁.txCnt + 1 := hturn
    have hle := hu'.tx_le
    change len - v₂.txCnt < len - v₁.txCnt
    omega
  | false => exact ⟨hu', hs.trans hs', Nat.lt_of_le_of_lt hs.now_le hnow, hturn⟩

theorem rxTurn_triple (hrx₁ : d₁.port.rx = []) {popped : List Byte} {v : Bcm2835} {d : Spi0 S}
    (hbuf : tbuf + len ≤ rbuf ∨ rbuf + d₁.port.pending.length ≤ tbuf ∨ v.txCnt = len)
    (h : Underway hw tbuf rbuf len lib d₁ popped v d) :
    Triple hw.device (rxTurn rbuf len) v d
      (fun again v' d' => (∃ popped', Underway hw tbuf rbuf len lib d₁ popped' v' d') ∧
        Since hw len (v, d) (v', d') ∧ d.now < d'.now ∧ v'.txCnt = v.txCnt ∧
        if again then v'.rxCnt = v.rxCnt + 1 else v'.rxCnt = len ∨ d'.port.rx = [])
      cut := by
  have hmap : v.mapped spi0Cs.block = true := h.mapped ▸ hspi
  have hactive : d.ta = true := h.shifting.ta.trans hta
  have hread := h.advance
  refine (periRead_triple hmap (hcut _ h.tx_le _ _ h.shifting)).bind ?_
  rintro _ _ _ ⟨rfl, rfl, rfl⟩
  refine Triple.getVars_bind ?_
  change Triple hw.device (if hw.readCs (hw.advance d) &&& spi0CsRxd ≠ 0 ∧ v.rxCnt <
    len then _ else _)
    v (hw.advance d) _ cut
  split
  · rename_i hgo
    rw [Controller.rxd_iff] at hgo
    have hpopped := hread.advance
    have hne : (hw.advance (hw.advance d)).port.rx ≠ [] := Controller.advance_rx_ne_nil hgo.1
    obtain ⟨b, rx, hrx⟩ := List.exists_cons_of_ne_nil hne
    have hfifo : v.mapped spi0Fifo.block = true := hmap
    refine (periReadNb_triple hfifo (hcut _ h.tx_le _ _ hread.shifting)).bind ?_
    rw [Controller.device_pop hrx]
    rintro _ _ _ ⟨rfl, rfl, rfl⟩
    refine Triple.modifyVars_seq (Triple.pure ?_)
    have hpop := hpopped.pop hrx hgo.2 (hpopped.apart hrx₁ hne hbuf)
    have hbyte : (b.setWidth 32).setWidth 8 = b := by simp
    refine ⟨⟨popped ++ [b], ?_⟩, ?_, Nat.lt_add_of_pos_right (by decide : 0 < 2), rfl, rfl⟩
    · rw [hbyte]
      exact hpop
    · refine ((Since.advance hactive).trans (.advance hactive)).trans (.of_work_lt rfl ?_)
      have hweight := Port.weight_pop hrx
      simp only [work]
      omega
  · rename_i hstop
    rw [Controller.rxd_iff] at hstop
    refine Triple.pure ⟨⟨_, hread⟩, .advance hactive, Nat.lt_succ_self _, rfl, ?_⟩
    have hle := h.rx_le
    have hcnt := h.rxCnt
    simp only [Bool.false_eq_true, ↓reduceIte]
    by_cases hrx : (hw.advance d).port.rx = []
    · exact .inr hrx
    · have hge : ¬ v.rxCnt < len := fun hlt => hstop ⟨hrx, hlt⟩
      exact .inl (by omega)

theorem rxLoop_triple (hrx₁ : d₁.port.rx = []) {popped : List Byte} {v : Bcm2835} {d : Spi0 S}
    (hbuf : tbuf + len ≤ rbuf ∨ rbuf + d₁.port.pending.length ≤ tbuf ∨ v.txCnt = len)
    (h : Underway hw tbuf rbuf len lib d₁ popped v d) :
    Triple hw.device (repeatWhile (rxTurn rbuf len)) v d
      (fun _ v' d' => (∃ popped', Underway hw tbuf rbuf len lib d₁ popped' v' d') ∧
        Since hw len (v, d) (v', d') ∧ d.now < d'.now ∧ (v'.rxCnt = len ∨ d'.port.rx = []))
      cut := by
  refine Triple.repeatWhile (rxTurn_uses rbuf len).consumes
    (fun v' d' => (∃ popped', Underway hw tbuf rbuf len lib d₁ popped' v' d') ∧
      Since hw len (v, d) (v', d') ∧ v'.txCnt = v.txCnt)
    (measure fun p : Bcm2835 × Spi0 S => len - p.1.rxCnt).wf ?_
    ?_ ⟨⟨_, h⟩, .refl _, rfl⟩
  · rintro v₁ d₂ ⟨⟨popped₁, hu⟩, hs, htx⟩
    refine (rxTurn_triple hspi hta hcut hrx₁ (htx ▸ hbuf) hu).weaken ?_
    rintro again v₂ d₃ ⟨⟨popped₂, hu'⟩, hs', hnow, htx', hturn⟩
    cases again with
    | true =>
      refine ⟨⟨⟨_, hu'⟩, hs.trans hs', htx'.trans htx⟩, ?_⟩
      have hcnt : v₂.rxCnt = v₁.rxCnt + 1 := hturn
      have hle := hu'.rx_le
      have hrx := hu'.rxCnt
      change len - v₂.rxCnt < len - v₁.rxCnt
      omega
    | false => exact ⟨⟨_, hu'⟩, hs.trans hs', Nat.lt_of_le_of_lt hs.now_le hnow, hturn⟩
  · rintro v₁ d₂ ⟨⟨_, hu⟩, -, -⟩
    exact hcut _ hu.tx_le _ _ hu.shifting

-- ---------------------------------------------------------------------------
-- The outer loop
-- ---------------------------------------------------------------------------

omit hspi hta hcut in
/-- A turn that has moved nothing has found a byte that will move. -/
theorem not_stuck (hlead : d₁.port.pending.length ≤ 1) (hrx₁ : d₁.port.rx = []) {popped : List Byte}
    {v : Bcm2835} {d : Spi0 S} (h : Underway hw tbuf rbuf len lib d₁ popped v d)
    (hgo : v.txCnt < len ∨ v.rxCnt < len) (htx : v.txCnt = len ∨ hw.txRoom ≤ d.port.tx.length)
    (hrx : v.rxCnt = len ∨ d.port.rx = []) : ¬ d.port.Stuck hw.rxRoom := by
  rintro ⟨hshift, hwhy⟩
  have hcount := h.shifting.carries.length
  have hpending : d.port.pending = d.port.tx := by simp [Port.pending, hshift]
  have htxRoom := hw.txRoom_pos
  have hrxRoom := hw.rxRoom_pos
  rw [hrx₁, length_sentBytes, List.length_nil, hpending, ← h.rxCnt] at hcount
  simp only [← List.length_eq_zero_iff] at hwhy hrx
  omega

theorem transferTurn_triple (hlead : d₁.port.pending.length ≤ 1) (hrx₁ : d₁.port.rx = [])
    (hbuf : tbuf + len ≤ rbuf ∨ rbuf + d₁.port.pending.length ≤ tbuf ∨ len ≤ hw.txRoom)
    {popped : List Byte} {v : Bcm2835} {d : Spi0 S}
    (h : Underway hw tbuf rbuf len lib d₁ popped v d) :
    Triple hw.device (transferTurn tbuf rbuf len) v d
      (fun again v' d' => ∃ popped', Underway hw tbuf rbuf len lib d₁ popped' v' d' ∧
        if again then Waits hw.pace (work len) (fun p => p.2.now) (v', d') (v, d)
        else v'.txCnt = len ∧ v'.rxCnt = len)
      cut := by
  refine Triple.getVars_bind ?_
  split
  · rename_i hgo
    refine (txLoop_triple hspi hta hcut h).seq ?_
    rintro ⟨⟩ v₁ d₂ ⟨hu, hs, hnow, htx⟩
    have hbuf₁ : tbuf + len ≤ rbuf ∨ rbuf + d₁.port.pending.length ≤ tbuf ∨ v₁.txCnt = len := by
      have hwaiting := hu.waiting
      have hle := hu.tx_le
      omega
    refine (rxLoop_triple hspi hta hcut hrx₁ hbuf₁ hu).seq ?_
    rintro ⟨⟩ v₂ d₃ ⟨⟨popped₂, hu₂⟩, hs₂, hnow₂, hrx⟩
    refine Triple.pure ⟨popped₂, hu₂, ?_⟩
    refine (hs.trans hs₂).waits (Nat.lt_trans hnow hnow₂) fun hv hp => ?_
    -- nothing has moved by the middle of the turn either
    have hmid : v₁ = v ∧ d₂.port = d.port := by
      rcases hs.moved with hlt | ⟨hv₁, hp₁, -⟩
      · have hle := hs₂.work_le
        simp only at hv hp
        simp only [work, hv, hp] at hlt hle
        omega
      · exact ⟨hv₁, hp₁⟩
    simp only at hv hp
    rw [hmid.1, hmid.2] at htx
    rw [hv, hp] at hrx
    exact not_stuck hlead hrx₁ h hgo htx hrx
  · rename_i hstop
    have htx := h.tx_le
    have hrx := h.rx_le
    have hcnt := h.rxCnt
    refine Triple.pure ⟨popped, h, ?_⟩
    simp only [Bool.false_eq_true, ↓reduceIte]
    omega

theorem transferLoop_triple (hlead : d₁.port.pending.length ≤ 1) (hrx₁ : d₁.port.rx = [])
    (hbuf : tbuf + len ≤ rbuf ∨ rbuf + d₁.port.pending.length ≤ tbuf ∨ len ≤ hw.txRoom)
    {popped : List Byte} {v : Bcm2835} {d : Spi0 S}
    (h : Underway hw tbuf rbuf len lib d₁ popped v d) :
    Triple hw.device (repeatWhile (transferTurn tbuf rbuf len)) v d
      (fun _ v' d' => ∃ popped', Underway hw tbuf rbuf len lib d₁ popped' v' d' ∧ v'.txCnt = len ∧
        v'.rxCnt = len)
      cut := by
  have hconsumes : Consumes (transferTurn tbuf rbuf len) := by
    refine Uses.consumes_guard fun v => ?_
    have hloops := (txTurn_uses tbuf len).repeatWhile.seq
      ((rxTurn_uses rbuf len).repeatWhile.seq (Uses.pure true))
    exact hloops.mono (by decide)
  refine Triple.repeatWhile hconsumes
    (fun v' d' => ∃ popped', Underway hw tbuf rbuf len lib d₁ popped' v' d')
    (waits_wellFounded hw.fair (work len) fun p => p.2.now) ?_ ?_ ⟨popped, h⟩
  · rintro v₁ d₂ ⟨popped₁, hu⟩
    refine (transferTurn_triple hspi hta hcut hlead hrx₁ hbuf hu).weaken ?_
    rintro again v₂ d₃ ⟨popped₂, hu₂, hturn⟩
    cases again with
    | true => exact ⟨⟨popped₂, hu₂⟩, hturn⟩
    | false => exact ⟨popped₂, hu₂, hturn⟩
  · rintro v₁ d₂ ⟨_, hu⟩
    exact hcut _ hu.tx_le _ _ hu.shifting

end

-- ---------------------------------------------------------------------------
-- Waiting for a flag
-- ---------------------------------------------------------------------------

section
variable {hw : Controller S} {lib : Bcm2835} {d : Spi0 S} {cut : Spi0 S → Prop}

theorem readTurn_uses (flag : Word) :
    Uses 1 (do return decide ((← periRead spi0Cs) &&& flag = 0) : Driver Bool) :=
  (periRead_uses _).bind fun _ => .pure _

theorem waitFor_triple (hspi : lib.mapped .spi0 = true) {flag : Word} (ready inv : Spi0 S → Prop)
    (hflag : ∀ d : Spi0 S, hw.readCs d &&& flag ≠ 0 ↔ ready d) (hactive : ∀ d, inv d → d.ta = true)
    (hadvance : ∀ d, inv d → inv (hw.advance d))
    (hfree : ∀ d, inv d → ¬ ready d → ¬ d.port.Stuck hw.rxRoom) (hcut : ∀ d, inv d → cut d)
    (h : inv d) :
    Triple hw.device (repeatWhile do return decide ((← periRead spi0Cs) &&& flag = 0)) lib d
      (fun _ lib' d' => lib = lib' ∧ inv d' ∧ ready d') cut := by
  have hmap : lib.mapped spi0Cs.block = true := hspi
  refine Triple.repeatWhile (readTurn_uses flag).consumes (fun lib' d' => lib = lib' ∧ inv d')
    (waits_wellFounded hw.fair (work 0) fun p => p.2.now) ?_
    (fun _ d' h' => hcut d' h'.2) ⟨rfl, h⟩
  rintro lib' d' ⟨rfl, hd⟩
  refine (periRead_triple hmap (hcut d' hd)).bind ?_
  rintro _ _ _ ⟨rfl, rfl, rfl⟩
  refine Triple.pure ?_
  have hnext := hadvance d' hd
  by_cases hz : hw.readCs (hw.advance d') &&& flag = 0
  · have hnot : ¬ ready (hw.advance d') := fun hr => (hflag _).mpr hr hz
    have hagain : decide ((hw.device d' (.read spi0Cs)).1 &&& flag = 0) = true := decide_eq_true hz
    rw [hagain]
    refine ⟨⟨rfl, hnext⟩, (Since.advance (hactive d' hd)).waits (Nat.lt_succ_self _) fun _ hp => ?_⟩
    exact hp ▸ hfree _ hnext hnot
  · have hstop : decide ((hw.device d' (.read spi0Cs)).1 &&& flag = 0) = false := decide_eq_false hz
    rw [hstop]
    exact ⟨rfl, hnext, (hflag _).mp hz⟩

/-- DONE is waited for when there is room for the answers to come. -/
theorem waitDone_triple (hspi : lib.mapped .spi0 = true) {d₁ : Spi0 S} {pushed popped : List Byte}
    (hta : d₁.ta = true) (hrx₁ : d₁.port.rx = [])
    (hfit : d₁.port.pending.length + pushed.length ≤ popped.length + hw.rxRoom)
    (hcut : ∀ d, Shifting hw d₁ pushed popped d → cut d) (h : Shifting hw d₁ pushed popped d) :
    Triple hw.device (repeatWhile do return decide ((← periReadNb spi0Cs) &&& spi0CsDone = 0)) lib d
      (fun _ lib' d' => lib = lib' ∧ Shifting hw d₁ pushed popped d' ∧ d'.port.pending =
        []) cut := by
  have hwait := @waitFor_triple S hw lib d cut hspi spi0CsDone
    (fun d => d.ta = true ∧ d.port.pending = []) (Shifting hw d₁ pushed popped)
    (fun _ => Controller.done_iff) (fun d hd => hd.ta.trans hta) (fun d hd => hd.advance) ?_ hcut h
  · refine hwait.weaken ?_
    rintro _ lib' d' ⟨hlib, hd, -, hp⟩
    exact ⟨hlib, hd, hp⟩
  · rintro d' hd hnot ⟨hshift, hwhy⟩
    have hcount := hd.carries.length
    have hpending : d'.port.pending = d'.port.tx := by simp [Port.pending, hshift]
    have hne : d'.port.tx.length ≠ 0 := by
      intro h0
      exact hnot ⟨hd.ta.trans hta, hpending.trans (List.length_eq_zero_iff.mp h0)⟩
    rw [hrx₁, List.length_nil, hpending] at hcount
    rw [← List.length_eq_zero_iff] at hwhy
    omega

theorem setBits_triple (hspi : lib.mapped .spi0 = true) {value mask : Word} (hc : cut d)
    (hread : cut (hw.advance d)) :
    Triple hw.device (periSetBits spi0Cs value mask) lib d
      (fun _ lib' d' => lib = lib' ∧ d' = hw.setBits value mask d) cut := by
  have hmap : lib.mapped spi0Cs.block = true := hspi
  exact periSetBits_triple hmap hc hread

end

end LineFollower.Bcm2835
