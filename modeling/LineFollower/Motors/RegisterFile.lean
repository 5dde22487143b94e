import LineFollower.Lib.Cells
import LineFollower.Lib.Device
import LineFollower.Motors.Chip

/-!
# The chips' registers

Two chips as a device that answers the transfers. SET_PARAM stores the value
sent, cut to the register's length, and GET_PARAM answers with the bytes of the
register, the highest first. What a chip answers to any other byte is left
open, and so is what motion makes of its position and speed: the commands that
are modelled are the ones to the register file.

`Does` is the specification of a program for the selected chip: what it
returns and what it makes of that chip's registers, the other chip's registers
unchanged.
-/

namespace LineFollower

open Lib Lib.Exchange

abbrev Registers := (param : ParamRegister) → BitVec param.len

abbrev Change := Modify fun param : ParamRegister => BitVec param.len

def wordOf (bytes : List Byte) : ℕ := bytes.foldl (fun word b => word * 256 + b.toNat) 0

structure ChipState where
  decoder : Decoder (argBytes .counted)
  regs : Registers

namespace ChipState

def execute (regs : Registers) (cmd : Command (argBytes .counted)) : Registers :=
  if cmd.opcode &&& 0xE0 = cmdSetParam then
    match registerAt (cmd.opcode &&& 0x1F) with
    | some param => Function.update regs param (BitVec.ofNat param.len (wordOf cmd.args))
    | none => regs
  else regs

def reply (s : ChipState) : Option Byte := do
  let p ← s.decoder
  if p.opcode &&& 0xE0 = cmdGetParam then
    let param ← registerAt (p.opcode &&& 0x1F)
    pure (byteAt (s.regs param) (param.bytes - 1 - p.got.length))
  else none

variable (other : ChipState → Byte → Byte)

def step (s : ChipState) (b : Byte) : Byte × ChipState :=
  let next := feed s.decoder b
  (s.reply.getD (other s b), ⟨next.2, next.1.foldl execute s.regs⟩)

def xfer (s : ChipState) : List Byte → List Byte × ChipState
  | [] => ([], s)
  | b :: bs =>
    let first := s.step other b
    let rest := xfer first.2 bs
    (first.1 :: rest.1, rest.2)

end ChipState

abbrev Chips := Chip → ChipState

/-- Every transfer moves one byte into and out of each chip. -/
def chain (other : ChipState → Byte → Byte) : Device Chips Transfer Packet := fun s t =>
  (⟨((s .left).step other t.dataPacket.left).1, ((s .right).step other t.dataPacket.right).1⟩,
    fun chip => ((s chip).step other (t.dataPacket.get chip)).2)

def idle (regs : Chip → Registers) : Chips := fun chip => ⟨none, regs chip⟩

-- ---------------------------------------------------------------------------
-- One chip
-- ---------------------------------------------------------------------------

variable {other : ChipState → Byte → Byte}

namespace ChipState

theorem xfer_state (s : ChipState) (bs : List Byte) :
    (s.xfer other bs).2 =
      ⟨(decode s.decoder bs).2, (decode s.decoder bs).1.foldl execute s.regs⟩ := by
  induction bs generalizing s with
  | nil => rfl
  | cons b bs ih => simp [xfer, decode, ih, step]

theorem length_xfer (s : ChipState) (bs : List Byte) : (s.xfer other bs).1.length = bs.length := by
  induction bs generalizing s with
  | nil => rfl
  | cons b bs ih => simp [xfer, ih]

theorem xfer_command (regs : Registers) (cmd : Command (argBytes .counted)) :
    (xfer other ⟨none, regs⟩ cmd.bytes).2 = ⟨none, execute regs cmd⟩ := by
  rw [xfer_state, decode_command]
  rfl

theorem step_nop (regs : Registers) : (step other ⟨none, regs⟩ 0).2 = ⟨none, regs⟩ := rfl

theorem execute_set (regs : Registers) {cmd : Command (argBytes .counted)} {param : ParamRegister}
    (h : cmd.opcode = param.value ||| cmdSetParam) :
    execute regs cmd = Function.update regs param (BitVec.ofNat param.len (wordOf cmd.args)) := by
  rw [execute, h]
  cases param <;> rfl

theorem execute_get (regs : Registers) {cmd : Command (argBytes .counted)} {param : ParamRegister}
    (h : cmd.opcode = param.value ||| cmdGetParam) : execute regs cmd = regs := by
  rw [execute, h]
  cases param <;> rfl

theorem get_opcode (param : ParamRegister) :
    (param.value ||| cmdGetParam) &&& 0xE0 = cmdGetParam ∧
      registerAt ((param.value ||| cmdGetParam) &&& 0x1F) = some param := by
  cases param <;> exact ⟨rfl, rfl⟩

theorem reply_get (regs : Registers) {p : Partial (argBytes .counted)} {param : ParamRegister}
    (h : p.opcode = param.value ||| cmdGetParam) :
    reply ⟨some p, regs⟩ = some (byteAt (regs param) (param.bytes - 1 - p.got.length)) := by
  obtain ⟨hcode, haddress⟩ := get_opcode param
  simp only [reply, Option.bind_eq_bind, Option.bind_some, h, hcode, haddress, ↓reduceIte]
  rfl

theorem get_short (param : ParamRegister) :
    ([] : List Byte).length < argBytes .counted (param.value ||| cmdGetParam) := by
  cases param <;> decide

theorem step_get (regs : Registers) (param : ParamRegister) :
    (step other ⟨none, regs⟩ (param.value ||| cmdGetParam)).2 =
      ⟨some ⟨param.value ||| cmdGetParam, [], get_short param⟩, regs⟩ := by
  have hfeed : feed none (param.value ||| cmdGetParam) =
      ([], some ⟨param.value ||| cmdGetParam, [], get_short param⟩) :=
        advance_more _ _ (get_short param)
  simp only [step, hfeed, List.foldl_nil]

theorem xfer_get (regs : Registers) {param : ParamRegister} {k : ℕ}
    (p : Partial (argBytes .counted))
    (h : p.opcode = param.value ||| cmdGetParam) (hk : p.got.length + k = param.bytes) :
    (xfer other ⟨some p, regs⟩ (List.replicate k 0)).1 = bytesBelow (regs param) k := by
  induction k generalizing p with
  | zero => rfl
  | succ k ih =>
    have harity : argBytes .counted p.opcode = param.bytes := by
      rw [h]
      cases param <;> rfl
    have hanswer : (step other ⟨some p, regs⟩ 0).1 = byteAt (regs param) k := by
      simp only [step, reply_get regs h, Option.getD_some]
      congr 1
      omega
    rw [List.replicate_succ, xfer, bytesBelow]
    simp only [hanswer, List.cons.injEq, true_and]
    rcases Nat.eq_zero_or_pos k with rfl | hpos
    · rfl
    · -- The command is not complete.
      have hshort : (p.got ++ [0]).length < argBytes .counted p.opcode := by
        rw [List.length_append, List.length_singleton, harity]
        omega
      have hfeed : feed (some p) (0 : Byte) = ([], some ⟨p.opcode, p.got ++ [0], hshort⟩) :=
        advance_more _ _ hshort
      simp only [step, hfeed, List.foldl_nil]
      refine ih ⟨p.opcode, p.got ++ [0], hshort⟩ h ?_
      simp only [List.length_append, List.length_singleton]
      omega

end ChipState

-- ---------------------------------------------------------------------------
-- Words and bytes
-- ---------------------------------------------------------------------------

def assemble {w : ℕ} (out : BitVec w) : List Byte → BitVec w
  | [] => out
  | b :: bs => assemble (setByte out bs.length b) bs

theorem getLsbD_setByte {w : ℕ} (value : BitVec w) (k : ℕ) (b : Byte) (i : ℕ) :
    (setByte value k b).getLsbD i =
      (decide (i < w) &&
        if 8 * k ≤ i ∧ i < 8 * (k + 1) then b.getLsbD (i - 8 * k) else value.getLsbD i) := by
  have hmask (j : ℕ) : Nat.testBit 255 j = decide (j < 8) := Nat.testBit_two_pow_sub_one 8 j
  simp only [setByte, BitVec.getLsbD_or, BitVec.getLsbD_and, BitVec.getLsbD_not,
    BitVec.getLsbD_shiftLeft, BitVec.getLsbD_setWidth, BitVec.ofNat_eq_ofNat, BitVec.getLsbD_ofNat,
    hmask]
  by_cases hi : i < w
  · by_cases hlow : i < 8 * k
    · simp [hi, hlow, show ¬ 8 * k ≤ i by omega]
    · by_cases hhigh : i < 8 * (k + 1)
      · simp [hi, hlow, hhigh, show 8 * k ≤ i by omega, show i - 8 * k < w by omega,
          show i - 8 * k < 8 by omega]
      · have hout : b.getLsbD (i - 8 * k) = false := BitVec.getLsbD_of_ge b _ (by omega)
        simp [hi, hlow, hhigh, hout, show ¬ i - 8 * k < 8 by omega]
  · simp [hi]

theorem getLsbD_assemble {w v : ℕ} (out : BitVec w) (x : BitVec v) (n i : ℕ) :
    (assemble out (bytesBelow x n)).getLsbD i =
      (decide (i < w) && if i < 8 * n then x.getLsbD i else out.getLsbD i) := by
  induction n generalizing out with
  | zero =>
    by_cases hi : i < w
    · simp [assemble, bytesBelow, hi]
    · simp [assemble, bytesBelow, hi, BitVec.getLsbD_of_ge out i (by omega)]
  | succ n ih =>
    rw [bytesBelow, assemble, length_bytesBelow, ih, getLsbD_setByte]
    have hbyte : 8 * n ≤ i → i < 8 * (n + 1) →
        (byteAt x n).getLsbD (i - 8 * n) = x.getLsbD i := by
      intro hlow hhigh
      simp only [byteAt, BitVec.getLsbD_setWidth, BitVec.getLsbD_ushiftRight]
      rw [show 8 * n + (i - 8 * n) = i by omega]
      simp [show i - 8 * n < 8 by omega]
    by_cases hlow : i < 8 * n
    · simp [hlow, show i < 8 * (n + 1) by omega]
    · by_cases hhigh : i < 8 * (n + 1)
      · simp [hlow, hhigh, hbyte (by omega) hhigh, show 8 * n ≤ i by omega]
      · simp [hlow, hhigh]

theorem assemble_zero {w v n : ℕ} (x : BitVec v) (h : v ≤ 8 * n) :
    assemble (0 : BitVec w) (bytesBelow x n) = x.setWidth w := by
  apply BitVec.eq_of_getLsbD_eq
  intro i hi
  rw [getLsbD_assemble, BitVec.getLsbD_setWidth]
  by_cases hn : i < 8 * n
  · simp [hn]
  · simp [hn, BitVec.getLsbD_of_ge x i (by omega)]

theorem wordOf_cons (b : Byte) (bs : List Byte) :
    wordOf (b :: bs) = b.toNat * 256 ^ bs.length + wordOf bs := by
  have hfold (word : ℕ) : bs.foldl (fun word b => word * 256 + b.toNat) word =
      word * 256 ^ bs.length + wordOf bs := by
    unfold wordOf
    induction bs generalizing word with
    | nil => simp
    | cons c cs ih =>
      rw [List.foldl_cons, ih, List.foldl_cons, ih (0 * 256 + c.toNat), List.length_cons]
      ring
  rw [wordOf, List.foldl_cons, hfold]
  ring

theorem wordOf_bytesBelow {w : ℕ} (value : BitVec w) (n : ℕ) :
    wordOf (bytesBelow value n) = value.toNat % 2 ^ (8 * n) := by
  induction n with
  | zero => simp [bytesBelow, wordOf, Nat.mod_one]
  | succ n ih =>
    have hbyte : (byteAt value n).toNat = value.toNat / 2 ^ (8 * n) % 256 := by
      simp [byteAt, Nat.shiftRight_eq_div_pow]
    rw [bytesBelow, wordOf_cons, length_bytesBelow, ih, hbyte, Nat.mul_succ, pow_add,
      Nat.mod_mul, pow_mul]
    norm_num
    ring

theorem stored_eq {w len n : ℕ} (value : BitVec w) (h : len ≤ 8 * n) :
    BitVec.ofNat len (wordOf (bytesBelow value n)) = value.setWidth len := by
  apply BitVec.eq_of_toNat_eq
  rw [wordOf_bytesBelow, BitVec.toNat_ofNat, BitVec.toNat_setWidth,
    Nat.mod_mod_of_dvd _ (pow_dvd_pow 2 h)]

-- ---------------------------------------------------------------------------
-- Both chips
-- ---------------------------------------------------------------------------

section
variable {self : Motors} {chip : Chip} (hc : packetIndex self.nPosition = some chip)
  (regs : Chip → Registers)
include hc

/-- The selected chip takes the byte, the other one a NOP. -/
theorem spiXfer_runs (s : ChipState) (b : Byte) :
    Runs (chain other) (spiXfer b) self (Function.update (idle regs) chip s) (s.step other b).1 self
      (Function.update (idle regs) chip (s.step other b).2) := by
  have hgot : (chain other (Function.update (idle regs) chip s) (frame self chip b)).1.get chip =
      (s.step other b).1 := by
    cases chip <;> simp [chain, frame, Packet.get, Packet.set]
  have hnext : (chain other (Function.update (idle regs) chip s) (frame self chip b)).2 =
      Function.update (idle regs) chip (s.step other b).2 := by
    funext c
    by_cases h : c = chip
    · subst h
      simp [chain, frame]
    · simp only [chain, frame, Packet.get_set_ne _ _ h, Function.update_of_ne h, Packet.get_zero]
      exact ChipState.step_nop (regs c)
  have hrun : Runs (chain other) (exchange (frame self chip b) : Spi Packet) self _ _ self _ :=
    Runs.exchange (frame self chip b) self (Function.update (idle regs) chip s)
  rw [hnext] at hrun
  refine (Runs.getVars self _).bind ?_
  simp only [hc]
  rw [← hgot]
  exact hrun.bind (Runs.pure _ _ _)

variable {host : Host}

theorem xferBytes_runs (nValue : ULong host) {n : ℕ} (hn : n ≤ 4) (out : ULong host)
    (s : ChipState) :
    Runs (chain other) (xferBytes host nValue n out) self (Function.update (idle regs) chip s)
      (assemble out (s.xfer other (bytesBelow nValue n)).1) self
      (Function.update (idle regs) chip (s.xfer other (bytesBelow nValue n)).2) := by
  induction n generalizing out s with
  | zero => exact Runs.pure _ _ _
  | succ k ih =>
    have hrest := ih (Nat.le_of_succ_le hn) (setByte out k (s.step other (byteAt nValue k)).1)
      (s.step other (byteAt nValue k)).2
    simp only [xferBytes, show k < 4 by omega, ↓reduceIte, bytesBelow, ChipState.xfer, assemble,
      ChipState.length_xfer, length_bytesBelow]
    exact (spiXfer_runs hc regs s _).bind hrest

end

-- ---------------------------------------------------------------------------
-- Programs for the selected chip
-- ---------------------------------------------------------------------------

/-- Between two commands the program returns `result` of the selected chip's
registers, of which it makes `next`. -/
def Does (m : Spi α) (result : Registers → α) (next : Registers → Registers) : Prop :=
  ∀ other self chip regs, packetIndex self.nPosition = some chip →
    Runs (chain other) m self (idle regs) (result (regs chip)) self
      (idle (Function.update regs chip (next (regs chip))))

namespace Does

variable {m : Spi α} {f : α → Spi β} {result : Registers → α} {next : Registers → Registers}

theorem pure (a : α) : Does (pure a) (fun _ => a) id := by
  intro other self chip regs _
  rw [id, Function.update_eq_self]
  exact Runs.pure _ _ _

theorem bind {result' : α → Registers → β} {next' : α → Registers → Registers}
    (hm : Does m result next) (hf : ∀ a, Does (f a) (result' a) (next' a)) :
    Does (m >>= f) (fun r => result' (result r) (next r)) (fun r => next' (result r) (next r)) := by
  intro other self chip regs hc
  have hnext := hf (result (regs chip)) other self chip
    (Function.update regs chip (next (regs chip))) hc
  rw [Function.update_self, Function.update_idem] at hnext
  exact (hm other self chip regs hc).bind hnext

theorem congr {result' : Registers → α} {next' : Registers → Registers} (hm : Does m result next)
    (hr : ∀ r, result r = result' r) (hn : ∀ r, next r = next' r) : Does m result' next' := by
  obtain rfl : result = result' := funext hr
  obtain rfl : next = next' := funext hn
  exact hm

theorem cons {n : Spi β} {w : Change} {ws : List Change} {b : β} (hm : Does m result (applyAll [w]))
    (hn : Does n (fun _ => b) (applyAll ws)) :
    Does (do let _ ← m; n) (fun _ => b) (applyAll (w :: ws)) :=
  hm.bind fun _ => hn

theorem forM {γ : Type} {op : γ → Spi Unit} {changes : γ → List Change}
    (h : ∀ c, Does (op c) (fun _ => ()) (applyAll (changes c))) (cs : List γ) :
    Does (cs.forM op) (fun _ => ()) (applyAll (cs.flatMap changes)) := by
  induction cs with
  | nil => exact pure ()
  | cons c cs ih =>
    refine ((h c).bind fun _ => ih).congr (fun _ => rfl) fun r => ?_
    rw [List.flatMap_cons, applyAll_append]

end Does

theorem idle_update (regs : Chip → Registers) (chip : Chip) (r : Registers) :
    idle (Function.update regs chip r) = Function.update (idle regs) chip ⟨none, r⟩ := by
  funext c
  by_cases h : c = chip
  · subst h
    simp [idle]
  · simp [idle, Function.update_of_ne h]

variable {host : Host}

theorem paramHandler_eq (param : ParamRegister) (value : ULong host) :
    paramHandler host param value = xferParam host (wireValue param value) param.len := by
  cases param <;> rfl

theorem byteLength_le (param : ParamRegister) : byteLength param.len ≤ 4 := by
  cases param <;> decide

theorem len_le (param : ParamRegister) : param.len ≤ 8 * byteLength param.len := by
  cases param <;> decide

theorem xferParam_runs {self : Motors} {chip : Chip} (hc : packetIndex self.nPosition = some chip)
    (other : ChipState → Byte → Byte) (regs : Chip → Registers) (opcode : Byte) (value : ULong host)
    (param : ParamRegister) (cmd : Command (argBytes .counted))
    (hcmd : cmd.bytes = opcode :: bytesBelow value (byteLength param.len)) :
    Runs (chain other) (do let _ ← spiXfer opcode; xferParam host value param.len) self (idle regs)
      (assemble 0 (((ChipState.step other ⟨none, regs chip⟩ opcode).2.xfer other
        (bytesBelow value (byteLength param.len))).1)) self
      (idle (Function.update regs chip (ChipState.execute (regs chip) cmd))) := by
  have hstart : idle regs = Function.update (idle regs) chip ⟨none, regs chip⟩ :=
    (Function.update_eq_self chip (idle regs)).symm
  have hend := @ChipState.xfer_command other (regs chip) cmd
  rw [hcmd, ChipState.xfer] at hend
  have hopcode := @spiXfer_runs other _ _ hc regs ⟨none, regs chip⟩ opcode
  have hvalue := @xferBytes_runs other _ _ hc regs host value _ (byteLength_le param) 0
    (ChipState.step other ⟨none, regs chip⟩ opcode).2
  rw [← hstart] at hopcode
  rw [hend, ← idle_update] at hvalue
  exact hopcode.bind hvalue

theorem setParam_does (param : ParamRegister) (value : ULong host) :
    Does (setParam host param value) (fun _ => ())
      (fun r => Function.update r param ((wireValue param value).setWidth param.len)) := by
  intro other self chip regs hc
  let cmd : Command (argBytes .counted) :=
    ⟨param.value ||| cmdSetParam,
      bytesBelow (wireValue param value) (byteLength param.len), by simp⟩
  have hrun :=
    xferParam_runs hc other regs (param.value ||| cmdSetParam) (wireValue param value) param
    cmd rfl
  rw [ChipState.execute_set _ rfl, stored_eq _ (len_le param)] at hrun
  have hassoc : setParam host param value = (do
      let _ ← (do
        let _ ← spiXfer (param.value ||| cmdSetParam)
        xferParam host (wireValue param value) param.len)
      pure ()) := by
    rw [bind_assoc, setParam, paramHandler_eq]
  rw [hassoc]
  exact hrun.bind (Runs.pure () _ _)

theorem getParam_does (param : ParamRegister) :
    Does (getParam host param) (fun r => (r param).setWidth host.longBits) id := by
  intro other self chip regs hc
  let cmd : Command (argBytes .counted) :=
    ⟨param.value ||| cmdGetParam, List.replicate (byteLength param.len) 0,
      by simp [argBytes_get_counted]⟩
  have hzero : bytesBelow (0 : ULong host) (byteLength param.len) = List.replicate _ 0 :=
    bytesBelow_zero _
  have hrun := xferParam_runs hc other regs (param.value ||| cmdGetParam) (0 : ULong host) param cmd
    (by rw [hzero]; rfl)
  have hanswers :
      ((ChipState.step other ⟨none, regs chip⟩ (param.value ||| cmdGetParam)).2.xfer other
      (bytesBelow (0 : ULong host) (byteLength param.len))).1 =
      bytesBelow (regs chip param) (byteLength param.len) := by
    rw [hzero, ChipState.step_get]
    exact ChipState.xfer_get _ _ rfl (by cases param <;> rfl)
  rw [hanswers, assemble_zero _ (len_le param), ChipState.execute_get _ rfl] at hrun
  rw [getParam, paramHandler_eq, wireValue_zero]
  exact hrun

end LineFollower
