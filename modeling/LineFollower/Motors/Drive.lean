import LineFollower.Motors.Opcodes

/-!
# Driving

`setSpeed` from the polls to the wheels: the loops end when each chip has
answered a read of STATUS with BUSY high, and then each chip gets one RUN, in
the direction of the sign and with the magnitude converted to the chip's unit
(`setSpeed_drives`).
-/

namespace LineFollower

open Lib Lib.Exchange

variable {host : Host}

-- ---------------------------------------------------------------------------
-- Polling
-- ---------------------------------------------------------------------------

def statusRead (self : Motors) (chip : Chip) (a b c : Packet) : Log :=
  [(frame self chip 0x39, a), (frame self chip 0, b), (frame self chip 0, c)]

/-- Reads of the chip's STATUS until one has BUSY high, in the low byte. -/
inductive Polls (self : Motors) (chip : Chip) : Log → Prop
  | idle (a b c : Packet) (h : (c.get chip).getLsbD 1 = true) :
      Polls self chip (statusRead self chip a b c)
  | busy (a b c : Packet) {log : Log} (h : (c.get chip).getLsbD 1 = false)
      (hrest : Polls self chip log) : Polls self chip (statusRead self chip a b c ++ log)

section
variable {self v : Motors} {chip : Chip} {as rest : List Packet} {log : Log}

theorem poll_ok (hc : packetIndex self.nPosition = some chip) {again : Bool} :
    (do return decide ((← busyCheck host) ≠ 0) : Spi Bool) self as = ⟨.ok again, v, rest, log⟩ ↔
      ∃ a b c, as = a :: b :: c :: rest ∧ v = self ∧ log = statusRead self chip a b c ∧
        again = !(c.get chip).getLsbD 1 := by
  have hturn (a b c : Packet) (rest : List Packet) :
      (do return decide ((← busyCheck host) ≠ 0) : Spi Bool) self (a :: b :: c :: rest) =
        ⟨.ok (!(c.get chip).getLsbD 1), self, rest, statusRead self chip a b c⟩ := by
    rw [bind_run, busyCheck_eq, bind_run, getParam_status_run hc]
    simp only [pure_run, busyFlag_statusWord]
    cases (c.get chip).getLsbD 1 <;> rfl
  constructor
  · intro h
    have hlen := (busyCheck_sends.map (fun z => decide (z ≠ 0)) self chip hc).length_rest h
    obtain ⟨a, b, c, as, rfl⟩ : ∃ a b c as', as = a :: b :: c :: as' := by
      match as, hlen with
      | a :: b :: c :: as', _ => exact ⟨a, b, c, as', rfl⟩
    rw [hturn] at h
    simp only [Outcome.mk.injEq, Except.ok.injEq] at h
    obtain ⟨rfl, rfl, rfl, rfl⟩ := h
    exact ⟨a, b, c, rfl, rfl, rfl, rfl⟩
  · rintro ⟨a, b, c, rfl, rfl, rfl, rfl⟩
    exact hturn a b c rest

theorem waitWhileBusy_ok (hc : packetIndex self.nPosition = some chip) :
    waitWhileBusy host self as = ⟨.ok (), v, rest, log⟩ ↔
      v = self ∧ as = log.map Prod.snd ++ rest ∧ Polls self chip log := by
  rw [waitWhileBusy, repeatWhile_ok busyCheck_consumes]
  constructor
  · intro h
    induction h with
    | last h =>
      obtain ⟨a, b, c, rfl, rfl, rfl, hbit⟩ := (poll_ok hc).mp h
      exact ⟨rfl, rfl, .idle a b c (by simpa using hbit.symm)⟩
    | next h _ ih =>
      obtain ⟨a, b, c, rfl, rfl, rfl, hbit⟩ := (poll_ok hc).mp h
      obtain ⟨rfl, rfl, hpolls⟩ := ih hc
      exact ⟨rfl, rfl, .busy a b c (by simpa using hbit.symm) hpolls⟩
  · rintro ⟨rfl, rfl, hpolls⟩
    induction hpolls with
    | idle a b c hbit => exact .last ((poll_ok hc).mpr ⟨a, b, c, rfl, rfl, rfl, by rw [hbit]; rfl⟩)
    | busy a b c hbit _ ih =>
      exact .next ((poll_ok hc).mpr ⟨a, b, c, rfl, rfl, rfl, by rw [hbit]; rfl⟩) ih

end

-- ---------------------------------------------------------------------------
-- RUN
-- ---------------------------------------------------------------------------

def transfers (self : Motors) (chip : Chip) (bs : List Byte) (as : List Packet) : Log :=
  (bs.map (frame self chip)).zip as

section
variable {self : Motors} {chip : Chip}

theorem sendBytes_run (hc : packetIndex self.nPosition = some chip) (integerSpeed : ULong host)
    {n : ℕ} {as : List Packet} (h : n ≤ as.length) :
    sendBytes host integerSpeed n self as =
      ⟨.ok (), self, as.drop n, transfers self chip (bytesBelow integerSpeed n) as⟩ := by
  induction n generalizing as with
  | zero => rfl
  | succ n ih =>
    cases as with
    | nil => simp at h
    | cons a as =>
      have hrest : sendBytes host integerSpeed n self as = _ := ih (Nat.le_of_succ_le_succ h)
      simp only [sendBytes, bind_run, spiXfer_cons hc, hrest]
      rfl

theorem run_run (hc : packetIndex self.nPosition = some chip) (dir : Direction) (stepsPerSec : ℚ)
    {as : List Packet} (h : 4 ≤ as.length) :
    run host dir stepsPerSec self as = ⟨.ok (), self, as.drop 4,
      transfers self chip ((cmdRun ||| dir.value) :: bytesBelow (runSpeed host stepsPerSec) 3)
        as⟩ := by
  cases as with
  | nil => simp at h
  | cons a as =>
    have hrest : sendBytes host (runSpeed host stepsPerSec) 3 self as = _ :=
      sendBytes_run hc _ (Nat.le_of_succ_le_succ h)
    rw [runSpeed] at hrest
    simp only [run, bind_run, spiXfer_cons hc, hrest]
    rfl

theorem wire_transfers {bs : List Byte} {as : List Packet} (h : bs.length ≤ as.length)
    (target : Chip) :
    wire chip (transfers self target bs as) =
      if chip = target then bs else List.replicate bs.length cmdNop := by
  apply wire_of_frames
  rw [transfers, List.map_fst_zip (by rwa [List.length_map])]

end

-- ---------------------------------------------------------------------------
-- The speed
-- ---------------------------------------------------------------------------

def speedField (speed : ℤ) : ℕ := min ⌊|(speed : ℚ)| * 67.106⌋₊ 0xFFFFF

theorem runSpeed_toNat {stepsPerSec : ℚ} (hl : 0 ≤ stepsPerSec) (hu : stepsPerSec ≤ 2 ^ 24) :
    (runSpeed host stepsPerSec).toNat = min ⌊stepsPerSec * 67.106⌋₊ 0xFFFFF := by
  have hpow : 2 ^ 32 ≤ 2 ^ host.longBits := Nat.pow_le_pow_right (by decide) host.le_longBits
  have hpos : 0 ≤ stepsPerSec * 67.106 := by positivity
  have htrunc : trunc (stepsPerSec * 67.106) = (⌊stepsPerSec * 67.106⌋₊ : ℤ) := by
    rw [trunc, if_pos hpos, Int.natCast_floor_eq_floor hpos]
  have hlt : ⌊stepsPerSec * 67.106⌋₊ < 2 ^ 32 := by
    rw [Nat.floor_lt hpos]
    norm_num
    linarith
  have htemp : (host.toUnsigned host.longBits (stepsPerSec * 67.106)).toNat =
      ⌊stepsPerSec * 67.106⌋₊ := by
    rw [host.toUnsigned_fits _ _ (by rw [htrunc]; positivity)
      (by rw [htrunc]; exact_mod_cast hlt.trans_le hpow), htrunc, BitVec.ofInt_natCast,
      BitVec.toNat_ofNat, Nat.mod_eq_of_lt (hlt.trans_le hpow)]
  have hbound : (0xFFFFF : ULong host).toNat = 0xFFFFF := by
    rw [BitVec.ofNat_eq_ofNat, BitVec.toNat_ofNat, Nat.mod_eq_of_lt (hpow.trans_lt' (by norm_num))]
  simp only [runSpeed, spdCalc, GT.gt, BitVec.lt_def, hbound]
  split
  · rw [ite_self, hbound]
    omega
  · omega

/-- RUN at a speed of either sign, the highest byte first. -/
def runCommand (reply : GetReply) (speed : ℤ) : Command (argBytes reply) :=
  ⟨cmdRun ||| (driveDirection speed).value,
    [BitVec.ofNat 8 (speedField speed / 2 ^ 16), BitVec.ofNat 8 (speedField speed / 2 ^ 8),
      BitVec.ofNat 8 (speedField speed)], by simp⟩

theorem runCommand_opcode (reply : GetReply) (speed : ℤ) :
    (runCommand reply speed).opcode ≠ cmdNop := by
  change cmdRun ||| (driveDirection speed).value ≠ cmdNop
  cases driveDirection speed <;> decide

theorem byteAt_eq {w : ℕ} (value : BitVec w) (k : ℕ) :
    byteAt value k = BitVec.ofNat 8 (value.toNat / 2 ^ (8 * k)) := by
  apply BitVec.eq_of_toNat_eq
  simp [byteAt, Nat.shiftRight_eq_div_pow]

theorem drive_eq (speed : ℤ) :
    drive host speed = run host (driveDirection speed) |(speed : ℚ)| := by
  unfold drive driveDirection
  split
  · rename_i hpos
    rw [abs_of_nonneg (Int.cast_nonneg hpos)]
  · rename_i hneg
    have hneg : (speed : ℚ) ≤ 0 := Int.cast_nonpos.mpr (by omega)
    rw [abs_of_nonpos hneg]
    congr 1
    push_cast
    rw [neg_one_mul]

def driveLog (self : Motors) (chip : Chip) (speed : ℤ) (as : List Packet) : Log :=
  transfers self chip (runCommand .counted speed).bytes as

theorem drive_run {self : Motors} {chip : Chip} (hc : packetIndex self.nPosition = some chip)
    {speed : ℤ} (hspeed : |speed| ≤ 2 ^ 24) {as : List Packet} (h : 4 ≤ as.length) :
    drive host speed self as = ⟨.ok (), self, as.drop 4, driveLog self chip speed as⟩ := by
  have hfits : |(speed : ℚ)| ≤ 2 ^ 24 := by exact_mod_cast hspeed
  have hfield : (runSpeed host |(speed : ℚ)|).toNat = speedField speed :=
    runSpeed_toNat (abs_nonneg _) hfits
  have hbytes : (cmdRun ||| (driveDirection speed).value) ::
      bytesBelow (runSpeed host |(speed : ℚ)|) 3 = (runCommand .counted speed).bytes := by
    simp only [bytesBelow, byteAt_eq, hfield, runCommand, Command.bytes, mul_zero, pow_zero,
      Nat.div_one]
  rw [drive_eq, run_run hc _ _ h, hbytes]
  rfl

-- ---------------------------------------------------------------------------
-- What the chips are told
-- ---------------------------------------------------------------------------

/-- The commands of a chip without the NOPs, which go with the other chip's. -/
def commands (reply : GetReply) (chip : Chip) (log : Log) : List (Command (argBytes reply)) :=
  (received reply chip log).1.filter fun cmd => cmd.opcode ≠ cmdNop

variable {reply : GetReply}

theorem commands_append {chip : Chip} {log : Log} (h : Idle reply chip log) (log' : Log) :
    commands reply chip (log ++ log') = commands reply chip log ++ commands reply chip log' := by
  rw [commands, received_append h, List.filter_append]
  rfl

theorem PollOpcode.eq_status {b : Byte} (h : PollOpcode b) (hb : b ≠ cmdNop) :
    b = ParamRegister.status.value ||| cmdGetParam := by
  cases h with
  | nop => exact absurd rfl hb
  | status => rfl

theorem commands_polls {self v : Motors} {as rest : List Packet} {log : Log}
    (h : leftThenRight (waitWhileBusy host) (waitWhileBusy host) self as = ⟨.ok (), v, rest, log⟩)
    {chip : Chip} {cmd : Command (argBytes reply)} (hcmd : cmd ∈ commands reply chip log) :
    cmd.opcode = ParamRegister.status.value ||| cmdGetParam := by
  obtain ⟨hmem, hnop⟩ := List.mem_filter.mp hcmd
  obtain ⟨hpolls, -⟩ := polls_opcodes h chip
  exact (hpolls _ (List.mem_map_of_mem hmem)).eq_status (of_decide_eq_true hnop)

theorem commands_drive {self : Motors} {target : Chip} {speed : ℤ} {as : List Packet}
    (h : 4 ≤ as.length) (chip : Chip) :
    commands reply chip (driveLog self target speed as) =
        (if chip = target then [runCommand reply speed] else []) ∧
      Idle reply chip (driveLog self target speed as) := by
  have hbytes : (runCommand .counted speed).bytes = (runCommand reply speed).bytes := rfl
  have hlen : (runCommand reply speed).bytes.length = 4 := rfl
  unfold commands Idle received driveLog
  rw [hbytes, wire_transfers (hlen ▸ h)]
  split
  · rw [decode_command]
    exact ⟨List.filter_cons_of_pos (decide_eq_true (runCommand_opcode reply speed)), rfl⟩
  · rw [decode_replicate cmdNop argBytes_nop]
    exact ⟨by simp [Command.bare], rfl⟩

-- ---------------------------------------------------------------------------
-- The whole operation
-- ---------------------------------------------------------------------------

/-- The transfers of a `setSpeed` that has returned: the polls, the RUN of the
left wheel, and then that of the right wheel. -/
structure Drives (self : Motors) (l r : ℤ) (polls toLeft toRight : Log) : Prop where
  waited : ∃ left right, polls = left ++ right ∧ Polls { self with nPosition := 0 } .left left ∧
    Polls { self with nPosition := 1 } .right right
  polled : ∀ (reply : GetReply) (chip : Chip), ∀ cmd ∈ commands reply chip polls,
    cmd.opcode = ParamRegister.status.value ||| cmdGetParam
  left : ∀ (reply : GetReply) (chip : Chip),
    commands reply chip toLeft = if chip = .left then [runCommand reply l] else []
  right : ∀ (reply : GetReply) (chip : Chip),
    commands reply chip toRight = if chip = .right then [runCommand reply r] else []
  whole : ∀ (reply : GetReply) (chip : Chip), Idle reply chip (polls ++ (toLeft ++ toRight)) ∧
    commands reply chip (polls ++ (toLeft ++ toRight)) =
      commands reply chip polls ++ (commands reply chip toLeft ++ commands reply chip toRight)

/-- Once the two loops have ended, and as long as the line answers, each chip is
told to run and nothing else. -/
theorem setSpeed_drives (host : Host) {l r : ℤ} (hl : |l| ≤ 2 ^ 24) (hr : |r| ≤ 2 ^ 24)
    {self v : Motors} {as as₁ : List Packet} {polls : Log}
    (hwait : leftThenRight (waitWhileBusy host) (waitWhileBusy host) self as =
      ⟨.ok (), v, as₁, polls⟩) (hanswers : 8 ≤ as₁.length) :
    ∃ toLeft toRight, Drives self l r polls toLeft toRight ∧
      setSpeed host l r self as =
        ⟨.ok (), { self with nPosition := 1 }, as₁.drop 8, polls ++ (toLeft ++ toRight)⟩ := by
  obtain ⟨v₁, as₂, left, right, hpollLeft, hpollRight, hpolls⟩ := leftThenRight_ok.mp hwait
  obtain ⟨rfl, -, hpl⟩ := (waitWhileBusy_ok packetIndex_left).mp hpollLeft
  obtain ⟨rfl, -, hpr⟩ := (waitWhileBusy_ok packetIndex_right).mp hpollRight
  have hrest : 4 ≤ (as₁.drop 4).length := by
    rw [List.length_drop]
    omega
  let toLeft : Log := driveLog { self with nPosition := 0 } .left l as₁
  let toRight : Log := driveLog { self with nPosition := 1 } .right r (as₁.drop 4)
  have htoLeft (reply : GetReply) (chip : Chip) : commands reply chip toLeft = _ ∧ _ :=
    commands_drive (by omega) chip
  have htoRight (reply : GetReply) (chip : Chip) : commands reply chip toRight = _ ∧ _ :=
    commands_drive hrest chip
  refine ⟨toLeft, toRight, ⟨⟨left, right, hpolls, hpl, hpr⟩, ?_, ?_, ?_, ?_⟩, ?_⟩
  · intro reply chip cmd hcmd
    exact commands_polls hwait hcmd
  · intro reply chip
    exact (htoLeft reply chip).1
  · intro reply chip
    exact (htoRight reply chip).1
  · intro reply chip
    obtain ⟨-, hidle⟩ : _ ∧ Idle reply chip polls := polls_opcodes hwait chip
    have hi := received_append_idle hidle (toLeft ++ toRight)
    have hi' := received_append_idle (htoLeft reply chip).2 toRight
    refine ⟨hi.2.mpr (hi'.2.mpr (htoRight reply chip).2), ?_⟩
    rw [commands_append hidle, commands_append (htoLeft reply chip).2]
  · have hruns : leftThenRight (drive host l) (drive host r)
        { self with nPosition := 1 } as₁ =
          ⟨.ok (), { self with nPosition := 1 }, (as₁.drop 4).drop 4, toLeft ++ toRight⟩ :=
      leftThenRight_ok.mpr ⟨_, _, _, _, drive_run packetIndex_left hl (by omega),
        drive_run packetIndex_right hr hrest, rfl⟩
    rw [List.drop_drop] at hruns
    rw [setSpeed_eq]
    exact bind_ok.mpr ⟨_, _, _, _, _, hwait, hruns, rfl⟩

theorem setSpeed_drives_atRest :
    ∃ polls toLeft toRight, Drives ⟨0, 1, true, true⟩ 20 (-20) polls toLeft toRight ∧
      setSpeed .lp64 20 (-20) ⟨0, 1, true, true⟩ (atRest 14) =
        ⟨.ok (), ⟨0, 1, true, true⟩, [], polls ++ (toLeft ++ toRight)⟩ := by
  obtain ⟨v, polls, hwait⟩ : ∃ v polls, leftThenRight (waitWhileBusy .lp64) (waitWhileBusy .lp64)
      ⟨0, 1, true, true⟩ (atRest 14) = ⟨.ok (), v, atRest 8, polls⟩ := polls_atRest _ 8
  exact ⟨polls, setSpeed_drives .lp64 (by norm_num) (by norm_num) hwait (by decide)⟩

end LineFollower
