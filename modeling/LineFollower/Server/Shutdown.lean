import LineFollower.Lib.Transition
import LineFollower.Motors.Opcodes
import LineFollower.Server.Loop

/-!
# How a run of main ends

`main` as a machine over the board, the frames of the camera, SIGINT and the
exceptions of OpenCV. A board operation may not have returned when the
streamer thread throws; SIGINT comes between two operations or iterations, neither
inside of an operation nor between `pushFrame` and `setSpeed`. An exception ends
the process without a destructor.

The chips go on executing their last motion command. It is a stop when the
loop breaks or SIGINT arrives, and never after an exception in the loop or the
streamer (`shutdown_stopped`).
-/

namespace LineFollower

open Lib Lib.Exchange

inductive Ending
  | noImageData
  | sigint
  | notOpened
  /-- With whether the destructor or the handler was running. -/
  | cvException (stopping : Bool)
  deriving DecidableEq, Repr

inductive Phase
  | constructing
  | configured
  | waiting
  | looping (method : ℤ)
  /-- Inside an operation that has not returned. -/
  | operating
  /-- Inside the destructor or the handler. -/
  | stopping
  | ended (e : Ending)
  deriving DecidableEq, Repr

structure Process (Mat : Type) where
  phase : Phase
  board : Motors
  log : Log
  finders : Finders Mat
  /-- The streamer has a frame to encode. -/
  pushed : Bool
  /-- The calls of `setSpeed` that have returned. -/
  driven : Nat

inductive ProcessEvent (Mat : Type)
  | setUp (as : List Packet)
  | resetPosition (as : List Packet)
  | start (method : ℤ)
  | notOpened
  | frame (src : Mat) (as : List Packet)
  /-- `clipCapture.read` throws. -/
  | readThrows
  | sigint (as : List Packet)
  /-- `imencode` throws in the streamer thread. -/
  | streamerThrows

namespace Process

variable {Mat : Type}

/-- Runs a board operation: `done` is for when it returns, `cut` the phase for
when it does not on these answers. -/
def operate (s : Process Mat) (op : Spi Unit) (as : List Packet) (done : Process Mat → Process Mat)
    (cut : Phase) : Option (Process Mat) :=
  let o := op s.board as
  let s := { s with board := o.vars, log := s.log ++ o.log }
  match o.result with
  | .ok _ => some (done s)
  | .error .pending => some { s with phase := cut }
  | .error (.fault _) => none

variable (cv : OpenCv Mat) (host : Host) (nSpiChipSelect : Byte)

def readFrame (s : Process Mat) (method : ℤ) (src : Mat) (as : List Packet) :
    Option (Process Mat) :=
  if noImage cv src then
    s.operate delete as (fun s => { s with phase := .ended .noImageData }) .stopping
  else
    match iteration cv host method s.finders src with
    | .error (.cvException _) => some { s with phase := .ended (.cvException false) }
    -- Undefined behaviour has no step.
    | .error _ => none
    | .ok (finders, _, none) => some { s with finders, pushed := true }
    | .ok (finders, _, some (speedLeft, speedRight)) =>
      operate { s with finders, pushed := true } (setSpeed host speedLeft speedRight) as
        (fun s => { s with driven := s.driven + 1 }) .operating

def step (s : Process Mat) : ProcessEvent Mat → Option (Process Mat)
  | .setUp as =>
    match s.phase with
    | .constructing =>
      s.operate (do new host nSpiChipSelect; setUp host) as
        (fun s => { s with phase := .configured }) .operating
    | _ => none
  | .resetPosition as =>
    match s.phase with
    | .configured =>
      s.operate LineFollower.resetPosition as (fun s => { s with phase := .waiting }) .operating
    | _ => none
  | .start method =>
    match s.phase with
    | .waiting => some { s with phase := .looping method }
    | _ => none
  | .notOpened =>
    match s.phase with
    | .waiting => some { s with phase := .ended .notOpened }
    | _ => none
  | .frame src as =>
    match s.phase with
    | .looping method => s.readFrame cv host method src as
    | _ => none
  | .readThrows =>
    match s.phase with
    | .looping _ => some { s with phase := .ended (.cvException false) }
    | _ => none
  | .sigint as =>
    match s.phase with
    | .configured | .waiting | .looping _ =>
      s.operate (stop host) as (fun s => { s with phase := .ended .sigint }) .stopping
    | _ => none
  | .streamerThrows =>
    if s.pushed then
      match s.phase with
      | .looping _ | .operating => some { s with phase := .ended (.cvException false) }
      | .stopping => some { s with phase := .ended (.cvException true) }
      | _ => none
    else none

/-- The board's memory before its constructor is `self`. -/
def machine (self : Motors) : Machine (Process Mat) (ProcessEvent Mat) where
  init := ⟨.constructing, self, [], .new cv, false, 0⟩
  step := step cv host nSpiChipSelect

variable {cv host nSpiChipSelect}

theorem operate_cases {s s' : Process Mat} {op : Spi Unit} {as : List Packet}
    {done : Process Mat → Process Mat} {cut : Phase} (h : s.operate op as done cut = some s') :
    ∃ v rest l,
      (op s.board as = ⟨.ok (), v, rest, l⟩ ∧ s' = done { s with board := v, log := s.log ++ l }) ∨
      (op s.board as = ⟨.error .pending, v, rest, l⟩ ∧
        s' = { s with phase := cut, board := v, log := s.log ++ l }) := by
  unfold operate at h
  generalize op s.board as = o at h ⊢
  obtain ⟨result, v, rest, l⟩ := o
  refine ⟨v, rest, l, ?_⟩
  cases result with
  | ok u => exact .inl ⟨rfl, (Option.some.inj h).symm⟩
  | error stop =>
    cases stop with
    | pending => exact .inr ⟨rfl, (Option.some.inj h).symm⟩
    | fault e => cases h

-- ---------------------------------------------------------------------------
-- What the chips have been told
-- ---------------------------------------------------------------------------

variable {reply : GetReply}

def LastRun (reply : GetReply) (log : Log) : Prop :=
  ∀ chip, ∃ dir : Direction, lastMotion (opcodes reply chip log) = some (cmdRun ||| dir.value)

def Stopped (reply : GetReply) (log : Log) : Prop :=
  ∀ chip, ∃ b, lastMotion (opcodes reply chip log) = some b ∧ (b = cmdHardStop ∨ b = cmdHardHiZ)

def NoStop (reply : GetReply) (log : Log) : Prop :=
  ∀ chip, ∀ b ∈ opcodes reply chip log, DriveOpcode b

theorem NoStop.not_stopped {log : Log} (h : NoStop reply log) : ¬ Stopped reply log := by
  intro hstopped
  obtain ⟨b, hlast, hb⟩ := hstopped .left
  obtain ⟨dir, rfl⟩ := lastMotion_drive (h .left) hlast
  rcases hb with hb | hb <;> cases dir <;> exact absurd hb (by decide)

theorem noStop_of_cut {log : Log} (h : (daisyChain reply DriveOpcode).cut log) :
    NoStop reply log := by
  intro chip b hb
  obtain ⟨cmd, hcmd, rfl⟩ := List.mem_map.mp hb
  exact h.2 chip cmd hcmd

theorem cut_of_full {log : Log} (h : (daisyChain reply DriveOpcode).full log) :
    (daisyChain reply DriveOpcode).cut log :=
  ⟨h.1, fun chip => (h.2 chip).2⟩

theorem LastRun.append {log log' : Log} (h : LastRun reply log)
    (hidle : ∀ chip, Idle reply chip log)
    (hlog' : NoStop reply log') : LastRun reply (log ++ log') := by
  intro chip
  rw [(received_append_idle (hidle chip) log').1, lastMotion_append]
  cases hlast : lastMotion (opcodes reply chip log') with
  | none => exact h chip
  | some b =>
    obtain ⟨dir, rfl⟩ := lastMotion_drive (hlog' chip) hlast
    exact ⟨dir, rfl⟩

theorem stopped_append {log log' : Log} {b : Byte} (hidle : ∀ chip, Idle reply chip log)
    (hb : b = cmdHardStop ∨ b = cmdHardHiZ)
    (hlast : ∀ chip, lastMotion (opcodes reply chip log') = some b) :
    Stopped reply (log ++ log') := by
  intro chip
  refine ⟨b, ?_, hb⟩
  rw [(received_append_idle (hidle chip) log').1, lastMotion_append, hlast chip]
  rfl

theorem lastRun_setSpeed {l r : ℤ} {self v : Motors} {as rest : List Packet} {log log' : Log}
    (hidle : ∀ chip, Idle reply chip log)
    (h : setSpeed host l r self as = ⟨.ok (), v, rest, log'⟩) : LastRun reply (log ++ log') := by
  intro chip
  obtain ⟨-, polls, -, hops⟩ := setSpeed_opcodes h chip
  obtain ⟨dir, hrun⟩ := lastMotion_runs l r chip
  refine ⟨dir, ?_⟩
  rw [(received_append_idle (hidle chip) log').1, hops, lastMotion_append, lastMotion_append, hrun]
  rfl

-- ---------------------------------------------------------------------------
-- The invariant
-- ---------------------------------------------------------------------------

/-- No chip has been told to stop, and one that has been driven still runs. -/
structure Running (reply : GetReply) (s : Process Mat) : Prop where
  noStop : NoStop reply s.log
  lastRun : 0 < s.driven → LastRun reply s.log

structure Between (reply : GetReply) (s : Process Mat) : Prop where
  position : s.board.nPosition = 0 ∨ s.board.nPosition = 1
  full : (daisyChain reply DriveOpcode).full s.log
  lastRun : 0 < s.driven → LastRun reply s.log

theorem Between.idle {s : Process Mat} (h : Between reply s) (chip : Chip) :
    Idle reply chip s.log :=
  (h.full.2 chip).1

theorem Between.running {s : Process Mat} (h : Between reply s) : Running reply s :=
  ⟨noStop_of_cut (cut_of_full h.full), h.lastRun⟩

/-- What is known in each phase. -/
def Inv (reply : GetReply) (s : Process Mat) : Prop :=
  match s.phase with
  | .constructing => s.log = [] ∧ s.driven = 0
  | .configured | .waiting | .looping _ => Between reply s
  | .operating | .ended .notOpened | .ended (.cvException false) => Running reply s
  | .ended .noImageData | .ended .sigint => Stopped reply s.log
  | .stopping | .ended (.cvException true) => True

theorem Between.returned {s : Process Mat} (h : Between reply s) {op : Spi Unit}
    {as rest : List Packet}
    {v : Motors} {l : Log} (hop : (daisyChain reply DriveOpcode).Follows op)
    (ho : op s.board as = ⟨.ok (), v, rest, l⟩) :
    Between reply { s with board := v, log := s.log ++ l } := by
  obtain ⟨hv, hfull⟩ := hop.ok h.position ho
  refine ⟨hv, (daisyChain reply DriveOpcode).full_append h.full hfull, fun hpos => ?_⟩
  exact (h.lastRun hpos).append h.idle (noStop_of_cut (cut_of_full hfull))

theorem Between.cut {s : Process Mat} (h : Between reply s) {op : Spi Unit} {as rest : List Packet}
    {v : Motors} {l : Log} (hop : (daisyChain reply DriveOpcode).Follows op)
    (ho : op s.board as = ⟨.error .pending, v, rest, l⟩) :
    Running reply { s with phase := .operating, board := v, log := s.log ++ l } := by
  have hcut : (daisyChain reply DriveOpcode).cut l := by
    have hmeets := hop s.board as h.position
    rw [ho] at hmeets
    exact hmeets
  refine ⟨noStop_of_cut ((daisyChain reply DriveOpcode).cut_append h.full hcut), fun hpos => ?_⟩
  exact (h.lastRun hpos).append h.idle (noStop_of_cut hcut)

-- ---------------------------------------------------------------------------
-- Steps and runs
-- ---------------------------------------------------------------------------

theorem setUp_follows_drive :
    (daisyChain reply DriveOpcode).Follows (do new host nSpiChipSelect; setUp host) :=
  (new_follows .nop .get nSpiChipSelect).seq (setUp_follows .nop .get .set)

theorem inv_setUp {s s' : Process Mat} {as : List Packet} (hlog : s.log = [])
    (hdriven : s.driven = 0)
    (h : s.operate (do new host nSpiChipSelect; setUp host) as
      (fun s => { s with phase := .configured }) .operating = some s') : Inv reply s' := by
  have hbetween : Between reply { s with board := ⟨nSpiChipSelect, 0, false, false⟩ } := by
    refine ⟨.inl rfl, ?_, fun hpos => ?_⟩
    · rw [hlog]
      exact (daisyChain reply DriveOpcode).full_nil
    · rw [hdriven] at hpos
      exact absurd hpos (lt_irrefl 0)
  obtain ⟨v, rest, l, ⟨ho, rfl⟩ | ⟨ho, rfl⟩⟩ := operate_cases h
  · have hret := hbetween.returned setUp_follows_drive ho
    exact ⟨hret.position, hret.full, hret.lastRun⟩
  · exact hbetween.cut setUp_follows_drive ho

theorem inv_resetPosition {s s' : Process Mat} {as : List Packet} (hs : Between reply s)
    (h : s.operate LineFollower.resetPosition as (fun s => { s with phase := .waiting })
      .operating =
      some s') : Inv reply s' := by
  have hreset : (daisyChain reply DriveOpcode).Follows LineFollower.resetPosition :=
    resetPosition_follows .nop .resetPos
  obtain ⟨v, rest, l, ⟨ho, rfl⟩ | ⟨ho, rfl⟩⟩ := operate_cases h
  · have hret := hs.returned hreset ho
    exact ⟨hret.position, hret.full, hret.lastRun⟩
  · exact hs.cut hreset ho

theorem inv_setSpeed {s s' : Process Mat} {method l r : ℤ} {as : List Packet} (hs : Between reply s)
    (hphase : s.phase = .looping method)
    (h : s.operate (setSpeed host l r) as (fun s => { s with driven := s.driven + 1 }) .operating =
      some s') : Inv reply s' := by
  have hspeed : (daisyChain reply DriveOpcode).Follows (setSpeed host l r) :=
    setSpeed_follows .nop (.get _) .run l r
  obtain ⟨v, rest, l', ⟨ho, rfl⟩ | ⟨ho, rfl⟩⟩ := operate_cases h
  · have hret := hs.returned hspeed ho
    have hbetween : Between reply
        { s with board := v, log := s.log ++ l', driven := s.driven + 1 } :=
      ⟨hret.position, hret.full, fun _ => lastRun_setSpeed hs.idle ho⟩
    simpa only [Inv, hphase] using hbetween
  · exact hs.cut hspeed ho

theorem inv_delete {s s' : Process Mat} {as : List Packet} (hs : Between reply s)
    (h : s.operate delete as (fun s => { s with phase := .ended .noImageData }) .stopping =
      some s') :
    Inv reply s' := by
  obtain ⟨v, rest, l, ⟨ho, rfl⟩ | ⟨-, rfl⟩⟩ := operate_cases h
  · apply stopped_append hs.idle (.inl rfl)
    intro chip
    obtain ⟨first, hops⟩ := delete_opcodes hs.position ho chip
    rw [hops, lastMotion_append, lastMotion_hardStop]
    rfl
  · exact trivial

theorem inv_sigint {s s' : Process Mat} {as : List Packet} (hs : Between reply s)
    (h : s.operate (stop host) as (fun s => { s with phase := .ended .sigint }) .stopping =
      some s') :
    Inv reply s' := by
  obtain ⟨v, rest, l, ⟨ho, rfl⟩ | ⟨-, rfl⟩⟩ := operate_cases h
  · apply stopped_append hs.idle (.inr rfl)
    intro chip
    obtain ⟨-, polls, -, hops⟩ := stop_opcodes ho chip
    rw [hops, lastMotion_append, lastMotion_hardHiZ]
    rfl
  · exact trivial

theorem inv_readFrame {s s' : Process Mat} {method : ℤ} {src : Mat} {as : List Packet}
    (hs : Between reply s) (hphase : s.phase = .looping method)
    (h : s.readFrame cv host method src as = some s') : Inv reply s' := by
  unfold readFrame at h
  split at h
  · exact inv_delete hs h
  · split at h
    · obtain rfl := Option.some.inj h
      exact ⟨hs.running.noStop, hs.lastRun⟩
    · cases h
    · rename_i finders frame _
      obtain rfl := Option.some.inj h
      have hbetween : Between reply { s with finders, pushed := true } :=
        ⟨hs.position, hs.full, hs.lastRun⟩
      simpa only [Inv, hphase] using hbetween
    · rename_i finders frame l r _
      have hbetween : Between reply { s with finders, pushed := true } :=
        ⟨hs.position, hs.full, hs.lastRun⟩
      exact inv_setSpeed hbetween hphase h

theorem Inv.step {s s' : Process Mat} {e : ProcessEvent Mat} (h : Inv reply s)
    (hs : s.step cv host nSpiChipSelect e = some s') : Inv reply s' := by
  cases e with
  | setUp as =>
    simp only [Process.step] at hs
    split at hs
    · rename_i hphase
      simp only [Inv, hphase] at h
      exact inv_setUp h.1 h.2 hs
    · cases hs
  | resetPosition as =>
    simp only [Process.step] at hs
    split at hs
    · rename_i hphase
      simp only [Inv, hphase] at h
      exact inv_resetPosition h hs
    · cases hs
  | start method =>
    simp only [Process.step] at hs
    split at hs
    · rename_i hphase
      simp only [Inv, hphase] at h
      obtain rfl := Option.some.inj hs
      exact ⟨h.position, h.full, h.lastRun⟩
    · cases hs
  | notOpened =>
    simp only [Process.step] at hs
    split at hs
    · rename_i hphase
      simp only [Inv, hphase] at h
      obtain rfl := Option.some.inj hs
      exact ⟨h.running.noStop, h.lastRun⟩
    · cases hs
  | frame src as =>
    simp only [Process.step] at hs
    split at hs
    · rename_i method hphase
      simp only [Inv, hphase] at h
      exact inv_readFrame h hphase hs
    · cases hs
  | readThrows =>
    simp only [Process.step] at hs
    split at hs
    · rename_i method hphase
      simp only [Inv, hphase] at h
      obtain rfl := Option.some.inj hs
      exact ⟨h.running.noStop, h.lastRun⟩
    · cases hs
  | sigint as =>
    simp only [Process.step] at hs
    split at hs
    · rename_i hphase
      simp only [Inv, hphase] at h
      exact inv_sigint h hs
    · rename_i hphase
      simp only [Inv, hphase] at h
      exact inv_sigint h hs
    · rename_i method hphase
      simp only [Inv, hphase] at h
      exact inv_sigint h hs
    · cases hs
  | streamerThrows =>
    simp only [Process.step, Option.ite_none_right_eq_some] at hs
    obtain ⟨-, hs⟩ := hs
    split at hs
    · rename_i method hphase
      simp only [Inv, hphase] at h
      obtain rfl := Option.some.inj hs
      exact ⟨h.running.noStop, h.lastRun⟩
    · rename_i hphase
      simp only [Inv, hphase] at h
      obtain rfl := Option.some.inj hs
      exact ⟨h.noStop, h.lastRun⟩
    · obtain rfl := Option.some.inj hs
      exact trivial
    · cases hs

theorem inv_of_reachable {self : Motors} {s : Process Mat}
    (h : (machine cv host nSpiChipSelect self).Reachable s) : Inv reply s := by
  apply h.invariant ⟨rfl, rfl⟩
  intro _ _ _ hi _ hs
  exact hi.step hs

/-- A run that ends by the break or by SIGINT leaves both motors stopped. An
exception that finds no stop under way leaves them as they were: not stopped,
and running once `setSpeed` has been called. -/
theorem shutdown_stopped {Mat : Type} {cv : OpenCv Mat} {host : Host} {nSpiChipSelect : Byte}
    {self : Motors} {s : Process Mat} {e : Ending} (reply : GetReply)
    (h : (machine cv host nSpiChipSelect self).Reachable s) (hend : s.phase = .ended e) :
    (e = .noImageData ∨ e = .sigint → Stopped reply s.log) ∧
      (e = .cvException false → ¬ Stopped reply s.log ∧ (0 < s.driven → LastRun reply s.log)) := by
  have hinv : Inv reply s := inv_of_reachable h
  refine ⟨?_, ?_⟩
  · rintro (rfl | rfl)
    · simpa only [Inv, hend] using hinv
    · simpa only [Inv, hend] using hinv
  · rintro rfl
    simp only [Inv, hend] at hinv
    exact ⟨hinv.noStop.not_stopped, hinv.lastRun⟩

/-- Answers enough for every operation, with the BUSY bit set in all. -/
def resting : List Packet := atRest 400

/-- A run to the first `setSpeed`, on a black frame, and then `last`. -/
def firstDrive (last : ProcessEvent UniformMat) : Option (Process UniformMat) :=
  (machine .uniform .lp64 0 ⟨0, 0, false, false⟩).run
  (machine .uniform .lp64 0 ⟨0, 0, false, false⟩).init
    [.setUp resting, .resetPosition resting, .start 1, .frame ⟨480, 640, 0⟩ resting, last]

theorem shutdown_stopped_break :
    ∃ s, firstDrive (.frame ⟨0, 0, 0⟩ resting) = some s ∧ s.phase = .ended .noImageData ∧
      (Ending.noImageData = .noImageData ∨ Ending.noImageData = .sigint → Stopped .counted s.log) ∧
      (Ending.noImageData = .cvException false →
        ¬ Stopped .counted s.log ∧ (0 < s.driven → LastRun .counted s.log)) := by
  have hrun : (firstDrive (.frame ⟨0, 0, 0⟩ resting)).map phase = some (.ended .noImageData) := by
    decide +kernel
  obtain ⟨s, hs, hend⟩ := Option.map_eq_some_iff.mp hrun
  exact ⟨s, hs, hend, shutdown_stopped .counted (Machine.reachable_of_run hs) hend⟩

/-- `imencode` throws after the first `setSpeed`: the last command of both
chips is its RUN. -/
theorem shutdown_exception :
    ∃ s, firstDrive .streamerThrows = some s ∧ s.phase = .ended (.cvException false) ∧
      (∀ chip, lastMotion (opcodes .counted chip s.log) = some cmdRun) ∧
        ¬ Stopped .counted s.log := by
  have hrun : (firstDrive .streamerThrows).map (fun s =>
      (s.phase, lastMotion (opcodes .counted .left s.log),
        lastMotion (opcodes .counted .right s.log))) =
        some (.ended (.cvException false), some cmdRun, some cmdRun) := by
    decide +kernel
  obtain ⟨s, hs, h⟩ := Option.map_eq_some_iff.mp hrun
  obtain ⟨hend, hlast⟩ := Prod.mk.inj h
  obtain ⟨hleft, hright⟩ := Prod.mk.inj hlast
  have hrunning : ∀ chip, lastMotion (opcodes .counted chip s.log) = some cmdRun := by
    rintro (_ | _)
    · exact hleft
    · exact hright
  refine ⟨s, hs, hend, hrunning, fun hstopped => ?_⟩
  obtain ⟨b, hb, hstop⟩ := hstopped .left
  obtain rfl := Option.some.inj ((hrunning .left).symm.trans hb)
  exact absurd hstop (by decide)

end Process

end LineFollower
