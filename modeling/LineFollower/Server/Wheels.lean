import LineFollower.Motors.Motions
import LineFollower.Server.Shutdown

/-!
# From the camera to the wheels

A run of `main` as a list of events, and what it tells the chips. The speeds of
a frame depend on that frame alone, whatever the finders have seen before
(`frameSpeeds`). SIGINT comes between two operations or iterations, as everywhere
in the machine. At every instant of such a run the motion commands that a chip has
decoded are the RUNs of the frames so far, in their order, and then those of the
operation that ends the run (`main_motions`). While an operation is under way at
most its own command is missing.
-/

namespace LineFollower

open Lib Lib.Exchange

variable {Mat : Type}

-- ---------------------------------------------------------------------------
-- One frame
-- ---------------------------------------------------------------------------

def frameSpeeds (cv : OpenCv Mat) (src : Mat) : Option (ℤ × ℤ) :=
  match followContour cv (Finders.new cv).contourFinder src with
  | .ok (_, _, speeds) => some speeds
  | .error _ => none

variable {cv : OpenCv Mat} {host : Host}

theorem followContour_fresh {finder : ContourFinding Mat} (h : Configured finder) (src : Mat) :
    followContour cv finder src = followContour cv (Finders.new cv).contourFinder src := by
  rw [followContour_eq, followContour_eq, loaded_eq h, loaded_eq configured_new]

def methodSpeeds (cv : OpenCv Mat) (method : ℤ) (src : Mat) : Option (ℤ × ℤ) :=
  if method = 1 then frameSpeeds cv src else none

theorem iteration_ok {method : ℤ} {finders finders' : Finders Mat} {src frame : Mat}
    {speeds : Option (ℤ × ℤ)} (hconf : Configured finders.contourFinder)
    (h : iteration cv host method finders src = .ok (finders', frame, speeds)) :
    Configured finders'.contourFinder ∧ methodSpeeds cv method src = speeds := by
  by_cases hmethod : method = 1
  · subst hmethod
    refine ⟨iteration_configured hconf h, ?_⟩
    rw [iteration_one, followContour_fresh hconf] at h
    obtain ⟨⟨finder, frame', lr⟩, hfollow, h⟩ := except_bind_ok.mp h
    obtain ⟨-, -, rfl⟩ : _ ∧ _ ∧ some lr = speeds := by simpa using Except.ok.inj h
    simp only [methodSpeeds, frameSpeeds, hfollow, ↓reduceIte]
  · rw [iteration, if_neg hmethod] at h
    obtain ⟨⟨finder, frame'⟩, -, h⟩ := except_bind_ok.mp h
    obtain ⟨rfl, -, rfl⟩ : { finders with centerFinder := finder } = finders' ∧ _ ∧ none =
        speeds := by
      simpa using Except.ok.inj h
    exact ⟨hconf, if_neg hmethod⟩

theorem iteration_error {method : ℤ} {finders : Finders Mat} {src : Mat} {f : Fault}
    (hconf : Configured finders.contourFinder)
    (h : iteration cv host method finders src = .error f) : methodSpeeds cv method src = none := by
  by_cases hmethod : method = 1
  · subst hmethod
    rw [iteration_one, followContour_fresh hconf] at h
    rcases except_bind_error.mp h with hfollow | ⟨_, -, h⟩
    · simp only [methodSpeeds, frameSpeeds, hfollow, ↓reduceIte]
    · cases h
  · exact if_neg hmethod

theorem frameSpeeds_cases {src : Mat} {l r : ℤ} (h : frameSpeeds cv src = some (l, r)) :
    ∃ u, 0 ≤ u ∧ u ≤ 40 ∧ l = u - 20 ∧ r = -u - 20 := by
  unfold frameSpeeds at h
  split at h
  · rename_i finder frame speeds hfollow
    rw [followContour_eq] at hfollow
    simp only [except_bind_ok] at hfollow
    obtain ⟨bin, -, ⟨centers, found⟩, -, _, -, first, -, hfollow⟩ := hfollow
    obtain ⟨-, -, rfl⟩ : _ ∧ _ ∧ commandedSpeeds (cv.cols found.sourceFrame) first.x = speeds := by
      simpa using Except.ok.inj hfollow
    refine ⟨max 0 (min 40 (roundAway ((center (cv.cols found.sourceFrame) - first.x : ℤ) *
      (1 + 1 / 200000) : ℚ))), le_max_left _ _, max_le (by norm_num) (min_le_left _ _), ?_⟩
    simp only [commandedSpeeds, speeds, mainPid_first, Option.some.injEq, Prod.mk.injEq] at h
    omega
  · cases h

theorem methodSpeeds_small {method : ℤ} {src : Mat} {l r : ℤ}
    (h : methodSpeeds cv method src = some (l, r)) : |l| ≤ 2 ^ 24 ∧ |r| ≤ 2 ^ 24 := by
  unfold methodSpeeds at h
  split at h
  · obtain ⟨u, hlow, hhigh, rfl, rfl⟩ := frameSpeeds_cases h
    rw [abs_le, abs_le]
    omega
  · cases h

-- ---------------------------------------------------------------------------
-- Events
-- ---------------------------------------------------------------------------

namespace ProcessEvent

def speeds (cv : OpenCv Mat) : ProcessEvent Mat → Option (ℤ × ℤ)
  | .frame src _ => if noImage cv src then none else frameSpeeds cv src
  | _ => none

def method : ProcessEvent Mat → Option ℤ
  | .start method => some method
  | _ => none

end ProcessEvent

/-- The speeds of the frames of a run with method 1, in their order. -/
def commanded (cv : OpenCv Mat) : List (ProcessEvent Mat) → List (ℤ × ℤ)
  | [] => []
  | .start method :: es => if method = 1 then es.filterMap (·.speeds cv) else []
  | _ :: es => commanded cv es

theorem method_append_singleton (es : List (ProcessEvent Mat)) (e : ProcessEvent Mat) :
    (es ++ [e]).findSome? (·.method) = (es.findSome? (·.method)).or e.method := by
  rw [List.findSome?_append]
  cases e <;> rfl

theorem commanded_cons {e : ProcessEvent Mat} (h : e.method = none) (es : List (ProcessEvent Mat)) :
    commanded cv (e :: es) = commanded cv es := by
  cases e with
  | start method => cases h
  | _ => rfl

theorem commanded_unstarted {es : List (ProcessEvent Mat)} (h : es.findSome? (·.method) = none)
    (es' : List (ProcessEvent Mat)) : commanded cv (es ++ es') = commanded cv es' := by
  induction es with
  | nil => rfl
  | cons first es ih =>
    cases hfirst : first.method with
    | some method => simp [hfirst] at h
    | none =>
      rw [List.cons_append, commanded_cons hfirst]
      exact ih (by simpa [List.findSome?_cons, hfirst] using h)

theorem commanded_started {es : List (ProcessEvent Mat)} {method : ℤ}
    (h : es.findSome? (·.method) = some method) (e : ProcessEvent Mat) :
    commanded cv (es ++ [e]) =
      commanded cv es ++ (if method = 1 then e.speeds cv else none).toList := by
  induction es with
  | nil => cases h
  | cons first es ih =>
    cases hfirst : first.method with
    | none =>
      rw [List.cons_append, commanded_cons hfirst, commanded_cons hfirst]
      exact ih (by simpa [List.findSome?_cons, hfirst] using h)
    | some m =>
      obtain rfl : m = method := by simpa [List.findSome?_cons, hfirst] using h
      cases first with
      | start m =>
        obtain rfl := Option.some.inj hfirst
        simp only [List.cons_append, commanded, List.filterMap_append]
        split
        · congr 1
        · rfl
      | _ => cases hfirst

theorem commanded_start {es : List (ProcessEvent Mat)} (h : es.findSome? (·.method) = none)
    (m : ℤ) :
    commanded cv (es ++ [.start m]) = [] := by
  rw [commanded_unstarted h]
  exact ite_self _

theorem commanded_silent {e : ProcessEvent Mat} (hmethod : e.method = none)
    (hspeeds : e.speeds cv = none) (es : List (ProcessEvent Mat)) :
    commanded cv (es ++ [e]) = commanded cv es := by
  cases h : es.findSome? (·.method) with
  | none =>
    have hes : commanded cv (es ++ []) = _ := commanded_unstarted h []
    rw [List.append_nil] at hes
    rw [commanded_unstarted h, hes]
    exact commanded_cons hmethod []
  | some m =>
    rw [commanded_started h, hspeeds, ite_self, Option.toList_none, List.append_nil]

namespace Process

variable {nSpiChipSelect : Byte} {reply : GetReply} {cs : List (ℤ × ℤ)}

/-- Between two operations: the chips have been told to run for each of `cs`. -/
structure Settled (reply : GetReply) (cs : List (ℤ × ℤ)) (s : Process Mat) : Prop where
  selected : s.board.Selected
  idle : ∀ chip, Idle reply chip s.log
  told : ∀ chip, motions reply chip s.log = cs.map (wheelRun reply chip)

def Driving (reply : GetReply) (cs : List (ℤ × ℤ)) (s : Process Mat) : Prop :=
  ∀ chip, motions reply chip s.log <+: cs.map (wheelRun reply chip) ∧
    cs.length ≤ (motions reply chip s.log).length + 1

/-- All the RUNs, and a beginning of `stop` or of the destructor. -/
def Stopping (reply : GetReply) (cs : List (ℤ × ℤ)) (s : Process Mat) : Prop :=
  ∀ chip, ∃ stops, motions reply chip s.log = cs.map (wheelRun reply chip) ++ stops ∧
    (stops <+: stopCommands reply ∨ ∃ selected, stops <+: deleteCommands reply selected chip)

/-- The motion commands of each phase. -/
def MotionsTold (reply : GetReply) (cs : List (ℤ × ℤ)) (s : Process Mat) : Prop :=
  match s.phase with
  | .constructing => s.log = [] ∧ cs = []
  | .configured | .waiting | .looping _ | .ended .notOpened => Settled reply cs s
  | .operating | .ended (.cvException false) => Driving reply cs s
  | .stopping | .ended (.cvException true) => Stopping reply cs s
  | .ended .noImageData => ∃ selected, ∀ chip,
      motions reply chip s.log = cs.map (wheelRun reply chip) ++ deleteCommands reply selected chip
  | .ended .sigint => ∀ chip,
      motions reply chip s.log = cs.map (wheelRun reply chip) ++ stopCommands reply

theorem Settled.driving {s : Process Mat} (h : Settled reply cs s) : Driving reply cs s := by
  intro chip
  rw [h.told chip, List.length_map]
  exact ⟨List.prefix_refl _, Nat.le_succ _⟩

theorem Settled.operate {s s' : Process Mat} (hs : Settled reply cs s) {op : Spi Unit}
    {pre : Motors → Prop} {items : (chip : Chip) → List (Command (argBytes reply))}
    (hop : ∀ chip, Tells (motionReader reply chip) pre op (items chip) Motors.Selected)
    (hpre : pre s.board)
    {as : List Packet} {done : Process Mat → Process Mat} {cut : Phase}
    (h : s.operate op as done cut = some s') :
    (∃ v l, s' = done { s with board := v, log := s.log ++ l } ∧ v.Selected ∧ ∀ chip,
      Idle reply chip (s.log ++ l) ∧
      motions reply chip (s.log ++ l) = cs.map (wheelRun reply chip) ++ items chip) ∨
    (∃ v l, s' = { s with phase := cut, board := v, log := s.log ++ l } ∧ ∀ chip,
      ∃ part, part <+: items chip ∧
        motions reply chip (s.log ++ l) = cs.map (wheelRun reply chip) ++ part) := by
  obtain ⟨v, rest, l, ⟨ho, rfl⟩ | ⟨ho, rfl⟩⟩ := operate_cases h
  · refine .inl ⟨v, l, rfl, ((hop .left).ok hpre ho).1, fun chip => ?_⟩
    obtain ⟨-, hidle, hread⟩ := (hop chip).ok hpre ho
    refine ⟨(motionReader reply chip).settled_append (hs.idle chip) hidle, ?_⟩
    rw [← hs.told chip, ← hread]
    exact (motionReader reply chip).read_append (hs.idle chip) l
  · refine .inr ⟨v, l, rfl, fun chip => ⟨_, (hop chip).pending hpre ho, ?_⟩⟩
    rw [← hs.told chip]
    exact (motionReader reply chip).read_append (hs.idle chip) l

theorem Settled.quiet {s s' : Process Mat} (hs : Settled reply cs s) {op : Spi Unit}
    (hop : (daisyChain reply Quiet).Follows op) {as : List Packet} {phase : Phase}
    (h : s.operate op as (fun s => { s with phase }) .operating = some s') :
    s'.finders = s.finders ∧
      (s'.phase = phase ∧ Settled reply cs s' ∨ s'.phase = .operating ∧ Driving reply cs s') := by
  rcases hs.operate (quiet_motions hop) hs.selected h with ⟨v, l, rfl, hv, hchips⟩ |
    ⟨v, l, rfl, hchips⟩
  · refine ⟨rfl, .inl ⟨rfl, hv, fun chip => (hchips chip).1, fun chip => ?_⟩⟩
    rw [← List.append_nil (cs.map _)]
    exact (hchips chip).2
  · refine ⟨rfl, .inr ⟨rfl, fun chip => ?_⟩⟩
    obtain ⟨part, hpart, hmotions⟩ := hchips chip
    obtain rfl := List.prefix_nil.mp hpart
    rw [List.append_nil] at hmotions
    change motions reply chip (s.log ++ l) <+: _ ∧ _ ≤ (motions reply chip (s.log ++ l)).length + 1
    rw [hmotions, List.length_map]
    exact ⟨List.prefix_refl _, Nat.le_succ _⟩

-- ---------------------------------------------------------------------------
-- Steps
-- ---------------------------------------------------------------------------

theorem operate_stop {s s' : Process Mat} (hs : Settled reply cs s) {as : List Packet}
    (h : s.operate (stop host) as (fun s => { s with phase := .ended .sigint }) .stopping =
      some s') :
    MotionsTold reply cs s' := by
  rcases hs.operate stop_motions hs.selected h with ⟨v, l, rfl, -, hchips⟩ | ⟨v, l, rfl, hchips⟩
  · exact fun chip => (hchips chip).2
  · intro chip
    obtain ⟨part, hpart, hmotions⟩ := hchips chip
    exact ⟨part, hmotions, .inl hpart⟩

theorem operate_delete {s s' : Process Mat} (hs : Settled reply cs s) {as : List Packet}
    (h : s.operate delete as (fun s => { s with phase := .ended .noImageData }) .stopping =
      some s') :
    MotionsTold reply cs s' := by
  obtain ⟨selected, hc⟩ := exists_packetIndex hs.selected
  rcases hs.operate (delete_motions hc) rfl h with ⟨v, l, rfl, -, hchips⟩ | ⟨v, l, rfl, hchips⟩
  · exact ⟨selected, fun chip => (hchips chip).2⟩
  · intro chip
    obtain ⟨part, hpart, hmotions⟩ := hchips chip
    exact ⟨part, hmotions, .inr ⟨selected, hpart⟩⟩

theorem operate_setSpeed {s s' : Process Mat} (hs : Settled reply cs s) {l r : ℤ}
    (hl : |l| ≤ 2 ^ 24)
    (hr : |r| ≤ 2 ^ 24) {as : List Packet}
    (h : s.operate (setSpeed host l r) as (fun s => { s with driven := s.driven + 1 }) .operating =
      some s') :
    s'.phase = s.phase ∧ s'.finders = s.finders ∧ Settled reply (cs ++ [(l, r)]) s' ∨
      s'.phase = .operating ∧ s'.finders = s.finders ∧ Driving reply (cs ++ [(l, r)]) s' := by
  rcases hs.operate (setSpeed_motions hl hr) hs.selected h with
    ⟨v, log, rfl, hv, hchips⟩ | ⟨v, log, rfl, hchips⟩
  · refine .inl ⟨rfl, rfl, hv, fun chip => (hchips chip).1, fun chip => ?_⟩
    rw [List.map_append]
    exact (hchips chip).2
  · refine .inr ⟨rfl, rfl, fun chip => ?_⟩
    obtain ⟨part, hpart, hmotions⟩ := hchips chip
    change motions reply chip (s.log ++ log) <+: _ ∧ _ ≤
      (motions reply chip (s.log ++ log)).length + 1
    rw [hmotions, List.map_append, List.length_append, List.length_append, List.length_map]
    exact ⟨(List.prefix_append_right_inj _).mpr hpart,
      Nat.add_le_add_right (Nat.le_add_right _ _) 1⟩

structure Followed (cv : OpenCv Mat) (reply : GetReply) (es : List (ProcessEvent Mat))
    (s : Process Mat) :
    Prop where
  method : match s.phase with
    | .constructing | .configured | .waiting => es.findSome? (·.method) = none
    | .looping method => es.findSome? (·.method) = some method
    | _ => True
  finders : Configured s.finders.contourFinder
  told : MotionsTold reply (commanded cv es) s

theorem setUp_quiet :
    (daisyChain reply Quiet).Follows (do new host nSpiChipSelect; setUp host) := by
  have hnop : Quiet cmdNop := isMotion_nop
  exact (new_follows hnop quiet_get nSpiChipSelect).seq (setUp_follows hnop quiet_get quiet_set)

theorem Followed.looping {es : List (ProcessEvent Mat)} {s : Process Mat} {m : ℤ}
    (hphase : s.phase = .looping m) (hmethod : es.findSome? (·.method) = some m)
    (hfinders : Configured s.finders.contourFinder) (hs : Settled reply (commanded cv es) s) :
    Followed cv reply es s where
  method := by rwa [hphase]
  finders := hfinders
  told := by rwa [MotionsTold, hphase]

theorem Followed.operating {es : List (ProcessEvent Mat)} {s : Process Mat}
    (hphase : s.phase = .operating) (hfinders : Configured s.finders.contourFinder)
    (hs : Driving reply (commanded cv es) s) : Followed cv reply es s where
  method := by rw [hphase]; trivial
  finders := hfinders
  told := by rwa [MotionsTold, hphase]

theorem Followed.before {es : List (ProcessEvent Mat)} {e : ProcessEvent Mat} {s s' : Process Mat}
    {op : Spi Unit} {as : List Packet} {phase : Phase}
    (hphase : phase = .configured ∨ phase = .waiting)
    (hnone : es.findSome? (·.method) = none) (hmethod : e.method = none)
    (hspeeds : e.speeds cv = none)
    (hfinders : Configured s.finders.contourFinder) (hs : Settled reply (commanded cv es) s)
    (hop : (daisyChain reply Quiet).Follows op)
    (h : s.operate op as (fun s => { s with phase }) .operating = some s') :
    Followed cv reply (es ++ [e]) s' := by
  have hnext : (es ++ [e]).findSome? (·.method) = none := by
    rw [method_append_singleton, hnone, hmethod]
    rfl
  rw [← commanded_silent hmethod hspeeds] at hs
  obtain ⟨hsame, ⟨hp, hset⟩ | ⟨hp, hdriving⟩⟩ := hs.quiet hop h
  · subst hp
    rcases hphase with hphase | hphase
    · exact ⟨by rwa [hphase], hsame ▸ hfinders, by rwa [MotionsTold, hphase]⟩
    · exact ⟨by rwa [hphase], hsame ▸ hfinders, by rwa [MotionsTold, hphase]⟩
  · exact .operating hp (hsame ▸ hfinders) hdriving

theorem Followed.ending {es : List (ProcessEvent Mat)} {e : ProcessEvent Mat} {s' : Process Mat}
    (hmethod : e.method = none) (hspeeds : e.speeds cv = none)
    (hphase : s'.phase = .stopping ∨ ∃ ending, s'.phase = .ended ending)
    (hfinders : Configured s'.finders.contourFinder) (hs : MotionsTold reply (commanded cv es) s') :
    Followed cv reply (es ++ [e]) s' where
  method := by
    rcases hphase with hphase | ⟨ending, hphase⟩ <;> rw [hphase] <;> trivial
  finders := hfinders
  told := by rwa [commanded_silent hmethod hspeeds]

theorem operate_phase {s s' : Process Mat} {op : Spi Unit} {as : List Packet} {ending : Ending}
    (h : s.operate op as (fun s => { s with phase := .ended ending }) .stopping = some s') :
    (s'.phase = .stopping ∨ ∃ ending, s'.phase = .ended ending) ∧ s'.finders = s.finders := by
  obtain ⟨v, rest, l, ⟨-, rfl⟩ | ⟨-, rfl⟩⟩ := operate_cases h
  · exact ⟨.inr ⟨ending, rfl⟩, rfl⟩
  · exact ⟨.inl rfl, rfl⟩

theorem readFrame_followed {es : List (ProcessEvent Mat)} {s s' : Process Mat}
    {method : ℤ} {src : Mat}
    {as : List Packet} (hs : Followed cv reply es s) (hphase : s.phase = .looping method)
    (h : s.readFrame cv host method src as = some s') :
    Followed cv reply (es ++ [.frame src as]) s' := by
  have hsettled : Settled reply (commanded cv es) s := by
    have htold := hs.told
    rwa [MotionsTold, hphase] at htold
  have hmethod : es.findSome? (·.method) = some method := by
    have hmethod := hs.method
    rwa [hphase] at hmethod
  have hnext : (es ++ [ProcessEvent.frame src as]).findSome? (·.method) = some method := by
    rw [method_append_singleton, hmethod]
    rfl
  have hcommanded := @commanded_started Mat cv es method hmethod (.frame src as)
  unfold readFrame at h
  split at h
  · rename_i himage
    have hspeeds : (ProcessEvent.frame src as).speeds cv = none := if_pos himage
    obtain ⟨hend, hfinders⟩ := operate_phase h
    exact .ending rfl hspeeds hend (hfinders ▸ hs.finders) (operate_delete hsettled h)
  · rename_i himage
    have hspeeds : (ProcessEvent.frame src as).speeds cv = frameSpeeds cv src := if_neg himage
    rw [hspeeds] at hcommanded
    change _ = _ ++ (methodSpeeds cv method src).toList at hcommanded
    split at h
    · rename_i hit
      obtain rfl := Option.some.inj h
      rw [iteration_error hs.finders hit, Option.toList_none, List.append_nil] at hcommanded
      exact ⟨trivial, hs.finders, by rw [hcommanded]; exact hsettled.driving⟩
    · cases h
    · rename_i finders frame hit
      obtain rfl := Option.some.inj h
      obtain ⟨hfinders, hnone⟩ := iteration_ok hs.finders hit
      rw [hnone, Option.toList_none, List.append_nil] at hcommanded
      exact .looping hphase hnext hfinders
        (hcommanded ▸ ⟨hsettled.selected, hsettled.idle, hsettled.told⟩)
    · rename_i finders frame l r hit
      obtain ⟨hfinders, hsome⟩ := iteration_ok hs.finders hit
      obtain ⟨hl, hr⟩ := methodSpeeds_small hsome
      rw [hsome, Option.toList_some] at hcommanded
      have hready : Settled reply (commanded cv es) { s with finders, pushed := true } :=
        ⟨hsettled.selected, hsettled.idle, hsettled.told⟩
      rcases operate_setSpeed hready hl hr h with ⟨hp, hf, hset⟩ | ⟨hp, hf, hdriving⟩
      · exact .looping (hp.trans hphase) hnext (hf ▸ hfinders) (hcommanded ▸ hset)
      · exact .operating hp (hf ▸ hfinders) (hcommanded ▸ hdriving)

theorem Followed.step {es : List (ProcessEvent Mat)} {s s' : Process Mat} {e : ProcessEvent Mat}
    (h : Followed cv reply es s) (hs : s.step cv host nSpiChipSelect e = some s') :
    Followed cv reply (es ++ [e]) s' := by
  obtain ⟨hmethod, hfinders, htold⟩ := h
  cases e with
  | setUp as =>
    simp only [Process.step] at hs
    split at hs
    · rename_i hphase
      simp only [MotionsTold, hphase] at htold
      simp only [hphase] at hmethod
      -- the board's memory before the constructor does not matter
      have hfresh : Settled reply (commanded cv es)
          { s with board := ⟨nSpiChipSelect, 0, false, false⟩ } := by
        obtain ⟨hlog, hcs⟩ := htold
        rw [hcs]
        refine ⟨.inl rfl, fun chip => ?_, fun chip => ?_⟩
        · rw [hlog]
          rfl
        · rw [hlog]
          rfl
      exact .before (.inl rfl) hmethod rfl rfl (by exact hfinders) hfresh setUp_quiet hs
    · cases hs
  | resetPosition as =>
    simp only [Process.step] at hs
    split at hs
    · rename_i hphase
      simp only [MotionsTold, hphase] at htold
      simp only [hphase] at hmethod
      have hreset : (daisyChain reply Quiet).Follows LineFollower.resetPosition := by
        have hnop : Quiet cmdNop := isMotion_nop
        have hquiet : Quiet cmdResetPos := rfl
        exact resetPosition_follows hnop hquiet
      exact .before (.inr rfl) hmethod rfl rfl hfinders htold hreset hs
    · cases hs
  | start m =>
    simp only [Process.step] at hs
    split at hs
    · rename_i hphase
      simp only [MotionsTold, hphase] at htold
      simp only [hphase] at hmethod
      obtain rfl := Option.some.inj hs
      have hcs : commanded cv es = [] := by
        have hes : commanded cv (es ++ []) = _ := commanded_unstarted hmethod []
        rwa [List.append_nil] at hes
      refine .looping rfl ?_ hfinders ?_
      · rw [method_append_singleton, hmethod]
        rfl
      · rw [commanded_start hmethod, ← hcs]
        exact ⟨htold.selected, htold.idle, htold.told⟩
    · cases hs
  | notOpened =>
    simp only [Process.step] at hs
    split at hs
    · rename_i hphase
      simp only [MotionsTold, hphase] at htold
      obtain rfl := Option.some.inj hs
      have hsettled : Settled reply (commanded cv es) { s with phase := .ended .notOpened } :=
        ⟨htold.selected, htold.idle, htold.told⟩
      exact .ending rfl rfl (.inr ⟨_, rfl⟩) hfinders hsettled
    · cases hs
  | frame src as =>
    have hall : Followed cv reply es s := ⟨hmethod, hfinders, htold⟩
    simp only [Process.step] at hs
    split at hs
    · rename_i m hphase
      exact readFrame_followed hall hphase hs
    · cases hs
  | readThrows =>
    simp only [Process.step] at hs
    split at hs
    · rename_i m hphase
      simp only [MotionsTold, hphase] at htold
      obtain rfl := Option.some.inj hs
      exact .ending rfl rfl (.inr ⟨_, rfl⟩) hfinders htold.driving
    · cases hs
  | sigint as =>
    simp only [Process.step] at hs
    split at hs
    case h_4 => cases hs
    all_goals
      rename_i hphase
      simp only [MotionsTold, hphase] at htold
      obtain ⟨hend, hsame⟩ := operate_phase hs
      exact .ending rfl rfl hend (hsame ▸ hfinders) (operate_stop htold hs)
  | streamerThrows =>
    simp only [Process.step, Option.ite_none_right_eq_some] at hs
    obtain ⟨-, hs⟩ := hs
    split at hs
    · rename_i m hphase
      simp only [MotionsTold, hphase] at htold
      obtain rfl := Option.some.inj hs
      exact .ending rfl rfl (.inr ⟨_, rfl⟩) hfinders htold.driving
    · rename_i hphase
      simp only [MotionsTold, hphase] at htold
      obtain rfl := Option.some.inj hs
      exact .ending rfl rfl (.inr ⟨_, rfl⟩) hfinders htold
    · rename_i hphase
      simp only [MotionsTold, hphase] at htold
      obtain rfl := Option.some.inj hs
      exact .ending rfl rfl (.inr ⟨_, rfl⟩) hfinders htold
    · cases hs

theorem followed_of_run {self : Motors} {es : List (ProcessEvent Mat)} {s : Process Mat}
    (h : (machine cv host nSpiChipSelect self).run (machine cv host nSpiChipSelect self).init es =
      some s) :
    Followed cv reply es s :=
  have hinit : Followed cv reply [] (machine cv host nSpiChipSelect self).init :=
    ⟨rfl, configured_new, ⟨rfl, rfl⟩⟩
  Machine.run_invariant hinit (fun _ _ _ _ hi hs => hi.step hs) h

-- ---------------------------------------------------------------------------
-- Whole runs
-- ---------------------------------------------------------------------------

theorem MotionsTold.mem {s : Process Mat} (h : MotionsTold reply cs s) {chip : Chip}
    {cmd : Command (argBytes reply)} (hcmd : cmd ∈ motions reply chip s.log) :
    (∃ p ∈ cs, cmd = wheelRun reply chip p) ∨
      cmd.opcode ∈ [cmdSoftStop, cmdHardStop, cmdHardHiZ] := by
  have hrun (hmem : cmd ∈ cs.map (wheelRun reply chip)) :
      ∃ p ∈ cs, cmd = wheelRun reply chip p := by
    obtain ⟨p, hp, rfl⟩ := List.mem_map.mp hmem
    exact ⟨p, hp, rfl⟩
  have hstop (hmem : cmd ∈ stopCommands reply) :
      cmd.opcode ∈ [cmdSoftStop, cmdHardStop, cmdHardHiZ] := by
    rcases List.mem_pair.mp hmem with rfl | rfl <;> simp [Command.bare]
  have hdelete {selected : Chip} (hmem : cmd ∈ deleteCommands reply selected chip) :
      cmd.opcode ∈ [cmdSoftStop, cmdHardStop, cmdHardHiZ] := by
    unfold deleteCommands at hmem
    split at hmem
    · rcases List.mem_pair.mp hmem with rfl | rfl <;> simp [Command.bare]
    · obtain rfl := List.mem_singleton.mp hmem
      simp [Command.bare]
  have hstopping (hs : Stopping reply cs s) :
      (∃ p ∈ cs, cmd = wheelRun reply chip p) ∨
        cmd.opcode ∈ [cmdSoftStop, cmdHardStop, cmdHardHiZ] := by
    obtain ⟨stops, hmotions, hpart⟩ := hs chip
    rcases List.mem_append.mp (hmotions ▸ hcmd) with hmem | hmem
    · exact .inl (hrun hmem)
    · rcases hpart with hpart | ⟨selected, hpart⟩
      · exact .inr (hstop (hpart.subset hmem))
      · exact .inr (hdelete (hpart.subset hmem))
  unfold MotionsTold at h
  split at h
  · simp [h.1, motions, received] at hcmd
  · exact .inl (hrun (h.told chip ▸ hcmd))
  · exact .inl (hrun (h.told chip ▸ hcmd))
  · exact .inl (hrun (h.told chip ▸ hcmd))
  · exact .inl (hrun (h.told chip ▸ hcmd))
  · exact .inl (hrun ((h chip).1.subset hcmd))
  · exact .inl (hrun ((h chip).1.subset hcmd))
  · exact hstopping h
  · exact hstopping h
  · obtain ⟨selected, hmotions⟩ := h
    rcases List.mem_append.mp (hmotions chip ▸ hcmd) with hmem | hmem
    · exact .inl (hrun hmem)
    · exact .inr (hdelete hmem)
  · rcases List.mem_append.mp (h chip ▸ hcmd) with hmem | hmem
    · exact .inl (hrun hmem)
    · exact .inr (hstop hmem)

end Process

end LineFollower
