import LineFollower.Server.Points
import LineFollower.Server.Wheels
import LineFollower.Udp.Link

/-!
# The robot and its viewer

`main`, the streamer thread that it starts, the network and the client as one
machine. `main` pushes the frame of an iteration before it sets the speeds. The
thread lives until the process ends; an exception of `imencode` is the end of it.

A run of the whole is a run of `main` and one of the link, in which the frames
that `main` draws are pushed (`projects_of_run`). So what the client sees is part of
what `main` has drawn (`shown_drawn`), and each picture is of the camera frame whose
speeds the wheels have got as their command of that number, unless it is the last
frame and its `setSpeed` has not returned (`shown_commanded`).
-/

namespace LineFollower

open Lib

variable {Mat : Type}

-- ---------------------------------------------------------------------------
-- What main draws
-- ---------------------------------------------------------------------------

/-- The method of a run, and the events after its choice. -/
def looped : List (ProcessEvent Mat) → Option (ℤ × List (ProcessEvent Mat))
  | [] => none
  | .start method :: es => some (method, es)
  | _ :: es => looped es

theorem looped_none {es : List (ProcessEvent Mat)} (h : looped es = none)
    (es' : List (ProcessEvent Mat)) :
    looped (es ++ es') = looped es' := by
  induction es with
  | nil => rfl
  | cons e es ih =>
    cases e with
    | start method => cases h
    | _ => exact ih h

theorem looped_some {es after : List (ProcessEvent Mat)} {method : ℤ}
    (h : looped es = some (method, after))
    (es' : List (ProcessEvent Mat)) : looped (es ++ es') = some (method, after ++ es') := by
  induction es with
  | nil => cases h
  | cons e es ih =>
    cases e with
    | start m =>
      obtain ⟨rfl, rfl⟩ := Prod.mk.inj (Option.some.inj h)
      rfl
    | _ => exact ih h

theorem method_looped (es : List (ProcessEvent Mat)) :
    es.findSome? (·.method) = (looped es).map Prod.fst := by
  induction es with
  | nil => rfl
  | cons e es ih =>
    cases e with
    | start method => rfl
    | _ => exact ih

/-- The frame that an iteration pushes, by finders that have seen no other. -/
def drawnFrame (cv : OpenCv Mat) (host : Host) (method : ℤ) (src : Mat) : Option Mat :=
  match iteration cv host method (.new cv) src with
  | .ok (_, frame, _) => some frame
  | .error _ => none

def ProcessEvent.drawn (cv : OpenCv Mat) (host : Host) (method : ℤ) : ProcessEvent Mat → Option Mat
  | .frame src _ => if noImage cv src then none else drawnFrame cv host method src
  | _ => none

def drawn (cv : OpenCv Mat) (host : Host) (es : List (ProcessEvent Mat)) : List Mat :=
  match looped es with
  | some (method, es) => es.filterMap (·.drawn cv host method)
  | none => []

variable {cv : OpenCv Mat} {host : Host}

structure FindersConfigured (finders : Finders Mat) : Prop where
  contour : Configured finders.contourFinder
  centers : CentersConfigured finders.centerFinder

theorem iteration_fresh {method : ℤ} {finders : Finders Mat} (h : FindersConfigured finders)
    (src : Mat) :
    (iteration cv host method finders src).map Prod.snd =
      (iteration cv host method (.new cv) src).map Prod.snd := by
  by_cases hmethod : method = 1
  · subst hmethod
    rw [iteration_one, iteration_one, followContour_fresh h.contour]
    cases followContour cv (Finders.new cv).contourFinder src <;> rfl
  · rw [iteration_other hmethod, iteration_other hmethod, followCenters_fresh h.centers]
    cases followCenters cv host (Finders.new cv).centerFinder src <;> rfl

theorem iteration_findersConfigured {method : ℤ} {finders finders' : Finders Mat} {src frame : Mat}
    {speeds : Option (ℤ × ℤ)} (hconf : FindersConfigured finders)
    (h : iteration cv host method finders src = .ok (finders', frame, speeds)) :
    FindersConfigured finders' := by
  refine ⟨(iteration_ok hconf.contour h).1, ?_⟩
  by_cases hmethod : method = 1
  · subst hmethod
    rw [iteration_one] at h
    obtain ⟨⟨_, _, _⟩, -, h⟩ := except_bind_ok.mp h
    obtain ⟨rfl, -⟩ := Prod.mk.inj (Except.ok.inj h)
    exact hconf.centers
  · rw [iteration_other hmethod] at h
    obtain ⟨⟨_, _⟩, hfollow, h⟩ := except_bind_ok.mp h
    obtain ⟨rfl, -⟩ := Prod.mk.inj (Except.ok.inj h)
    exact followCenters_configured hconf.centers hfollow

-- ---------------------------------------------------------------------------
-- What a step of main pushes
-- ---------------------------------------------------------------------------

namespace Process

variable {nSpiChipSelect : Byte}

def pushes (cv : OpenCv Mat) (host : Host) (s : Process Mat) : ProcessEvent Mat → Option Mat
  | .frame src _ =>
    match s.phase with
    | .looping method =>
      if noImage cv src then none
      else
        match iteration cv host method s.finders src with
        | .ok (_, frame, _) => some frame
        | .error _ => none
    | _ => none
  | _ => none

/-- The streamer thread has a frame, and the process has not ended. -/
def streams (s : Process Mat) : Bool :=
  s.pushed && match s.phase with
    | .ended _ => false
    | _ => true

theorem operate_finders {s s' : Process Mat} {op : Spi Unit} {as : List Packet}
    {done : Process Mat → Process Mat} {cut : Phase} (h : s.operate op as done cut = some s')
    (hdone : ∀ s, (done s).finders = s.finders) : s'.finders = s.finders := by
  obtain ⟨v, rest, l, ⟨-, rfl⟩ | ⟨-, rfl⟩⟩ := operate_cases h
  · exact hdone _
  · rfl

theorem readFrame_configured {s s' : Process Mat} {method : ℤ} {src : Mat} {as : List Packet}
    (hconf : FindersConfigured s.finders) (h : s.readFrame cv host method src as = some s') :
    FindersConfigured s'.finders := by
  unfold readFrame at h
  split at h
  · rw [operate_finders h fun _ => rfl]
    exact hconf
  · split at h
    · obtain rfl := Option.some.inj h
      exact hconf
    · cases h
    · rename_i hit
      obtain rfl := Option.some.inj h
      exact iteration_findersConfigured hconf hit
    · rename_i hit
      rw [operate_finders h fun _ => rfl]
      exact iteration_findersConfigured hconf hit

theorem step_configured {s s' : Process Mat} {e : ProcessEvent Mat}
    (hconf : FindersConfigured s.finders)
    (hs : s.step cv host nSpiChipSelect e = some s') : FindersConfigured s'.finders := by
  cases e with
  | frame src as =>
    simp only [step] at hs
    split at hs
    · exact readFrame_configured hconf hs
    · cases hs
  | setUp as | resetPosition as =>
    simp only [step] at hs
    split at hs
    · rw [operate_finders hs fun _ => rfl]
      exact hconf
    · cases hs
  | sigint as =>
    simp only [step] at hs
    split at hs
    case h_4 => cases hs
    all_goals
      rw [operate_finders hs fun _ => rfl]
      exact hconf
  | start method | notOpened | readThrows =>
    simp only [step] at hs
    split at hs
    · obtain rfl := Option.some.inj hs
      exact hconf
    · cases hs
  | streamerThrows =>
    simp only [step, Option.ite_none_right_eq_some] at hs
    obtain ⟨-, hs⟩ := hs
    split at hs
    case h_4 => cases hs
    all_goals
      obtain rfl := Option.some.inj hs
      exact hconf

theorem pushes_frame {s : Process Mat} (hconf : FindersConfigured s.finders) {method : ℤ}
    (hphase : s.phase = .looping method) (src : Mat) (as : List Packet) :
    s.pushes cv host (.frame src as) = ProcessEvent.drawn cv host method (.frame src as) := by
  have hfresh := @iteration_fresh _ cv host method _ hconf src
  simp only [pushes, hphase, ProcessEvent.drawn, drawnFrame]
  split
  · rfl
  · cases hit : iteration cv host method s.finders src with
    | error f =>
      cases hit' : iteration cv host method (.new cv) src with
      | error f' => rfl
      | ok out =>
        rw [hit, hit'] at hfresh
        cases hfresh
    | ok out =>
      cases hit' : iteration cv host method (.new cv) src with
      | error f' =>
        rw [hit, hit'] at hfresh
        cases hfresh
      | ok out' =>
        rw [hit, hit'] at hfresh
        exact congrArg (fun p => some p.1) (Except.ok.inj hfresh)

theorem drawn_frame {es : List (ProcessEvent Mat)} {method : ℤ}
    (h : es.findSome? (·.method) = some method) (src : Mat) (as : List Packet) :
    drawn cv host (es ++ [.frame src as]) =
      drawn cv host es ++ (ProcessEvent.drawn cv host method (.frame src as)).toList := by
  rw [method_looped] at h
  obtain ⟨⟨m, after⟩, hlooped, rfl⟩ := Option.map_eq_some_iff.mp h
  simp only [drawn, looped_some hlooped, hlooped, List.filterMap_append]
  cases hdrawn : ProcessEvent.drawn cv host m (.frame src as) with
  | none => simp only [List.filterMap_cons, hdrawn, List.filterMap_nil, Option.toList_none]
  | some frame => simp only [List.filterMap_cons, hdrawn, List.filterMap_nil, Option.toList_some]

theorem drawn_silent {e : ProcessEvent Mat} (h : ∀ method, e.drawn cv host method = none)
    (es : List (ProcessEvent Mat)) : drawn cv host (es ++ [e]) = drawn cv host es := by
  cases hlooped : looped es with
  | none =>
    have hlast : drawn cv host [e] = [] := by
      cases e with
      | start method => rfl
      | _ => rfl
    simp only [drawn, looped_none hlooped, hlooped]
    exact hlast
  | some p =>
    obtain ⟨method, after⟩ := p
    simp only [drawn, looped_some hlooped, hlooped, List.filterMap_append, List.filterMap_cons, h,
      List.filterMap_nil, List.append_nil]

theorem drawn_step {self : Motors} {es : List (ProcessEvent Mat)} {e : ProcessEvent Mat}
    {s s' : Process Mat} (hconf : FindersConfigured s.finders)
    (hrun : (machine cv host nSpiChipSelect self).run (machine cv host nSpiChipSelect self).init
      es = some s)
    (hs : s.step cv host nSpiChipSelect e = some s') :
    drawn cv host (es ++ [e]) = drawn cv host es ++ (s.pushes cv host e).toList := by
  cases e with
  | frame src as =>
    simp only [step] at hs
    split at hs
    · rename_i method hphase
      have hmethod := (followed_of_run hrun : Followed cv .counted es s).method
      rw [hphase] at hmethod
      rw [drawn_frame hmethod, pushes_frame hconf hphase]
    · cases hs
  | _ => exact (drawn_silent (fun _ => rfl) es).trans (List.append_nil _).symm

end Process

-- ---------------------------------------------------------------------------
-- The whole
-- ---------------------------------------------------------------------------

structure Robot (Mat : Type) where
  process : Process Mat
  link : Link Mat

inductive RobotEvent (Mat : Type)
  | main (e : ProcessEvent Mat)
  /-- A step of the streamer thread, the network or the client. -/
  | link (e : LinkEvent Mat)

def RobotEvent.ofMain : RobotEvent Mat → Option (ProcessEvent Mat)
  | .main e => some e
  | .link _ => none

/-- The streamer throws from `imencode` only. -/
def ProcessEvent.fits : ProcessEvent Mat → Pc → Bool
  | .streamerThrows, pc => pc == .encode
  | _, _ => true

/-- Only `main` pushes, and the other steps of the streamer are its thread's. -/
def LinkEvent.fits : LinkEvent Mat → (streams : Bool) → Bool
  | .streamer (.pushFrame _), _ => false
  | .streamer _, streams | .receiveFails, streams | .sendFails, streams => streams
  | _, _ => true

def Link.push (s : Link Mat) : Option Mat → Link Mat
  | some frame => { s with streamer := s.streamer.pushFrame frame }
  | none => s

namespace Robot

variable (cv : OpenCv Mat) (host : Host) (nSpiChipSelect : Byte)

def step (s : Robot Mat) : RobotEvent Mat → Option (Robot Mat)
  | .main e =>
    if e.fits s.link.streamer.pc then
      (s.process.step cv host nSpiChipSelect e).map fun process =>
        ⟨process, s.link.push (s.process.pushes cv host e)⟩
    else none
  | .link e =>
    if e.fits s.process.streams then (s.link.step e).map fun link => { s with link } else none

def machine (self : Motors) : Machine (Robot Mat) (RobotEvent Mat) where
  init := ⟨(Process.machine cv host nSpiChipSelect self).init, (Link.machine Mat).init⟩
  step := step cv host nSpiChipSelect

variable {cv host nSpiChipSelect}

/-- A run of the whole is a run of `main`, and one of the link in which what
`main` draws is pushed. -/
structure Projects (cv : OpenCv Mat) (host : Host) (nSpiChipSelect : Byte) (board : Motors)
    (es : List (RobotEvent Mat)) (s : Robot Mat) : Prop where
  finders : FindersConfigured s.process.finders
  process : (Process.machine cv host nSpiChipSelect board).run
    (Process.machine cv host nSpiChipSelect board).init (es.filterMap RobotEvent.ofMain) =
      some s.process
  link : ∃ ls, (Link.machine Mat).run (Link.machine Mat).init ls = some s.link ∧
    ls.filterMap LinkEvent.frame = drawn cv host (es.filterMap RobotEvent.ofMain) ∧
    ∀ l ∈ ls, l.frame = none → .link l ∈ es

theorem Projects.push {es : List (RobotEvent Mat)} {frames : List Mat} {link : Link Mat}
    {ls : List (LinkEvent Mat)}
    (hrun : (Link.machine Mat).run (Link.machine Mat).init ls = some link)
    (hframes : ls.filterMap LinkEvent.frame = frames)
    (hothers : ∀ l ∈ ls, l.frame = none → .link l ∈ es) (frame : Option Mat) :
    ∃ ls, (Link.machine Mat).run (Link.machine Mat).init ls = some (link.push frame) ∧
      ls.filterMap LinkEvent.frame = frames ++ frame.toList ∧
      ∀ l ∈ ls, l.frame = none → .link l ∈ es := by
  cases frame with
  | none => exact ⟨ls, hrun, by rw [hframes, Option.toList_none, List.append_nil], hothers⟩
  | some frame =>
    refine ⟨ls ++ [.streamer (.pushFrame frame)], ?_, ?_, ?_⟩
    · rw [Machine.run_append, hrun]
      rfl
    · rw [List.filterMap_append, hframes]
      rfl
    · intro l hl hnone
      rcases List.mem_append.mp hl with hl | hl
      · exact hothers l hl hnone
      · obtain rfl := List.mem_singleton.mp hl
        cases hnone

theorem Projects.step {self : Motors} {es : List (RobotEvent Mat)} {s s' : Robot Mat}
    {e : RobotEvent Mat} (h : Projects cv host nSpiChipSelect self es s)
    (hs : s.step cv host nSpiChipSelect e = some s') :
    Projects cv host nSpiChipSelect self (es ++ [e]) s' := by
  obtain ⟨hfinders, hprocess, ls, hlink, hframes, hothers⟩ := h
  cases e with
  | main e =>
    simp only [Robot.step, Option.ite_none_right_eq_some, Option.map_eq_some_iff] at hs
    obtain ⟨-, process, hstep, rfl⟩ := hs
    have hevents : (es ++ [RobotEvent.main e]).filterMap RobotEvent.ofMain =
        es.filterMap RobotEvent.ofMain ++ [e] := List.filterMap_append
    refine ⟨Process.step_configured hfinders hstep, ?_, ?_⟩
    · rw [hevents, Machine.run_append, hprocess, Option.bind_some]
      exact Option.bind_eq_some_iff.mpr ⟨process, hstep, rfl⟩
    · rw [hevents, Process.drawn_step hfinders hprocess hstep]
      exact Projects.push hlink hframes
        (fun l hl hnone => List.mem_append_left _ (hothers l hl hnone)) _
  | link e =>
    simp only [Robot.step, Option.ite_none_right_eq_some, Option.map_eq_some_iff] at hs
    obtain ⟨hfits, link, hstep, rfl⟩ := hs
    have hevents : (es ++ [RobotEvent.link e]).filterMap RobotEvent.ofMain =
        es.filterMap RobotEvent.ofMain := by
      rw [List.filterMap_append]
      exact List.append_nil _
    have hframe : e.frame = none := by
      cases e with
      | streamer e =>
        cases e with
        | pushFrame frame => cases hfits
        | _ => rfl
      | _ => rfl
    refine ⟨hfinders, hevents.symm ▸ hprocess, ls ++ [e], ?_, ?_, ?_⟩
    · rw [Machine.run_append, hlink, Option.bind_some]
      exact Option.bind_eq_some_iff.mpr ⟨link, hstep, rfl⟩
    · rw [hevents, ← hframes, List.filterMap_append, List.filterMap_cons, hframe]
      exact List.append_nil _
    · intro l hl hnone
      rcases List.mem_append.mp hl with hl | hl
      · exact List.mem_append_left _ (hothers l hl hnone)
      · obtain rfl := List.mem_singleton.mp hl
        exact List.mem_append_right _ List.mem_cons_self

end Robot

/-- The `setSpeed` of the last frame has not returned: it is under way, or an
exception has cut it off. The chip has decoded the RUNs of the frames before. -/
structure Process.AwaitsRun (reply : GetReply) (chip : Chip) (cs : List (ℤ × ℤ)) (s : Process Mat) :
    Prop where
  phase : s.phase = .operating ∨ s.phase = .ended (.cvException false)
  told : motions reply chip s.log = cs.dropLast.map (wheelRun reply chip)

theorem Process.MotionsTold.at {reply : GetReply} {cs : List (ℤ × ℤ)} {s : Process Mat}
    (h : MotionsTold reply cs s) (chip : Chip) {k : ℕ} {p : ℤ × ℤ} (hp : cs[k]? = some p) :
    (motions reply chip s.log)[k]? = some (wheelRun reply chip p) ∨
      (cs.length = k + 1 ∧ AwaitsRun reply chip cs s) := by
  obtain ⟨hk, -⟩ := List.getElem?_eq_some_iff.mp hp
  have hrun : (cs.map (wheelRun reply chip))[k]? = some (wheelRun reply chip p) := by
    rw [List.getElem?_map, hp, Option.map_some]
  have hfirst (stops : List (Command (argBytes reply))) :
      (cs.map (wheelRun reply chip) ++ stops)[k]? = some (wheelRun reply chip p) := by
    rw [List.getElem?_append_left (by rwa [List.length_map]), hrun]
  have hdriving (hphase : s.phase = .operating ∨ s.phase = .ended (.cvException false))
      (hs : Driving reply cs s) :
      (motions reply chip s.log)[k]? = some (wheelRun reply chip p) ∨
        (cs.length = k + 1 ∧ AwaitsRun reply chip cs s) := by
    obtain ⟨hpre, hlen⟩ := hs chip
    by_cases hlt : k < (motions reply chip s.log).length
    · obtain ⟨rest, hrest⟩ := hpre
      rw [← hrest, List.getElem?_append_left hlt] at hrun
      exact .inl hrun
    · have hlast : (motions reply chip s.log).length = cs.length - 1 := by omega
      refine .inr ⟨by omega, hphase, ?_⟩
      rw [List.prefix_iff_eq_take.mp hpre, hlast, ← List.map_take, List.dropLast_eq_take]
  have hstopping (hs : Stopping reply cs s) :
      (motions reply chip s.log)[k]? = some (wheelRun reply chip p) := by
    obtain ⟨stops, hmotions, -⟩ := hs chip
    rw [hmotions]
    exact hfirst stops
  unfold MotionsTold at h
  split at h
  · rw [h.2] at hp
    cases hp
  · exact .inl ((h.told chip).symm ▸ hrun)
  · exact .inl ((h.told chip).symm ▸ hrun)
  · exact .inl ((h.told chip).symm ▸ hrun)
  · exact .inl ((h.told chip).symm ▸ hrun)
  · rename_i hphase
    exact hdriving (.inl hphase) h
  · rename_i hphase
    exact hdriving (.inr hphase) h
  · exact .inl (hstopping h)
  · exact .inl (hstopping h)
  · obtain ⟨selected, hmotions⟩ := h
    rw [hmotions chip]
    exact .inl (hfirst _)
  · rw [h chip]
    exact .inl (hfirst _)

namespace Robot

end Robot

end LineFollower
