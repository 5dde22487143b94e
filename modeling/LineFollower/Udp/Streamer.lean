import LineFollower.Lib.Sampler
import Mathlib.Data.List.Basic
import Mathlib.Order.Nat

/-!
# The frame hand-off

`UdpJpgFrameStreamer`: the main thread pushes frames, the streamer thread of
one `run()` encodes and sends them. A step is one atomic action: `pushFrame`,
or the streamer's read of the flag, its critical section around `imencode`,
its wait for a client, its send, or the critical section that clears the flag.
A frame carries the number of its push.
-/

namespace LineFollower

open Lib

structure Pushed (Mat : Type) where
  index : ℕ
  frame : Mat
  deriving DecidableEq

inductive Pc
  | check
  | encode
  | receive
  | send
  | clear
  deriving DecidableEq, Repr

def Pc.next : Pc → Pc
  | .check => .encode
  | .encode => .receive
  | .receive => .send
  | .send => .clear
  | .clear => .check

structure Streamer (Mat : Type) where
  /-- `none` is the `Mat()` of the constructor. -/
  frame_to_send : Option (Pushed Mat)
  ready_to_send : Bool
  pc : Pc
  pushed : ℕ
  encoded : List (Pushed Mat)
  deriving DecidableEq

inductive StreamEvent (Mat : Type)
  | pushFrame (frame : Mat)
  | check
  | encode
  | waitForClient
  | send
  | clear

namespace Streamer

variable {Mat : Type}

def new : Streamer Mat where
  frame_to_send := none
  ready_to_send := false
  pc := .check
  pushed := 0
  encoded := []

def pushFrame (s : Streamer Mat) (frame : Mat) : Streamer Mat :=
  { s with
    frame_to_send := some ⟨s.pushed + 1, frame⟩
    ready_to_send := true
    pushed := s.pushed + 1 }

def step (s : Streamer Mat) : StreamEvent Mat → Option (Streamer Mat)
  | .pushFrame frame => some (s.pushFrame frame)
  | .check =>
    if s.pc = .check then some { s with pc := if s.ready_to_send then .encode else .check }
      else none
  | .encode =>
    match s.pc, s.frame_to_send with
    | .encode, some f => some { s with pc := .receive, encoded := s.encoded ++ [f] }
    | _, _ => none
  | .waitForClient => if s.pc = .receive then some { s with pc := .send } else none
  | .send => if s.pc = .send then some { s with pc := .clear } else none
  | .clear =>
    if s.pc = .clear then some { s with pc := .check, ready_to_send := false } else none

def machine (Mat : Type) : Machine (Streamer Mat) (StreamEvent Mat) where
  init := new
  step := step

-- ---------------------------------------------------------------------------
-- What a step does
-- ---------------------------------------------------------------------------

theorem step_cases {s s' : Streamer Mat} {e : StreamEvent Mat} (h : s.step e = some s') :
    (∃ frame, e = .pushFrame frame ∧ s' = s.pushFrame frame) ∨
    (e = .check ∧ s.pc = .check ∧ s' =
      { s with pc := if s.ready_to_send then .encode else .check }) ∨
    (∃ f, e = .encode ∧ s.pc = .encode ∧ s.frame_to_send = some f ∧
      s' = { s with pc := .receive, encoded := s.encoded ++ [f] }) ∨
    (e = .waitForClient ∧ s.pc = .receive ∧ s' = { s with pc := .send }) ∨
    (e = .send ∧ s.pc = .send ∧ s' = { s with pc := .clear }) ∨
    (e = .clear ∧ s.pc = .clear ∧ s' = { s with pc := .check, ready_to_send := false }) := by
  cases e with
  | pushFrame frame => exact .inl ⟨frame, rfl, (Option.some.inj h).symm⟩
  | check =>
    simp only [step, Option.ite_none_right_eq_some, Option.some.injEq] at h
    exact .inr (.inl ⟨rfl, h.1, h.2.symm⟩)
  | encode =>
    simp only [step] at h
    split at h
    · rename_i f hpc hf
      exact .inr (.inr (.inl ⟨f, rfl, hpc, hf, (Option.some.inj h).symm⟩))
    · cases h
  | waitForClient =>
    simp only [step, Option.ite_none_right_eq_some, Option.some.injEq] at h
    exact .inr (.inr (.inr (.inl ⟨rfl, h.1, h.2.symm⟩)))
  | send =>
    simp only [step, Option.ite_none_right_eq_some, Option.some.injEq] at h
    exact .inr (.inr (.inr (.inr (.inl ⟨rfl, h.1, h.2.symm⟩))))
  | clear =>
    simp only [step, Option.ite_none_right_eq_some, Option.some.injEq] at h
    exact .inr (.inr (.inr (.inr (.inr ⟨rfl, h.1, h.2.symm⟩))))

theorem step_waitForClient {s t : Streamer Mat} :
    s.step .waitForClient = some t ↔ s.pc = .receive ∧ { s with pc := .send } = t := by
  simp only [step, Option.ite_none_right_eq_some, Option.some.injEq]

theorem step_send {s t : Streamer Mat} :
    s.step .send = some t ↔ s.pc = .send ∧ { s with pc := .clear } = t := by
  simp only [step, Option.ite_none_right_eq_some, Option.some.injEq]

structure Inv (s : Streamer Mat) : Prop where
  newest : ∀ f, s.frame_to_send = some f → f.index = s.pushed
  held : s.frame_to_send = none → s.pushed = 0 ∧ s.ready_to_send = false
  pushed : ∀ f ∈ s.encoded, f.index ≤ s.pushed
  fresh : s.pc = .check ∧ s.ready_to_send = true ∨ s.pc = .encode →
    ∀ f ∈ s.encoded, f.index < s.pushed
  busy : s.pc ≠ .check → s.ready_to_send = true

theorem inv_new : Inv (new : Streamer Mat) := by
  constructor <;> simp [new]

theorem Inv.step {s s' : Streamer Mat} {e : StreamEvent Mat} (h : Inv s) (hs : s.step e = some s') :
    Inv s' := by
  obtain ⟨hnewest, hheld, hpushed, hfresh, hbusy⟩ := h
  obtain ⟨frame, rfl, rfl⟩ | ⟨rfl, hpc, rfl⟩ | ⟨f, rfl, hpc, hf, rfl⟩ | ⟨rfl, hpc, rfl⟩ |
    ⟨rfl, hpc, rfl⟩ | ⟨rfl, hpc, rfl⟩ := step_cases hs
  · -- a push makes the frame in the hand-off newer than all that are encoded
    have hlt : ∀ f ∈ s.encoded, f.index < s.pushed + 1 :=
      fun f hf => Nat.lt_succ_of_le (hpushed f hf)
    constructor
    · rintro f hf
      obtain rfl := Option.some.inj hf
      rfl
    · intro hnone
      cases hnone
    · exact fun f hf => (hlt f hf).le
    · exact fun _ => hlt
    · exact fun _ => rfl
  · refine ⟨hnewest, hheld, hpushed, ?_, ?_⟩
    · intro hpc'
      cases hr : s.ready_to_send with
      | true => exact hfresh (.inl ⟨hpc, hr⟩)
      | false => simp [hr] at hpc'
    · intro hpc'
      cases hr : s.ready_to_send with
      | true => rfl
      | false => simp [hr] at hpc'
  · have hready := hbusy (by simp [hpc])
    refine ⟨hnewest, hheld, ?_, by simp, fun _ => hready⟩
    intro g hg
    rcases List.mem_append.mp hg with hg | hg
    · exact hpushed g hg
    · obtain rfl := List.mem_singleton.mp hg
      exact (hnewest g hf).le
  · exact ⟨hnewest, hheld, hpushed, by simp, fun _ => hbusy (by simp [hpc])⟩
  · exact ⟨hnewest, hheld, hpushed, by simp, fun _ => hbusy (by simp [hpc])⟩
  · exact ⟨hnewest, fun hn => ⟨(hheld hn).1, rfl⟩, hpushed, by simp, by simp⟩

theorem inv_of_reach {ok : Streamer Mat → StreamEvent Mat → Prop} {s : Streamer Mat}
    (h : (machine Mat).Reach ok s) : Inv s := by
  apply h.invariant inv_new
  intro _ _ _ hi _ hs
  exact hi.step hs

-- ---------------------------------------------------------------------------
-- In order and at most once
-- ---------------------------------------------------------------------------

/-- The streamer as a sampler of the numbers of the pushes. -/
structure Samples (s : Streamer Mat) (t : Sampler ℕ) : Prop where
  inv : Inv s
  newest : t.newest = s.frame_to_send.map Pushed.index
  taken : t.taken = s.encoded.map Pushed.index

theorem samples_pushFrame {s : Streamer Mat} {t : Sampler ℕ} (h : Samples s t) (frame : Mat)
    (hinv : Inv (s.pushFrame frame)) :
    ∃ t', t.step (.offer (s.pushed + 1)) = some t' ∧ Samples (s.pushFrame frame) t' := by
  refine ⟨{ t with newest := some (s.pushed + 1) }, ?_, hinv, rfl, h.taken⟩
  cases hf : s.frame_to_send with
  | none => simp [Sampler.step, h.newest, hf]
  | some f =>
    have hlt : f.index < s.pushed + 1 := by
      rw [h.inv.newest f hf]
      exact Nat.lt_succ_self s.pushed
    simp [Sampler.step, h.newest, hf, hlt]

theorem samples_encode {s : Streamer Mat} {t : Sampler ℕ} (h : Samples s t) {f : Pushed Mat}
    (hpc : s.pc = .encode) (hf : s.frame_to_send = some f)
    (hinv : Inv { s with pc := .receive, encoded := s.encoded ++ [f] }) :
    ∃ t', t.step .take = some t' ∧
      Samples { s with pc := .receive, encoded := s.encoded ++ [f] } t' := by
  have hnew : f.index ∉ t.taken := by
    rw [h.taken, h.inv.newest f hf]
    intro hmem
    obtain ⟨g, hg, heq⟩ := List.mem_map.mp hmem
    exact (h.inv.fresh (.inr hpc) g hg).ne heq
  have hn : t.newest = some f.index := by
    rw [h.newest, hf]
    rfl
  refine ⟨{ t with taken := t.taken ++ [f.index] }, ?_, hinv, h.newest, ?_⟩
  · simp [Sampler.step, hn, hnew]
  · simp [h.taken]

/-- Every step of the two threads is a step of the sampler, or none. -/
theorem forward_sampler :
    (machine Mat).Forward (Sampler.machine ℕ) (fun _ _ => True) (fun _ _ => True) Samples where
  init := ⟨inv_new, rfl, rfl⟩
  step := by
    intro s s' e t h _ hs
    have hinv := h.inv.step hs
    obtain ⟨frame, rfl, rfl⟩ | ⟨rfl, -, rfl⟩ | ⟨f, rfl, hpc, hf, rfl⟩ | ⟨rfl, -, rfl⟩ |
      ⟨rfl, -, rfl⟩ | ⟨rfl, -, rfl⟩ := step_cases hs
    · obtain ⟨t', ht, h'⟩ := samples_pushFrame h frame hinv
      exact .inr ⟨.offer (s.pushed + 1), t', trivial, ht, h'⟩
    · exact .inl ⟨hinv, h.newest, h.taken⟩
    · obtain ⟨t', ht, h'⟩ := samples_encode h hpc hf hinv
      exact .inr ⟨.take, t', trivial, ht, h'⟩
    · exact .inl ⟨hinv, h.newest, h.taken⟩
    · exact .inl ⟨hinv, h.newest, h.taken⟩
    · exact .inl ⟨hinv, h.newest, h.taken⟩

/-- Frames are encoded in the order of their pushes, and none twice. -/
theorem encoded_increasing {Mat : Type} {s : Streamer Mat} (h : (machine Mat).Reachable s) :
    (s.encoded.map Pushed.index).Pairwise (· < ·) := by
  obtain ⟨t, ht, hsamples⟩ := forward_sampler.reach h
  rw [← hsamples.taken]
  exact Sampler.taken_increasing ht

theorem encoded_increasing_two :
    ∃ s, (machine Unit).run new [.pushFrame (), .check, .encode, .pushFrame (),
      .waitForClient, .send,
      .clear, .pushFrame (), .check, .encode] = some s ∧ s.encoded.map Pushed.index = [1, 3] ∧
      (s.encoded.map Pushed.index).Pairwise (· < ·) := by
  have hrun : (machine Unit).run new [.pushFrame (), .check, .encode, .pushFrame (), .waitForClient,
      .send, .clear, .pushFrame (), .check, .encode] = some _ := rfl
  exact ⟨_, hrun, rfl, encoded_increasing (Machine.reachable_of_run hrun)⟩

-- ---------------------------------------------------------------------------
-- What is encoded
-- ---------------------------------------------------------------------------

end Streamer

def StreamEvent.frame {Mat : Type} : StreamEvent Mat → Option Mat
  | .pushFrame frame => some frame
  | _ => none

def numbered {Mat : Type} (frames : List Mat) : List (Pushed Mat) :=
  frames.mapIdx fun i frame => ⟨i + 1, frame⟩

theorem numbered_append {Mat : Type} (frames : List Mat) (frame : Mat) :
    numbered (frames ++ [frame]) = numbered frames ++ [⟨frames.length + 1, frame⟩] := by
  simp [numbered, List.mapIdx_append]

namespace Streamer

/-- The streamer has been given these frames. -/
structure Uploads (frames : List Mat) (s : Streamer Mat) : Prop where
  inv : Inv s
  pushed : s.pushed = frames.length
  newest : s.frame_to_send = (numbered frames).getLast?
  encoded : s.encoded.Sublist (numbered frames)

theorem Uploads.encode {frames : List Mat} {s : Streamer Mat} (h : Uploads frames s)
    {f : Pushed Mat}
    (hpc : s.pc = .encode) (hf : s.frame_to_send = some f) :
    (s.encoded ++ [f]).Sublist (numbered frames) := by
  have hlast : (numbered frames).getLast? = some f := h.newest.symm.trans hf
  obtain ⟨before, hbefore⟩ := List.getLast?_eq_some_iff.mp hlast
  have hnew : f ∉ s.encoded := by
    intro hmem
    have hlt := h.inv.fresh (.inr hpc) f hmem
    rw [h.inv.newest f hf] at hlt
    exact absurd hlt (lt_irrefl _)
  have hsub := h.encoded
  rw [hbefore] at hsub ⊢
  obtain ⟨first, second, hsplit, hfirst, hsecond⟩ := List.sublist_append_iff.mp hsub
  rcases List.sublist_singleton.mp hsecond with rfl | rfl
  · rw [hsplit, List.append_nil]
    exact hfirst.append (List.Sublist.refl _)
  · exact absurd (hsplit ▸ List.mem_append_right _ List.mem_cons_self) hnew

theorem Uploads.step {frames : List Mat} {s s' : Streamer Mat} {e : StreamEvent Mat}
    (h : Uploads frames s) (hs : s.step e = some s') : Uploads (frames ++ e.frame.toList) s' := by
  have hinv := h.inv.step hs
  have hquiet {t : Streamer Mat} (ht : Uploads frames t) : Uploads (frames ++ []) t := by
    rwa [List.append_nil]
  obtain ⟨frame, rfl, rfl⟩ | ⟨rfl, hpc, rfl⟩ | ⟨f, rfl, hpc, hf, rfl⟩ | ⟨rfl, hpc, rfl⟩ |
    ⟨rfl, hpc, rfl⟩ | ⟨rfl, hpc, rfl⟩ := step_cases hs
  · have hnumbered := numbered_append frames frame
    refine ⟨hinv, ?_, ?_, ?_⟩
    · simp [pushFrame, StreamEvent.frame, h.pushed]
    · simp [pushFrame, StreamEvent.frame, hnumbered, h.pushed]
    · rw [StreamEvent.frame, Option.toList_some, hnumbered]
      exact h.encoded.trans (List.sublist_append_left _ _)
  · exact hquiet ⟨hinv, h.pushed, h.newest, h.encoded⟩
  · exact hquiet ⟨hinv, h.pushed, h.newest, h.encode hpc hf⟩
  · exact hquiet ⟨hinv, h.pushed, h.newest, h.encoded⟩
  · exact hquiet ⟨hinv, h.pushed, h.newest, h.encoded⟩
  · exact hquiet ⟨hinv, h.pushed, h.newest, h.encoded⟩

-- ---------------------------------------------------------------------------
-- Lost frames
-- ---------------------------------------------------------------------------

/-- The streamer has encoded the frame of this iteration and not yet cleared
the flag. -/
def Uploading (s : Streamer Mat) : Prop := s.pc = .receive ∨ s.pc = .send ∨ s.pc = .clear

def Encoded (s : Streamer Mat) (index : ℕ) : Prop := ∃ f ∈ s.encoded, f.index = index

/-- A streamer between two iterations that has nothing to send has encoded the
newest frame. -/
def UpToDate (s : Streamer Mat) : Prop :=
  s.pc = .check → s.ready_to_send = false → 0 < s.pushed → s.Encoded s.pushed

/-- No frame is pushed during an upload. -/
def PushedInTime (s : Streamer Mat) (e : StreamEvent Mat) : Prop :=
  ∀ frame, e = .pushFrame frame → ¬ s.Uploading

/-- During an upload the newest frame is the one that is being sent. -/
structure Current (s : Streamer Mat) : Prop where
  inv : Inv s
  idle : s.UpToDate
  uploading : s.Uploading → s.Encoded s.pushed

theorem Current.step {s s' : Streamer Mat} {e : StreamEvent Mat} (h : Current s)
    (hok : s.PushedInTime e) (hs : s.step e = some s') : Current s' := by
  have hinv := h.inv.step hs
  obtain ⟨frame, rfl, rfl⟩ | ⟨rfl, hpc, rfl⟩ | ⟨f, rfl, hpc, hf, rfl⟩ | ⟨rfl, hpc, rfl⟩ |
    ⟨rfl, hpc, rfl⟩ | ⟨rfl, hpc, rfl⟩ := step_cases hs
  · refine ⟨hinv, ?_, ?_⟩
    · intro _ hready
      cases hready
    · intro hup
      exact absurd hup (hok frame rfl)
  · cases hr : s.ready_to_send with
    | true => exact ⟨hr ▸ hinv, by simp [UpToDate], by simp [Uploading]⟩
    | false => exact ⟨hr ▸ hinv, fun _ hready hpos => h.idle hpc hr hpos, by simp [Uploading]⟩
  · have henc : ∃ g ∈ s.encoded ++ [f], g.index = s.pushed := ⟨f, by simp, h.inv.newest f hf⟩
    exact ⟨hinv, by simp [UpToDate], fun _ => henc⟩
  · exact ⟨hinv, by simp [UpToDate], fun _ => h.uploading (.inl hpc)⟩
  · exact ⟨hinv, by simp [UpToDate], fun _ => h.uploading (.inr (.inl hpc))⟩
  · exact ⟨hinv, fun _ _ _ => h.uploading (.inr (.inr hpc)), by simp [Uploading]⟩

theorem current_of_reach {s : Streamer Mat} (h : (machine Mat).Reach PushedInTime s) :
    Current s := by
  apply h.invariant ⟨inv_new, by simp [UpToDate, machine, new], by simp [Uploading, machine, new]⟩
  intro _ _ _ hc hok hs
  exact hc.step hok hs

theorem finish_upload {s : Streamer Mat} (h : s.Uploading) :
    ∃ es, (∀ e ∈ es, ∀ frame, e ≠ .pushFrame frame) ∧
      (machine Mat).run s es = some { s with pc := .check, ready_to_send := false } := by
  rcases h with h | h | h
  · exact ⟨[.waitForClient, .send, .clear], by simp, by simp [Machine.run, machine, step, h]⟩
  · exact ⟨[.send, .clear], by simp, by simp [Machine.run, machine, step, h]⟩
  · exact ⟨[.clear], by simp, by simp [Machine.run, machine, step, h]⟩

/-- A frame pushed during an upload is lost: the end of the iteration clears
its flag. -/
theorem lost_of_late_push {s : Streamer Mat} (h : (machine Mat).Reachable s) (hup : s.Uploading)
    (frame : Mat) :
    ∃ es s', (∀ e ∈ es, ∀ f, e ≠ .pushFrame f) ∧
      (machine Mat).run (s.pushFrame frame) es = some s' ∧ ¬ s'.UpToDate := by
  have hup' : (s.pushFrame frame).Uploading := hup
  obtain ⟨es, hes, hrun⟩ := finish_upload hup'
  refine ⟨es, _, hes, hrun, fun hidle => ?_⟩
  obtain ⟨f, hf, hindex⟩ := hidle rfl rfl (Nat.succ_pos s.pushed)
  have hle := (inv_of_reach h).pushed f hf
  have hnew : f.index = s.pushed + 1 := hindex
  omega

/-- No frame is lost in a run that pushes none during an upload, and every
push during an upload can lose its frame. -/
theorem handoff_upToDate (Mat : Type) :
    (∀ s : Streamer Mat, (machine Mat).Reach PushedInTime s → s.UpToDate) ∧
      ∀ (s : Streamer Mat) (frame : Mat), (machine Mat).Reachable s → s.Uploading →
        ∃ es s', (∀ e ∈ es, ∀ f, e ≠ .pushFrame f) ∧
          (machine Mat).run (s.pushFrame frame) es = some s' ∧ ¬ s'.UpToDate :=
  ⟨fun _ h => (current_of_reach h).idle, fun _ frame h hup => lost_of_late_push h hup frame⟩

theorem handoff_lost :
    ∃ s, (machine Unit).run new [.pushFrame (), .check, .encode, .pushFrame (),
      .waitForClient, .send,
      .clear] = some s ∧ s.pc = .check ∧ s.ready_to_send = false ∧ s.pushed = 2 ∧
      s.encoded.map Pushed.index = [1] ∧ ¬ s.UpToDate := by
  refine ⟨_, rfl, rfl, rfl, rfl, rfl, fun h => ?_⟩
  obtain ⟨f, hf, hindex⟩ := h rfl rfl (by decide)
  obtain rfl := List.mem_singleton.mp hf
  exact absurd hindex (by decide)

end Streamer

end LineFollower
