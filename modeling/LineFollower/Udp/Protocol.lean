import LineFollower.Udp.Streamer

/-!
# Requests and frames

The client sends a request and waits for a frame; the streamer, with frames
always available, encodes one, waits for a request and sends the frame. A
datagram in flight is delivered when its receiver takes it, and can be lost
before. Neither side sends again when nothing comes, so one lost datagram
stops the stream for good (`deadlock_iff_lost`).
-/

namespace LineFollower

open Lib

inductive ClientPc
  | send
  | receive
  deriving DecidableEq, Repr

structure Stream where
  client : ClientPc
  streamer : Pc
  requests : Nat
  frames : Nat
  deriving DecidableEq, Repr

inductive StreamStep
  | clientSend
  | clientReceive
  | streamer
  | loseRequest
  | loseFrame
  deriving DecidableEq, Repr

def StreamStep.Loss : StreamStep → Prop
  | .loseRequest => True
  | .loseFrame => True
  | _ => False

namespace Stream

def step (s : Stream) : StreamStep → Option Stream
  | .clientSend =>
    if s.client = .send then some { s with client := .receive, requests := s.requests + 1 }
      else none
  | .clientReceive =>
    if s.client = .receive ∧ 0 < s.frames then
      some { s with client := .send, frames := s.frames - 1 }
    else none
  | .streamer =>
    match s.streamer with
    | .receive =>
      if 0 < s.requests then
        some { s with streamer := .send, requests := s.requests - 1 }
      else none
    | .send => some { s with streamer := .clear, frames := s.frames + 1 }
    | pc => some { s with streamer := pc.next }
  | .loseRequest => if 0 < s.requests then some { s with requests := s.requests - 1 } else none
  | .loseFrame => if 0 < s.frames then some { s with frames := s.frames - 1 } else none

def machine : Machine Stream StreamStep where
  init := ⟨.send, .check, 0, 0⟩
  step := step

/-- Both programs are blocked and nothing is in flight. -/
def Deadlocked (s : Stream) : Prop :=
  s.client = .receive ∧ s.streamer = .receive ∧ s.requests = 0 ∧ s.frames = 0

/-- The requests that are or will be answered: in flight, taken by the
streamer, or answered with a frame in flight. -/
def pending (s : Stream) : Nat := s.requests + s.frames + if s.streamer = .send then 1 else 0

theorem frames_le_pending (s : Stream) : s.frames ≤ s.pending := by
  unfold pending
  omega

theorem pending_of_send {s : Stream} (h : s.streamer = .send) :
    s.pending = s.requests + s.frames + 1 := by
  rw [pending, if_pos h]

theorem step_cases {s s' : Stream} {l : StreamStep} (h : s.step l = some s') :
    (l = .clientSend ∧ s.client = .send ∧
      s' = { s with client := .receive, requests := s.requests + 1 }) ∨
    (l = .clientReceive ∧ s.client = .receive ∧ 0 < s.frames ∧
      s' = { s with client := .send, frames := s.frames - 1 }) ∨
    (l = .streamer ∧ s.streamer = .receive ∧ 0 < s.requests ∧
      s' = { s with streamer := .send, requests := s.requests - 1 }) ∨
    (l = .streamer ∧ s.streamer = .send ∧ s' =
      { s with streamer := .clear, frames := s.frames + 1 }) ∨
    (l = .streamer ∧ s.streamer ≠ .receive ∧ s.streamer ≠ .send ∧
      s' = { s with streamer := s.streamer.next }) ∨
    (l = .loseRequest ∧ 0 < s.requests ∧ s' = { s with requests := s.requests - 1 }) ∨
    (l = .loseFrame ∧ 0 < s.frames ∧ s' = { s with frames := s.frames - 1 }) := by
  cases l with
  | clientSend =>
    simp only [step, Option.ite_none_right_eq_some, Option.some.injEq] at h
    exact .inl ⟨rfl, h.1, h.2.symm⟩
  | clientReceive =>
    simp only [step, Option.ite_none_right_eq_some, Option.some.injEq] at h
    exact .inr (.inl ⟨rfl, h.1.1, h.1.2, h.2.symm⟩)
  | streamer =>
    simp only [step] at h
    split at h
    · rename_i hpc
      simp only [Option.ite_none_right_eq_some, Option.some.injEq] at h
      exact .inr (.inr (.inl ⟨rfl, hpc, h.1, h.2.symm⟩))
    · rename_i hpc
      exact .inr (.inr (.inr (.inl ⟨rfl, hpc, (Option.some.inj h).symm⟩)))
    · rename_i hreceive hsend
      exact .inr (.inr (.inr (.inr (.inl ⟨rfl, hreceive, hsend, (Option.some.inj h).symm⟩))))
  | loseRequest =>
    simp only [step, Option.ite_none_right_eq_some, Option.some.injEq] at h
    exact .inr (.inr (.inr (.inr (.inr (.inl ⟨rfl, h.1, h.2.symm⟩)))))
  | loseFrame =>
    simp only [step, Option.ite_none_right_eq_some, Option.some.injEq] at h
    exact .inr (.inr (.inr (.inr (.inr (.inr ⟨rfl, h.1, h.2.symm⟩)))))

/-- A request sets out, its answer arrives, or it is lost; the streamer only
passes it on. -/
theorem step_pending {s s' : Stream} {l : StreamStep} (h : s.step l = some s') :
    (l = .clientSend ∧ s.client = .send ∧ s'.client = .receive ∧ s'.pending = s.pending + 1) ∨
    (l = .clientReceive ∧ s.client = .receive ∧ s'.client = .send ∧ s.pending = s'.pending + 1) ∨
    (l = .streamer ∧ s'.client = s.client ∧ s'.pending = s.pending) ∨
    (l.Loss ∧ s'.client = s.client ∧ s.pending = s'.pending + 1) := by
  obtain ⟨rfl, hc, rfl⟩ | ⟨rfl, hc, hf, rfl⟩ | ⟨rfl, hpc, hr, rfl⟩ | ⟨rfl, hpc, rfl⟩ |
    ⟨rfl, hne, hne', rfl⟩ | ⟨rfl, hr, rfl⟩ | ⟨rfl, hf, rfl⟩ := step_cases h
  · refine .inl ⟨rfl, hc, rfl, ?_⟩
    simp only [pending]
    omega
  · refine .inr (.inl ⟨rfl, hc, rfl, ?_⟩)
    simp only [pending]
    omega
  · -- the request is in the streamer's hands
    refine .inr (.inr (.inl ⟨rfl, rfl, ?_⟩))
    simp only [pending, hpc]
    simp
    omega
  · refine .inr (.inr (.inl ⟨rfl, rfl, ?_⟩))
    simp only [pending, hpc]
    simp
    omega
  · refine .inr (.inr (.inl ⟨rfl, rfl, ?_⟩))
    cases hpc : s.streamer <;> simp_all [pending, Pc.next]
  · refine .inr (.inr (.inr ⟨trivial, rfl, ?_⟩))
    simp only [pending]
    omega
  · refine .inr (.inr (.inr ⟨trivial, rfl, ?_⟩))
    simp only [pending]
    omega

-- ---------------------------------------------------------------------------
-- What a step preserves
-- ---------------------------------------------------------------------------

/-- One request is on its way exactly while the client waits. -/
def Live (s : Stream) : Prop :=
  (s.client = .send ∧ s.pending = 0) ∨ (s.client = .receive ∧ s.pending = 1)

/-- The client waits, and nothing is on its way. -/
def Dead (s : Stream) : Prop := s.client = .receive ∧ s.pending = 0

theorem Live.step {s s' : Stream} {l : StreamStep} (h : Live s) (hl : ¬ l.Loss)
    (hs : s.step l = some s') : Live s' := by
  obtain ⟨-, hc, hc', hp'⟩ | ⟨-, hc, hc', hp'⟩ | ⟨-, hc', hp'⟩ | ⟨hloss, -, -⟩ := step_pending hs
  · obtain ⟨-, hp⟩ | ⟨hwaits, -⟩ := h
    · exact .inr ⟨hc', by rw [hp', hp]⟩
    · rw [hc] at hwaits
      cases hwaits
  · obtain ⟨hsends, -⟩ | ⟨-, hp⟩ := h
    · rw [hc] at hsends
      cases hsends
    · rw [hp'] at hp
      exact .inl ⟨hc', Nat.succ.inj hp⟩
  · rw [Live, hc', hp']
    exact h
  · exact absurd hloss hl

theorem Live.lose {s s' : Stream} {l : StreamStep} (h : Live s) (hl : l.Loss)
    (hs : s.step l = some s') : Dead s' := by
  obtain ⟨rfl, -⟩ | ⟨rfl, -⟩ | ⟨rfl, -⟩ | ⟨-, hc', hp'⟩ := step_pending hs
  · exact hl.elim
  · exact hl.elim
  · exact hl.elim
  · obtain ⟨-, hp⟩ | ⟨hc, hp⟩ := h
    · rw [hp'] at hp
      cases hp
    · rw [hp'] at hp
      exact ⟨hc'.trans hc, Nat.succ.inj hp⟩

theorem Dead.step {s s' : Stream} {l : StreamStep} (h : Dead s) (hs : s.step l = some s') :
    Dead s' := by
  obtain ⟨hwaits, hp⟩ := h
  obtain ⟨-, hc, -⟩ | ⟨-, -, -, hp'⟩ | ⟨-, hc', hp'⟩ | ⟨-, -, hp'⟩ := step_pending hs
  · rw [hwaits] at hc
    cases hc
  · rw [hp'] at hp
    cases hp
  · exact ⟨hc'.trans hwaits, hp'.trans hp⟩
  · rw [hp'] at hp
    cases hp

theorem live_or_dead_step {s s' : Stream} {l : StreamStep} (h : Live s ∨ Dead s)
    (hs : s.step l = some s') : Live s' ∨ Dead s' := by
  rcases h with h | h
  · by_cases hl : l.Loss
    · exact .inr (h.lose hl hs)
    · exact .inl (h.step hl hs)
  · exact .inr (h.step hs)

theorem pending_le_one {s : Stream} (h : Live s ∨ Dead s) : s.pending ≤ 1 := by
  rcases h with (⟨-, hp⟩ | ⟨-, hp⟩) | ⟨-, hp⟩
  · exact hp.trans_le (Nat.zero_le 1)
  · exact hp.le
  · exact hp.trans_le (Nat.zero_le 1)

-- ---------------------------------------------------------------------------
-- Runs
-- ---------------------------------------------------------------------------

theorem run_dead {s s' : Stream} {ls : List StreamStep} (h : Dead s)
    (hr : machine.run s ls = some s') : Dead s' := by
  induction ls generalizing s with
  | nil =>
    obtain rfl := Option.some.inj hr
    exact h
  | cons l ls ih =>
    obtain ⟨next, hs, hr⟩ := Option.bind_eq_some_iff.mp hr
    exact ih (h.step hs) hr

theorem run_live {s s' : Stream} {ls : List StreamStep} (h : Live s)
    (hr : machine.run s ls = some s') :
    ((∀ l ∈ ls, ¬ l.Loss) ∧ Live s') ∨ ((∃ l ∈ ls, l.Loss) ∧ Dead s') := by
  induction ls generalizing s with
  | nil =>
    obtain rfl := Option.some.inj hr
    exact .inl ⟨by simp, h⟩
  | cons l ls ih =>
    obtain ⟨next, hs, hr⟩ := Option.bind_eq_some_iff.mp hr
    by_cases hl : l.Loss
    · exact .inr ⟨⟨l, List.mem_cons_self, hl⟩, run_dead (h.lose hl hs) hr⟩
    · rcases ih (h.step hl hs) hr with ⟨hls, hlive⟩ | ⟨⟨k, hk, hloss⟩, hdead⟩
      · exact .inl ⟨List.forall_mem_cons.mpr ⟨hl, hls⟩, hlive⟩
      · exact .inr ⟨⟨k, List.mem_cons_of_mem _ hk, hloss⟩, hdead⟩

theorem Live.not_deadlocked {s : Stream} (h : Live s) : ¬ s.Deadlocked := by
  rintro ⟨hc, hpc, hr, hf⟩
  obtain ⟨hc', -⟩ | ⟨-, hp⟩ := h
  · rw [hc] at hc'
    cases hc'
  · simp [pending, hpc, hr, hf] at hp

theorem Dead.deadlock {s : Stream} (h : Dead s) :
    ∃ es s', (∀ e ∈ es, e = .streamer) ∧ machine.run s es = some s' ∧ s'.Deadlocked := by
  obtain ⟨hc, hp⟩ := h
  obtain ⟨client, pc, requests, frames⟩ := s
  simp only [pending] at hc hp
  subst hc
  have hr : requests = 0 := by omega
  have hf : frames = 0 := by omega
  subst hr hf
  cases pc with
  | check => exact ⟨[.streamer, .streamer], _, by simp, rfl, rfl, rfl, rfl, rfl⟩
  | encode => exact ⟨[.streamer], _, by simp, rfl, rfl, rfl, rfl, rfl⟩
  | receive => exact ⟨[], _, by simp, rfl, rfl, rfl, rfl, rfl⟩
  | send => simp at hp
  | clear => exact ⟨[.streamer, .streamer, .streamer], _, by simp, rfl, rfl, rfl, rfl, rfl⟩

/-- Nothing can happen exactly when both are blocked on an empty channel. -/
theorem stuck_iff {s : Stream} : (∀ l, s.step l = none) ↔ s.Deadlocked := by
  constructor
  · intro h
    have hclient : s.client = .receive := by
      cases hc : s.client with
      | send => simpa [step, hc] using h .clientSend
      | receive => rfl
    have hframes : s.frames = 0 := by simpa [step] using h .loseFrame
    have hrequests : s.requests = 0 := by simpa [step] using h .loseRequest
    have hpc : s.streamer = .receive := by
      cases hp : s.streamer with
      | receive => rfl
      | check => simpa [step, hp] using h .streamer
      | encode => simpa [step, hp] using h .streamer
      | send => simpa [step, hp] using h .streamer
      | clear => simpa [step, hp] using h .streamer
    exact ⟨hclient, hpc, hrequests, hframes⟩
  · rintro ⟨hc, hpc, hr, hf⟩ l
    cases l <;> simp [step, hc, hpc, hr, hf]

/-- A run can go on to a deadlock without another loss exactly when it has
lost a datagram. -/
theorem deadlock_iff_lost {ls : List StreamStep} {s : Stream}
    (h : machine.run machine.init ls = some s) :
    (∃ es s', (∀ e ∈ es, ¬ e.Loss) ∧ machine.run s es = some s' ∧ s'.Deadlocked) ↔
      ∃ l ∈ ls, l.Loss := by
  have hinit : Live machine.init := .inl ⟨rfl, rfl⟩
  rcases run_live hinit h with ⟨hls, hlive⟩ | ⟨hloss, hdead⟩
  · refine iff_of_false ?_ fun ⟨l, hl, hloss⟩ => hls l hl hloss
    rintro ⟨es, s', hes, hr, hdeadlock⟩
    rcases run_live hlive hr with ⟨-, hlive'⟩ | ⟨⟨e, he, hloss⟩, -⟩
    · exact hlive'.not_deadlocked hdeadlock
    · exact hes e he hloss
  · obtain ⟨es, s', hes, hr, hdeadlock⟩ := hdead.deadlock
    exact iff_of_true ⟨es, s', fun e he => hes e he ▸ id, hr, hdeadlock⟩ hloss

theorem deadlock_iff_lost_frame :
    ∃ s, machine.run machine.init [.clientSend, .streamer, .streamer, .streamer, .streamer,
      .clientReceive] = some s ∧
      ((∃ es s', (∀ e ∈ es, ¬ e.Loss) ∧ machine.run s es = some s' ∧ s'.Deadlocked) ↔
        ∃ l ∈ [StreamStep.clientSend, .streamer, .streamer, .streamer, .streamer, .clientReceive],
          l.Loss) := by
  have hrun : machine.run machine.init [.clientSend, .streamer, .streamer, .streamer, .streamer,
      .clientReceive] = some _ := rfl
  exact ⟨_, hrun, deadlock_iff_lost hrun⟩

theorem deadlock_lost_request :
    ∃ s, machine.run machine.init [.clientSend, .loseRequest, .streamer, .streamer] = some s ∧
      s.Deadlocked ∧ ∀ l, s.step l = none := by
  refine ⟨_, rfl, ⟨rfl, rfl, rfl, rfl⟩, fun l => ?_⟩
  cases l <;> rfl

end Stream

end LineFollower
