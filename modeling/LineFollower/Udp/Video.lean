import LineFollower.Lib.Fairness
import LineFollower.Udp.Link

/-!
# The video over time

What a client sees of an endless run. While nothing is lost and the streamer's
socket works, and when no party is passed over for ever, the video never freezes:
from any time on the client gets another frame (`video_leads`). And the frames are
fresh: whatever fails, what was pushed while a frame was under way is never seen
(`shown_fresh`).
-/

namespace LineFollower

open Lib

namespace Link

variable {Mat : Type}

-- ---------------------------------------------------------------------------
-- Progress
-- ---------------------------------------------------------------------------

inductive Party
  | client
  | streamer
  | main
  deriving DecidableEq, Repr

def Party.acts : Party → LinkEvent Mat → Prop
  | .client, .clientSend => True
  | .client, .clientReceive _ => True
  | .main, .streamer (.pushFrame _) => True
  | .streamer, .streamer (.pushFrame _) => False
  | .streamer, .streamer _ => True
  | _, _ => False

def distance (s : Streamer Mat) : ℕ :=
  match s.pc, s.ready_to_send with
  | .send, _ => 2
  | .receive, _ => 3
  | .encode, _ => 4
  | .check, true => 5
  | .check, false => 6
  | .clear, _ => 7

def rank (s : Link Mat) : ℕ :=
  match s.client with
  | .send => 8
  | .receive => if s.frames = [] then distance s.streamer else 1

def next (s : Link Mat) : Party :=
  match s.client with
  | .send => .client
  | .receive =>
    if s.frames = [] then
      if s.streamer.pc = .check ∧ s.streamer.ready_to_send = false then .main else .streamer
    else .client

structure Flows (s : Link Mat) : Prop where
  hasFrame : HasFrame s.streamer
  inv : s.streamer.Inv
  live : s.protocol.Live

theorem flows_of_reach {s : Link Mat} (h : (machine Mat).Reach (fun _ l => ¬ l.Fails) s) :
    Flows s := by
  obtain ⟨t, ht, hshows⟩ := forward_stream.reach h
  have hlive : Stream.Live t := by
    apply ht.invariant (.inl ⟨rfl, rfl⟩)
    intro _ _ _ hi hk hs
    exact hi.step hk hs
  obtain ⟨_, hstreamer, rfl⟩ := forward_streamer.reach h
  exact ⟨hshows.hasFrame, Streamer.inv_of_reach hstreamer, hshows.protocol ▸ hlive⟩

theorem distance_step {s t : Streamer Mat} {e : StreamEvent Mat} (he : e ≠ .waitForClient)
    (he' : e ≠ .send) (hs : s.step e = some t) :
    distance t < distance s ∨
      (distance t = distance s ∧ (t.pc = .check ∧ t.ready_to_send = false ↔
        s.pc = .check ∧ s.ready_to_send = false) ∧
        ((∃ frame, e = .pushFrame frame) ∧ ¬ (s.pc = .check ∧ s.ready_to_send = false) ∨
          (e = .check ∧ s.pc = .check ∧ s.ready_to_send = false))) := by
  obtain ⟨frame, rfl, rfl⟩ | ⟨rfl, hpc, rfl⟩ | ⟨f, rfl, hpc, hf, rfl⟩ | ⟨rfl, -, -⟩ |
    ⟨rfl, -, -⟩ | ⟨rfl, hpc, rfl⟩ := Streamer.step_cases hs
  · cases hpc : s.pc <;> cases hr : s.ready_to_send <;>
      simp [distance, Streamer.pushFrame, hpc, hr]
  · cases hr : s.ready_to_send <;> simp [distance, hpc, hr]
  · simp [distance, hpc]
  · exact absurd rfl he
  · exact absurd rfl he'
  · simp [distance, hpc]

theorem distance_le (s : Streamer Mat) : distance s ≤ 7 := by
  unfold distance
  split <;> decide

theorem last_ne_nil {s : Streamer Mat} (h : HasFrame s) (hpc : s.pc = .send) :
    s.encoded.getLast?.toList ≠ [] := by
  rw [List.getLast?_eq_some_getLast (h (.inr (.inl hpc)))]
  exact List.cons_ne_nil _ _

/-- While nothing fails every step takes the client nearer to its next frame, or is
not by the one who is to move. -/
theorem step_nearer {s s' : Link Mat} {l : LinkEvent Mat} (h : Flows s) (hl : ¬ l.Fails)
    (hs : s.step l = some s') :
    s.shown.length < s'.shown.length ∨ rank s' < rank s ∨
      (rank s' = rank s ∧ s'.next = s.next ∧ ¬ s.next.acts l) := by
  obtain ⟨rfl, hc, rfl⟩ | ⟨i, f, rfl, hc, hf, rfl⟩ | ⟨t, rfl, hr, ht, rfl⟩ | ⟨t, rfl, ht, rfl⟩ |
    ⟨e, t, rfl, he, he', ht, rfl⟩ | ⟨rfl, hr, rfl⟩ | ⟨i, rfl, hi, rfl⟩ | ⟨t, rfl, -⟩ |
    ⟨t, rfl, -⟩ := step_cases hs
  · right; left
    have hle := distance_le s.streamer
    simp only [rank, hc]
    split <;> omega
  · exact .inl (by simp)
  · obtain ⟨hpc, rfl⟩ := Streamer.step_waitForClient.mp ht
    cases hc : s.client with
    | send => simp [rank, next, hc, Party.acts]
    | receive =>
      by_cases hf : s.frames = []
      · simp [rank, hc, hf, distance, hpc]
      · simp [rank, next, hc, hf, Party.acts]
  · obtain ⟨hpc, rfl⟩ := Streamer.step_send.mp ht
    have hlast := last_ne_nil h.hasFrame hpc
    cases hc : s.client with
    | send => simp [rank, next, hc, Party.acts]
    | receive =>
      by_cases hf : s.frames = []
      · simp only [rank, hc, hf, List.nil_append, hlast, distance, hpc]
        simp
      · simp [rank, next, hc, hf, Party.acts]
  · cases hc : s.client with
    | send => simp [rank, next, hc, Party.acts]
    | receive =>
      by_cases hf : s.frames = []
      · obtain hlt | ⟨heq, hidle, ⟨⟨frame, rfl⟩, hbusy⟩ | ⟨rfl, hpc, hr⟩⟩ := distance_step he he' ht
        · exact .inr (.inl (by simpa only [rank, hc, hf, if_true] using hlt))
        · right; right
          have hbusy' := mt hidle.mp hbusy
          simp only [rank, next, hc, hf, if_true, if_neg hbusy, if_neg hbusy', true_and]
          exact ⟨heq, id⟩
        · right; right
          have hidle' := hidle.mpr ⟨hpc, hr⟩
          simp only [rank, next, hc, hf, if_true, if_pos hidle',
            if_pos (And.intro hpc hr), true_and]
          exact ⟨heq, id⟩
      · simp [rank, next, hc, hf, Party.acts]
  · exact absurd trivial hl
  · exact absurd trivial hl
  · exact absurd trivial hl
  · exact absurd trivial hl

theorem next_can {s : Link Mat} (h : Flows s) (frame : Mat) :
    ∃ l, s.next.acts l ∧ (machine Mat).step s l ≠ none := by
  cases hc : s.client with
  | send => exact ⟨.clientSend, by simp [next, hc, Party.acts], by simp [machine, step, hc]⟩
  | receive =>
    cases hf : s.frames with
    | cons f fs =>
      exact ⟨.clientReceive 0, by simp [next, hc, hf, Party.acts], by simp [machine, step, hc, hf]⟩
    | nil =>
      cases hpc : s.streamer.pc with
      | check =>
        cases hr : s.streamer.ready_to_send with
        | false =>
          exact ⟨.streamer (.pushFrame frame), by simp [next, hc, hf, hpc, hr, Party.acts],
            by simp [machine, step, Streamer.step]⟩
        | true =>
          exact ⟨.streamer .check, by simp [next, hc, hf, hpc, hr, Party.acts],
            by simp [machine, step, Streamer.step, hpc]⟩
      | encode =>
        have hready := h.inv.busy (by simp [hpc])
        have hframe : s.streamer.frame_to_send ≠ none := fun hnone => by
          rw [(h.inv.held hnone).2] at hready
          cases hready
        obtain ⟨f, hf'⟩ := Option.ne_none_iff_exists'.mp hframe
        exact ⟨.streamer .encode, by simp [next, hc, hf, hpc, Party.acts],
          by simp [machine, step, Streamer.step, hpc, hf']⟩
      | receive =>
        -- the request that the client waits on is in flight
        have hrequest : 0 < s.requests := by
          obtain ⟨hsend, -⟩ | ⟨-, hpending⟩ := h.live
          · rw [show s.protocol.client = s.client from rfl, hc] at hsend
            cases hsend
          · simp [Stream.pending, protocol, hf, hpc] at hpending
            omega
        exact ⟨.streamer .waitForClient, by simp [next, hc, hf, hpc, Party.acts],
          by simp [machine, step, Streamer.step, hpc, hrequest]⟩
      | send =>
        exact ⟨.streamer .send, by simp [next, hc, hf, hpc, Party.acts],
          by simp [machine, step, Streamer.step, hpc]⟩
      | clear =>
        exact ⟨.streamer .clear, by simp [next, hc, hf, hpc, Party.acts],
          by simp [machine, step, Streamer.step, hpc]⟩

theorem length_shown_step {s s' : Link Mat} {l : LinkEvent Mat} (hs : s.step l = some s') :
    s.shown.length ≤ s'.shown.length := by
  obtain ⟨rfl, -, rfl⟩ | ⟨i, f, rfl, -, -, rfl⟩ | ⟨t, rfl, -, ht, rfl⟩ | ⟨t, rfl, ht, rfl⟩ |
    ⟨e, t, rfl, -, -, ht, rfl⟩ | ⟨rfl, -, rfl⟩ | ⟨i, rfl, -, rfl⟩ | ⟨t, rfl, ht, rfl⟩ |
    ⟨t, rfl, ht, rfl⟩ := step_cases hs
  · exact le_rfl
  · simp
  · exact le_rfl
  · exact le_rfl
  · exact le_rfl
  · exact le_rfl
  · exact le_rfl
  · exact le_rfl
  · exact le_rfl

/-- In an endless run that loses nothing and in which the streamer's socket works, the
main thread pushes again and again and neither the client nor the streamer is passed
over for ever, the client gets another frame from any time on. -/
theorem video_leads {t : (machine Mat).Trace} (hfails : ∀ n, ¬ (t.label n).Fails)
    (hclient : t.FairTo Party.client.acts) (hstreamer : t.FairTo Party.streamer.acts)
    (hpush : ∀ n, ∃ k, n ≤ k ∧ ∃ frame, t.label k = .streamer (.pushFrame frame)) (n : ℕ) :
    ∃ k, n ≤ k ∧ (t.state n).shown.length < (t.state k).shown.length := by
  have hfair (p : Party) : t.FairTo p.acts := by
    cases p with
    | client => exact hclient
    | streamer => exact hstreamer
    | main =>
      intro m
      obtain ⟨k, hk, frame, hlabel⟩ := hpush m
      exact ⟨k, hk, .inl (hlabel ▸ trivial)⟩
  obtain ⟨-, -, frame, -⟩ := hpush 0
  have hflows (k : ℕ) : Flows (t.state k) := flows_of_reach (t.reach hfails k)
  have hmono (k : ℕ) (hk : n ≤ k) : (t.state n).shown.length ≤ (t.state k).shown.length := by
    apply t.keeps (I := fun s => (t.state n).shown.length ≤ s.shown.length) _ hk le_rfl
    exact fun m hm => hm.trans (length_shown_step (t.step m))
  refine Machine.Trace.leads (fun s => Flows s ∧ (t.state n).shown.length ≤ s.shown.length)
    (fun s => (t.state n).shown.length < s.shown.length) rank next hfair
    (fun s h _ => next_can h.1 frame) ?_ fun k hk => ⟨hflows k, hmono k hk⟩
  rintro k ⟨h, hle⟩ _
  exact (step_nearer h (hfails k) (t.step k)).imp_left fun hlt => hle.trans_lt hlt

/-- One frame after the other, each pushed when the one before is shown. -/
def frameCycle : List (LinkEvent Unit) :=
  [.streamer (.pushFrame ()), .streamer .check, .clientSend, .streamer .encode,
    .streamer .waitForClient,
    .streamer .send, .clientReceive 0, .streamer .clear]

theorem video_leads_frameCycle :
    ∃ t : (machine Unit).Trace,
      (∀ n, t.label n = frameCycle.get ⟨n % 8, Nat.mod_lt n (by decide)⟩) ∧
      ∀ n, ∃ k, n ≤ k ∧ (t.state n).shown.length < (t.state k).shown.length := by
  have hrun (s : Link Unit)
      (h : s.client = .send ∧ s.streamer.pc = .check ∧ s.requests = 0 ∧ s.frames = []) :
      ∃ s', (machine Unit).run s frameCycle = some s' ∧
        s'.client = .send ∧ s'.streamer.pc = .check ∧ s'.requests = 0 ∧ s'.frames = [] := by
    obtain ⟨client, ⟨frame, ready, pc, pushed, encoded⟩, requests, frames, shown⟩ := s
    obtain ⟨rfl, rfl, rfl, rfl⟩ := h
    simp [frameCycle, Machine.run, machine, step, Streamer.step, Streamer.pushFrame]
  obtain ⟨t, hlabel⟩ := Machine.exists_trace _ frameCycle ⟨rfl, rfl, rfl, rfl⟩ (by decide) hrun
  have hat (i : ℕ) (hi : i < 8) (n : ℕ) :
      n ≤ 8 * n + i ∧ t.label (8 * n + i) = frameCycle.get ⟨i, hi⟩ := by
    have hmod : (8 * n + i) % 8 = i := by rw [Nat.mul_add_mod, Nat.mod_eq_of_lt hi]
    exact ⟨by omega, (hlabel _).trans (congrArg _ (Fin.ext hmod))⟩
  refine ⟨t, hlabel, video_leads ?_ ?_ ?_ ?_⟩
  · intro n
    rw [hlabel]
    have hall : ∀ l ∈ frameCycle, ¬ l.Fails := by simp [frameCycle, LinkEvent.Fails]
    exact hall _ (List.get_mem _ _)
  · exact fun n => ⟨8 * n + 2, (hat 2 (by decide) n).1, .inl ((hat 2 (by decide) n).2 ▸ trivial)⟩
  · exact fun n => ⟨8 * n + 1, (hat 1 (by decide) n).1, .inl ((hat 1 (by decide) n).2 ▸ trivial)⟩
  · exact fun n => ⟨8 * n + 0, (hat 0 (by decide) n).1, (), (hat 0 (by decide) n).2⟩

-- ---------------------------------------------------------------------------
-- Freshness
-- ---------------------------------------------------------------------------

/-- What the client has or will get is old, or was pushed after the frame
number `pushed`. -/
structure FreshAfter (pushed : ℕ) (old : List (Pushed Mat)) (s : Link Mat) : Prop where
  inv : s.streamer.Inv
  traffic : ∀ f ∈ s.shown ++ s.frames, f ∈ old ∨ pushed < f.index
  ready : s.streamer.pc = .check ∧ s.streamer.ready_to_send = true ∨ s.streamer.pc = .encode →
    pushed < s.streamer.pushed
  hand : s.streamer.pc = .receive ∨ s.streamer.pc = .send →
    ∀ f, s.streamer.encoded.getLast? = some f → pushed < f.index
  later : pushed ≤ s.streamer.pushed

theorem FreshAfter.receive {pushed : ℕ} {old : List (Pushed Mat)} {s : Link Mat} {t : Streamer Mat}
    (h : FreshAfter pushed old s) (ht : s.streamer.step .waitForClient = some t) (requests : ℕ) :
    FreshAfter pushed old { s with streamer := t, requests } := by
  have hinv' := h.inv.step ht
  obtain ⟨hpc, rfl⟩ := Streamer.step_waitForClient.mp ht
  exact ⟨hinv', h.traffic, by simp, fun _ => h.hand (.inl hpc), h.later⟩

theorem FreshAfter.step {pushed : ℕ} {old : List (Pushed Mat)} {s s' : Link Mat} {l : LinkEvent Mat}
    (h : FreshAfter pushed old s) (hs : s.step l = some s') : FreshAfter pushed old s' := by
  have hall := h
  obtain ⟨hinv, htraffic, hready, hhand, hlater⟩ := h
  obtain ⟨rfl, -, rfl⟩ | ⟨i, f, rfl, -, hf, rfl⟩ | ⟨t, rfl, -, ht, rfl⟩ | ⟨t, rfl, ht, rfl⟩ |
    ⟨e, t, rfl, he, he', ht, rfl⟩ | ⟨rfl, -, rfl⟩ | ⟨i, rfl, -, rfl⟩ | ⟨t, rfl, ht, rfl⟩ |
    ⟨t, rfl, ht, rfl⟩ := step_cases hs
  · exact ⟨hinv, htraffic, hready, hhand, hlater⟩
  · refine ⟨hinv, ?_, hready, hhand, hlater⟩
    intro g hg
    apply htraffic
    simp only [List.mem_append, List.mem_singleton] at hg ⊢
    rcases hg with (hg | rfl) | hg
    · exact .inl hg
    · exact .inr (List.mem_of_getElem? hf)
    · exact .inr (List.mem_of_mem_eraseIdx hg)
  · exact hall.receive ht _
  · have hinv' := hinv.step ht
    obtain ⟨hpc, rfl⟩ := Streamer.step_send.mp ht
    refine ⟨hinv', ?_, by simp, by simp, hlater⟩
    intro g hg
    rw [← List.append_assoc] at hg
    rcases List.mem_append.mp hg with hg | hg
    · exact htraffic g hg
    · exact .inr (hhand (.inr hpc) g (Option.mem_toList.mp hg))
  · have hinv' := hinv.step ht
    obtain ⟨frame, rfl, rfl⟩ | ⟨rfl, hpc, rfl⟩ | ⟨f, rfl, hpc, hf, rfl⟩ | ⟨rfl, -, -⟩ |
      ⟨rfl, -, -⟩ | ⟨rfl, hpc, rfl⟩ := Streamer.step_cases ht
    · have hnew : pushed < s.streamer.pushed + 1 := Nat.lt_succ_of_le hlater
      exact ⟨hinv', htraffic, fun _ => hnew, hhand, hnew.le⟩
    · refine ⟨hinv', htraffic, fun hup => ?_, ?_, hlater⟩
      · cases hr : s.streamer.ready_to_send with
        | true => exact hready (.inl ⟨hpc, hr⟩)
        | false => simp [hr] at hup
      · cases hr : s.streamer.ready_to_send <;> simp
    · refine ⟨hinv', htraffic, by simp, ?_, hlater⟩
      rintro - g hg
      obtain rfl : f = g := by simpa using hg
      rw [hinv.newest f hf]
      exact hready (.inr hpc)
    · exact absurd rfl he
    · exact absurd rfl he'
    · exact ⟨hinv', htraffic, by simp, by simp, hlater⟩
  · exact ⟨hinv, htraffic, hready, hhand, hlater⟩
  · refine ⟨hinv, ?_, hready, hhand, hlater⟩
    intro g hg
    apply htraffic
    rcases List.mem_append.mp hg with hg | hg
    · exact List.mem_append_left _ hg
    · exact List.mem_append_right _ (List.mem_of_mem_eraseIdx hg)
  · exact hall.receive ht _
  · have hinv' := hinv.step ht
    obtain ⟨hpc, rfl⟩ := Streamer.step_send.mp ht
    exact ⟨hinv', htraffic, by simp, by simp, hlater⟩

theorem FreshAfter.run {pushed : ℕ} {old : List (Pushed Mat)} {s s' : Link Mat}
    {ls : List (LinkEvent Mat)} (h : FreshAfter pushed old s)
    (hr : (machine Mat).run s ls = some s') : FreshAfter pushed old s' := by
  induction ls generalizing s with
  | nil =>
    obtain rfl := Option.some.inj hr
    exact h
  | cons l ls ih =>
    obtain ⟨next, hs, hr⟩ := Option.bind_eq_some_iff.mp hr
    exact ih (h.step hs) hr

/-- Whatever fails, once the streamer clears its flag no frame pushed until
then reaches the client any more, unless it has or is in flight. -/
theorem shown_fresh {s s₁ s' : Link Mat} {ls : List (LinkEvent Mat)} (h : (machine Mat).Reachable s)
    (hclear : s.step (.streamer .clear) = some s₁) (hr : (machine Mat).run s₁ ls = some s')
    {f : Pushed Mat} (hf : f ∈ s'.shown) :
    f ∈ s.shown ++ s.frames ∨ s.streamer.pushed < f.index := by
  obtain ⟨_, hstreamer, rfl⟩ := forward_streamer.reach h
  have hinv := Streamer.inv_of_reach hstreamer
  obtain ⟨t, ht, rfl⟩ := Option.map_eq_some_iff.mp hclear
  have hinv' := hinv.step ht
  have hpc : s.streamer.pc = .clear ∧ { s.streamer with pc := .check, ready_to_send := false } =
      t := by
    simpa only [Streamer.step, Option.ite_none_right_eq_some, Option.some.injEq] using ht
  obtain ⟨-, rfl⟩ := hpc
  have hfresh : FreshAfter s.streamer.pushed (s.shown ++ s.frames)
      { s with streamer := { s.streamer with pc := .check, ready_to_send := false } } :=
    ⟨hinv', fun f hf => .inl hf, by simp, by simp, le_rfl⟩
  exact (hfresh.run hr).traffic f (List.mem_append_left _ hf)

/-- Frame 2 is pushed before frame 1 is cleared, and is never seen. -/
theorem shown_fresh_late :
    ∃ s s₁ s', (machine Unit).run (machine Unit).init [.streamer (.pushFrame ()), .streamer .check,
        .clientSend, .streamer .encode, .streamer .waitForClient, .streamer .send,
        .streamer (.pushFrame ())] = some s ∧
      s.step (.streamer .clear) = some s₁ ∧
      (machine Unit).run s₁ [.clientReceive 0, .clientSend, .streamer (.pushFrame ()),
        .streamer .check, .streamer .encode, .streamer .waitForClient, .streamer .send,
        .clientReceive 0] = some s' ∧
      s'.shown = [⟨1, ()⟩, ⟨3, ()⟩] ∧
      (⟨3, ()⟩ ∈ s.shown ++ s.frames ∨ s.streamer.pushed < 3) := by
  have hrun : (machine Unit).run (machine Unit).init [.streamer (.pushFrame ()), .streamer .check,
      .clientSend, .streamer .encode, .streamer .waitForClient, .streamer .send,
      .streamer (.pushFrame ())] = some _ := rfl
  refine ⟨_, _, _, hrun, rfl, rfl, rfl, ?_⟩
  exact @shown_fresh Unit _ _ _ [.clientReceive 0, .clientSend, .streamer (.pushFrame ()),
    .streamer .check, .streamer .encode, .streamer .waitForClient, .streamer .send,
    .clientReceive 0]
    (Machine.reachable_of_run hrun) rfl rfl ⟨3, ()⟩ (by decide)

end Link

end LineFollower
