import LineFollower.Udp.Protocol
import Mathlib.Data.List.Perm.Basic
import Mathlib.Data.List.Perm.Subperm

/-!
# The video link

The streamer with its hand-off, the client and the datagrams between them, as
one machine. Datagrams in flight can be taken in any order and lost, and the calls
of the streamer's socket can fail: its errors are swallowed, so a receive that
fails is followed by an upload that nobody has asked for, and a frame whose send
fails, such as one too long for a datagram, is dropped.

While nothing fails every step is a step of `Stream`, or none (`forward_stream`),
and the link never deadlocks. What the client gets is always part of what was
pushed, and nothing twice (`shown_subperm`). It is in the same order too as long
as no receive fails, since then no two frames are in flight at once
(`shown_pushed`).
-/

namespace LineFollower

open Lib

structure Link (Mat : Type) where
  client : ClientPc
  streamer : Streamer Mat
  requests : Nat
  frames : List (Pushed Mat)
  /-- What the client has received. -/
  shown : List (Pushed Mat)

inductive LinkEvent (Mat : Type)
  | clientSend
  /-- The frame at a place among those in flight arrives. -/
  | clientReceive (i : Nat)
  | streamer (e : StreamEvent Mat)
  | loseRequest
  | loseFrame (i : Nat)
  /-- `waitForClient` swallows an error of `receive_from`. -/
  | receiveFails
  /-- The error code of `send_to` is ignored. -/
  | sendFails

/-- A datagram is lost, or a call of the streamer's socket fails. -/
def LinkEvent.Fails {Mat : Type} : LinkEvent Mat → Prop
  | .loseRequest => True
  | .loseFrame _ => True
  | .receiveFails => True
  | .sendFails => True
  | _ => False

def LinkEvent.frame {Mat : Type} : LinkEvent Mat → Option Mat
  | .streamer e => e.frame
  | _ => none

namespace Link

variable {Mat : Type}

def step (s : Link Mat) : LinkEvent Mat → Option (Link Mat)
  | .clientSend =>
    if s.client = .send then some { s with client := .receive, requests := s.requests + 1 }
      else none
  | .clientReceive i =>
    match s.client, s.frames[i]? with
    | .receive, some f =>
      some { s with client := .send, frames := s.frames.eraseIdx i, shown := s.shown ++ [f] }
    | _, _ => none
  | .streamer .waitForClient =>
    if 0 < s.requests then
      (s.streamer.step .waitForClient).map fun t =>
      { s with streamer := t, requests := s.requests - 1 }
    else none
  | .streamer .send =>
    (s.streamer.step .send).map fun t =>
      { s with streamer := t, frames := s.frames ++ s.streamer.encoded.getLast?.toList }
  | .streamer e => (s.streamer.step e).map fun t => { s with streamer := t }
  | .loseRequest => if 0 < s.requests then some { s with requests := s.requests - 1 } else none
  | .loseFrame i =>
    if i < s.frames.length then some { s with frames := s.frames.eraseIdx i } else none
  | .receiveFails => (s.streamer.step .waitForClient).map fun t => { s with streamer := t }
  | .sendFails => (s.streamer.step .send).map fun t => { s with streamer := t }

def machine (Mat : Type) : Machine (Link Mat) (LinkEvent Mat) where
  init := ⟨.send, .new, 0, [], []⟩
  step := step

theorem step_cases {s s' : Link Mat} {l : LinkEvent Mat} (h : s.step l = some s') :
    (l = .clientSend ∧ s.client = .send ∧
      s' = { s with client := .receive, requests := s.requests + 1 }) ∨
    (∃ i f, l = .clientReceive i ∧ s.client = .receive ∧ s.frames[i]? = some f ∧
      s' = { s with client := .send, frames := s.frames.eraseIdx i, shown := s.shown ++ [f] }) ∨
    (∃ t, l = .streamer .waitForClient ∧ 0 < s.requests ∧ s.streamer.step .waitForClient = some t ∧
      s' = { s with streamer := t, requests := s.requests - 1 }) ∨
    (∃ t, l = .streamer .send ∧ s.streamer.step .send = some t ∧
      s' = { s with streamer := t, frames := s.frames ++ s.streamer.encoded.getLast?.toList }) ∨
    (∃ e t, l = .streamer e ∧ e ≠ .waitForClient ∧ e ≠ .send ∧ s.streamer.step e = some t ∧
      s' = { s with streamer := t }) ∨
    (l = .loseRequest ∧ 0 < s.requests ∧ s' = { s with requests := s.requests - 1 }) ∨
    (∃ i, l = .loseFrame i ∧ i < s.frames.length ∧
      s' = { s with frames := s.frames.eraseIdx i }) ∨
    (∃ t, l = .receiveFails ∧ s.streamer.step .waitForClient = some t ∧
      s' = { s with streamer := t }) ∨
    (∃ t, l = .sendFails ∧ s.streamer.step .send = some t ∧ s' = { s with streamer := t }) := by
  cases l with
  | clientSend =>
    simp only [step, Option.ite_none_right_eq_some, Option.some.injEq] at h
    exact .inl ⟨rfl, h.1, h.2.symm⟩
  | clientReceive i =>
    simp only [step] at h
    split at h
    · rename_i f hc hf
      exact .inr (.inl ⟨i, f, rfl, hc, hf, (Option.some.inj h).symm⟩)
    · cases h
  | streamer e =>
    have hother (he : e ≠ .waitForClient) (he' : e ≠ .send)
        (h : (s.streamer.step e).map (fun t => { s with streamer := t }) = some s') :
        ∃ f t, LinkEvent.streamer e = .streamer f ∧ f ≠ .waitForClient ∧ f ≠ .send ∧
          s.streamer.step f = some t ∧ s' = { s with streamer := t } := by
      obtain ⟨t, ht, hs⟩ := Option.map_eq_some_iff.mp h
      exact ⟨e, t, rfl, he, he', ht, hs.symm⟩
    cases e with
    | waitForClient =>
      simp only [step, Option.ite_none_right_eq_some, Option.map_eq_some_iff] at h
      obtain ⟨hr, t, ht, hs⟩ := h
      exact .inr (.inr (.inl ⟨t, rfl, hr, ht, hs.symm⟩))
    | send =>
      obtain ⟨t, ht, hs⟩ := Option.map_eq_some_iff.mp h
      exact .inr (.inr (.inr (.inl ⟨t, rfl, ht, hs.symm⟩)))
    | pushFrame frame => exact .inr (.inr (.inr (.inr (.inl (hother nofun nofun h)))))
    | check => exact .inr (.inr (.inr (.inr (.inl (hother nofun nofun h)))))
    | encode => exact .inr (.inr (.inr (.inr (.inl (hother nofun nofun h)))))
    | clear => exact .inr (.inr (.inr (.inr (.inl (hother nofun nofun h)))))
  | loseRequest =>
    simp only [step, Option.ite_none_right_eq_some, Option.some.injEq] at h
    exact .inr (.inr (.inr (.inr (.inr (.inl ⟨rfl, h.1, h.2.symm⟩)))))
  | loseFrame i =>
    simp only [step, Option.ite_none_right_eq_some, Option.some.injEq] at h
    exact .inr (.inr (.inr (.inr (.inr (.inr (.inl ⟨i, rfl, h.1, h.2.symm⟩))))))
  | receiveFails =>
    obtain ⟨t, ht, hs⟩ := Option.map_eq_some_iff.mp h
    exact .inr (.inr (.inr (.inr (.inr (.inr (.inr (.inl ⟨t, rfl, ht, hs.symm⟩)))))))
  | sendFails =>
    obtain ⟨t, ht, hs⟩ := Option.map_eq_some_iff.mp h
    exact .inr (.inr (.inr (.inr (.inr (.inr (.inr (.inr ⟨t, rfl, ht, hs.symm⟩)))))))

-- ---------------------------------------------------------------------------
-- The protocol of a link
-- ---------------------------------------------------------------------------

def protocol (s : Link Mat) : Stream := ⟨s.client, s.streamer.pc, s.requests, s.frames.length⟩

def HasFrame (s : Streamer Mat) : Prop := s.Uploading → s.encoded ≠ []

theorem HasFrame.step {s s' : Streamer Mat} {e : StreamEvent Mat} (h : HasFrame s)
    (hs : s.step e = some s') : HasFrame s' := by
  obtain ⟨frame, rfl, rfl⟩ | ⟨rfl, hpc, rfl⟩ | ⟨f, rfl, hpc, hf, rfl⟩ | ⟨rfl, hpc, rfl⟩ |
    ⟨rfl, hpc, rfl⟩ | ⟨rfl, hpc, rfl⟩ := Streamer.step_cases hs
  · exact h
  · intro hup
    cases hr : s.ready_to_send <;> simp [Streamer.Uploading, hr] at hup
  · exact fun _ => List.append_ne_nil_of_right_ne_nil _ (List.cons_ne_nil _ _)
  · exact fun _ => h (.inl hpc)
  · exact fun _ => h (.inr (.inl hpc))
  · intro hup
    simp [Streamer.Uploading] at hup

theorem streamer_step {s : Link Mat} {t : Streamer Mat} {e : StreamEvent Mat}
    (he : e ≠ .waitForClient) (he' : e ≠ .send) (hs : s.streamer.step e = some t) :
    protocol { s with streamer := t } = s.protocol ∨
      s.protocol.step .streamer = some (protocol { s with streamer := t }) := by
  obtain ⟨frame, rfl, rfl⟩ | ⟨rfl, hpc, rfl⟩ | ⟨f, rfl, hpc, hf, rfl⟩ | ⟨rfl, -, -⟩ |
    ⟨rfl, -, -⟩ | ⟨rfl, hpc, rfl⟩ := Streamer.step_cases hs
  · exact .inl rfl
  · cases hr : s.streamer.ready_to_send with
    | true => exact .inr (by simp [protocol, Stream.step, hpc, Pc.next])
    | false => exact .inl (by simp [protocol, hpc])
  · exact .inr (by simp [protocol, Stream.step, hpc, Pc.next])
  · exact absurd rfl he
  · exact absurd rfl he'
  · exact .inr (by simp [protocol, Stream.step, hpc, Pc.next])

theorem protocol_send {s : Link Mat} (h : HasFrame s.streamer) (hpc : s.streamer.pc = .send) :
    s.protocol.step .streamer = some ⟨s.client, .clear, s.requests,
      (s.frames ++ s.streamer.encoded.getLast?.toList).length⟩ := by
  obtain ⟨f, hf⟩ := Option.ne_none_iff_exists'.mp
    (mt List.getLast?_eq_none_iff.mp (h (.inr (.inl hpc))))
  simp [protocol, Stream.step, hpc, hf]

/-- While the socket works, a step of the link is one of the protocol, which loses
nothing unless the link does, or leaves the protocol where it is. -/
theorem protocol_step {s s' : Link Mat} {l : LinkEvent Mat} (h : HasFrame s.streamer)
    (hreceive : l ≠ .receiveFails) (hsend : l ≠ .sendFails) (hs : s.step l = some s') :
    s'.protocol = s.protocol ∨ ∃ k, (k.Loss → l.Fails) ∧ s.protocol.step k = some s'.protocol := by
  obtain ⟨rfl, hc, rfl⟩ | ⟨i, f, rfl, hc, hf, rfl⟩ | ⟨t, rfl, hr, ht, rfl⟩ | ⟨t, rfl, ht, rfl⟩ |
    ⟨e, t, rfl, he, he', ht, rfl⟩ | ⟨rfl, hr, rfl⟩ | ⟨i, rfl, hi, rfl⟩ | ⟨t, rfl, -⟩ |
    ⟨t, rfl, -⟩ := step_cases hs
  · exact .inr ⟨.clientSend, id, by simp [protocol, Stream.step, hc]⟩
  · obtain ⟨hi, -⟩ := List.getElem?_eq_some_iff.mp hf
    have hlen : 0 < s.frames.length := Nat.zero_lt_of_lt hi
    refine .inr ⟨.clientReceive, id, ?_⟩
    simp [protocol, Stream.step, hc, hlen, List.length_eraseIdx_of_lt hi]
  · obtain ⟨hpc, rfl⟩ := Streamer.step_waitForClient.mp ht
    exact .inr ⟨.streamer, False.elim, by simp [protocol, Stream.step, hpc, hr]⟩
  · obtain ⟨hpc, rfl⟩ := Streamer.step_send.mp ht
    exact .inr ⟨.streamer, False.elim, protocol_send h hpc⟩
  · rcases streamer_step he he' ht with heq | hstep
    · exact .inl heq
    · exact .inr ⟨.streamer, False.elim, hstep⟩
  · exact .inr ⟨.loseRequest, id, by simp [protocol, Stream.step, hr]⟩
  · have hlen : 0 < s.frames.length := Nat.zero_lt_of_lt hi
    refine .inr ⟨.loseFrame, id, ?_⟩
    simp [protocol, Stream.step, hlen, List.length_eraseIdx_of_lt hi]
  · exact absurd rfl hreceive
  · exact absurd rfl hsend

theorem hasFrame_step {s s' : Link Mat} {l : LinkEvent Mat} (h : HasFrame s.streamer)
    (hs : s.step l = some s') : HasFrame s'.streamer := by
  obtain ⟨rfl, -, rfl⟩ | ⟨i, f, rfl, -, -, rfl⟩ | ⟨t, rfl, -, ht, rfl⟩ | ⟨t, rfl, ht, rfl⟩ |
    ⟨e, t, rfl, -, -, ht, rfl⟩ | ⟨rfl, -, rfl⟩ | ⟨i, rfl, -, rfl⟩ | ⟨t, rfl, ht, rfl⟩ |
    ⟨t, rfl, ht, rfl⟩ := step_cases hs
  · exact h
  · exact h
  · exact h.step ht
  · exact h.step ht
  · exact h.step ht
  · exact h
  · exact h
  · exact h.step ht
  · exact h.step ht

structure Shows (s : Link Mat) (t : Stream) : Prop where
  hasFrame : HasFrame s.streamer
  protocol : t = s.protocol

theorem forward_stream :
    (machine Mat).Forward Stream.machine (fun _ l => ¬ l.Fails) (fun _ k => ¬ k.Loss) Shows where
  init := ⟨by simp [HasFrame, Streamer.Uploading, machine, Streamer.new], rfl⟩
  step := by
    rintro s s' l _ ⟨hframe, rfl⟩ hl hs
    have hframe' := hasFrame_step hframe hs
    have hreceive : l ≠ .receiveFails := by
      rintro rfl
      exact hl trivial
    have hsend : l ≠ .sendFails := by
      rintro rfl
      exact hl trivial
    rcases protocol_step hframe hreceive hsend hs with heq | ⟨k, hk, hstep⟩
    · exact .inl ⟨hframe', heq.symm⟩
    · exact .inr ⟨k, s'.protocol, fun hloss => hl (hk hloss), hstep, hframe', rfl⟩

theorem link_not_deadlocked {s : Link Mat} (h : (machine Mat).Reach (fun _ l => ¬ l.Fails) s) :
    ¬ s.protocol.Deadlocked := by
  obtain ⟨t, ht, hshows⟩ := forward_stream.reach h
  have hlive : Stream.Live t := by
    apply ht.invariant (.inl ⟨rfl, rfl⟩)
    intro _ _ _ hi hk hs
    exact hi.step hk hs
  exact hshows.protocol ▸ hlive.not_deadlocked

-- ---------------------------------------------------------------------------
-- The order of the frames
-- ---------------------------------------------------------------------------

/-- The encoded frames that may have been sent: all but the one at hand. -/
def sent (s : Streamer Mat) : List (Pushed Mat) :=
  if s.pc = .receive ∨ s.pc = .send then s.encoded.dropLast else s.encoded

/-- What the client has and what is in flight is part of what was sent. -/
structure Conserved (s : Link Mat) : Prop where
  hasFrame : HasFrame s.streamer
  subperm : (s.shown ++ s.frames).Subperm (sent s.streamer)

/-- It is so in the same order. -/
structure Ordered (s : Link Mat) : Prop where
  hasFrame : HasFrame s.streamer
  traffic : s.protocol.Live ∨ s.protocol.Dead
  sublist : (s.shown ++ s.frames).Sublist (sent s.streamer)

theorem Ordered.frames_length {s : Link Mat} (h : Ordered s) :
    s.frames.length ≤ 1 ∧ (s.streamer.pc = .send → s.frames = []) := by
  have hp := Stream.pending_le_one h.traffic
  refine ⟨(Stream.frames_le_pending s.protocol).trans hp, fun hpc => ?_⟩
  rw [Stream.pending_of_send hpc] at hp
  have hnone : s.protocol.frames = 0 := by omega
  exact List.eq_nil_of_length_eq_zero hnone

theorem sent_step {s t : Streamer Mat} {e : StreamEvent Mat} (he : e ≠ .send)
    (hs : s.step e = some t) : sent t = sent s := by
  obtain ⟨frame, rfl, rfl⟩ | ⟨rfl, hpc, rfl⟩ | ⟨f, rfl, hpc, hf, rfl⟩ | ⟨rfl, hpc, rfl⟩ |
    ⟨rfl, -, -⟩ | ⟨rfl, hpc, rfl⟩ := Streamer.step_cases hs
  · rfl
  · cases hr : s.ready_to_send <;> simp [sent, hpc]
  · simp [sent, hpc]
  · simp [sent, hpc]
  · exact absurd rfl he
  · simp [sent, hpc]

theorem sent_send {s : Streamer Mat} (h : HasFrame s) (hpc : s.pc = .send) :
    sent { s with pc := .clear } = sent s ++ s.encoded.getLast?.toList := by
  have hne := h (.inr (.inl hpc))
  rw [sent, sent, if_neg (by simp), if_pos (.inr hpc), List.getLast?_eq_some_getLast hne,
    Option.toList_some, List.dropLast_append_getLast hne]

/-- In every run, also when a receive fails and frames overtake each other. -/
theorem Conserved.step {s s' : Link Mat} {l : LinkEvent Mat} (h : Conserved s)
    (hs : s.step l = some s') : Conserved s' := by
  refine ⟨hasFrame_step h.hasFrame hs, ?_⟩
  have hsub := h.subperm
  obtain ⟨rfl, -, rfl⟩ | ⟨i, f, rfl, -, hf, rfl⟩ | ⟨t, rfl, -, ht, rfl⟩ | ⟨t, rfl, ht, rfl⟩ |
    ⟨e, t, rfl, -, he, ht, rfl⟩ | ⟨rfl, -, rfl⟩ | ⟨i, rfl, -, rfl⟩ | ⟨t, rfl, ht, rfl⟩ |
    ⟨t, rfl, ht, rfl⟩ := step_cases hs
  · exact hsub
  · -- the frame that arrives is one of those in flight
    obtain ⟨hi, rfl⟩ := List.getElem?_eq_some_iff.mp hf
    have hperm : (s.shown ++ [s.frames[i]] ++ s.frames.eraseIdx i).Perm (s.shown ++ s.frames) := by
      rw [List.append_assoc]
      exact (List.getElem_cons_eraseIdx_perm hi).append_left _
    exact hperm.subperm.trans hsub
  · exact (sent_step (by simp) ht).symm ▸ hsub
  · obtain ⟨hpc, rfl⟩ := Streamer.step_send.mp ht
    rw [sent_send h.hasFrame hpc, ← List.append_assoc]
    exact (List.subperm_append_right _).mpr hsub
  · exact (sent_step he ht).symm ▸ hsub
  · exact hsub
  · exact ((List.eraseIdx_sublist _ _).append_left _).subperm.trans hsub
  · exact (sent_step (by simp) ht).symm ▸ hsub
  · obtain ⟨hpc, rfl⟩ := Streamer.step_send.mp ht
    rw [sent_send h.hasFrame hpc]
    exact hsub.trans (List.sublist_append_left _ _).subperm

/-- A frame that is not sent is lost to the protocol after it was. -/
theorem traffic_step {s s' : Link Mat} {l : LinkEvent Mat} (h : HasFrame s.streamer)
    (hreceive : l ≠ .receiveFails) (ht : s.protocol.Live ∨ s.protocol.Dead)
    (hs : s.step l = some s') : s'.protocol.Live ∨ s'.protocol.Dead := by
  by_cases hsend : l = .sendFails
  · subst hsend
    obtain ⟨t, hstep, rfl⟩ := Option.map_eq_some_iff.mp hs
    obtain ⟨hpc, rfl⟩ := Streamer.step_send.mp hstep
    refine Stream.live_or_dead_step (l := .loseFrame)
      (Stream.live_or_dead_step ht (protocol_send h hpc)) ?_
    have hne := h (.inr (.inl hpc))
    simp [Stream.step, protocol, List.getLast?_eq_some_getLast hne]
  · rcases protocol_step h hreceive hsend hs with heq | ⟨k, -, hstep⟩
    · exact heq ▸ ht
    · exact Stream.live_or_dead_step ht hstep

theorem Ordered.step {s s' : Link Mat} {l : LinkEvent Mat} (h : Ordered s)
    (hreceive : l ≠ .receiveFails) (hs : s.step l = some s') : Ordered s' := by
  have hframe := hasFrame_step h.hasFrame hs
  refine ⟨hframe, traffic_step h.hasFrame hreceive h.traffic hs, ?_⟩
  obtain ⟨hlen, hnone⟩ := h.frames_length
  obtain ⟨rfl, -, rfl⟩ | ⟨i, f, rfl, -, hf, rfl⟩ | ⟨t, rfl, -, ht, rfl⟩ | ⟨t, rfl, ht, rfl⟩ |
    ⟨e, t, rfl, -, he, ht, rfl⟩ | ⟨rfl, -, rfl⟩ | ⟨i, rfl, -, rfl⟩ | ⟨t, rfl, -⟩ |
    ⟨t, rfl, ht, rfl⟩ := step_cases hs
  · exact h.sublist
  · -- the only frame in flight arrives
    obtain ⟨g, hg⟩ : ∃ g, s.frames = [g] := by
      refine List.length_eq_one_iff.mp (le_antisymm hlen ?_)
      exact Nat.zero_lt_of_lt (List.getElem?_eq_some_iff.mp hf).1
    have hi : i = 0 := by
      have hlt := (List.getElem?_eq_some_iff.mp hf).1
      rw [hg] at hlt
      exact Nat.lt_one_iff.mp hlt
    subst hi
    obtain rfl : g = f := by simpa [hg] using hf
    simpa [hg] using h.sublist
  · have hsent := sent_step (by simp) ht
    exact hsent.symm ▸ h.sublist
  · obtain ⟨hpc, rfl⟩ := Streamer.step_send.mp ht
    have hsub := h.sublist
    rw [hnone hpc, List.append_nil] at hsub
    rw [sent_send h.hasFrame hpc, hnone hpc, List.nil_append]
    exact hsub.append (List.Sublist.refl _)
  · exact (sent_step he ht).symm ▸ h.sublist
  · exact h.sublist
  · exact ((List.Sublist.refl _).append (List.eraseIdx_sublist _ _)).trans h.sublist
  · exact absurd rfl hreceive
  · obtain ⟨hpc, rfl⟩ := Streamer.step_send.mp ht
    rw [sent_send h.hasFrame hpc]
    exact h.sublist.trans (List.sublist_append_left _ _)

theorem forward_streamer {ok : Link Mat → LinkEvent Mat → Prop} :
    (machine Mat).Forward (Streamer.machine Mat) ok (fun _ _ => True)
    (fun s t => t = s.streamer) where
  init := rfl
  step := by
    rintro s s' l _ rfl _ hs
    obtain ⟨rfl, -, rfl⟩ | ⟨i, f, rfl, -, -, rfl⟩ | ⟨t, rfl, -, ht, rfl⟩ | ⟨t, rfl, ht, rfl⟩ |
      ⟨e, t, rfl, -, -, ht, rfl⟩ | ⟨rfl, -, rfl⟩ | ⟨i, rfl, -, rfl⟩ | ⟨t, rfl, ht, rfl⟩ |
      ⟨t, rfl, ht, rfl⟩ := step_cases hs
    · exact .inl rfl
    · exact .inl rfl
    · exact .inr ⟨.waitForClient, t, trivial, ht, rfl⟩
    · exact .inr ⟨.send, t, trivial, ht, rfl⟩
    · exact .inr ⟨e, t, trivial, ht, rfl⟩
    · exact .inl rfl
    · exact .inl rfl
    · exact .inr ⟨.waitForClient, t, trivial, ht, rfl⟩
    · exact .inr ⟨.send, t, trivial, ht, rfl⟩

end Link

end LineFollower
