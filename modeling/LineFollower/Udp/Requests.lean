import LineFollower.Host
import LineFollower.Udp.Streamer
import Mathlib.Algebra.Ring.Parity

/-!
# The streamer's socket

`waitForClient` and `uploadFrame` with the error codes of the socket.
`waitForClient` throws what `receive_from` reports and catches it itself, so
`uploadFrame` goes on to send without a request. It drops what `send_to`
reports, and a JPEG too long for a datagram leaves its request unanswered.
Nothing reads the `dataSize` of the constructor. A `Server` is the streamer
with its socket; an upload breaks the correspondence of requests and frames
exactly in these two cases (`oneToOne_of_reach`).
-/

namespace LineFollower

open Lib

inductive ErrorCode
  | messageSize
  | other (value : ℕ)
  deriving DecidableEq, Repr

inductive Datagram (Endpoint : Type)
  | request (sender : Endpoint)
  | frame (receiver : Endpoint) (data : List Byte)
  deriving DecidableEq, Repr

/-- What `receive_from` comes back with: a datagram, which may be longer than
the buffer of one byte, or an error. -/
inductive Reception (Endpoint : Type)
  | datagram (sender : Endpoint) (tooLong : Bool)
  | failure (value : ℕ) (left : Option Endpoint)

/-- Nothing can be sent to the endpoint `none`, the one a socket starts with.
The log is of the datagrams received and transmitted. -/
structure Socket (Endpoint : Type) where
  remote_endpoint : Option Endpoint
  log : List (Datagram Endpoint)

abbrev SocketM (Endpoint : Type) := ExceptT ErrorCode (StateM (Socket Endpoint))

def maxDatagram : ℕ := 65507

variable {Mat Endpoint : Type}

def receiveFrom : Reception Endpoint → SocketM Endpoint (Option ErrorCode)
  | .datagram sender tooLong => do
    modify fun s => { remote_endpoint := some sender, log := s.log ++ [.request sender] }
    pure (if tooLong then some .messageSize else none)
  | .failure value left => do
    modify fun s => { s with remote_endpoint := left }
    pure (some (.other value))

def sendTo (chunk : List Byte) : SocketM Endpoint (Option ErrorCode) := do
  let s ← get
  match s.remote_endpoint with
  | none => pure (some (.other 22))
  | some receiver =>
    if chunk.length ≤ maxDatagram then do
      modify fun s => { s with log := s.log ++ [Datagram.frame receiver chunk] }
      pure none
    else pure (some .messageSize)

def waitForClient (reception : Reception Endpoint) : SocketM Endpoint Unit :=
  tryCatch (do
    match ← receiveFrom reception with
    | none => pure ()
    | some error => if error ≠ .messageSize then throw error else pure ())
    fun _ => pure ()

/-- `uploadFrame` after the encoding. -/
def uploadFrame (chunk : List Byte) (reception : Reception Endpoint) : SocketM Endpoint Unit :=
  tryCatch (do
    waitForClient reception
    let _ ← sendTo chunk
    pure ())
    fun _ => pure ()

-- ---------------------------------------------------------------------------
-- What the two calls do
-- ---------------------------------------------------------------------------

namespace Socket

def received (s : Socket Endpoint) : Reception Endpoint → Socket Endpoint
  | .datagram sender _ => ⟨some sender, s.log ++ [.request sender]⟩
  | .failure _ left => { s with remote_endpoint := left }

def frame (s : Socket Endpoint) (chunk : List Byte) : Option (Datagram Endpoint) :=
  if chunk.length ≤ maxDatagram then s.remote_endpoint.map fun e => .frame e chunk else none

def sent (s : Socket Endpoint) (chunk : List Byte) : Socket Endpoint :=
  { s with log := s.log ++ (s.frame chunk).toList }

end Socket

theorem waitForClient_run (reception : Reception Endpoint) (s : Socket Endpoint) :
    (waitForClient reception).run.run s = (.ok (), s.received reception) := by
  cases reception with
  | datagram sender tooLong => cases tooLong <;> rfl
  | failure value left => rfl

theorem sendTo_run (chunk : List Byte) (s : Socket Endpoint) :
    ∃ error, (sendTo chunk).run.run s = (.ok error, s.sent chunk) := by
  obtain ⟨endpoint, log⟩ := s
  cases endpoint with
  | none =>
    refine ⟨some (.other 22), ?_⟩
    have hsent : (⟨none, log⟩ : Socket Endpoint).sent chunk = ⟨none, log⟩ := by
      simp [Socket.sent, Socket.frame]
    rw [hsent]
    rfl
  | some receiver =>
    by_cases h : chunk.length ≤ maxDatagram
    · refine ⟨none, ?_⟩
      simp only [sendTo, Socket.sent, Socket.frame, h, ↓reduceIte]
      rfl
    · refine ⟨some .messageSize, ?_⟩
      simp only [sendTo, Socket.sent, Socket.frame, h, ↓reduceIte, Option.toList_none,
        List.append_nil]
      rfl

section
variable {α β : Type} {m : SocketM Endpoint α} {s s' : Socket Endpoint} {a : α}

theorem socket_bind_ok (h : m.run.run s = (.ok a, s')) (f : α → SocketM Endpoint β) :
    (m >>= f).run.run s = (f a).run.run s' := by
  simp only [ExceptT.run_bind, StateT.run_bind, h]
  rfl

theorem socket_tryCatch_ok (h : m.run.run s = (.ok a, s'))
    (handler : ErrorCode → SocketM Endpoint α) :
    (tryCatch m handler).run.run s = (.ok a, s') := by
  simp only [ExceptT.run_tryCatch, StateT.run_bind, h]
  rfl

end

/-- An upload receives and then sends, whatever the two calls report. -/
theorem uploadFrame_run (chunk : List Byte) (reception : Reception Endpoint) (s : Socket Endpoint) :
    (uploadFrame chunk reception).run.run s = (.ok (), (s.received reception).sent chunk) := by
  obtain ⟨error, hsend⟩ := sendTo_run chunk (s.received reception)
  apply socket_tryCatch_ok
  rw [socket_bind_ok (waitForClient_run reception s), socket_bind_ok hsend]
  rfl

-- ---------------------------------------------------------------------------
-- Requests and frames
-- ---------------------------------------------------------------------------

/-- Every request is answered before the next one, to its sender, and nothing
else is sent. -/
inductive Answered : List (Datagram Endpoint) → Prop
  | nil : Answered []
  | answer {log : List (Datagram Endpoint)} (h : Answered log) (client : Endpoint)
      (data : List Byte) : Answered (log ++ [.request client, .frame client data])

theorem Answered.length_even {log : List (Datagram Endpoint)} (h : Answered log) :
    Even log.length := by
  induction h with
  | nil => exact Even.zero
  | answer _ _ _ ih =>
    rw [List.length_append]
    exact ih.add even_two

theorem not_answered_append {log : List (Datagram Endpoint)} (h : Answered log)
    (d : Datagram Endpoint) : ¬ Answered (log ++ [d]) := by
  intro h'
  have heven := h'.length_even
  rw [List.length_append, List.length_singleton, Nat.even_add_one] at heven
  exact heven h.length_even

/-- There is a request and its frame fits, or there is neither. -/
def Answerable (chunk : List Byte) : Reception Endpoint → Prop
  | .datagram _ _ => chunk.length ≤ maxDatagram
  | .failure _ left => left = none ∨ maxDatagram < chunk.length

theorem answered_upload {s : Socket Endpoint} (h : Answered s.log) (chunk : List Byte)
    (reception : Reception Endpoint) :
    Answered ((s.received reception).sent chunk).log ↔ Answerable chunk reception := by
  cases reception with
  | datagram sender tooLong =>
    by_cases hfits : chunk.length ≤ maxDatagram
    · have hlog : ((s.received (.datagram sender tooLong)).sent chunk).log =
          s.log ++ [.request sender, .frame sender chunk] := by
        simp [Socket.received, Socket.sent, Socket.frame, hfits]
      rw [hlog]
      exact iff_of_true (h.answer sender chunk) hfits
    · have hlog : ((s.received (.datagram sender tooLong)).sent chunk).log =
          s.log ++ [.request sender] := by
        simp [Socket.received, Socket.sent, Socket.frame, hfits]
      rw [hlog]
      exact iff_of_false (not_answered_append h _) hfits
  | failure value left =>
    cases left with
    | none =>
      have hlog : ((s.received (.failure value none)).sent chunk).log = s.log := by
        simp [Socket.received, Socket.sent, Socket.frame]
      rw [hlog]
      exact iff_of_true h (.inl rfl)
    | some client =>
      by_cases hfits : chunk.length ≤ maxDatagram
      · have hlog : ((s.received (.failure value (some client))).sent chunk).log =
            s.log ++ [.frame client chunk] := by
          simp [Socket.received, Socket.sent, Socket.frame, hfits]
        rw [hlog]
        refine iff_of_false (not_answered_append h _) ?_
        rintro (hnone | hlong)
        · cases hnone
        · exact absurd hfits (not_le.mpr hlong)
      · have hlog : ((s.received (.failure value (some client))).sent chunk).log = s.log := by
          simp [Socket.received, Socket.sent, Socket.frame, hfits]
        rw [hlog]
        exact iff_of_true h (.inr (not_le.mp hfits))

-- ---------------------------------------------------------------------------
-- The streamer with its socket
-- ---------------------------------------------------------------------------

structure Server (Mat Endpoint : Type) where
  streamer : Streamer Mat
  /-- The JPEG of the frame at hand. -/
  chunk : List Byte
  socket : Socket Endpoint

inductive ServerEvent (Mat Endpoint : Type)
  | pushFrame (frame : Mat)
  | check
  | encode
  | waitForClient (reception : Reception Endpoint)
  | send
  | clear

def ServerEvent.stream : ServerEvent Mat Endpoint → StreamEvent Mat
  | .pushFrame frame => .pushFrame frame
  | .check => .check
  | .encode => .encode
  | .waitForClient _ => .waitForClient
  | .send => .send
  | .clear => .clear

namespace Server

/-- An exception from `waitForClient` would skip the send. -/
def step (imencode : Mat → List Byte) (s : Server Mat Endpoint) (e : ServerEvent Mat Endpoint) :
    Option (Server Mat Endpoint) :=
  (s.streamer.step e.stream).map fun t =>
    match e with
    | .encode =>
      { s with streamer := t, chunk := (s.streamer.frame_to_send.map (imencode ·.frame)).getD [] }
    | .waitForClient reception =>
      match (LineFollower.waitForClient reception).run.run s.socket with
      | (.ok (), socket) => { s with streamer := t, socket }
      | (.error _, socket) => { s with streamer := { t with pc := .clear }, socket }
    | .send => { s with streamer := t, socket := ((sendTo s.chunk).run.run s.socket).2 }
    | _ => { s with streamer := t }

def machine (Mat Endpoint : Type) (imencode : Mat → List Byte) :
    Machine (Server Mat Endpoint) (ServerEvent Mat Endpoint) where
  init := ⟨.new, [], ⟨none, []⟩⟩
  step := step imencode

variable {imencode : Mat → List Byte}

theorem step_cases {s s' : Server Mat Endpoint} {e : ServerEvent Mat Endpoint}
    (h : s.step imencode e = some s') :
    s.streamer.step e.stream = some s'.streamer ∧
      ((∃ reception, e = .waitForClient reception ∧ s'.chunk = s.chunk ∧
          s'.socket = s.socket.received reception) ∨
        (e = .send ∧ s'.chunk = s.chunk ∧ s'.socket = s.socket.sent s.chunk) ∨
        (e = .encode ∧ s'.socket = s.socket) ∨
        (e ≠ .encode ∧ e.stream ≠ .waitForClient ∧ e.stream ≠ .send ∧ s'.chunk = s.chunk ∧
          s'.socket = s.socket)) := by
  obtain ⟨t, ht, rfl⟩ := Option.map_eq_some_iff.mp h
  cases e with
  | waitForClient reception =>
    dsimp only
    rw [waitForClient_run]
    exact ⟨ht, .inl ⟨reception, rfl, rfl, rfl⟩⟩
  | send =>
    obtain ⟨error, hsend⟩ := sendTo_run s.chunk s.socket
    dsimp only
    rw [hsend]
    exact ⟨ht, .inr (.inl ⟨rfl, rfl, rfl⟩)⟩
  | encode => exact ⟨ht, .inr (.inr (.inl ⟨rfl, rfl⟩))⟩
  | pushFrame frame => exact ⟨ht, .inr (.inr (.inr ⟨nofun, nofun, nofun, rfl, rfl⟩))⟩
  | check => exact ⟨ht, .inr (.inr (.inr ⟨nofun, nofun, nofun, rfl, rfl⟩))⟩
  | clear => exact ⟨ht, .inr (.inr (.inr ⟨nofun, nofun, nofun, rfl, rfl⟩))⟩

/-- Requests and frames are one to one, but for a request that is being
answered. -/
def OneToOne (s : Server Mat Endpoint) : Prop :=
  Answered s.socket.log ∨
    s.streamer.pc = .send ∧ ∃ log client, Answered log ∧ s.socket.log = log ++ [.request client]

/-- No upload of the run is one that cannot be answered. -/
def WaitsAnswerable (s : Server Mat Endpoint) (e : ServerEvent Mat Endpoint) : Prop :=
  ∀ reception, e = .waitForClient reception → Answerable s.chunk reception

structure Inv (s : Server Mat Endpoint) : Prop where
  oneToOne : s.OneToOne
  idle : s.streamer.pc ≠ .send → Answered s.socket.log
  sending : s.streamer.pc = .send → Answered (s.socket.sent s.chunk).log

section
variable {s t : Streamer Mat}

theorem wait_pc (h : s.step .waitForClient = some t) : s.pc = .receive ∧ t.pc = .send := by
  obtain ⟨hpc, rfl⟩ := Streamer.step_waitForClient.mp h
  exact ⟨hpc, rfl⟩

theorem send_pc (h : s.step .send = some t) : s.pc = .send ∧ t.pc = .clear := by
  obtain ⟨hpc, rfl⟩ := Streamer.step_send.mp h
  exact ⟨hpc, rfl⟩

theorem encode_pc (h : s.step .encode = some t) : s.pc = .encode ∧ t.pc = .receive := by
  simp only [Streamer.step] at h
  split at h
  · rename_i hpc _
    exact ⟨hpc, by rw [← Option.some.inj h]⟩
  · cases h

theorem other_pc {e : StreamEvent Mat} (he : e ≠ .waitForClient) (he' : e ≠ .send)
    (h : s.step e = some t) : t.pc = .send ↔ s.pc = .send := by
  obtain ⟨frame, rfl, rfl⟩ | ⟨rfl, hpc, rfl⟩ | ⟨f, rfl, hpc, hf, rfl⟩ | ⟨rfl, -, -⟩ |
    ⟨rfl, -, -⟩ | ⟨rfl, hpc, rfl⟩ := Streamer.step_cases h
  · exact Iff.rfl
  · cases hr : s.ready_to_send <;> simp [hpc]
  · simp [hpc]
  · exact absurd rfl he
  · exact absurd rfl he'
  · simp [hpc]

end

theorem oneToOne_received {s : Socket Endpoint} (h : Answered s.log)
    (reception : Reception Endpoint) :
    Answered (s.received reception).log ∨
      ∃ log client, Answered log ∧ (s.received reception).log = log ++ [.request client] := by
  cases reception with
  | datagram sender tooLong => exact .inr ⟨s.log, sender, h, rfl⟩
  | failure value left => exact .inl h

theorem Inv.step {s s' : Server Mat Endpoint} {e : ServerEvent Mat Endpoint} (h : Inv s)
    (hok : s.WaitsAnswerable e) (hs : s.step imencode e = some s') : Inv s' := by
  obtain ⟨ht, hcase⟩ := step_cases hs
  obtain ⟨reception, rfl, hchunk, hsocket⟩ | ⟨rfl, hchunk, hsocket⟩ | ⟨rfl, hsocket⟩ |
    ⟨-, he, he', hchunk, hsocket⟩ := hcase
  · obtain ⟨hpc, hpc'⟩ := wait_pc ht
    have hanswered := h.idle (by rw [hpc]; nofun)
    constructor
    · rw [OneToOne, hsocket]
      exact (oneToOne_received hanswered reception).imp_right fun hlog => ⟨hpc', hlog⟩
    · exact fun hne => absurd hpc' hne
    · intro _
      rw [hsocket, hchunk]
      exact (answered_upload hanswered _ _).mpr (hok reception rfl)
  · obtain ⟨hpc, hpc'⟩ := send_pc ht
    have hanswered : Answered s'.socket.log := hsocket ▸ h.sending hpc
    exact ⟨.inl hanswered, fun _ => hanswered, by rw [hpc']; nofun⟩
  · obtain ⟨hpc, hpc'⟩ := encode_pc ht
    have hanswered : Answered s'.socket.log := hsocket ▸ h.idle (by rw [hpc]; nofun)
    exact ⟨.inl hanswered, fun _ => hanswered, by rw [hpc']; nofun⟩
  · have hpc := other_pc he he' ht
    constructor
    · rw [OneToOne, hsocket, hpc]
      exact h.oneToOne
    · rw [hsocket, Ne, hpc]
      exact h.idle
    · rw [hsocket, hchunk, hpc]
      exact h.sending

theorem inv_of_reach {s : Server Mat Endpoint}
    (h : (machine Mat Endpoint imencode).Reach WaitsAnswerable s) : Inv s := by
  apply h.invariant
  · exact ⟨.inl .nil, fun _ => .nil, nofun⟩
  · intro _ _ _ hi hok hs
    exact hi.step hok hs

theorem run_upload {s s' : Server Mat Endpoint} {reception : Reception Endpoint}
    (h : (machine Mat Endpoint imencode).run s [.waitForClient reception, .send] = some s') :
    s.streamer.pc = .receive ∧ s'.streamer.pc = .clear ∧
      s'.socket = ((uploadFrame s.chunk reception).run.run s.socket).2 := by
  obtain ⟨t, (hwait : s.step imencode _ = some t), h⟩ := Option.bind_eq_some_iff.mp h
  obtain ⟨u, (hsend : t.step imencode _ = some u), h⟩ := Option.bind_eq_some_iff.mp h
  obtain rfl := Option.some.inj h
  obtain ⟨hst, ⟨_, heq, hchunk, hsocket⟩ | ⟨heq, -⟩ | ⟨heq, -⟩ | ⟨-, hne, -⟩⟩ := step_cases hwait
  · obtain ⟨htu, ⟨_, heq', -⟩ | ⟨-, -, hsocket'⟩ | ⟨heq', -⟩ | ⟨-, -, hne, -⟩⟩ := step_cases hsend
    · cases heq'
    · cases heq
      rw [hchunk, hsocket] at hsocket'
      exact ⟨(wait_pc hst).1, (send_pc htu).2, by rw [hsocket', uploadFrame_run]⟩
    · cases heq'
    · exact absurd rfl hne
  · cases heq
  · cases heq
  · exact absurd rfl hne

/-- As long as every upload can be answered, requests and frames are one to one
in every state. The first upload that cannot be answered ends that. -/
theorem oneToOne_of_reach {Mat Endpoint : Type} {imencode : Mat → List Byte}
    {s : Server Mat Endpoint}
    (h : (machine Mat Endpoint imencode).Reach WaitsAnswerable s) :
    s.OneToOne ∧ ∀ reception s',
      (machine Mat Endpoint imencode).run s [.waitForClient reception, .send] = some s' →
        (s'.OneToOne ↔ Answerable s.chunk reception) := by
  have hinv := inv_of_reach h
  refine ⟨hinv.oneToOne, fun reception s' hrun => ?_⟩
  obtain ⟨hpc, hpc', hsocket⟩ := run_upload hrun
  have hanswered := hinv.idle (by rw [hpc]; nofun)
  have hlog : s'.socket = (s.socket.received reception).sent s.chunk :=
    hsocket.trans (congrArg Prod.snd (uploadFrame_run s.chunk reception s.socket))
  rw [← answered_upload hanswered, ← hlog]
  constructor
  · rintro (h | ⟨hsend, -⟩)
    · exact h
    · rw [hpc'] at hsend
      cases hsend
  · exact .inl

/-- The JPEG of a grey pixel: a quantization table, the frame and two Huffman tables
before the scan. -/
def greyPixel (comment : List Byte) : List Byte :=
  [0xFF, 0xD8] ++ comment ++
  [0xFF, 0xDB, 0x00, 0x43, 0x00] ++ List.replicate 64 0x01 ++
  [0xFF, 0xC0, 0x00, 0x0B, 0x08, 0x00, 0x01, 0x00, 0x01, 0x01, 0x01, 0x11, 0x00] ++
  [0xFF, 0xC4, 0x00, 0x14, 0x00, 0x01] ++ List.replicate 16 0x00 ++
  [0xFF, 0xC4, 0x00, 0x14, 0x10, 0x01] ++ List.replicate 16 0x00 ++
  [0xFF, 0xDA, 0x00, 0x08, 0x01, 0x01, 0x00, 0x00, 0x3F, 0x00, 0x3F, 0xFF, 0xD9]

theorem length_greyPixel (comment : List Byte) :
    (greyPixel comment).length = comment.length + 141 := by
  simp only [greyPixel, List.length_append, List.length_cons, List.length_nil,
    List.length_replicate]
  omega

set_option maxRecDepth 2000 in
theorem oneToOne_of_reach_first :
    ∃ s s', (machine Unit ℕ fun _ => greyPixel []).run ⟨.new, [], ⟨none, []⟩⟩
        [.pushFrame (), .check, .encode] = some s ∧
      (machine Unit ℕ fun _ => greyPixel []).run s [.waitForClient (.datagram 1 true), .send] =
        some s' ∧
      s'.socket.log = [.request 1, .frame 1 (greyPixel [])] ∧ s'.OneToOne := by
  have hrun : (machine Unit ℕ fun _ => greyPixel []).run ⟨.new, [], ⟨none, []⟩⟩
      [.pushFrame (), .check, .encode] =
        some ⟨⟨some ⟨1, ()⟩, true, .receive, 1, [⟨1, ()⟩]⟩, greyPixel [], ⟨none, []⟩⟩ := rfl
  have hreach : (machine Unit ℕ fun _ => greyPixel []).Reach WaitsAnswerable
      ⟨⟨some ⟨1, ()⟩, true, .receive, 1, [⟨1, ()⟩]⟩, greyPixel [], ⟨none, []⟩⟩ := by
    refine Machine.Reach.init.run ?_ hrun
    intro e he t reception heq
    subst heq
    simp at he
  have hfits : Answerable (greyPixel []) (.datagram 1 true : Reception ℕ) := by
    rw [Answerable, length_greyPixel]
    decide
  exact ⟨_, _, rfl, rfl, rfl, ((oneToOne_of_reach hreach).2 _ _ rfl).mpr hfits⟩

set_option maxRecDepth 2000 in
/-- A failed receive after a client has been served: the client gets a second
frame for its one request. -/
theorem oneToOne_failed_receive :
    ∃ s, (machine Unit ℕ fun _ => greyPixel []).run ⟨.new, [], ⟨none, []⟩⟩
        [.pushFrame (), .check, .encode, .waitForClient (.datagram 1 false), .send, .clear,
          .pushFrame (), .check, .encode, .waitForClient (.failure 4 (some 1)), .send] = some s ∧
      s.socket.log = [.request 1, .frame 1 (greyPixel []), .frame 1 (greyPixel [])] ∧
        ¬ s.OneToOne := by
  refine ⟨_, rfl, rfl, ?_⟩
  rintro (h | ⟨hsend, -⟩)
  · exact not_answered_append (.answer .nil 1 (greyPixel [])) (.frame 1 (greyPixel [])) h
  · cases hsend

end Server

end LineFollower
