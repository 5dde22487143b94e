import LineFollower.Lib.Exchange
import LineFollower.Udp.Requests

/-!
# The client

The loop of `client.cpp`. `recv_buf` always has 64000 bytes, of which a
datagram overwrites the first, and the decoder gets all of them: the number of
bytes received only ends the loop. So it gets the JPEG that was sent exactly
when that has the length of the buffer (`decoded_iff`).
-/

namespace LineFollower

open Lib Lib.Exchange

def chunkSize : ℕ := 64000

/-- The client's `boost::array`. -/
structure RecvBuf where
  bytes : List Byte
  size : bytes.length = chunkSize

namespace RecvBuf

def fitting (datagram : List Byte) : List Byte := datagram.take chunkSize

def receive (buf : RecvBuf) (datagram : List Byte) : RecvBuf where
  bytes := fitting datagram ++ buf.bytes.drop (fitting datagram).length
  size := by
    rw [List.length_append, List.length_drop, buf.size, fitting, List.length_take]
    omega

theorem receive_eq (buf : RecvBuf) (datagram : List Byte) :
    (buf.receive datagram).bytes = datagram ↔ datagram.length = chunkSize := by
  constructor
  · intro h
    rw [← h, (buf.receive datagram).size]
  · intro h
    have hall : fitting datagram = datagram := List.take_of_length_le h.le
    have hnone : buf.bytes.drop datagram.length = [] := by
      rw [h, ← buf.size, List.drop_length]
    change fitting datagram ++ buf.bytes.drop (fitting datagram).length = datagram
    rw [hall, hnone, List.append_nil]

theorem length_fitting_eq_zero {datagram : List Byte} :
    (fitting datagram).length = 0 ↔ datagram = [] := by
  rw [List.length_eq_zero_iff, fitting, List.take_eq_nil_iff]
  exact or_iff_right (by decide)

end RecvBuf

/-- The variables of `main`, and the vectors that `imdecode` has been given. -/
structure Client where
  recv_buf : RecvBuf
  bytesReceived : ℕ
  decoded : List (List Byte)

/-- The client sends requests, and a frame answers each. -/
abbrev ClientM := Exchange Client (List Byte) (List Byte) Empty

def send_buf : List Byte := [0]

def turn : ClientM Bool := do
  let datagram ← exchange send_buf
  modifyVars fun c =>
    { c with
      recv_buf := c.recv_buf.receive datagram
      bytesReceived := (RecvBuf.fitting datagram).length }
  modifyVars fun c => { c with decoded := c.decoded ++ [c.recv_buf.bytes] }
  return decide ((← getVars).bytesReceived ≠ 0)

/-- The variable `bytesReceived` starts at 1. -/
def clientMain : ClientM Unit := do
  modifyVars fun c => { c with bytesReceived := 1 }
  if (← getVars).bytesReceived ≠ 0 then repeatWhile turn else pure ()

-- ---------------------------------------------------------------------------
-- What the decoder gets
-- ---------------------------------------------------------------------------

def handed (buf : RecvBuf) : List (List Byte) → List (List Byte)
  | [] => []
  | datagram :: datagrams =>
    (buf.receive datagram).bytes ::
      if datagram = [] then [] else handed (buf.receive datagram) datagrams

theorem turn_nil (c : Client) : turn c [] = ⟨.error .pending, c, [], []⟩ := rfl

theorem turn_cons (c : Client) (datagram : List Byte) (datagrams : List (List Byte)) :
    turn c (datagram :: datagrams) =
      ⟨.ok (decide (datagram ≠ [])),
        ⟨c.recv_buf.receive datagram, (RecvBuf.fitting datagram).length,
          c.decoded ++ [(c.recv_buf.receive datagram).bytes]⟩,
        datagrams, [(send_buf, datagram)]⟩ := by
  have hagain : decide ((RecvBuf.fitting datagram).length ≠ 0) = decide (datagram ≠ []) :=
    decide_eq_decide.mpr (not_congr RecvBuf.length_fitting_eq_zero)
  rw [← hagain]
  rfl

theorem turn_consumes : Consumes turn := by
  intro c datagrams c' rest log h
  cases datagrams with
  | nil => cases congrArg Outcome.result h
  | cons datagram datagrams =>
    rw [turn_cons] at h
    simp only [Outcome.mk.injEq] at h
    rw [← h.2.2.1]
    exact Nat.lt_succ_self _

theorem repeatWhile_decoded (c : Client) (datagrams : List (List Byte)) :
    (repeatWhile turn c datagrams).vars.decoded = c.decoded ++ handed c.recv_buf datagrams := by
  induction datagrams generalizing c with
  | nil =>
    rw [repeatWhile_eq turn_consumes, bind_run, turn_nil]
    exact (List.append_nil _).symm
  | cons datagram datagrams ih =>
    rw [repeatWhile_eq turn_consumes, bind_run, turn_cons]
    by_cases h : datagram = []
    · simp [handed, h]
    · simp [handed, h, ih]

theorem clientMain_decoded (buf : RecvBuf) (bytesReceived : ℕ) (datagrams : List (List Byte)) :
    (clientMain ⟨buf, bytesReceived, []⟩ datagrams).vars.decoded = handed buf datagrams :=
  repeatWhile_decoded ⟨buf, 1, []⟩ datagrams

theorem handed_getElem (buf : RecvBuf) {datagrams : List (List Byte)} {k : ℕ}
    (hk : k < datagrams.length) :
    (handed buf datagrams)[k]? = some datagrams[k] ↔
      datagrams[k].length = chunkSize ∧ ∀ datagram ∈ datagrams.take k, datagram ≠ [] := by
  induction datagrams generalizing buf k with
  | nil => simp at hk
  | cons datagram datagrams ih =>
    cases k with
    | zero => simp [handed, RecvBuf.receive_eq]
    | succ k =>
      rw [List.length_cons, Nat.succ_lt_succ_iff] at hk
      by_cases h : datagram = []
      · simp [handed, h]
      · simp [handed, h, ih _ hk]

-- ---------------------------------------------------------------------------
-- From the encoder to the decoder
-- ---------------------------------------------------------------------------

variable {Endpoint : Type}

def uploads (client : Endpoint) (jpegs : List (List Byte)) (s : Socket Endpoint) :
    Socket Endpoint :=
  jpegs.foldl (fun s jpeg => ((uploadFrame jpeg (.datagram client false)).run.run s).2) s

def frames (log : List (Datagram Endpoint)) : List (List Byte) :=
  log.filterMap fun
    | .request _ => none
    | .frame _ data => some data

theorem frames_uploads (client : Endpoint) {jpegs : List (List Byte)}
    (h : ∀ jpeg ∈ jpegs, jpeg.length ≤ maxDatagram) (s : Socket Endpoint) :
    frames (uploads client jpegs s).log = frames s.log ++ jpegs := by
  induction jpegs generalizing s with
  | nil => exact (List.append_nil _).symm
  | cons jpeg jpegs ih =>
    obtain ⟨hjpeg, hjpegs⟩ := List.forall_mem_cons.mp h
    have hsent : frames (((s.received (.datagram client false)).sent jpeg).log) =
        frames s.log ++ [jpeg] := by
      simp [frames, Socket.received, Socket.sent, Socket.frame, hjpeg]
    rw [uploads, List.foldl_cons, uploadFrame_run, ← uploads, ih hjpegs, hsent, List.append_assoc,
      List.singleton_append]

/-- The decoder gets the JPEG that was encoded exactly when it has the length of
the buffer and no empty datagram has ended the loop before. -/
theorem decoded_iff (client : Endpoint) (buf : RecvBuf) (bytesReceived : ℕ)
    {jpegs : List (List Byte)} (hfits : ∀ jpeg ∈ jpegs, jpeg.length ≤ maxDatagram)
    (k : Fin jpegs.length) :
    (clientMain ⟨buf, bytesReceived, []⟩
        (frames (uploads client jpegs ⟨none, []⟩).log)).vars.decoded[k.val]? = some jpegs[k] ↔
      jpegs[k].length = chunkSize ∧ ∀ jpeg ∈ jpegs.take k, jpeg ≠ [] := by
  rw [clientMain_decoded, frames_uploads client hfits]
  exact handed_getElem buf k.isLt

/-- A comment that makes a JPEG of 64000 bytes. -/
def longComment : List Byte := [0xFF, 0xFE, 0xF9, 0x71] ++ List.replicate 63855 0x20

theorem length_longComment : (Server.greyPixel longComment).length = chunkSize := by
  rw [Server.length_greyPixel, longComment, List.length_append, List.length_replicate]
  rfl

theorem decoded_iff_full :
    (clientMain ⟨⟨List.replicate chunkSize 0, List.length_replicate⟩, 1, []⟩
        (frames (uploads () [Server.greyPixel longComment] ⟨none, []⟩).log)).vars.decoded[0]? =
      some (Server.greyPixel longComment) := by
  have hfits : ∀ jpeg ∈ [Server.greyPixel longComment], jpeg.length ≤ maxDatagram := by
    intro jpeg hjpeg
    rw [List.mem_singleton.mp hjpeg, length_longComment]
    decide
  exact (decoded_iff () _ 1 hfits 0).mpr ⟨length_longComment, nofun⟩

/-- A JPEG of 141 bytes comes to the decoder with the rest of the buffer. -/
theorem decoded_short :
    (clientMain ⟨⟨List.replicate chunkSize 0, List.length_replicate⟩, 1, []⟩
        (frames (uploads () [Server.greyPixel []] ⟨none, []⟩).log)).vars.decoded[0]? ≠
      some (Server.greyPixel []) := by
  have hfits : ∀ jpeg ∈ [Server.greyPixel []], jpeg.length ≤ maxDatagram := by
    intro jpeg hjpeg
    rw [List.mem_singleton.mp hjpeg, Server.length_greyPixel]
    decide
  rw [clientMain_decoded, frames_uploads () hfits]
  intro h
  have hlen := ((handed_getElem _ (Nat.zero_lt_one)).mp h).1
  change (Server.greyPixel []).length = chunkSize at hlen
  rw [Server.length_greyPixel] at hlen
  exact absurd hlen (by decide)

end LineFollower
