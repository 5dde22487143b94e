import LineFollower.Lib.Exchange
import LineFollower.Motors.Registers

/-!
# The daisy chain

Two chips share one SPI line: a packet has one byte for each, and each answers
with one byte. `spiXfer` is `Motors::SPIXfer`, which puts its byte at the
index `m_nPosition` of a zeroed packet. The packet has two bytes, so any other
index is outside it.
-/

namespace LineFollower

open Lib Lib.Exchange

inductive Chip
  | left
  | right
  deriving DecidableEq, Repr

structure Packet where
  left : Byte
  right : Byte
  deriving DecidableEq, Repr

namespace Packet

def get (p : Packet) : Chip → Byte
  | .left => p.left
  | .right => p.right

def set (p : Packet) (chip : Chip) (b : Byte) : Packet :=
  match chip with
  | .left => { p with left := b }
  | .right => { p with right := b }

def zero : Packet := ⟨0, 0⟩

@[simp] theorem get_set_self (p : Packet) (c : Chip) (b : Byte) : (p.set c b).get c = b := by
  cases c <;> rfl

theorem get_set_ne (p : Packet) {c d : Chip} (b : Byte) (h : d ≠ c) :
    (p.set c b).get d = p.get d := by
  cases c <;> cases d <;> first | rfl | exact absurd rfl h

@[simp] theorem get_zero (c : Chip) : zero.get c = 0 := by cases c <;> rfl

end Packet

/-- The fields of a `Motors` object that its operations read. -/
structure Motors where
  nSpiChipSelect : Byte
  nPosition : Byte
  lIsConnected : Bool
  rIsConnected : Bool
  deriving DecidableEq, Repr

/-- One `bcm2835_spi_transfern`, with the position it was made for. -/
structure Transfer where
  nSpiChipSelect : Byte
  nPosition : Byte
  dataPacket : Packet
  deriving DecidableEq, Repr

inductive Undefined
  | outOfBounds
  deriving DecidableEq, Repr

abbrev Spi := Exchange Motors Transfer Packet Undefined

def packetIndex (nPosition : Byte) : Option Chip :=
  if nPosition = 0 then some .left
  else if nPosition = 1 then some .right
  else none

theorem packetIndex_left : packetIndex 0 = some .left := rfl

theorem packetIndex_right : packetIndex 1 = some .right := rfl

def spiXfer (data : Byte) : Spi Byte := do
  let self ← getVars
  match packetIndex self.nPosition with
  | none => fault .outOfBounds
  | some chip =>
    let dataPacket := Packet.zero.set chip data
    let answer ← exchange ⟨self.nSpiChipSelect, self.nPosition, dataPacket⟩
    pure (answer.get chip)

def select (position : Byte) : Spi Unit :=
  modifyVars fun self => { self with nPosition := position }

-- ---------------------------------------------------------------------------
-- What a program of transfers sends
-- ---------------------------------------------------------------------------

def frame (self : Motors) (chip : Chip) (data : Byte) : Transfer :=
  ⟨self.nSpiChipSelect, self.nPosition, Packet.zero.set chip data⟩

variable {self : Motors} {chip : Chip}

theorem spiXfer_nil (hc : packetIndex self.nPosition = some chip) :
    spiXfer b self [] = ⟨.error .pending, self, [], []⟩ := by
  simp only [spiXfer, bind_run, getVars, hc]
  rfl

theorem spiXfer_cons (hc : packetIndex self.nPosition = some chip) :
    spiXfer b self (a :: rest) = ⟨.ok (a.get chip), self, rest, [(frame self chip b, a)]⟩ := by
  simp only [spiXfer, bind_run, getVars, hc]
  rfl

theorem spiXfer_fault (hc : packetIndex self.nPosition = none) (as : List Packet) :
    spiXfer b self as = ⟨.error (.fault .outOfBounds), self, as, []⟩ := by
  simp only [spiXfer, bind_run, getVars, hc]
  rfl

/-- The selected chip gets the bytes `bs`, one transfer each. -/
def Sends (bs : List Byte) (m : Spi α) : Prop :=
  ∀ self chip, packetIndex self.nPosition = some chip → Emits self (bs.map (frame self chip)) m

namespace Sends

variable {m : Spi α} {f : α → Spi β} {next : Spi β} {bs cs : List Byte}

theorem pure (a : α) : Sends [] (pure a : Spi α) :=
  fun self _ _ => Emits.pure self a

theorem bind (hm : Sends bs m) (hf : ∀ a, Sends cs (f a)) : Sends (bs ++ cs) (m >>= f) := by
  intro self chip hc
  rw [List.map_append]
  exact (hm self chip hc).bind fun a => hf a self chip hc

theorem seq (hm : Sends bs m) (hn : Sends cs next) : Sends (bs ++ cs) (do let _ ← m; next) :=
  hm.bind fun _ => hn

theorem map (g : α → β) (hm : Sends bs m) : Sends bs (do return g (← m)) := by
  have h : Sends (bs ++ []) (do return g (← m)) := hm.bind fun a => Sends.pure (g a)
  rwa [List.append_nil] at h

end Sends

theorem spiXfer_sends (b : Byte) : Sends [b] (spiXfer b) := by
  intro self chip hc as
  cases as with
  | nil => simp [spiXfer_nil hc]
  | cons a rest => simp [spiXfer_cons hc]

end LineFollower
