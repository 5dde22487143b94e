import LineFollower.Bcm2835.Registers

/-!
# The SPI functions

`bcm2835.c`: the polled transfers of SPI0. A buffer is an address in the
process's memory, so the two buffers of a transfer may overlap. The counters
of a transfer are below its length, so they do not wrap.
-/

namespace LineFollower.Bcm2835

open Lib Lib.Exchange

def spi0Cs : Register := ⟨.spi0, 0x0000 / 4⟩
def spi0Fifo : Register := ⟨.spi0, 0x0004 / 4⟩
def spi0Clk : Register := ⟨.spi0, 0x0008 / 4⟩

def spi0CsRxf : Word := 0x00100000
def spi0CsRxr : Word := 0x00080000
def spi0CsTxd : Word := 0x00040000
def spi0CsRxd : Word := 0x00020000
def spi0CsDone : Word := 0x00010000
def spi0CsTa : Word := 0x00000080
def spi0CsClear : Word := 0x00000030
def spi0CsCpol : Word := 0x00000008
def spi0CsCpha : Word := 0x00000004
def spi0CsCs : Word := 0x00000003

def spiBitOrderLsbfirst : Byte := 0
def spiBitOrderMsbfirst : Byte := 1

def spiMode3 : Byte := 3

def spiClockDivider64 : BitVec 16 := 64

-- ---------------------------------------------------------------------------
-- Bit order
-- ---------------------------------------------------------------------------

def byteReverseTable : List Byte := [
  0x00, 0x80, 0x40, 0xc0, 0x20, 0xa0, 0x60, 0xe0, 0x10, 0x90, 0x50, 0xd0, 0x30, 0xb0, 0x70, 0xf0,
  0x08, 0x88, 0x48, 0xc8, 0x28, 0xa8, 0x68, 0xe8, 0x18, 0x98, 0x58, 0xd8, 0x38, 0xb8, 0x78, 0xf8,
  0x04, 0x84, 0x44, 0xc4, 0x24, 0xa4, 0x64, 0xe4, 0x14, 0x94, 0x54, 0xd4, 0x34, 0xb4, 0x74, 0xf4,
  0x0c, 0x8c, 0x4c, 0xcc, 0x2c, 0xac, 0x6c, 0xec, 0x1c, 0x9c, 0x5c, 0xdc, 0x3c, 0xbc, 0x7c, 0xfc,
  0x02, 0x82, 0x42, 0xc2, 0x22, 0xa2, 0x62, 0xe2, 0x12, 0x92, 0x52, 0xd2, 0x32, 0xb2, 0x72, 0xf2,
  0x0a, 0x8a, 0x4a, 0xca, 0x2a, 0xaa, 0x6a, 0xea, 0x1a, 0x9a, 0x5a, 0xda, 0x3a, 0xba, 0x7a, 0xfa,
  0x06, 0x86, 0x46, 0xc6, 0x26, 0xa6, 0x66, 0xe6, 0x16, 0x96, 0x56, 0xd6, 0x36, 0xb6, 0x76, 0xf6,
  0x0e, 0x8e, 0x4e, 0xce, 0x2e, 0xae, 0x6e, 0xee, 0x1e, 0x9e, 0x5e, 0xde, 0x3e, 0xbe, 0x7e, 0xfe,
  0x01, 0x81, 0x41, 0xc1, 0x21, 0xa1, 0x61, 0xe1, 0x11, 0x91, 0x51, 0xd1, 0x31, 0xb1, 0x71, 0xf1,
  0x09, 0x89, 0x49, 0xc9, 0x29, 0xa9, 0x69, 0xe9, 0x19, 0x99, 0x59, 0xd9, 0x39, 0xb9, 0x79, 0xf9,
  0x05, 0x85, 0x45, 0xc5, 0x25, 0xa5, 0x65, 0xe5, 0x15, 0x95, 0x55, 0xd5, 0x35, 0xb5, 0x75, 0xf5,
  0x0d, 0x8d, 0x4d, 0xcd, 0x2d, 0xad, 0x6d, 0xed, 0x1d, 0x9d, 0x5d, 0xdd, 0x3d, 0xbd, 0x7d, 0xfd,
  0x03, 0x83, 0x43, 0xc3, 0x23, 0xa3, 0x63, 0xe3, 0x13, 0x93, 0x53, 0xd3, 0x33, 0xb3, 0x73, 0xf3,
  0x0b, 0x8b, 0x4b, 0xcb, 0x2b, 0xab, 0x6b, 0xeb, 0x1b, 0x9b, 0x5b, 0xdb, 0x3b, 0xbb, 0x7b, 0xfb,
  0x07, 0x87, 0x47, 0xc7, 0x27, 0xa7, 0x67, 0xe7, 0x17, 0x97, 0x57, 0xd7, 0x37, 0xb7, 0x77, 0xf7,
  0x0f, 0x8f, 0x4f, 0xcf, 0x2f, 0xaf, 0x6f, 0xef, 0x1f, 0x9f, 0x5f, 0xdf, 0x3f, 0xbf, 0x7f, 0xff]

/-- A byte has its entry, so the default is not reached. -/
def correctOrder (spiBitOrder b : Byte) : Byte :=
  if spiBitOrder = spiBitOrderLsbfirst then byteReverseTable.getD b.toNat 0 else b

-- ---------------------------------------------------------------------------
-- Settings
-- ---------------------------------------------------------------------------

def spiSetClockDivider (divider : BitVec 16) : Driver Unit :=
  periWrite spi0Clk (divider.setWidth 32)

def spiSetDataMode (mode : Byte) : Driver Unit :=
  periSetBits spi0Cs (mode.setWidth 32 <<< 2) (spi0CsCpol ||| spi0CsCpha)

def spiChipSelect (cs : Byte) : Driver Unit :=
  periSetBits spi0Cs (cs.setWidth 32) spi0CsCs

-- ---------------------------------------------------------------------------
-- Transfers
-- ---------------------------------------------------------------------------

/-- The two writes that begin a transfer. -/
def clearAndActivate : Driver Unit := do
  periSetBits spi0Cs spi0CsClear spi0CsClear
  periSetBits spi0Cs spi0CsTa spi0CsTa

def spiTransfer (value : Byte) : Driver Byte := do
  clearAndActivate
  repeatWhile do
    return decide ((← periRead spi0Cs) &&& spi0CsTxd = 0)
  let self ← getVars
  periWriteNb spi0Fifo ((correctOrder self.spiBitOrder value).setWidth 32)
  repeatWhile do
    return decide ((← periReadNb spi0Cs) &&& spi0CsDone = 0)
  let ret ← periReadNb spi0Fifo
  periSetBits spi0Cs 0 spi0CsTa
  return correctOrder self.spiBitOrder (ret.setWidth 8)

/-- TX fifo not full, so add some more bytes. -/
def txTurn (tbuf len : ℕ) : Driver Bool := do
  let status ← periRead spi0Cs
  let self ← getVars
  if status &&& spi0CsTxd ≠ 0 ∧ self.txCnt < len then do
    periWriteNb spi0Fifo
      ((correctOrder self.spiBitOrder (self.mem (tbuf + self.txCnt))).setWidth 32)
    modifyVars fun self => { self with txCnt := self.txCnt + 1 }
    return true
  else return false

/-- Rx fifo not empty, so get the next received bytes. -/
def rxTurn (rbuf len : ℕ) : Driver Bool := do
  let status ← periRead spi0Cs
  let self ← getVars
  if status &&& spi0CsRxd ≠ 0 ∧ self.rxCnt < len then do
    let b ← periReadNb spi0Fifo
    modifyVars fun self =>
      { self with
        mem := Function.update self.mem (rbuf + self.rxCnt)
          (correctOrder self.spiBitOrder (b.setWidth 8))
        rxCnt := self.rxCnt + 1 }
    return true
  else return false

def transferTurn (tbuf rbuf len : ℕ) : Driver Bool := do
  let self ← getVars
  if self.txCnt < len ∨ self.rxCnt < len then do
    repeatWhile (txTurn tbuf len)
    repeatWhile (rxTurn rbuf len)
    return true
  else return false

def spiTransfernb (tbuf rbuf : ℕ) (len : Word) : Driver Unit := do
  modifyVars fun self => { self with txCnt := 0, rxCnt := 0 }
  clearAndActivate
  repeatWhile (transferTurn tbuf rbuf len.toNat)
  repeatWhile do
    return decide ((← periReadNb spi0Cs) &&& spi0CsDone = 0)
  periSetBits spi0Cs 0 spi0CsTa

/-- Read from FIFO to prevent stalling. -/
def drainTurn : Driver Bool := do
  if (← periRead spi0Cs) &&& spi0CsRxd ≠ 0 then do
    let _ ← periReadNb spi0Fifo
    return true
  else return false

def spiWritenb (tbuf : ℕ) (len : Word) : Driver Unit := do
  clearAndActivate
  (List.range len.toNat).forM fun i => do
    repeatWhile do
      return decide ((← periRead spi0Cs) &&& spi0CsTxd = 0)
    let self ← getVars
    periWriteNb spi0Fifo ((correctOrder self.spiBitOrder (self.mem (tbuf + i))).setWidth 32)
    repeatWhile drainTurn
  repeatWhile do
    if (← periReadNb spi0Cs) &&& spi0CsDone = 0 then do
      repeatWhile drainTurn
      return true
    else return false
  periSetBits spi0Cs 0 spi0CsTa

def spiTransfern (buf : ℕ) (len : Word) : Driver Unit := spiTransfernb buf buf len

-- ---------------------------------------------------------------------------
-- What a transfer leaves alone
-- ---------------------------------------------------------------------------

/-- SPI0 is mapped, and bytes go out as they are. -/
structure Ready (lib : Bcm2835) : Prop where
  mapped : lib.mapped .spi0 = true
  order : lib.spiBitOrder = spiBitOrderMsbfirst

def initialised : Bcm2835 := ⟨fun _ => true, spiBitOrderMsbfirst, fun _ => 0, 0, 0⟩

theorem spiChipSelect_keeps (cs : Byte) : Keeps Ready (spiChipSelect cs) := periSetBits_keeps _ _ _

theorem spiSetClockDivider_keeps (divider : BitVec 16) : Keeps Ready (spiSetClockDivider divider) :=
  periWrite_keeps _ _

theorem spiSetDataMode_keeps (mode : Byte) : Keeps Ready (spiSetDataMode mode) :=
    periSetBits_keeps _ _ _

theorem clearAndActivate_keeps : Keeps Ready clearAndActivate :=
  (periSetBits_keeps _ _ _).seq (periSetBits_keeps _ _ _)

theorem txTurn_keeps (tbuf len : ℕ) : Keeps Ready (txTurn tbuf len) := by
  refine (periRead_keeps _).bind fun _ => Keeps.getVars.bind fun _ => .ite ?_ (.pure _)
  exact (periWriteNb_keeps _ _).seq
    ((Keeps.modifyVars fun _ h => ⟨h.mapped, h.order⟩).seq (.pure _))

theorem rxTurn_keeps (rbuf len : ℕ) : Keeps Ready (rxTurn rbuf len) := by
  refine (periRead_keeps _).bind fun _ => Keeps.getVars.bind fun _ => .ite ?_ (.pure _)
  exact (periReadNb_keeps _).bind fun _ =>
    (Keeps.modifyVars fun _ h => ⟨h.mapped, h.order⟩).seq (.pure _)

theorem transferTurn_keeps (tbuf rbuf len : ℕ) : Keeps Ready (transferTurn tbuf rbuf len) := by
  refine Keeps.getVars.bind fun _ => .ite ?_ (.pure _)
  exact (txTurn_keeps _ _).repeatWhile.seq ((rxTurn_keeps _ _).repeatWhile.seq (.pure _))

theorem spiTransfern_keeps (buf : ℕ) (len : Word) : Keeps Ready (spiTransfern buf len) := by
  refine (Keeps.modifyVars fun _ h => ⟨h.mapped, h.order⟩).seq (clearAndActivate_keeps.seq ?_)
  refine (transferTurn_keeps _ _ _).repeatWhile.seq (Keeps.seq ?_ (periSetBits_keeps _ _ _))
  exact ((periReadNb_keeps _).bind fun _ => .pure _).repeatWhile

-- ---------------------------------------------------------------------------
-- The table reverses
-- ---------------------------------------------------------------------------

end LineFollower.Bcm2835
