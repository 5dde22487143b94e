import LineFollower.Host
import LineFollower.Lib.Triple

/-!
# Access to the peripherals

`bcm2835.c`: the functions that read and write the registers of the
peripherals. A base that `bcm2835_init` has not mapped is `MAP_FAILED`, and an
access through it is a fault. Memory barriers are not modelled: the accesses
of a program are made in its order. `debug` is a static 0 that nothing sets,
so the branches for it are left out.
-/

namespace LineFollower

open Lib Lib.Exchange

abbrev Word := BitVec 32

namespace Bcm2835

/-- The blocks of registers that the robot uses. -/
inductive Block
  | gpio
  | spi0
  | st
  deriving DecidableEq, Repr

/-- A pointer to a register: the base of its block, and an index of words. -/
structure Register where
  block : Block
  index : ℕ
  deriving DecidableEq, Repr

inductive Access
  | read (paddr : Register)
  | write (paddr : Register) (value : Word)
  | nanosleep (sec nsec : ℤ)
  deriving DecidableEq, Repr

inductive Unmapped
  | mapFailed
  deriving DecidableEq, Repr

end Bcm2835

/-- The library's variables, the process's memory, and the counters of
`bcm2835_spi_transfernb`. -/
structure Bcm2835 where
  mapped : Bcm2835.Block → Bool
  spiBitOrder : Byte
  mem : ℕ → Byte
  txCnt : ℕ
  rxCnt : ℕ

namespace Bcm2835

abbrev Driver := Exchange Bcm2835 Access Word Unmapped

def access (paddr : Register) (request : Access) : Driver Word := do
  let self ← getVars
  if self.mapped paddr.block then exchange request else fault .mapFailed

def periRead (paddr : Register) : Driver Word := access paddr (.read paddr)

def periReadNb (paddr : Register) : Driver Word := access paddr (.read paddr)

def periWrite (paddr : Register) (value : Word) : Driver Unit := do
  let _ ← access paddr (.write paddr value)

def periWriteNb (paddr : Register) (value : Word) : Driver Unit := do
  let _ ← access paddr (.write paddr value)

def periSetBits (paddr : Register) (value mask : Word) : Driver Unit := do
  let v ← periRead paddr
  periWrite paddr ((v &&& ~~~mask) ||| (value &&& mask))

def nanosleep (sec nsec : ℤ) : Driver Unit := do
  let _ ← exchange (.nanosleep sec nsec)

theorem access_eq {paddr : Register} {request : Access} {self : Bcm2835}
    (h : self.mapped paddr.block = true) :
    access paddr request self = (exchange request : Driver Word) self := by
  funext as
  simp only [access, bind_run, getVars, h, ↓reduceIte]
  rfl

theorem access_unmapped {paddr : Register} {request : Access} {self : Bcm2835}
    (h : self.mapped paddr.block = false) (as : List Word) :
    access paddr request self as = ⟨.error (.fault .mapFailed), self, as, []⟩ := by
  simp only [access, bind_run, getVars, h, Bool.false_eq_true, ↓reduceIte]
  rfl

theorem getLsbD_setBits (v value mask : Word) (i : ℕ) :
    ((v &&& ~~~mask) ||| (value &&& mask)).getLsbD i =
      if mask.getLsbD i = true then value.getLsbD i else v.getLsbD i := by
  simp only [BitVec.getLsbD_or, BitVec.getLsbD_and, BitVec.getLsbD_not]
  cases hm : mask.getLsbD i with
  | true => simp
  | false =>
    by_cases hi : i < 32
    · simp [hi]
    · simp [BitVec.getLsbD_of_ge v i (by omega)]

theorem access_uses (paddr : Register) (request : Access) : Uses 1 (access paddr request) :=
  Uses.getVars_bind fun _ => .ite (.exchange request) (.fault _)

theorem periRead_uses (paddr : Register) : Uses 1 (periRead paddr) := access_uses _ _

theorem periReadNb_uses (paddr : Register) : Uses 1 (periReadNb paddr) := access_uses _ _

theorem periWriteNb_uses (paddr : Register) (value : Word) : Uses 1 (periWriteNb paddr value) :=
  (access_uses _ _).seq (.pure ())

theorem access_keeps {inv : Bcm2835 → Prop} (paddr : Register) (request : Access) :
    Keeps inv (access paddr request) :=
  .bind .getVars fun _ => .ite (.exchange request) (.fault _)

theorem periRead_keeps {inv : Bcm2835 → Prop} (paddr : Register) : Keeps inv (periRead paddr) :=
  access_keeps _ _

theorem periReadNb_keeps {inv : Bcm2835 → Prop} (paddr : Register) : Keeps inv (periReadNb paddr) :=
  access_keeps _ _

theorem periWrite_keeps {inv : Bcm2835 → Prop} (paddr : Register) (value : Word) :
    Keeps inv (periWrite paddr value) :=
  (access_keeps _ _).seq (.pure ())

theorem periWriteNb_keeps {inv : Bcm2835 → Prop} (paddr : Register) (value : Word) :
    Keeps inv (periWriteNb paddr value) :=
  (access_keeps _ _).seq (.pure ())

theorem periSetBits_keeps {inv : Bcm2835 → Prop} (paddr : Register) (value mask : Word) :
    Keeps inv (periSetBits paddr value mask) :=
  (periRead_keeps _).bind fun _ => periWrite_keeps _ _

-- ---------------------------------------------------------------------------
-- Accesses that a device answers
-- ---------------------------------------------------------------------------

section
variable {D : Type} {dev : Device D Access Word} {self : Bcm2835} {d : D} {cut : D → Prop}
  {paddr : Register}

theorem access_triple {request : Access} (h : self.mapped paddr.block = true) (hc : cut d) :
    Triple dev (access paddr request) self d
      (fun w self' d' => w = (dev d request).1 ∧ self = self' ∧ d' = (dev d request).2) cut :=
  .congr (access_eq h) (.exchange hc ⟨rfl, rfl, rfl⟩)

theorem periRead_triple (h : self.mapped paddr.block = true) (hc : cut d) :
    Triple dev (periRead paddr) self d
      (fun w self' d' => w = (dev d (.read paddr)).1 ∧ self = self' ∧ d' = (dev d (.read paddr)).2)
        cut :=
  access_triple h hc

theorem periReadNb_triple (h : self.mapped paddr.block = true) (hc : cut d) :
    Triple dev (periReadNb paddr) self d
      (fun w self' d' => w = (dev d (.read paddr)).1 ∧ self = self' ∧ d' = (dev d (.read paddr)).2)
        cut :=
  access_triple h hc

theorem periWrite_triple {value : Word} (h : self.mapped paddr.block = true) (hc : cut d) :
    Triple dev (periWrite paddr value) self d
      (fun _ self' d' => self = self' ∧ d' = (dev d (.write paddr value)).2) cut :=
  (access_triple h hc).seq fun _ _ _ hw => .pure hw.2

theorem periWriteNb_triple {value : Word} (h : self.mapped paddr.block = true) (hc : cut d) :
    Triple dev (periWriteNb paddr value) self d
      (fun _ self' d' => self = self' ∧ d' = (dev d (.write paddr value)).2) cut :=
  periWrite_triple h hc

theorem periSetBits_triple {value mask : Word} (h : self.mapped paddr.block = true) (hc : cut d)
    (hread : cut (dev d (.read paddr)).2) :
    Triple dev (periSetBits paddr value mask) self d
      (fun _ self' d' => self = self' ∧ d' = (dev (dev d (.read paddr)).2
        (.write paddr (((dev d (.read paddr)).1 &&& ~~~mask) ||| (value &&& mask)))).2) cut := by
  refine (periRead_triple h hc).bind ?_
  rintro _ _ _ ⟨rfl, rfl, rfl⟩
  exact periWrite_triple h hread

end

end Bcm2835

end LineFollower
