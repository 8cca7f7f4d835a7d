/-
  The bus of the Macintosh IIcx (`MacIIcxMachine.cpp`).

  * `banks`, `ramIndex`: where an address is in the installed memory;
  * `read8`, …, `write32`: the accesses, each with its fast path first;
  * `rebuildPhysicalMemoryMap`, `portChange`, `reset`: what changes the decoding;
  * `step`: whatever can happen to the machine between two accesses.

  The devices are a parameter: an access gives the device its turn, and the list
  of port A values that the adapters announce meanwhile.
-/
import CuteMac.Core.PhysicalMemoryMap
import CuteMac.Lib.Machine
import CuteMac.NuBus.NuBusBus

namespace CuteMac.MacIIcx

open Core NuBus

def romBase : UInt32 := 0x40000000
def ioBase : UInt32 := 0x50000000
def ioMirrorMask : UInt32 := 0x00f00000
def ioOffsetMask : UInt32 := 0x000fffff
def ramMapSearchEnd : Nat := 192 * 1024 * 1024
def romSize : Nat := 256 * 1024

/-- The memory sizes of the profile, in KiB. -/
def ramSizes : List Nat :=
  [1024, 2048, 4096, 5120, 8192, 16384, 17408, 20480, 32768, 65536, 66560, 69632, 81920, 131072]

abbrev InstalledRam := { kib : Nat // kib ∈ ramSizes }

/-! ## The installed memory -/

structure Banks where
  bankASize : Nat
  bankBSize : Nat
  noMirror : Bool := false
  mirrorBankB : Bool := false

def mib (n : Nat) : Nat := n * (1024 * 1024)

def banks (memorySize : Nat) : Banks :=
  let bankASize := min memorySize (mib 64)
  let bankBSize := if bankASize < memorySize then memorySize - bankASize else 0
  match memorySize / mib 1 with
  | 1 | 16 => { bankASize, bankBSize, noMirror := true }
  | 2 => { bankASize := mib 1, bankBSize := mib 1 }
  | 4 => { bankASize := mib 4, bankBSize := 0, noMirror := true }
  | 5 => { bankASize := mib 4, bankBSize := mib 1, mirrorBankB := true }
  | 8 => { bankASize := mib 4, bankBSize := mib 4 }
  | 17 => { bankASize := mib 16, bankBSize := mib 1, mirrorBankB := true }
  | 20 => { bankASize := mib 16, bankBSize := mib 4, mirrorBankB := true }
  | 65 => { bankASize := mib 64, bankBSize := mib 1, mirrorBankB := true }
  | 68 => { bankASize := mib 64, bankBSize := mib 4, mirrorBankB := true }
  | 80 => { bankASize := mib 64, bankBSize := mib 16, mirrorBankB := true }
  | 128 => { bankASize := mib 64, bankBSize := mib 64 }
  | _ => { bankASize, bankBSize }

/-- Where the GLUE has bank B while the memory is being sized. -/
def bankBLocation (glueRamSize : UInt8) : Nat :=
  match (glueRamSize >>> 6).toNat with
  | 0 => mib 1
  | 1 => mib 2
  | 2 => mib 8
  | _ => mib 32

def ramIndex (memorySize : Nat) (glueRamSize : UInt8) (address : Nat) : Option Nat :=
  let b := banks memorySize
  let location := bankBLocation glueRamSize
  if !b.noMirror ∧ memorySize < location then
    if address < min memorySize (mib 1) then some address else none
  else if address < memorySize then some address
  else if !b.noMirror ∧
      address < memorySize + (if b.mirrorBankB then b.bankBSize else b.bankASize) then
    some ((if b.mirrorBankB then b.bankASize else 0) + (address - memorySize))
  else if 0 < b.bankBSize ∧ memorySize + b.bankASize ≤ location ∧ location ≤ address ∧
      address < location + b.bankBSize then
    some (b.bankASize + (address - location))
  else none

/-! ## The machine -/

inductive Region where
  | ram
  | rom
  deriving DecidableEq, Repr

/-- A value at port A of an adapter. -/
inductive PortChange where
  | via1 (value : UInt8)
  | via2 (value : UInt8)

/-- The devices on the bus. -/
structure Devices (δ : Type) where
  readIo8 : δ → UInt32 → UInt8 × δ × List PortChange
  writeIo8 : δ → UInt32 → UInt8 → δ × List PortChange
  readPseudoDma16 : δ → UInt16 × δ × List PortChange
  writePseudoDma16 : δ → UInt16 → δ × List PortChange
  readNuBus8 : δ → UInt32 → UInt8 × δ × List PortChange
  readNuBus16 : δ → UInt32 → UInt16 × δ × List PortChange
  readNuBus32 : δ → UInt32 → UInt32 × δ × List PortChange
  writeNuBus8 : δ → UInt32 → UInt8 → δ × List PortChange
  writeNuBus16 : δ → UInt32 → UInt16 → δ × List PortChange
  writeNuBus32 : δ → UInt32 → UInt32 → δ × List PortChange
  reset : δ → δ × List PortChange

structure MacIIcxMachine (δ : Type) where
  installed : InstalledRam
  bytes : Bytes Region
  overlay : Bool := true
  glueRamSize : UInt8 := 0
  physicalMemoryMap : PhysicalMemoryMap Region := PhysicalMemoryMap.clear
  devices : δ

namespace MacIIcxMachine

variable {δ : Type}

def memorySize (s : MacIIcxMachine δ) : Nat := s.installed.val * 1024

def ramIndex (s : MacIIcxMachine δ) (address : UInt32) : Option Nat :=
  MacIIcx.ramIndex s.memorySize s.glueRamSize address.toNat

def isIo (address : UInt32) : Prop := address &&& ~~~ioMirrorMask &&& 0xfff00000 = ioBase

instance (address : UInt32) : Decidable (isIo address) := by
  unfold isIo
  infer_instance

def isScsiDma (address : UInt32) : Prop :=
  let offset := address &&& ioOffsetMask
  address &&& ~~~ioMirrorMask &&& 0xfff00000 = ioBase ∧
    (0x6000 ≤ offset ∧ offset < 0x8000 ∨ 0x12000 ≤ offset ∧ offset < 0x14000)

instance (address : UInt32) : Decidable (isScsiDma address) := by
  unfold isScsiDma
  infer_instance

/-- The 24-bit slot spaces, where no installed memory answers. -/
def isAliasedNuBus (s : MacIIcxMachine δ) (address : UInt32) : Prop :=
  0 ≤ standardSlot address ∧ s.ramIndex address = none

instance (s : MacIIcxMachine δ) (address : UInt32) : Decidable (s.isAliasedNuBus address) := by
  unfold isAliasedNuBus
  infer_instance

/-! ## What changes the decoding -/

/-- The page table that the memory, the GLUE and the overlay make. -/
def decodedPages (memorySize : Nat) (glueRamSize : UInt8) (overlay : Bool) :
    PhysicalMemoryMap Region :=
  let ram := PhysicalMemoryMap.clear.mapPages 0 (ramMapSearchEnd / PhysicalMemoryMap.pageSize)
    fun i =>
      match MacIIcx.ramIndex memorySize glueRamSize (i * PhysicalMemoryMap.pageSize) with
      | some index =>
        if index + PhysicalMemoryMap.pageSize ≤ memorySize then some (.readWrite (.ram, index))
        else none
      | none => none
  let rom := ram.mapReadOnlyMirrored romBase 0x10000000 (.rom, 0) romSize
  if overlay then
    rom.mapPages 0 (romSize / PhysicalMemoryMap.pageSize) fun i =>
      some (.readOnly (.rom, i * PhysicalMemoryMap.pageSize))
  else rom

def rebuildPhysicalMemoryMap (s : MacIIcxMachine δ) : MacIIcxMachine δ :=
  { s with physicalMemoryMap := decodedPages s.memorySize s.glueRamSize s.overlay }

/-- The callbacks of the two port A. -/
def portChange (s : MacIIcxMachine δ) : PortChange → MacIIcxMachine δ
  | .via1 value =>
    let overlay := value &&& 0x10 != 0
    if s.overlay ≠ overlay then { s with overlay := overlay }.rebuildPhysicalMemoryMap else s
  | .via2 value =>
    let glueRamSize := value &&& 0xc0
    if s.glueRamSize ≠ glueRamSize then
      { s with glueRamSize := glueRamSize }.rebuildPhysicalMemoryMap
    else s

/-- A device has had its turn. -/
def settle (s : MacIIcxMachine δ) (turn : δ × List PortChange) : MacIIcxMachine δ :=
  turn.2.foldl portChange { s with devices := turn.1 }

def clearRam (bytes : Bytes Region) : Bytes Region :=
  Function.update bytes .ram fun _ => 0

def reset (dev : Devices δ) (s : MacIIcxMachine δ) : MacIIcxMachine δ :=
  let s := { s with bytes := clearRam s.bytes, glueRamSize := 0 }
  let s := s.settle (dev.reset s.devices)
  { s with overlay := true }.rebuildPhysicalMemoryMap

/-! ## The accesses -/

variable (dev : Devices δ)

/-- A read of a byte past the fast path. -/
def decodedRead8 (s : MacIIcxMachine δ) (address : UInt32) : UInt8 × MacIIcxMachine δ :=
  if s.overlay ∧ address.toNat < romSize then (s.bytes .rom address.toNat, s)
  else
    match s.ramIndex address with
    | some index => (s.bytes .ram index, s)
    | none =>
      if address &&& 0xf0000000 = romBase then
        (s.bytes .rom ((address - romBase).toNat % romSize), s)
      else if isIo address then
        let read := dev.readIo8 s.devices address
        (read.1, s.settle read.2)
      else if s.isAliasedNuBus address then
        let read := dev.readNuBus8 s.devices address
        (read.1, s.settle read.2)
      else (0xff, s)

def read8 (s : MacIIcxMachine δ) (address : UInt32) : UInt8 × MacIIcxMachine δ :=
  match s.physicalMemoryMap.tryRead8 s.bytes address with
  | some directValue => (directValue, s)
  | none => decodedRead8 dev s address

def read16 (s : MacIIcxMachine δ) (address : UInt32) : UInt16 × MacIIcxMachine δ :=
  match s.physicalMemoryMap.tryRead16 s.bytes address with
  | some directValue => (directValue, s)
  | none =>
    if s.isAliasedNuBus address then
      let read := dev.readNuBus16 s.devices address
      (read.1, s.settle read.2)
    else if isScsiDma address then
      let read := dev.readPseudoDma16 s.devices
      (read.1, s.settle read.2)
    else if isIo address then
      let read := dev.readIo8 s.devices address
      ((read.1.toUInt16 <<< 8) ||| read.1.toUInt16, s.settle read.2)
    else
      let high := read8 dev s address
      let low := read8 dev high.2 (address + 1)
      ((high.1.toUInt16 <<< 8) ||| low.1.toUInt16, low.2)

def read32 (s : MacIIcxMachine δ) (address : UInt32) : UInt32 × MacIIcxMachine δ :=
  match s.physicalMemoryMap.tryRead32 s.bytes address with
  | some directValue => (directValue, s)
  | none =>
    if s.isAliasedNuBus address then
      let read := dev.readNuBus32 s.devices address
      (read.1, s.settle read.2)
    else
      let high := read16 dev s address
      let low := read16 dev high.2 (address + 2)
      ((high.1.toUInt32 <<< 16) ||| low.1.toUInt32, low.2)

/-- A write of a byte past the fast path. -/
def decodedWrite8 (s : MacIIcxMachine δ) (address : UInt32) (value : UInt8) : MacIIcxMachine δ :=
  let other :=
    if isIo address then s.settle (dev.writeIo8 s.devices address value)
    else if s.isAliasedNuBus address then s.settle (dev.writeNuBus8 s.devices address value)
    else s
  match s.ramIndex address with
  | some index =>
    if s.overlay ∧ address.toNat < romSize then other
    else { s with bytes := PhysicalMemoryMap.writeBytes s.bytes .ram index [value] }
  | none => other

def write8 (s : MacIIcxMachine δ) (address : UInt32) (value : UInt8) : MacIIcxMachine δ :=
  match s.physicalMemoryMap.tryWrite8 s.bytes address value with
  | some bytes => { s with bytes := bytes }
  | none => decodedWrite8 dev s address value

def write16 (s : MacIIcxMachine δ) (address : UInt32) (value : UInt16) : MacIIcxMachine δ :=
  match s.physicalMemoryMap.tryWrite16 s.bytes address value with
  | some bytes => { s with bytes := bytes }
  | none =>
    if isScsiDma address then s.settle (dev.writePseudoDma16 s.devices value)
    else if isIo address then
      s.settle (dev.writeIo8 s.devices address (value >>> 8).toUInt8)
    else if s.isAliasedNuBus address then s.settle (dev.writeNuBus16 s.devices address value)
    else write8 dev (write8 dev s address (value >>> 8).toUInt8) (address + 1) value.toUInt8

def write32 (s : MacIIcxMachine δ) (address value : UInt32) : MacIIcxMachine δ :=
  match s.physicalMemoryMap.tryWrite32 s.bytes address value with
  | some bytes => { s with bytes := bytes }
  | none =>
    if s.isAliasedNuBus address then s.settle (dev.writeNuBus32 s.devices address value)
    else
      write16 dev (write16 dev s address (value >>> 16).toUInt16) (address + 2) value.toUInt16

/-! ## Runs -/

/-- What can happen to the machine. -/
inductive Input (δ : Type) where
  | read8 (address : UInt32)
  | read16 (address : UInt32)
  | read32 (address : UInt32)
  | write8 (address : UInt32) (value : UInt8)
  | write16 (address : UInt32) (value : UInt16)
  | write32 (address value : UInt32)
  /-- the devices do something by themselves, or the host does it to them -/
  | device (turn : δ × List PortChange)
  | loadRom (rom : Nat → UInt8)
  | reset

def step (s : MacIIcxMachine δ) : Input δ → MacIIcxMachine δ
  | .read8 address => (read8 dev s address).2
  | .read16 address => (read16 dev s address).2
  | .read32 address => (read32 dev s address).2
  | .write8 address value => write8 dev s address value
  | .write16 address value => write16 dev s address value
  | .write32 address value => write32 dev s address value
  | .device turn => s.settle turn
  | .loadRom rom => { s with bytes := Function.update s.bytes .rom rom }
  | .reset => reset dev s

/-- A machine as it is made, with no bytes in its ROM. -/
def powerOn (installed : InstalledRam) (devices : δ) : MacIIcxMachine δ where
  installed := installed
  bytes := fun _ _ => 0
  devices := devices

end MacIIcxMachine

end CuteMac.MacIIcx
