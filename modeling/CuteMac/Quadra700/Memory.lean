/-
  The bus of the Quadra 700 (`Quadra700Machine.cpp`).

  * `ramIndex`, `sizingRamIndex`: where an address is in the installed memory, and in
    the memory that the ROM sizes;
  * `read8`, …, `write32`: the accesses, each with its own order of tests;
  * `writeIo8`: the memory controller, and the calibration of the VIA timer;
  * `step`: whatever can happen to the machine between two accesses.

  The video and the NuBus are those of the other modules.  The other devices are a
  parameter: an access gives them their turn, with the video they share lines with.
-/
import CuteMac.Core.PhysicalMemoryMap
import CuteMac.Lib.Machine
import CuteMac.NuBus.NuBusBus
import CuteMac.Video.DafbVideo

namespace CuteMac.Quadra700

open Core NuBus Video

def romBase : UInt32 := 0x40000000
def macRomLoadBase : Nat := 0x40800000
def rom24BitBase : UInt32 := 0x00800000
def ioBase : UInt32 := 0x50000000
def ioMirrorMask : UInt32 := 0x00fc0000
def ioOffsetMask : UInt32 := 0x0003ffff
def dafbVramBase : UInt32 := 0xf9000000
def dafbVramSize : Nat := 2 * 1024 * 1024
def dafbRegisterBase : UInt32 := 0xf9800000
def romSize : Nat := 1024 * 1024

/-- The memory sizes of the profile, in KiB. -/
def ramSizes : List Nat := [4096, 8192]

abbrev InstalledRam := { kib : Nat // kib ∈ ramSizes }

def nubusSlots : List Nat := [13, 14]

inductive Region where
  | ram
  | sizingRam
  /-- nonzero where the sizing memory has been written -/
  | sizingRamDirty
  | rom
  deriving DecidableEq, Repr

/-- The devices that are not memory, video or NuBus, with what each turn makes of them and of
    the video. -/
structure Devices (δ : Type) where
  readIo8 : δ → DafbVideo → UInt32 → UInt8 × δ × DafbVideo
  writeIo8 : δ → DafbVideo → UInt32 → UInt8 → δ × DafbVideo
  readTurboScsiDma16 : δ → DafbVideo → UInt16 × δ × DafbVideo
  writeTurboScsiDma16 : δ → DafbVideo → UInt16 → δ × DafbVideo
  /-- the video has gone from one state to the other, with its interrupts -/
  dafbIrq : δ → DafbVideo → DafbVideo → δ × DafbVideo
  slotIrq : δ → DafbVideo → SlotIrq → δ × DafbVideo
  reset : δ → DafbVideo → δ × DafbVideo

structure Quadra700Machine (δ κ : Type) where
  installed : InstalledRam
  bytes : Bytes Region
  romLoaded : Bool := false
  overlay : Bool := true
  physicalMemoryMap : PhysicalMemoryMap Region := PhysicalMemoryMap.clear
  orwellRegisters : Vector UInt8 0x80 := Vector.replicate _ 0
  mcuZeroBaseWrites : UInt8 := 0
  mcuBanksConfigured : Bool := false
  via1TimerCalibrationState : Nat := 0
  dafb : DafbVideo
  nubus : NuBusBus κ := {}
  devices : δ

namespace Quadra700Machine

variable {δ κ : Type}

def ramSize (s : Quadra700Machine δ κ) : Nat := s.installed.val * 1024

/-! ## What an address is -/

def ramIndex (s : Quadra700Machine δ κ) (address : UInt32) : Option Nat :=
  if address.toNat < s.ramSize then some address.toNat else none

/-- The temporary map is there after each second write to the controller. -/
def sizingRamIndex (s : Quadra700Machine δ κ) (address : UInt32) : Option Nat :=
  if 2 ≤ s.mcuZeroBaseWrites ∧ s.mcuZeroBaseWrites &&& 1 = 0 ∧ s.ramSize ≠ 0 ∧
      0x30000000 ≤ address ∧ address < 0x40000000 then
    some ((address - 0x37ff0000).toNat % s.ramSize)
  else none

def isIo (address : UInt32) : Prop := address &&& ~~~ioMirrorMask &&& 0xfff00000 = ioBase

instance (address : UInt32) : Decidable (isIo address) := by
  unfold isIo
  infer_instance

def isDafbRegister (address : UInt32) : Prop :=
  dafbRegisterBase ≤ address ∧ address < dafbRegisterBase + 0x400

instance (address : UInt32) : Decidable (isDafbRegister address) := by
  unfold isDafbRegister
  infer_instance

def isDafbVram (address : UInt32) : Prop :=
  dafbVramBase ≤ address ∧ address < dafbVramBase + UInt32.ofNat dafbVramSize

instance (address : UInt32) : Decidable (isDafbVram address) := by
  unfold isDafbVram
  infer_instance

/-- The data port of the SCSI controller. -/
def isTurboScsiDma (address : UInt32) : Prop :=
  isIo address ∧ 0xf100 ≤ address &&& ioOffsetMask ∧ address &&& ioOffsetMask < 0xf102

instance (address : UInt32) : Decidable (isTurboScsiDma address) := by
  unfold isTurboScsiDma
  infer_instance

/-- The super slots, and the slot spaces where no installed memory answers. -/
def isAliasedNuBus (s : Quadra700Machine δ κ) (address : UInt32) : Prop :=
  0 ≤ superSlot address ∨ 0 ≤ standardSlot address ∧ s.ramIndex address = none

instance (s : Quadra700Machine δ κ) (address : UInt32) : Decidable (s.isAliasedNuBus address) := by
  unfold isAliasedNuBus
  infer_instance

def isAliasedRom (s : Quadra700Machine δ κ) (address : UInt32) : Prop :=
  s.overlay = false ∧ rom24BitBase ≤ address ∧ address < rom24BitBase + UInt32.ofNat romSize ∧
    s.ramIndex address = none

instance (s : Quadra700Machine δ κ) (address : UInt32) : Decidable (s.isAliasedRom address) := by
  unfold isAliasedRom
  infer_instance

/-- The accesses that end in a bus error while the banks are not configured. -/
def unconfiguredRamAccessFaults (s : Quadra700Machine δ κ) (address size : UInt32) : Bool :=
  if s.overlay ∨ s.mcuBanksConfigured ∨ romBase ≤ address ∨ size = 0 then false
  else
    let lastAddress := address + size - 1
    if lastAddress < address ∨ romBase ≤ lastAddress then true
    else if (s.ramIndex address).isSome ∧ (s.ramIndex lastAddress).isSome ∨
        (s.sizingRamIndex address).isSome ∧ (s.sizingRamIndex lastAddress).isSome then false
    else if s.isAliasedRom address ∧ s.isAliasedRom lastAddress then false
    else decide (¬ s.isAliasedNuBus address ∨ ¬ s.isAliasedNuBus lastAddress)

/-! ## What changes the decoding -/

/-- The page table of an amount of memory. -/
def decodedPages (ramSize : Nat) (overlay : Bool) : PhysicalMemoryMap Region :=
  let ram :=
    if overlay then PhysicalMemoryMap.clear
    else
      PhysicalMemoryMap.clear.mapPages 0 (ramSize / PhysicalMemoryMap.pageSize) fun i =>
        let address := i * PhysicalMemoryMap.pageSize
        if address + PhysicalMemoryMap.pageSize ≤ ramSize then some (.readWrite (.ram, address))
        else none
  ram.mapReadOnlyMirrored romBase 0x10000000 (.rom, 0) romSize

def rebuildPhysicalMemoryMap (s : Quadra700Machine δ κ) : Quadra700Machine δ κ :=
  { s with physicalMemoryMap := decodedPages s.ramSize s.overlay }

/-- The other devices have had their turn. -/
def settle (s : Quadra700Machine δ κ) (turn : δ × DafbVideo) : Quadra700Machine δ κ :=
  { s with devices := turn.1, dafb := turn.2 }

def slotIrq (dev : Devices δ) (s : Quadra700Machine δ κ) (irq : SlotIrq) : Quadra700Machine δ κ :=
  s.settle (dev.slotIrq s.devices s.dafb irq)

/-- A card has had its turn. -/
def settleNuBus (dev : Devices δ) (s : Quadra700Machine δ κ)
    (turn : NuBusBus κ × List SlotIrq) : Quadra700Machine δ κ :=
  turn.2.foldl (slotIrq dev) { s with nubus := turn.1 }

/-- The video has had its turn. -/
def settleDafb (dev : Devices δ) (s : Quadra700Machine δ κ) (dafb : DafbVideo) :
    Quadra700Machine δ κ := s.settle (dev.dafbIrq s.devices s.dafb dafb)

/-- The memory is cleared, and the reset vector of the ROM is copied to it. -/
def clearRam (romLoaded : Bool) (bytes : Bytes Region) : Bytes Region :=
  let cleared : Bytes Region := fun region i => if region = .rom then bytes .rom i else 0
  if romLoaded then
    let vector := (List.range 8).map (bytes .rom)
    let start := macRomLoadBase + bigEndian (vector.drop 4)
    PhysicalMemoryMap.writeBytes cleared .ram 0 (vector.take 4 ++ bytesOf start 4)
  else cleared

def reset (dev : Devices δ) (ops : Card κ) (s : Quadra700Machine δ κ) : Quadra700Machine δ κ :=
  let s := s.settleDafb dev s.dafb.reset
  let s := s.settleNuBus dev (s.nubus.reset ops)
  let s := s.settle (dev.reset s.devices s.dafb)
  rebuildPhysicalMemoryMap
    { s with
      bytes := clearRam s.romLoaded s.bytes
      overlay := false
      via1TimerCalibrationState := 0
      orwellRegisters := Vector.replicate _ 0
      mcuZeroBaseWrites := 0
      mcuBanksConfigured := false }

/-! ## The I/O space -/

def bitswapMacAddress (value : UInt8) : UInt8 :=
  (value &&& (0x0f : UInt8)) ||| ((value &&& (0x10 : UInt8)) <<< 3) |||
    ((value &&& (0x20 : UInt8)) <<< 1) ||| ((value &&& (0x40 : UInt8)) >>> 1) |||
    ((value &&& (0x80 : UInt8)) >>> 3)

def macAddress : List UInt8 := [0x00, 0x05, 0x02, 0x00, 0x70, 0x01].map bitswapMacAddress

def wordHandlerRegister (offset : UInt32) : UInt8 := ((offset >>> 9) &&& 0x0f).toUInt8

/-- The low-memory values of the timers are as the ROM has computed them. -/
def timerCalibrated (bytes : Bytes Region) : Bool :=
  (List.range 4).map (fun i => bytes .ram (0x0d00 + i)) == [0x7e, 0x00, 0x16, 0xd7]

def observeVia1TimerCalibrationWrite (s : Quadra700Machine δ κ) (reg value : UInt8) :
    Quadra700Machine δ κ :=
  match s.via1TimerCalibrationState with
  | 1 =>
    if reg = 8 ∧ value = 0x0c then
      { s with via1TimerCalibrationState := if timerCalibrated s.bytes then 0 else 2 }
    else s
  | 2 =>
    if reg = 9 ∧ value = 0x03 then
      { s with via1TimerCalibrationState := if timerCalibrated s.bytes then 0 else 3 }
    else s
  | 3 =>
    if reg = 14 ∧ value = 0x20 then
      { s with
        bytes := PhysicalMemoryMap.writeBytes s.bytes .ram 0x0d00
          (bytesOf (0x2a00 * 3) 2 ++ bytesOf (0x079d * 3) 2)
        via1TimerCalibrationState := 4 }
    else s
  | _ => if reg = 12 ∧ value = 0x22 then { s with via1TimerCalibrationState := 1 } else s

def orwellRegister (offset : UInt32) : Nat := ((offset - 0xe000) >>> 1).toNat

variable (dev : Devices δ) (ops : Card κ)

def readIo8 (s : Quadra700Machine δ κ) (address : UInt32) : UInt8 × Quadra700Machine δ κ :=
  let offset := address &&& ioOffsetMask
  if 0xe000 ≤ offset ∧ offset < 0xe100 then (s.orwellRegisters[orwellRegister offset]?.getD 0, s)
  else if 0x8000 ≤ offset ∧ offset < 0x8008 then
    match macAddress[(offset - 0x8000).toNat]? with
    | some byte => (byte, s)
    | none => (macAddress.foldl (· ^^^ ·) 0 ^^^ 0xff, s)
  else
    let read := dev.readIo8 s.devices s.dafb offset
    (read.1, s.settle read.2)

/-- The memory controller counts the writes that install and clear the map from address 0. -/
def writeOrwell (s : Quadra700Machine δ κ) (offset : UInt32) (value : UInt8) :
    Quadra700Machine δ κ :=
  let s :=
    if 0xe000 ≤ offset ∧ offset < 0xe100 then
      { s with orwellRegisters := s.orwellRegisters.setIfInBounds (orwellRegister offset) value }
    else s
  if offset = 0xe000 then
    let writes :=
      if value = 0 ∧ s.mcuZeroBaseWrites ≠ 0xff then s.mcuZeroBaseWrites + 1 else s.mcuZeroBaseWrites
    let configured := writes &&& 1 != 0
    { s with
      mcuZeroBaseWrites := writes
      mcuBanksConfigured := configured
      bytes :=
        if value = 0 ∧ configured = false then Function.update s.bytes .sizingRamDirty fun _ => 0
        else s.bytes }
  else s

def writeIo8 (s : Quadra700Machine δ κ) (address : UInt32) (value : UInt8) : Quadra700Machine δ κ :=
  let offset := address &&& ioOffsetMask
  let s := s.writeOrwell offset value
  let s :=
    if offset < 0x2000 then
      s.observeVia1TimerCalibrationWrite (wordHandlerRegister offset) value
    else s
  s.settle (dev.writeIo8 s.devices s.dafb offset value)

/-! ## Reads -/

/-- A read of a byte where there is no memory. -/
def deviceRead8 (s : Quadra700Machine δ κ) (address : UInt32) : UInt8 × Quadra700Machine δ κ :=
  if isDafbVram address then (s.dafb.readVram8 (address - dafbVramBase), s)
  else if isDafbRegister address then
    let read := s.dafb.readRegister8 (address - dafbRegisterBase)
    (read.1, s.settleDafb dev read.2)
  else if isIo address then readIo8 dev s address
  else if s.isAliasedNuBus address then
    let read := s.nubus.read8 ops address
    (read.1, s.settleNuBus dev read.2)
  else (0xff, s)

/-- A read of a byte past the page table. -/
def decodedRead8 (s : Quadra700Machine δ κ) (address : UInt32) : UInt8 × Quadra700Machine δ κ :=
  if s.isAliasedRom address then (s.bytes .rom (address - rom24BitBase).toNat, s)
  else if s.overlay then deviceRead8 dev ops s address
  else
    match s.sizingRamIndex address with
    | some index =>
      (if s.bytes .sizingRamDirty index ≠ 0 then s.bytes .sizingRam index else s.bytes .ram index, s)
    | none =>
      match s.ramIndex address with
      | some index => (s.bytes .ram index, s)
      | none => if address < 0x40000000 then (0xff, s) else deviceRead8 dev ops s address

/-- A read from the window of the ROM ends the overlay. -/
def read8 (s : Quadra700Machine δ κ) (address : UInt32) : UInt8 × Quadra700Machine δ κ :=
  if s.overlay ∧ address.toNat < romSize then (s.bytes .rom address.toNat, s)
  else if address &&& 0xf0000000 = romBase then
    (s.bytes .rom ((address - romBase).toNat % romSize),
      if s.overlay then { s with overlay := false }.rebuildPhysicalMemoryMap else s)
  else
    match s.physicalMemoryMap.tryRead8 s.bytes address with
    | some directValue => (directValue, s)
    | none => decodedRead8 dev ops s address

/-- A word as two bytes. -/
def bytes16 (s : Quadra700Machine δ κ) (address : UInt32) : UInt16 × Quadra700Machine δ κ :=
  let high := read8 dev ops s address
  let low := read8 dev ops high.2 (address + 1)
  ((high.1.toUInt16 <<< 8) ||| low.1.toUInt16, low.2)

def read16 (s : Quadra700Machine δ κ) (address : UInt32) : UInt16 × Quadra700Machine δ κ :=
  if s.overlay ∧ address.toNat < romSize - 1 then bytes16 dev ops s address
  else if address &&& 0xf0000000 = romBase then bytes16 dev ops s address
  else
    match s.physicalMemoryMap.tryRead16 s.bytes address with
    | some directValue => (directValue, s)
    | none =>
      if isDafbVram address then (s.dafb.readVram16 (address - dafbVramBase), s)
      else if isDafbRegister address then
        let read := s.dafb.readRegister16 (address - dafbRegisterBase)
        (read.1, s.settleDafb dev read.2)
      else if isTurboScsiDma address then
        let read := dev.readTurboScsiDma16 s.devices s.dafb
        (read.1, s.settle read.2)
      else if isIo address then
        let read := readIo8 dev s address
        ((read.1.toUInt16 <<< 8) ||| read.1.toUInt16, read.2)
      else if s.isAliasedNuBus address then
        let read := s.nubus.read16 ops address
        (read.1, s.settleNuBus dev read.2)
      else bytes16 dev ops s address

/-- A long word as two words. -/
def words32 (s : Quadra700Machine δ κ) (address : UInt32) : UInt32 × Quadra700Machine δ κ :=
  let high := read16 dev ops s address
  let low := read16 dev ops high.2 (address + 2)
  ((high.1.toUInt32 <<< 16) ||| low.1.toUInt32, low.2)

/-- The registers of the memory controller that a long read puts side by side. -/
def readOrwell32 (s : Quadra700Machine δ κ) (offset : UInt32) : UInt32 :=
  UInt32.ofNat (bigEndian
    ((List.range 4).map fun i => s.orwellRegisters[orwellRegister offset + i]?.getD 0))

/-- The page table is left alone for a long word while there is an overlay. -/
def directRead32 (s : Quadra700Machine δ κ) (address : UInt32) : Option UInt32 :=
  if s.overlay then none else s.physicalMemoryMap.tryRead32 s.bytes address

def read32 (s : Quadra700Machine δ κ) (address : UInt32) : UInt32 × Quadra700Machine δ κ :=
  if address &&& 0xf0000000 = romBase then words32 dev ops s address
  else if isIo address ∧ 0xe000 ≤ address &&& ioOffsetMask ∧ address &&& ioOffsetMask ≤ 0xe0f8 then
    (s.readOrwell32 (address &&& ioOffsetMask), s)
  else
    match s.directRead32 address with
    | some directValue => (directValue, s)
    | none =>
      if isDafbVram address then (s.dafb.readVram32 (address - dafbVramBase), s)
      else if isDafbRegister address then
        let read := s.dafb.readRegister32 (address - dafbRegisterBase)
        (read.1, s.settleDafb dev read.2)
      else if s.isAliasedNuBus address then
        let read := s.nubus.read32 ops address
        (read.1, s.settleNuBus dev read.2)
      else words32 dev ops s address

/-! ## Writes -/

/-- A write of a byte where there is no memory. -/
def deviceWrite8 (s : Quadra700Machine δ κ) (address : UInt32) (value : UInt8) :
    Quadra700Machine δ κ :=
  if isDafbVram address then { s with dafb := s.dafb.writeVram8 (address - dafbVramBase) value }
  else if isDafbRegister address then
    s.settleDafb dev (s.dafb.writeRegister8 (address - dafbRegisterBase) value)
  else if isIo address then writeIo8 dev s address value
  else if s.isAliasedNuBus address then s.settleNuBus dev (s.nubus.write8 ops address value)
  else s

/-- A write of a byte past the page table. -/
def decodedWrite8 (s : Quadra700Machine δ κ) (address : UInt32) (value : UInt8) :
    Quadra700Machine δ κ :=
  if s.overlay then deviceWrite8 dev ops s address value
  else
    match s.sizingRamIndex address with
    | some index =>
      { s with
        bytes := PhysicalMemoryMap.writeBytes
          (PhysicalMemoryMap.writeBytes s.bytes .sizingRam index [value]) .sizingRamDirty index [1] }
    | none =>
      match s.ramIndex address with
      | some index => { s with bytes := PhysicalMemoryMap.writeBytes s.bytes .ram index [value] }
      | none => if address < 0x40000000 then s else deviceWrite8 dev ops s address value

def write8 (s : Quadra700Machine δ κ) (address : UInt32) (value : UInt8) : Quadra700Machine δ κ :=
  match s.physicalMemoryMap.tryWrite8 s.bytes address value with
  | some bytes => { s with bytes := bytes }
  | none => decodedWrite8 dev ops s address value

def write16 (s : Quadra700Machine δ κ) (address : UInt32) (value : UInt16) : Quadra700Machine δ κ :=
  match s.physicalMemoryMap.tryWrite16 s.bytes address value with
  | some bytes => { s with bytes := bytes }
  | none =>
    if isDafbVram address then { s with dafb := s.dafb.writeVram16 (address - dafbVramBase) value }
    else if isDafbRegister address then
      s.settleDafb dev (s.dafb.writeRegister16 (address - dafbRegisterBase) value)
    else if isTurboScsiDma address then s.settle (dev.writeTurboScsiDma16 s.devices s.dafb value)
    else if isIo address then writeIo8 dev s address (value >>> 8).toUInt8
    else if s.isAliasedNuBus address then s.settleNuBus dev (s.nubus.write16 ops address value)
    else
      write8 dev ops (write8 dev ops s address (value >>> 8).toUInt8) (address + 1) value.toUInt8

def write32 (s : Quadra700Machine δ κ) (address value : UInt32) : Quadra700Machine δ κ :=
  match s.physicalMemoryMap.tryWrite32 s.bytes address value with
  | some bytes => { s with bytes := bytes }
  | none =>
    if isDafbVram address then { s with dafb := s.dafb.writeVram32 (address - dafbVramBase) value }
    else if isDafbRegister address then
      s.settleDafb dev (s.dafb.writeRegister32 (address - dafbRegisterBase) value)
    else if s.isAliasedNuBus address then s.settleNuBus dev (s.nubus.write32 ops address value)
    else
      write16 dev ops (write16 dev ops s address (value >>> 16).toUInt16) (address + 2)
        value.toUInt16

/-! ## Runs -/

/-- What can happen to the machine. -/
inductive Input (δ κ : Type) where
  | read8 (address : UInt32)
  | read16 (address : UInt32)
  | read32 (address : UInt32)
  | write8 (address : UInt32) (value : UInt8)
  | write16 (address : UInt32) (value : UInt16)
  | write32 (address value : UInt32)
  /-- the devices do something by themselves, or the host does it to them -/
  | device (turn : δ × DafbVideo)
  /-- a card does something by itself -/
  | card (turn : NuBusBus κ × List SlotIrq)
  | installNuBusCard (slot : Nat) (card : κ)
  | loadRom (rom : Nat → UInt8)
  | reset

def step (s : Quadra700Machine δ κ) : Input δ κ → Quadra700Machine δ κ
  | .read8 address => (read8 dev ops s address).2
  | .read16 address => (read16 dev ops s address).2
  | .read32 address => (read32 dev ops s address).2
  | .write8 address value => write8 dev ops s address value
  | .write16 address value => write16 dev ops s address value
  | .write32 address value => write32 dev ops s address value
  | .device turn => s.settle turn
  | .card turn => s.settleNuBus dev turn
  | .installNuBusCard slot card =>
    if slot ∈ nubusSlots then { s with nubus := s.nubus.install slot card } else s
  | .loadRom rom => { s with bytes := Function.update s.bytes .rom rom, romLoaded := true }
  | .reset => reset dev ops s

/-- A machine as it is made, with no bytes in its ROM. -/
def powerOn (installed : InstalledRam) (devices : δ) : Quadra700Machine δ κ where
  installed := installed
  bytes := fun _ _ => 0
  dafb := DafbVideo.powerOn .discrete .hiResRgb
  devices := devices

end Quadra700Machine

end CuteMac.Quadra700
