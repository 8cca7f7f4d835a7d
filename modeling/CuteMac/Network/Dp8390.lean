/-
  The network controller of the Apple Ethernet card
  (`AppleNuBusEthernetCard.cpp`).

  * `Registers`, `Dp8390`: the registers, the packet memory of the card, and what
    went to the network;
  * `csRead`, `csWrite`, `setCommand`: the guest's side;
  * `remoteRead`, `remoteWrite`, `transmitPacket`: the transfers;
  * `receive`: a frame is put into the ring.

  The packet memory is a function of the address, of which the low sixteen bits
  count.  `m_rdmaActive` is written and never read, and left out.
-/
import Mathlib.Data.Vector.Basic

namespace CuteMac.Network

def isrReset : UInt8 := 0x80
def isrPacketReceived : UInt8 := 0x01
def isrPacketTransmitted : UInt8 := 0x02
def isrTransmitError : UInt8 := 0x08
def isrReceiveOverflow : UInt8 := 0x10
def isrRemoteDmaComplete : UInt8 := 0x40

structure Registers where
  cr : UInt8 := 0
  clda : UInt16 := 0
  pstart : UInt8 := 0
  pstop : UInt8 := 0
  bnry : UInt8 := 0
  tsr : UInt8 := 0
  tpsr : UInt8 := 0
  ncr : UInt8 := 0
  fifo : UInt8 := 0
  tbcr : UInt16 := 0
  isr : UInt8 := 0
  crda : UInt16 := 0
  rsar : UInt16 := 0
  rbcr : UInt16 := 0
  rsr : UInt8 := 0
  rcr : UInt8 := 0
  cntr0 : UInt8 := 0
  tcr : UInt8 := 0
  cntr1 : UInt8 := 0
  dcr : UInt8 := 0
  cntr2 : UInt8 := 0
  imr : UInt8 := 0
  par : Vector UInt8 6 := Vector.replicate 6 0
  curr : UInt8 := 0
  mar : Vector UInt8 8 := Vector.replicate 8 0
  rnpp : UInt8 := 0
  lnpp : UInt8 := 0
  ac : UInt16 := 0

/-! ## The packet memory -/

abbrev PacketRam := Nat → UInt8

def PacketRam.write (ram : PacketRam) (offset : Nat) (value : UInt8) : PacketRam :=
  fun a => if a = offset % 0x10000 then value else ram a

/-- Bytes written one after the other, the offset counting in sixteen bits. -/
def PacketRam.writeAll (ram : PacketRam) : List UInt8 → Nat → PacketRam
  | [], _ => ram
  | value :: values, offset =>
    PacketRam.writeAll (ram.write offset value) values ((offset + 1) % 0x10000)

def PacketRam.read (ram : PacketRam) (offset : Nat) : UInt8 := ram (offset % 0x10000)

structure Dp8390 where
  regs : Registers := {}
  reset : Bool := false
  packetRam : PacketRam := fun _ => 0
  irq : Bool := false
  /-- the backend is there and connected -/
  connected : Bool := false
  transmitted : List (List UInt8) := []

namespace Dp8390

def checkIrq (s : Dp8390) : Dp8390 :=
  { s with irq := s.regs.imr &&& s.regs.isr &&& 0x7f != 0 }

def resetChip (s : Dp8390) : Dp8390 :=
  checkIrq { s with regs := { cr := 0x21, isr := isrReset, dcr := 0x04 }, reset := true }

def setInitialMac (s : Dp8390) (mac : Vector UInt8 6) : Dp8390 := { s with regs.par := mac }

/-- The register behind an offset, in the page that the command register selects. -/
def select (s : Dp8390) (offset : UInt8) : Nat :=
  ((offset &&& 0x0f) ||| (s.regs.cr &&& 0xc0)).toNat

def csRead (s : Dp8390) (offset : UInt8) : UInt8 :=
  match s.select offset with
  | 0x00 | 0x40 | 0x80 | 0xc0 => s.regs.cr
  | 0x01 => s.regs.clda.toUInt8
  | 0x02 => (s.regs.clda >>> 8).toUInt8
  | 0x03 => s.regs.bnry
  | 0x04 => s.regs.tsr
  | 0x05 => s.regs.ncr
  | 0x06 => s.regs.fifo
  | 0x07 => s.regs.isr
  | 0x08 => s.regs.crda.toUInt8
  | 0x09 => (s.regs.crda >>> 8).toUInt8
  | 0x0c => s.regs.rsr
  | 0x0d => s.regs.cntr0
  | 0x0e => s.regs.cntr1
  | 0x0f => s.regs.cntr2
  | 0x47 => s.regs.curr
  | 0x81 => s.regs.pstart
  | 0x82 => s.regs.pstop
  | 0x83 => s.regs.rnpp
  | 0x84 => s.regs.tpsr
  | 0x85 => s.regs.lnpp
  | 0x86 => (s.regs.ac >>> 8).toUInt8
  | 0x87 => s.regs.ac.toUInt8
  | 0x8c => s.regs.rcr
  | 0x8d => s.regs.tcr
  | 0x8e => s.regs.dcr
  | 0x8f => s.regs.imr
  | n =>
    if h : 0x41 ≤ n ∧ n ≤ 0x46 then s.regs.par[n - 0x41]
    else if h : 0x48 ≤ n ∧ n ≤ 0x4f then s.regs.mar[n - 0x48]
    else 0

/-! ## Receiving -/

def receiveOverflow (s : Dp8390) : Dp8390 :=
  checkIrq
    { s with
      regs.rsr := 0x10
      regs.isr := s.regs.isr ||| isrReceiveOverflow
      regs.cntr2 := s.regs.cntr2 + 1 }

/-- The receive status of a frame that the address filter lets through. -/
def addressFilter (regs : Registers) (bytes : List UInt8) : Option UInt8 :=
  if bytes.headD 0 &&& 1 ≠ 0 then
    if bytes.take 6 = List.replicate 6 0xff then
      if regs.rcr &&& 0x04 = 0 then none else some 0x20
    else if regs.rcr &&& 0x08 = 0 then none
    else some 0x20
  else if regs.rcr &&& 0x10 ≠ 0 then some 0
  else if regs.par.toList ≠ bytes.take 6 then none
  else some 0

/-- The bytes of a frame from `offset` on; nothing is the offset of a frame that ran into
    the boundary. -/
def storeBytes (regs : Registers) : PacketRam → List UInt8 → Nat → PacketRam × Option Nat
  | ram, [], offset => (ram, some offset)
  | ram, byte :: bytes, offset =>
    let ram := ram.write offset byte
    let offset := (offset + 1) % 0x10000
    if offset % 256 = 0 then
      let offset := if offset / 256 = regs.pstop.toNat then regs.pstart.toNat * 256 else offset
      if offset / 256 = regs.bnry.toNat then (ram, none)
      else storeBytes regs ram bytes offset
    else storeBytes regs ram bytes offset

/-- The first offset of the next frame. -/
def startOffset (regs : Registers) : Nat :=
  if regs.curr = regs.pstop then regs.pstart.toNat * 256 else regs.curr.toNat * 256

/-- The page after a frame that ended before `offset`. -/
def nextPage (regs : Registers) (offset : Nat) : UInt8 :=
  let curr := UInt8.ofNat (offset / 256 + if offset % 256 ≠ 0 then 1 else 0)
  if curr = regs.pstop then regs.pstart else curr

/-- The header of a frame of `storedLength` bytes. -/
def header (rsr next : UInt8) (storedLength : Nat) : List UInt8 :=
  [rsr, next, UInt8.ofNat (storedLength + 4), UInt8.ofNat ((storedLength + 4) % 0x10000 / 256)]

/-- A frame is stored: it is padded, and gets its header. -/
def finishFrame (s : Dp8390) (start length offset : Nat) : Dp8390 :=
  let ram := s.packetRam.writeAll (List.replicate (60 - length) 0) offset
  let offset := (offset + (60 - length)) % 0x10000
  let rsr := s.regs.rsr ||| 0x01
  let next := nextPage s.regs offset
  checkIrq
    { s with
      packetRam := ram.writeAll (header rsr next (max length 60)) start
      regs.rsr := rsr
      regs.isr := s.regs.isr ||| isrPacketReceived
      regs.curr := next }

def receive (s : Dp8390) (bytes : List UInt8) : Dp8390 :=
  if s.reset = true ∨ bytes.length < 6 ∨ s.regs.pstart = s.regs.pstop then s
  else
    match addressFilter s.regs bytes with
    | none => s
    | some rsr =>
      let stored := bytes.take 0xffff
      let start := startOffset s.regs
      match storeBytes s.regs s.packetRam stored ((start + 4) % 0x10000) with
      | (ram, none) => receiveOverflow { s with packetRam := ram, regs.rsr := rsr }
      | (ram, some offset) =>
        finishFrame { s with packetRam := ram, regs.rsr := rsr } start stored.length offset

def receiveFrame (s : Dp8390) (frame : List UInt8) : Dp8390 :=
  if frame.isEmpty then s else s.receive frame

/-! ## Transmitting and remote transfers -/

def swap16 (value : UInt16) : UInt16 := (value >>> 8) ||| (value <<< 8)

def byteOrdered (s : Dp8390) (value : UInt16) : UInt16 :=
  if s.regs.dcr &&& 0x03 = 0x03 then swap16 value else value

def loopback (s : Dp8390) : Bool := s.regs.dcr &&& 0x08 == 0 && s.regs.tcr &&& 0x06 != 0

def stop (s : Dp8390) : Dp8390 :=
  { s with regs.isr := isrReset, regs.cr := s.regs.cr ||| 0x01, reset := true, irq := false }

def checkDmaComplete (s : Dp8390) : Dp8390 :=
  if s.regs.rbcr ≠ 0 then s
  else
    checkIrq
      { s with
        regs.isr := s.regs.isr ||| isrRemoteDmaComplete
        regs.cr := s.regs.cr ||| 0x20 }

def transmitPacket (s : Dp8390) : Dp8390 :=
  if s.reset then s
  else
    let s := { s with regs.tsr := 0 }
    if s.regs.tbcr = 0 then { s with regs.tsr := 0x01, regs.cr := s.regs.cr &&& ~~~0x04 }
    else
      let frame := (List.range s.regs.tbcr.toNat).map fun i =>
        s.packetRam.read (s.regs.tpsr.toNat * 256 + i)
      let s :=
        if s.loopback then
          let s := s.receive frame
          { s with regs.tsr := 0x01, regs.isr := s.regs.isr ||| isrPacketTransmitted }
        else if s.connected then
          { s with
            transmitted := s.transmitted ++ [frame]
            regs.tsr := 0x01
            regs.isr := s.regs.isr ||| isrPacketTransmitted }
        else { s with regs.tsr := 0x08, regs.isr := s.regs.isr ||| isrTransmitError }
      checkIrq { s with regs.cr := s.regs.cr &&& ~~~0x04 }

/-- The part of a remote address that the packet memory does not see. -/
def high16 (s : Dp8390) : Nat := if s.regs.dcr &&& 0x04 ≠ 0 then s.regs.rsar.toNat * 0x10000 else 0

def remoteRead (s : Dp8390) : UInt16 × Dp8390 :=
  if s.regs.dcr &&& 0x01 ≠ 0 then
    let crda := s.regs.crda &&& 0xfffe
    let low := s.packetRam.read (s.high16 + crda.toNat)
    let high := s.packetRam.read (s.high16 + (crda + 1).toNat)
    (s.byteOrdered (low.toUInt16 ||| (high.toUInt16 <<< 8)),
      checkDmaComplete
        { s with regs.crda := crda + 2, regs.rbcr := s.regs.rbcr - min s.regs.rbcr 2 })
  else
    ((s.packetRam.read (s.high16 + s.regs.crda.toNat)).toUInt16,
      checkDmaComplete
        { s with
          regs.crda := s.regs.crda + 1
          regs.rbcr := if s.regs.rbcr ≠ 0 then s.regs.rbcr - 1 else s.regs.rbcr })

def remoteWrite (s : Dp8390) (data : UInt16) : Dp8390 :=
  if s.regs.dcr &&& 0x01 ≠ 0 then
    let data := s.byteOrdered data
    let crda := s.regs.crda &&& 0xfffe
    let ram := s.packetRam.write (s.high16 + crda.toNat) data.toUInt8
    checkDmaComplete
      { s with
        packetRam := ram.write (s.high16 + (crda + 1).toNat) (data >>> 8).toUInt8
        regs.crda := crda + 2
        regs.rbcr := s.regs.rbcr - min s.regs.rbcr 2 }
  else
    checkDmaComplete
      { s with
        packetRam := s.packetRam.write (s.high16 + s.regs.crda.toNat) data.toUInt8
        regs.crda := s.regs.crda + 1
        regs.rbcr := if s.regs.rbcr ≠ 0 then s.regs.rbcr - 1 else s.regs.rbcr }

def setCommand (s : Dp8390) (command : UInt8) : Dp8390 :=
  let wasStarted := s.regs.cr &&& 0x03 == 0x02
  let s := { s with regs.cr := command }
  if command &&& 0x01 ≠ 0 ∧ wasStarted then s.stop
  else
    let s :=
      if command &&& 0x03 = 0x02 then
        { s with reset := false, regs.isr := s.regs.isr &&& ~~~isrReset }
      else s
    if s.reset then s
    else
      let s := if command &&& 0x04 ≠ 0 then s.transmitPacket else s
      if command &&& 0x38 = 0x08 then s.checkDmaComplete else s

def setLow (word : UInt16) (data : UInt8) : UInt16 := (word &&& 0xff00) ||| data.toUInt16
def setHigh (word : UInt16) (data : UInt8) : UInt16 := (data.toUInt16 <<< 8) ||| (word &&& 0x00ff)

def csWrite (s : Dp8390) (offset data : UInt8) : Dp8390 :=
  match s.select offset with
  | 0x00 | 0x40 | 0x80 | 0xc0 => s.setCommand data
  | 0x01 => { s with regs.pstart := data }
  | 0x02 => { s with regs.pstop := data }
  | 0x03 => { s with regs.bnry := data }
  | 0x04 => { s with regs.tpsr := data }
  | 0x05 => { s with regs.tbcr := setLow s.regs.tbcr data }
  | 0x06 => { s with regs.tbcr := setHigh s.regs.tbcr data }
  | 0x07 => checkIrq { s with regs.isr := s.regs.isr &&& ~~~data }
  | 0x08 =>
    { s with regs.rsar := setLow s.regs.rsar data, regs.crda := setLow s.regs.rsar data }
  | 0x09 =>
    { s with regs.rsar := setHigh s.regs.rsar data, regs.crda := setHigh s.regs.rsar data }
  | 0x0a => { s with regs.rbcr := setLow s.regs.rbcr data }
  | 0x0b => { s with regs.rbcr := setHigh s.regs.rbcr data }
  | 0x0c => { s with regs.rcr := data }
  | 0x0d => { s with regs.tcr := data }
  | 0x0e => { s with regs.dcr := data }
  | 0x0f => checkIrq { s with regs.imr := data }
  | 0x47 => { s with regs.curr := data }
  | 0x81 => { s with regs.clda := setLow s.regs.clda data }
  | 0x82 => { s with regs.clda := setHigh s.regs.clda data }
  | 0x83 => { s with regs.rnpp := data }
  | 0x85 => { s with regs.lnpp := data }
  | 0x86 => { s with regs.ac := setHigh s.regs.ac data }
  | 0x87 => { s with regs.ac := setLow s.regs.ac data }
  | n =>
    if h : 0x41 ≤ n ∧ n ≤ 0x46 then { s with regs.par := s.regs.par.set (n - 0x41) data }
    else if h : 0x48 ≤ n ∧ n ≤ 0x4f then { s with regs.mar := s.regs.mar.set (n - 0x48) data }
    else s

end Dp8390

end CuteMac.Network
