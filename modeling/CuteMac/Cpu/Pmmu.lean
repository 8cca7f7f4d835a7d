/-
  The memory management units of the processors (`m68kmmu.h`, and the accesses of
  `m68kcpu.h`).

  * `Registers`, `AtcEntry`, `M68kMmu`: the registers, the translation cache and
    the physical memory;
  * `pmmuAtcLookup`, `pmmuAtcAdd`, `pmmuAtcFlushModes`: the cache;
  * `Walk`, `walkStep`, `pmmuWalkTables`: the translation tables of the 68030;
  * `pmmuTranslate040`: those of the 68040;
  * `pmmuTranslate`: one translation;
  * `readFc`, `writeFc`: accesses of one, two and four bytes.

  A physical address that nothing answers at is in `physicalError`; a bus error
  during a table walk ends it.  The statistics of the cache count in 32 bits.  The
  flag `mmu_tablewalk`, which only tells the two kinds of bus errors apart, is left
  out.
-/
import CuteMac.Lib.ByteMemory
import CuteMac.Lib.Pages

namespace CuteMac.Cpu

open ByteMemory

def srBusError : UInt16 := 0x8000
def srSupervisorOnly : UInt16 := 0x2000
def srWriteProtect : UInt16 := 0x0800
def srInvalid : UInt16 := 0x0400
def srModified : UInt16 := 0x0200
def srTransparent : UInt16 := 0x0040

def dfDt : UInt32 := 0x00000003
def dfDtInvalid : UInt32 := 0x00000000
def dfDtPage : UInt32 := 0x00000001
def dfDtTable4Byte : UInt32 := 0x00000002
def dfDtTable8Byte : UInt32 := 0x00000003
def dfWp : UInt32 := 0x00000004
def dfUsed : UInt32 := 0x00000008
def dfModified : UInt32 := 0x00000010
def dfSupervisor : UInt32 := 0x00000100
def dfAddrMask : UInt32 := 0xfffffff0
def dfIndAddrMask : UInt32 := 0xfffffffc

def tcSre : UInt32 := 0x02000000
def tcFcl : UInt32 := 0x01000000

def mmu040Supervisor : UInt32 := 0x00000080
def mmu040TtEnable : UInt32 := 0x00008000
def mmu040TtHit : UInt16 := 0x0002
def mmu040Resident : UInt16 := 0x0001

inductive MmuKind where
  | none
  | m68851
  | m68030
  | m68040
  deriving DecidableEq

inductive PmmuIntent where
  | normal
  | pload
  | ptest
  | debug
  | probe
  deriving DecidableEq

structure Registers where
  kind : MmuKind := .m68030
  pmmuEnabled : Bool := false
  tc : UInt32 := 0
  crpLimit : UInt32 := 0
  crpAptr : UInt32 := 0
  srpLimit : UInt32 := 0
  srpAptr : UInt32 := 0
  urpAptr : UInt32 := 0
  tt0 : UInt32 := 0
  tt1 : UInt32 := 0
  itt0 : UInt32 := 0
  itt1 : UInt32 := 0
  dtt0 : UInt32 := 0
  dtt1 : UInt32 := 0

/-- An entry of the cache; its physical page is one. -/
structure AtcEntry where
  logicalPage : UInt32 := 0
  physicalPage : UInt32 := 0
  pageShift : UInt32 := 0
  functionCode : UInt32 := 0
  writeProtect : Bool := false
  modified : Bool := false
  fault : Bool := false
  valid : Bool := false
  aligned : physicalPage &&& (0xffffffff >>> (32 - pageShift)) = 0 := by decide

def atcEntries : Nat := 22

theorem aligned_zero : (0 : UInt32) &&& ((0xffffffff : UInt32) >>> (32 - 0)) = 0 := by decide

structure TranslationResult where
  physicalAddress : UInt32 := 0
  descriptorAddress : UInt32 := 0
  status : UInt16 := 0
  level : Nat := 0
  fault : Bool := false
  transparent : Bool := false

/-- The access that faulted last. -/
structure FaultInfo where
  address : UInt32 := 0
  fc : UInt32 := 0
  rw : Bool := false
  size : Nat := 0
  isMmu : Bool := false

structure M68kMmu where
  regs : Registers := {}
  memory : Memory := fun _ => 0
  physicalError : UInt32 → Bool := fun _ => false
  atc : List AtcEntry := List.replicate atcEntries { aligned := aligned_zero }
  replacement : UInt32 := 0
  atcHits : UInt32 := 0
  atcMisses : UInt32 := 0
  tmpSr : UInt16 := 0
  lastLogicalAddr : UInt32 := 0
  faultInfo : FaultInfo := {}

/-! ## Pages -/

def field (tc shift : UInt32) : UInt32 := (tc >>> shift) &&& 0xf

def pmmuPageShift (r : Registers) : UInt32 :=
  let ps := field r.tc 20
  if 8 ≤ ps then ps
  else
    let used := field r.tc 16 + field r.tc 12 + field r.tc 8 + field r.tc 4 + field r.tc 0
    if used < 32 then 32 - used else 8

/-- The bits of an address within its page. -/
def pageMask (r : Registers) : UInt32 := 0xffffffff >>> (32 - pmmuPageShift r)

/-- The sum of the table index fields up to the first one that is zero. -/
def tableBits (tc : UInt32) : List UInt32 → UInt32
  | [] => 0
  | shift :: shifts => if field tc shift = 0 then 0 else field tc shift + tableBits tc shifts

def pmmuValidateTc (tc : UInt32) : Bool :=
  if tc &&& 0x80000000 = 0 then true
  else if field tc 20 < 8 then false
  else field tc 20 + field tc 16 + tableBits tc [12, 8, 4, 0] == 32

/-! ## The translation cache -/

def pmmuAtcFlush (s : M68kMmu) : M68kMmu :=
  { s with atc := s.atc.map fun entry => { entry with valid := false } }

/-- Whether an entry is for the page of an address. -/
def AtcEntry.serves (entry : AtcEntry) (r : Registers) (address fc : UInt32) : Bool :=
  entry.valid && entry.pageShift == pmmuPageShift r && entry.functionCode == (fc &&& 7) &&
    entry.logicalPage == (address &&& ~~~pageMask r)

/-- The first entry for the page; on the way, entries that a first write to their page cannot
    use are dropped. -/
def atcScan (r : Registers) (address fc : UInt32) (rw ptest : Bool) :
    List AtcEntry → List AtcEntry × Option AtcEntry
  | [] => ([], none)
  | entry :: entries =>
    if !entry.serves r address fc then
      let (entries, hit) := atcScan r address fc rw ptest entries
      (entry :: entries, hit)
    else if !ptest && !rw && !entry.modified && !entry.writeProtect then
      let (entries, hit) := atcScan r address fc rw ptest entries
      ({ entry with valid := false } :: entries, hit)
    else (entry :: entries, some entry)

def flag (set : Bool) (bit : UInt16) : UInt16 := if set then bit else 0

/-- The result of an entry, for an address in its page. -/
def AtcEntry.answer (entry : AtcEntry) (r : Registers) (address : UInt32) (rw : Bool)
    (result : TranslationResult) : TranslationResult :=
  { result with
    physicalAddress := entry.physicalPage ||| (address &&& pageMask r)
    status := result.status ||| flag entry.modified srModified |||
      flag entry.writeProtect srWriteProtect ||| flag entry.fault srInvalid
    fault := entry.fault || (!rw && entry.writeProtect) }

/-- `pmmu_atc_lookup`; nothing, where no entry serves the address. -/
def pmmuAtcLookup (s : M68kMmu) (address fc : UInt32) (rw ptest : Bool)
    (result : TranslationResult) : M68kMmu × TranslationResult × Bool :=
  let (atc, hit) := atcScan s.regs address fc rw ptest s.atc
  match hit with
  | some entry =>
    ({ s with atc := atc, atcHits := s.atcHits + 1 }, entry.answer s.regs address rw result, true)
  | none =>
    ({ s with atc := atc, atcMisses := s.atcMisses + 1 },
      if ptest then { result with status := srInvalid, fault := true } else result, false)

/-- The entry that a new one replaces: the one for the page, or the first that is not valid. -/
def atcSlot (r : Registers) (logical fc : UInt32) (atc : List AtcEntry) : Option Nat :=
  (atc.findIdx? fun entry => entry.valid && entry.functionCode == (fc &&& 7) &&
    entry.logicalPage == (logical &&& ~~~pageMask r)).orElse fun _ =>
      atc.findIdx? fun entry => !entry.valid

/-- The entry for a page and the result of its walk. -/
def newEntry (r : Registers) (logical physical fc : UInt32) (result : TranslationResult) :
    AtcEntry where
  logicalPage := logical &&& ~~~pageMask r
  physicalPage := physical &&& ~~~pageMask r
  pageShift := pmmuPageShift r
  functionCode := fc &&& 7
  writeProtect := result.status &&& srWriteProtect != 0
  modified := result.status &&& srModified != 0
  fault := result.fault
  valid := true
  aligned := Pages.frame_and_mask _ _

def pmmuAtcAdd (s : M68kMmu) (logical physical fc : UInt32) (result : TranslationResult) :
    M68kMmu :=
  let entry := newEntry s.regs logical physical fc result
  match atcSlot s.regs logical fc s.atc with
  | some i => { s with atc := s.atc.set i entry }
  | none =>
    { s with
      atc := s.atc.set (s.replacement.toNat % atcEntries) entry
      replacement := s.replacement + 1 }

/-- `pmmu_atc_flush_modes`; the function code of the operand and its address, if it has one, are
    arguments. -/
def pmmuAtcFlushModes (s : M68kMmu) (modes operandFc : UInt32) (operand : Option UInt32) :
    M68kMmu :=
  let mode := (modes >>> 10) &&& 7
  let fcMask := (modes >>> 5) &&& 7
  let fc := operandFc &&& fcMask
  if mode = 1 then pmmuAtcFlush s
  else if (mode = 6 ∨ mode = 7) ∧ operand = none then s
  else
    { s with
      atc := s.atc.map fun entry =>
        if entry.valid && entry.functionCode &&& fcMask == fc &&
            (!(mode == 6 || mode == 7) ||
              entry.logicalPage == (operand.getD 0 &&& ~~~pageMask s.regs)) then
          { entry with valid := false }
        else entry }

/-! ## Transparent translation -/

def pmmuMatchTt (addr fc tt : UInt32) (rw : Bool) : Bool :=
  if tt &&& 0x00008000 = 0 then false
  else
    let addressBase := tt &&& 0xff000000
    let addressMask := ((tt <<< 8) &&& 0xff000000) ^^^ 0xff000000
    let fcMask := ~~~tt &&& 7
    let fcBits := (tt >>> 4) &&& 7
    let rwMask := ~~~tt &&& 0x100
    let rwBit := tt &&& 0x200
    addr &&& addressMask == addressBase &&& addressMask && fc &&& fcMask == fcBits &&& fcMask &&
      (if rw then 0x100 else 0) &&& rwMask == rwBit &&& rwMask

/-! ## The table walk of the 68030 -/

/-- Fields after the first zero field are ignored. -/
def tableFields (bits : UInt32) : List UInt32 → UInt32
  | [] => bits
  | shift :: shifts =>
    if (bits >>> shift) &&& 0xf = 0 then bits &&& ~~~((1 <<< (shift + 4)) - 1)
    else tableFields bits shifts

def pmmuStatusFromDescriptor (type first : UInt32) (isLong : Bool) (fc : UInt32)
    (status : UInt16) : UInt16 :=
  status ||| flag (type == dfDtPage && first &&& dfModified != 0) srModified |||
    flag (type != dfDtInvalid && first &&& dfWp != 0) srWriteProtect |||
    flag (isLong && fc &&& 4 == 0 && first &&& dfSupervisor != 0) srSupervisorOnly

/-- The state of the loop. -/
structure Walk where
  type : UInt32
  table : UInt32
  addressWork : UInt32
  pageshift : UInt32
  bitpos : UInt32
  level : Nat := 0
  resolved : Bool := false
  result : TranslationResult
  memory : Memory
  tmpSr : UInt16

structure Descriptor where
  address : UInt32
  first : UInt32
  second : UInt32
  isLong : Bool

namespace Walk

variable (error : UInt32 → Bool)

def reported (w : Walk) (address : UInt32) : UInt16 :=
  w.tmpSr ||| flag (error address) (srBusError ||| srInvalid)

def read (w : Walk) (address : UInt32) : UInt32 × Walk :=
  (read32 w.memory address, { w with tmpSr := w.reported error address })

def write (w : Walk) (address value : UInt32) : Walk :=
  { w with
    memory := if error address then w.memory else write32 w.memory address value
    tmpSr := w.reported error address }

/-- The two words of a descriptor; a short one has no second word. -/
def readDescriptor (w : Walk) (address : UInt32) (isLong : Bool) : UInt32 × UInt32 × Walk :=
  let (first, w) := w.read error address
  let (second, w) := if isLong then w.read error (address + 4) else (0, w)
  (first, second, w)

/-- The descriptor of an iteration, which the last index field may find through an indirect one;
    nothing, where there is a bus error. -/
def fetch (w : Walk) (indirect : Bool) (address : UInt32) (isLong : Bool) :
    Walk × Option Descriptor :=
  let (first, second, w) := w.readDescriptor error address isLong
  if w.tmpSr &&& srBusError ≠ 0 then (w, none)
  else
    let w := { w with type := first &&& dfDt, level := w.level + 1 }
    if indirect && (w.type == dfDtTable4Byte || w.type == dfDtTable8Byte) then
      let indirectLong := w.type == dfDtTable8Byte
      let address := (if isLong then second else first) &&& dfIndAddrMask
      let (first, second, w) := w.readDescriptor error address indirectLong
      if w.tmpSr &&& srBusError ≠ 0 then (w, none)
      else
        ({ w with type := first &&& dfDt, level := w.level + 1 },
          some ⟨address, first, second, indirectLong⟩)
    else (w, some ⟨address, first, second, isLong⟩)

end Walk

/-- The mark that an access leaves in a descriptor. -/
def marked (type first : UInt32) (rw : Bool) : UInt32 :=
  if type = dfDtInvalid then first
  else
    first ||| dfUsed |||
      if type = dfDtPage ∧ rw = false ∧ first &&& dfWp = 0 then dfModified else 0

def pmmuUpdateDescriptor (error : UInt32 → Bool) (w : Walk) (address type first : UInt32)
    (rw : Bool) : Walk :=
  if marked type first rw = first then w else w.write error address (marked type first rw)

/-- What a descriptor says, at the end of an iteration. -/
def useDescriptor (error : UInt32 → Bool) (fc : UInt32) (rw sideEffects : Bool)
    (d : Descriptor) (indexbits : UInt32) (w : Walk) : Walk :=
  let status := pmmuStatusFromDescriptor w.type d.first d.isLong fc w.result.status
  let w := { w with result := { w.result with descriptorAddress := d.address, status := status } }
  let w := if sideEffects then pmmuUpdateDescriptor error w d.address w.type d.first rw else w
  { w with
    table := (if d.isLong then d.second else d.first) &&& dfAddrMask
    addressWork := w.addressWork <<< indexbits
    pageshift := w.pageshift + indexbits }

/-- The walk ends with a bus error. -/
def Walk.busError (w : Walk) : Walk :=
  { w with result := { w.result with status := w.result.status ||| w.tmpSr }, resolved := true }

def indexBits (r : Registers) (bitpos : UInt32) : UInt32 :=
  if bitpos ≤ 16 then (tableFields (r.tc &&& 0xffff) [12, 8, 4, 0] >>> bitpos) &&& 0xf else 0

/-- Whether the field is the last one. -/
def lastField (r : Registers) (bitpos : UInt32) : Bool :=
  indexBits r bitpos != 0 &&
    (bitpos == 0 ||
      tableFields (r.tc &&& 0xffff) [12, 8, 4, 0] &&& ((1 <<< bitpos) - 1) == 0)

def walkIndex (r : Registers) (fc bitpos addressWork : UInt32) : UInt32 :=
  if bitpos = 16 then fc &&& 7
  else if indexBits r bitpos ≠ 0 then addressWork >>> (32 - indexBits r bitpos)
  else 0

/-- One iteration of the loop of `pmmu_walk_tables`. -/
def walkStep (r : Registers) (error : UInt32 → Bool) (fc : UInt32) (rw sideEffects : Bool)
    (w : Walk) : Walk :=
  let indexbits := indexBits r w.bitpos
  let index := walkIndex r fc w.bitpos w.addressWork
  let indirect := lastField r w.bitpos
  let w := { w with bitpos := if 4 ≤ w.bitpos then w.bitpos - 4 else 0xffffffff }
  if w.type = dfDtInvalid then
    { w with result := { w.result with status := w.result.status ||| srInvalid }, resolved := true }
  else if w.type = dfDtPage then
    { w with
      result := { w.result with
        physicalAddress := (w.table &&& (0xffffffff <<< pmmuPageShift r)) +
          (w.addressWork >>> w.pageshift) }
      resolved := true }
  else
    let isLong := w.type == dfDtTable8Byte
    match w.fetch error indirect (w.table + index * if isLong then 8 else 4) isLong with
    | (w, none) => w.busError
    | (w, some descriptor) => useDescriptor error fc rw sideEffects descriptor indexbits w

/-- The loop; an iteration that does not end it reads a level, of which there are seven at
    most. -/
def walkLoop (r : Registers) (error : UInt32 → Bool) (fc : UInt32) (rw sideEffects : Bool)
    (limit : Nat) : Nat → Walk → Walk
  | 0, w => w
  | fuel + 1, w =>
    let w := walkStep r error fc rw sideEffects w
    if w.resolved || limit ≤ w.level || 7 ≤ w.level then w
    else walkLoop r error fc rw sideEffects limit fuel w

/-- The root pointer that serves a function code. -/
def rootOf (r : Registers) (fc : UInt32) : UInt32 × UInt32 :=
  if r.tc &&& tcSre ≠ 0 ∧ fc &&& 4 ≠ 0 then (r.srpLimit &&& dfDt, r.srpAptr &&& dfAddrMask)
  else (r.crpLimit &&& dfDt, r.crpAptr &&& dfAddrMask)

def Walk.start (r : Registers) (memory : Memory) (tmpSr : UInt16) (logical fc : UInt32)
    (result : TranslationResult) : Walk where
  type := (rootOf r fc).1
  table := (rootOf r fc).2
  addressWork := logical <<< field r.tc 16
  pageshift := field r.tc 16
  bitpos := if r.tc &&& tcFcl ≠ 0 then 16 else 12
  result := result
  memory := memory
  tmpSr := tmpSr

/-- Whether a status is a fault, whatever the direction. -/
def hardFault (status : UInt16) : Bool := status &&& (srBusError ||| srInvalid ||| srSupervisorOnly) != 0

/-- The result at the end of the loop. -/
def Walk.finish (w : Walk) (rw : Bool) (limit : Nat) : TranslationResult :=
  let status := if !w.resolved && 7 ≤ limit then w.result.status ||| srInvalid else w.result.status
  let status := (status &&& 0xfff0) ||| (UInt16.ofNat w.level &&& 7)
  { w.result with
    level := w.level % 256
    status := status
    fault := hardFault status || (!rw && status &&& srWriteProtect != 0) }

def pmmuWalkTables (s : M68kMmu) (logical fc : UInt32) (rw : Bool) (limit : Nat)
    (sideEffects : Bool) (result : TranslationResult) : M68kMmu × TranslationResult :=
  let w := walkLoop s.regs s.physicalError fc rw sideEffects limit 7
    (Walk.start s.regs s.memory s.tmpSr logical fc result)
  ({ s with memory := w.memory, tmpSr := w.tmpSr }, w.finish rw limit)

/-! ## The tables of the 68040 -/

/-- The transparent translation registers of the 68040; the fault is that of a write to a
    protected region. -/
def pmmuMatchTt040 (logical fc tt : UInt32) (rw : Bool) (result : TranslationResult) :
    Option TranslationResult :=
  let select := (tt >>> 13) &&& 3
  let fcMask : UInt32 := if select ≤ 1 then 4 else 0
  let fcMatch : UInt32 := if select = 1 then 4 else 0
  let mask := (~~~(tt >>> 16) &&& 0xff) <<< 24
  if tt &&& mmu040TtEnable = 0 then none
  else if logical &&& mask ≠ tt &&& mask ∨ fc &&& fcMask ≠ fcMatch then none
  else
    let result := { result with transparent := true, status := mmu040TtHit ||| mmu040Resident }
    if !rw ∧ tt &&& dfWp ≠ 0 then
      some { result with status := result.status ||| srWriteProtect, fault := true }
    else some result

/-- A walk through the tables of the 68040: the memory, and the status of the last physical
    access. -/
structure Walk040 where
  memory : Memory
  tmpSr : UInt16 := 0

namespace Walk040

variable (error : UInt32 → Bool)

def reported (w : Walk040) (address : UInt32) : UInt16 :=
  w.tmpSr ||| flag (error address) (srBusError ||| srInvalid)

def read (w : Walk040) (address : UInt32) : UInt32 × Walk040 :=
  (read32 w.memory address, { w with tmpSr := w.reported error address })

def write (w : Walk040) (address value : UInt32) : Walk040 :=
  { memory := if error address then w.memory else write32 w.memory address value
    tmpSr := w.reported error address }

/-- The entry is marked as used, and the mark is written where it is new. -/
def mark (w : Walk040) (sideEffects : Bool) (address entry marked : UInt32) : Walk040 :=
  if sideEffects ∧ marked ≠ entry then w.write error address marked else w

end Walk040

/-- Why a walk of the 68040 ends early. -/
inductive Refusal040 where
  | invalid
  | protectedPage

/-- The root and the pointer entry. -/
def tableEntry040 (error : UInt32 → Bool) (w : Walk040) (address : UInt32) (rw sideEffects : Bool) :
    Walk040 × Except Refusal040 UInt32 :=
  let (entry, w) := w.read error address
  if w.tmpSr &&& srBusError ≠ 0 ∨ entry &&& 2 = 0 then (w, .error .invalid)
  else if !rw ∧ entry &&& dfWp ≠ 0 then (w, .error .protectedPage)
  else
    (w.mark error sideEffects address entry (entry ||| dfUsed),
      .ok (entry ||| if sideEffects then dfUsed else 0))

/-- The page entry, which may be an indirect one, and the physical address. -/
def pageEntry040 (error : UInt32 → Bool) (w : Walk040) (address fc : UInt32) (rw sideEffects : Bool)
    (frameMask pageOffset : UInt32) : Walk040 × Except Refusal040 UInt32 :=
  let (entry, w) := w.read error address
  let (address, entry, w) :=
    if entry &&& 3 = 2 then
      let address := entry &&& ~~~3
      let (entry, w) := w.read error address
      (address, if entry &&& 3 = 2 then 0 else entry, w)
    else (address, entry, w)
  if w.tmpSr &&& srBusError ≠ 0 ∨ entry &&& 1 = 0 then (w, .error .invalid)
  else if (!rw ∧ entry &&& dfWp ≠ 0) ∨ (fc &&& 4 = 0 ∧ entry &&& mmu040Supervisor ≠ 0) then
    (w, .error .protectedPage)
  else
    (w.mark error sideEffects address entry (entry ||| dfUsed ||| if rw then 0 else dfModified),
      .ok ((entry &&& frameMask) ||| pageOffset))

/-- Pages of 8 KiB, else of 4 KiB. -/
def largePages (r : Registers) : Bool := r.tc &&& 0x4000 != 0

def pageOffsetMask040 (r : Registers) : UInt32 := if largePages r then 0x1fff else 0x0fff

def walk040 (r : Registers) (error : UInt32 → Bool) (memory : Memory) (logical fc : UInt32)
    (rw sideEffects : Bool) : Walk040 × Except Refusal040 UInt32 :=
  let rootIndex := (logical >>> 25) &&& 0x7f
  let pointerIndex := (logical >>> 18) &&& 0x7f
  let pageIndex := if largePages r then (logical >>> 13) &&& 0x1f else (logical >>> 12) &&& 0x3f
  let pageOffset := logical &&& pageOffsetMask040 r
  let root := (if fc &&& 4 ≠ 0 then r.srpAptr else r.urpAptr) + rootIndex * 4
  match tableEntry040 error { memory := memory } root rw sideEffects with
  | (w, .error e) => (w, .error e)
  | (w, .ok rootEntry) =>
    match tableEntry040 error w ((rootEntry &&& ~~~0x1ff) + pointerIndex * 4) rw sideEffects with
    | (w, .error e) => (w, .error e)
    | (w, .ok pointerEntry) =>
      let table := pointerEntry &&& if largePages r then ~~~0x7f else ~~~0xff
      pageEntry040 error w (table + pageIndex * 4) fc rw sideEffects (~~~pageOffsetMask040 r)
        pageOffset

/-- The transparent translation registers for a function code. -/
def transparent040 (r : Registers) (fc : UInt32) : UInt32 × UInt32 :=
  if fc &&& 1 ≠ 0 then (r.dtt0, r.dtt1) else (r.itt0, r.itt1)

def pmmuTranslate040 (s : M68kMmu) (logical fc : UInt32) (rw sideEffects : Bool) :
    M68kMmu × TranslationResult :=
  let result : TranslationResult := { physicalAddress := logical }
  if fc &&& 3 = 0 then (s, { result with status := srInvalid, fault := true })
  else
    let (tt0, tt1) := transparent040 s.regs fc
    match (pmmuMatchTt040 logical fc tt0 rw result).orElse fun _ =>
        pmmuMatchTt040 logical fc tt1 rw result with
    | some result => (s, result)
    | none =>
      if !s.regs.pmmuEnabled then (s, result)
      else
        let (w, ending) := walk040 s.regs s.physicalError s.memory logical fc rw sideEffects
        let s := { s with memory := w.memory, tmpSr := w.tmpSr }
        match ending with
        | .error .invalid => (s, { result with status := srInvalid ||| w.tmpSr, fault := true })
        | .error .protectedPage => (s, { result with status := srWriteProtect, fault := true })
        | .ok physical =>
          (s, { result with physicalAddress := physical, status := mmu040Resident })

/-! ## Translation -/

/-- A fault of a normal access is recorded. -/
def recordFault (s : M68kMmu) (logical fc : UInt32) (rw : Bool) (size : Nat) (intent : PmmuIntent)
    (result : TranslationResult) : M68kMmu :=
  if result.fault ∧ intent = .normal then
    { s with
      tmpSr := result.status
      faultInfo := { address := logical, fc := fc &&& 7, rw := rw, size := size, isMmu := true } }
  else { s with tmpSr := result.status }

/-- The access is not translated by the tables. -/
def transparent (r : Registers) (logical fc : UInt32) (rw : Bool) : Bool :=
  pmmuMatchTt logical fc r.tt0 rw || pmmuMatchTt logical fc r.tt1 rw || fc == 7

def pmmuTranslate (s : M68kMmu) (logical fc : UInt32) (rw : Bool) (size : Nat)
    (intent : PmmuIntent) (limit : Nat) : M68kMmu × TranslationResult :=
  if s.regs.kind = .m68040 then
    let (s, result) :=
      pmmuTranslate040 s logical fc rw (intent == .normal || intent == .pload)
    (recordFault s logical fc rw size intent result, result)
  else
    let result : TranslationResult := { physicalAddress := logical }
    let s := { s with lastLogicalAddr := logical, tmpSr := 0 }
    if transparent s.regs logical fc rw then
      let hit := pmmuMatchTt logical fc s.regs.tt0 rw || pmmuMatchTt logical fc s.regs.tt1 rw
      (s, { result with transparent := true, status := flag hit srTransparent })
    else if intent = .ptest ∧ limit = 0 then
      let (s, result, _) := pmmuAtcLookup s logical fc rw true result
      (s, result)
    else
      let (s, result, hit) :=
        if intent = .normal ∨ intent = .probe then pmmuAtcLookup s logical fc rw false result
        else (s, result, false)
      if hit then (recordFault s logical fc rw size intent result, result)
      else
        let (s, result) :=
          pmmuWalkTables s logical fc rw limit (intent == .normal || intent == .pload) result
        let s :=
          if intent = .normal ∨ intent = .pload ∨ intent = .probe then
            pmmuAtcAdd s logical result.physicalAddress fc result
          else s
        (recordFault s logical fc rw size intent result, result)

/-- `pmmu_translate_addr_fc_size`: the translation of an access. -/
def translateAccess (s : M68kMmu) (logical fc : UInt32) (rw : Bool) (size : Nat) :
    M68kMmu × TranslationResult := pmmuTranslate s logical fc rw size .normal 7

/-! ## Accesses -/

/-- Whether accesses are translated. -/
def translates (r : Registers) : Bool :=
  r.kind != .none && (r.pmmuEnabled || r.kind == .m68040)

/-- The first physical address of an access; nothing, where it faults. -/
def accessAddress (s : M68kMmu) (address fc : UInt32) (rw : Bool) (size : Nat) :
    M68kMmu × Option UInt32 :=
  if translates s.regs then
    let (s, result) := translateAccess s address fc rw size
    (s, if result.fault then none else some result.physicalAddress)
  else (s, some address)

/-- `m68ki_read_8_fc`, `m68ki_read_16_fc` and `m68ki_read_32_fc`, for the three sizes. -/
def readFc (s : M68kMmu) (size : Nat) (address fc : UInt32) : M68kMmu × Option UInt32 :=
  let (s, physical) := accessAddress s address fc true size
  (s, physical.map fun p => compose s.memory (span p size))

/-- `m68ki_write_8_fc`, `m68ki_write_16_fc` and `m68ki_write_32_fc`; whether the access
    succeeds. -/
def writeFc (s : M68kMmu) (size : Nat) (address fc value : UInt32) : M68kMmu × Bool :=
  let (s, physical) := accessAddress s address fc false size
  match physical with
  | none => (s, false)
  | some p => ({ s with memory := store s.memory (span p size) value }, true)

end CuteMac.Cpu
