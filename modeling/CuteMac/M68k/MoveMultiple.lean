/-
  MOVEM to memory below an address register, and back from there.

  * `opMovemRePd`, `opMovemErPi`: the instructions, register by register;
  * `movemPush_run`, `movemPull_run`: what is written and read is one run of bytes;
  * `opMovemErPi_restores`: the registers come back, whatever has happened to them.
-/
import CuteMac.M68k.Arithmetic
import CuteMac.M68k.Returns
import CuteMac.M68k.WideNumbers

namespace CuteMac.M68k

open ByteMemory Core M68kiCpu

/-- `MAKE_INT_16` -/
def makeInt16 (value : UInt32) : UInt32 :=
  if value &&& 0x8000 ≠ 0 then value ||| ~~~0xffff else value &&& 0xffff

/-- The operands of MOVEM. -/
inductive MovemSize where
  | word
  | long
  deriving DecidableEq, Repr

namespace MovemSize

def bytes : MovemSize → Nat
  | word => 2
  | long => 4

/-- What a register gets from the bytes that were written of a value: words are extended. -/
def extended : MovemSize → UInt32 → UInt32
  | word, value => makeInt16 (value &&& 0xffff)
  | long, value => value

end MovemSize

namespace M68kiCpu

/-- Bit `i` of the register list, which is the second word of the instruction. -/
def Listed (registerList : UInt32) (i : Fin 16) : Prop := registerList &&& (1 <<< UInt32.ofNat i) ≠ 0

instance (registerList : UInt32) (i : Fin 16) : Decidable (Listed registerList i) :=
  inferInstanceAs (Decidable (_ ≠ _))

section
variable (z : MovemSize) (s : M68kiCpu)

/-- A register is written below the address; the low word of a long one is the first. -/
def movemPush (r : M68kiCpu × UInt32) (reg : Fin 16) : M68kiCpu × UInt32 :=
  match z with
  | .word =>
    let ea := r.2 - 2
    (r.1.write16 ea (r.1.dar reg &&& 0xffff), ea)
  | .long =>
    let ea := r.2 - 4
    ((r.1.write16 (ea + 2) (r.1.dar reg &&& 0xffff)).write16 ea ((r.1.dar reg >>> 16) &&& 0xffff), ea)

/-- `m68k_op_movem_16_re_pd`, `m68k_op_movem_32_re_pd`, whose list starts with the last register. -/
def opMovemRePd (registerList : UInt32) : M68kiCpu :=
  let r := (List.finRange 16).foldl
    (fun r i => if Listed registerList i then movemPush z r i.rev else r) (s, s.dar s.addressY)
  r.1.setDar s.addressY r.2

def movemPull (r : M68kiCpu × UInt32) (reg : Fin 16) : M68kiCpu × UInt32 :=
  match z with
  | .word => (r.1.setDar reg (makeInt16 (r.1.read16 r.2 &&& 0xffff)), r.2 + 2)
  | .long => (r.1.setDar reg (r.1.read32 r.2), r.2 + 4)

/-- `m68k_op_movem_16_er_pi`, `m68k_op_movem_32_er_pi` -/
def opMovemErPi (registerList : UInt32) : M68kiCpu :=
  let r := (List.finRange 16).foldl
    (fun r i => if Listed registerList i then movemPull z r i else r) (s, s.dar s.addressY)
  r.1.setDar s.addressY r.2

end

end M68kiCpu

/-! ## The registers of a list -/

/-- The registers of a list, from the first one on. -/
def listedRegisters (registerList : UInt32) : List (Fin 16) :=
  (List.finRange 16).filter fun i => Listed registerList i

theorem mem_listedRegisters {registerList : UInt32} {reg : Fin 16} :
    reg ∈ listedRegisters registerList ↔ Listed registerList reg := by
  simp [listedRegisters]

theorem length_listedRegisters (registerList : UInt32) : (listedRegisters registerList).length ≤ 16 :=
  (List.length_filter_le ..).trans_eq (List.length_finRange ..)

theorem foldl_listed {α : Type} (registerList : UInt32) (f : α → Fin 16 → α) (a : α) :
    (List.finRange 16).foldl (fun r i => if Listed registerList i then f r i else r) a
      = (listedRegisters registerList).foldl f a := by
  rw [listedRegisters, List.foldl_filter]
  simp only [decide_eq_true_eq]

/-- The two lists name the same registers from either end. -/
theorem listedRegisters_mirrored {pushed pulled : UInt32}
    (h : ∀ i, Listed pulled i ↔ Listed pushed i.rev) :
    (listedRegisters pushed).map Fin.rev = (listedRegisters pulled).reverse := by
  have hfilter : listedRegisters pulled
      = (List.finRange 16).filter ((fun i => decide (Listed pushed i)) ∘ Fin.rev) :=
    List.filter_congr fun i _ => decide_eq_decide.2 (h i)
  rw [hfilter, ← List.filter_reverse, List.finRange_reverse, List.filter_map, listedRegisters]
  congr 1

/-! ## Down -/

section
variable (z : MovemSize)

/-- The bytes of registers, the first one at the lowest address. -/
def registerBytes (dar : Fin 16 → UInt32) (regs : List (Fin 16)) : List UInt8 :=
  regs.flatMap fun reg => bytesOf (dar reg).toNat z.bytes

theorem length_registerBytes (dar : Fin 16 → UInt32) (regs : List (Fin 16)) :
    (registerBytes z dar regs).length = z.bytes * regs.length := by
  induction regs with
  | nil => rfl
  | cons reg regs ih =>
    rw [registerBytes, List.flatMap_cons, List.length_append, length_bytesOf, List.length_cons,
      ← registerBytes, ih, Nat.mul_succ, Nat.add_comm]

theorem toNat_and_word (a : UInt32) : (a &&& 0xffff).toNat = a.toNat % 65536 := by
  rw [UInt32.toNat_and]
  exact Nat.and_two_pow_sub_one_eq_mod _ 16

theorem bytesOf_and_word (a : UInt32) : bytesOf (a &&& 0xffff).toNat 2 = bytesOf a.toNat 2 := by
  have hbyte : ∀ m n : Nat, m % 256 = n % 256 → UInt8.ofNat m = UInt8.ofNat n := by
    intro m n h
    rw [← UInt8.toNat_inj, UInt8.toNat_ofNat', UInt8.toNat_ofNat']
    exact h
  rw [toNat_and_word]
  simp only [bytesOf]
  rw [hbyte (a.toNat % 65536 / 256 ^ 1) (a.toNat / 256 ^ 1) (by omega),
    hbyte (a.toNat % 65536 / 256 ^ 0) (a.toNat / 256 ^ 0) (by omega)]

variable (s : M68kiCpu) (ea : UInt32)

theorem movemPush_eq (reg : Fin 16) :
    movemPush z (s, ea) reg
      = ({ s with
          memory := put s.memory (ea - UInt32.ofNat z.bytes) (bytesOf (s.dar reg).toNat z.bytes) },
        ea - UInt32.ofNat z.bytes) := by
  cases z with
  | word =>
    show (s.write16 (ea - 2) _, ea - 2) = _
    rw [write16, writeBytes, bytesOf_and_word]
    rfl
  | long =>
    have hlow : bytesOf (s.dar reg &&& 0xffff).toNat 2 = bytesOf (s.dar reg).toUInt16.toNat 2 := by
      rw [toNat_and_word, UInt32.toNat_toUInt16]
    have hhigh : bytesOf ((s.dar reg >>> 16) &&& 0xffff).toNat 2
        = bytesOf (s.dar reg >>> 16).toUInt16.toNat 2 := by
      rw [toNat_and_word, UInt32.toNat_toUInt16]
    obtain ⟨high, hhighdef⟩ : ∃ bs, bs = bytesOf (s.dar reg >>> 16).toUInt16.toNat 2 := ⟨_, rfl⟩
    obtain ⟨low, hlowdef⟩ : ∃ bs, bs = bytesOf (s.dar reg).toUInt16.toNat 2 := ⟨_, rfl⟩
    have hlengths : high.length = 2 ∧ low.length = 2 := by
      rw [hhighdef, hlowdef, length_bytesOf, length_bytesOf]
      exact ⟨rfl, rfl⟩
    have hbelow : put (put s.memory (ea - (4 : UInt32) + UInt32.ofNat high.length) low) (ea - (4 : UInt32)) high
        = put s.memory (ea - (4 : UInt32)) (high ++ low) :=
      put_put_below (by omega)
    rw [hlengths.1, hhighdef, hlowdef, ← bytesOf_long, ← hlow, ← hhigh] at hbelow
    exact Prod.ext (congrArg (fun m => ({ s with memory := m } : M68kiCpu)) hbelow) rfl

/-- The registers are written from the last one on, so that the run starts with the first one. -/
theorem movemPush_run (regs : List (Fin 16)) (h : regs.length ≤ 16) :
    regs.reverse.foldl (movemPush z) (s, ea)
      = ({ s with
          memory := put s.memory (ea - UInt32.ofNat (z.bytes * regs.length)) (registerBytes z s.dar regs) },
        ea - UInt32.ofNat (z.bytes * regs.length)) := by
  have hz : z.bytes ≤ 4 := by cases z <;> decide
  induction regs with
  | nil =>
    rw [List.length_nil, Nat.mul_zero, show UInt32.ofNat 0 = 0 from rfl, UInt32.sub_zero]
    rfl
  | cons reg regs ih =>
    rw [List.length_cons] at h
    have hbytes : z.bytes + z.bytes * regs.length ≤ 2 ^ 32 := by
      have hmul := Nat.mul_le_mul hz (Nat.le_of_succ_le h)
      omega
    have hnext : ea - UInt32.ofNat (z.bytes * regs.length) - UInt32.ofNat z.bytes
        = ea - UInt32.ofNat (z.bytes * (regs.length + 1)) := by
      rw [Nat.mul_succ, UInt32.ofNat_add]
      grind
    have hbelow : ea - UInt32.ofNat (z.bytes * (regs.length + 1))
        + UInt32.ofNat (bytesOf (s.dar reg).toNat z.bytes).length
          = ea - UInt32.ofNat (z.bytes * regs.length) := by
      rw [length_bytesOf, Nat.mul_succ, UInt32.ofNat_add]
      grind
    have hput : put (put s.memory (ea - UInt32.ofNat (z.bytes * regs.length)) (registerBytes z s.dar regs))
        (ea - UInt32.ofNat (z.bytes * (regs.length + 1))) (bytesOf (s.dar reg).toNat z.bytes)
          = put s.memory (ea - UInt32.ofNat (z.bytes * (regs.length + 1)))
            (registerBytes z s.dar (reg :: regs)) := by
      rw [← hbelow]
      exact put_put_below (by rw [length_bytesOf, length_registerBytes]; exact hbytes)
    rw [List.reverse_cons, List.foldl_append, ih (by omega), List.foldl_cons, List.foldl_nil,
      movemPush_eq, hnext, List.length_cons, ← hput]

/-! ## Up -/

theorem movemPull_eq {value : UInt32} (h : take s.memory ea z.bytes = bytesOf value.toNat z.bytes)
    (reg : Fin 16) :
    movemPull z (s, ea) reg = (s.setDar reg (z.extended value), ea + UInt32.ofNat z.bytes) := by
  cases z with
  | word =>
    have hword : s.read16 ea &&& 0xffff = value &&& 0xffff := by
      rw [read16_of_take h, ← UInt32.toNat_inj, toNat_and_word, toNat_and_word, UInt32.toNat_ofNat']
      omega
    show (s.setDar reg (makeInt16 (s.read16 ea &&& 0xffff)), _) = _
    rw [hword]
    rfl
  | long =>
    show (s.setDar reg (s.read32 ea), _) = _
    rw [read32_of_take h]
    rfl

/-- Each of the registers comes from the run of their bytes. -/
theorem movemPull_run (dar : Fin 16 → UInt32) (regs : List (Fin 16))
    (h : take s.memory ea (z.bytes * regs.length) = registerBytes z dar regs) :
    regs.foldl (movemPull z) (s, ea)
      = ({ s with dar := fun reg => if reg ∈ regs then z.extended (dar reg) else s.dar reg },
        ea + UInt32.ofNat (z.bytes * regs.length)) := by
  induction regs generalizing s ea with
  | nil =>
    rw [List.length_nil, Nat.mul_zero, show UInt32.ofNat 0 = 0 from rfl, UInt32.add_zero]
    simp
  | cons reg regs ih =>
    rw [List.length_cons, Nat.mul_succ, Nat.add_comm, take_add, registerBytes, List.flatMap_cons,
      ← registerBytes] at h
    obtain ⟨hfirst, hrest⟩ := List.append_inj h (by rw [length_take, length_bytesOf])
    have hnext : ea + UInt32.ofNat z.bytes + UInt32.ofNat (z.bytes * regs.length)
        = ea + UInt32.ofNat (z.bytes * (regs.length + 1)) := by
      rw [Nat.mul_succ, UInt32.ofNat_add]
      grind
    have hdar : (fun r => if r ∈ regs then z.extended (dar r)
          else Function.update s.dar reg (z.extended (dar reg)) r)
        = fun r => if r ∈ reg :: regs then z.extended (dar r) else s.dar r := by
      funext r
      by_cases hr : r = reg
      · simp [hr]
      · simp [hr]
    have htail := ih (s.setDar reg (z.extended (dar reg))) (ea + UInt32.ofNat z.bytes) hrest
    rw [List.foldl_cons, movemPull_eq z s ea hfirst, htail, hnext, List.length_cons, ← hdar]
    rfl

end

/-! ## There and back -/

section
variable {z : MovemSize} {s u : M68kiCpu} {pushed pulled : UInt32}

/-- How many bytes the registers of the list take. -/
def movemBytes (z : MovemSize) (registerList : UInt32) : Nat :=
  z.bytes * (listedRegisters registerList).length

theorem opMovemRePd_eq (h : ∀ i, Listed pulled i ↔ Listed pushed i.rev) :
    opMovemRePd z s pushed = { s with
      dar := Function.update s.dar s.addressY (s.dar s.addressY - UInt32.ofNat (movemBytes z pulled))
      memory := put s.memory (s.dar s.addressY - UInt32.ofNat (movemBytes z pulled))
        (registerBytes z s.dar (listedRegisters pulled)) } := by
  have hregs : (listedRegisters pushed).foldl (fun r i => movemPush z r i.rev) (s, s.dar s.addressY)
      = (listedRegisters pulled).reverse.foldl (movemPush z) (s, s.dar s.addressY) := by
    rw [← listedRegisters_mirrored h, List.foldl_map]
  rw [opMovemRePd, foldl_listed, hregs, movemPush_run _ _ _ _ (length_listedRegisters _)]
  rfl

/-- What was put below an address register comes back with the list from the other end, and the
    address register too, as long as that one and the bytes are still there. -/
theorem opMovemErPi_restores (h : ∀ i, Listed pulled i ↔ Listed pushed i.rev)
    (haddress : u.addressY = s.addressY)
    (hdar : u.dar s.addressY = (opMovemRePd z s pushed).dar s.addressY)
    (hmemory : ∀ i < movemBytes z pulled, u.memory (u.dar s.addressY + UInt32.ofNat i)
      = (opMovemRePd z s pushed).memory (u.dar s.addressY + UInt32.ofNat i)) :
    opMovemErPi z u pulled = { u with
        dar := fun reg => if reg = s.addressY then s.dar reg
          else if Listed pulled reg then z.extended (s.dar reg) else u.dar reg } ∧
      ∀ a, movemBytes z pulled ≤ (a - (opMovemRePd z s pushed).dar s.addressY).toNat →
        (opMovemRePd z s pushed).memory a = s.memory a := by
  have hpointer : (opMovemRePd z s pushed).dar s.addressY
      = s.dar s.addressY - UInt32.ofNat (movemBytes z pulled) := by
    rw [opMovemRePd_eq h]
    exact Function.update_self ..
  have hput : (opMovemRePd z s pushed).memory
      = put s.memory (s.dar s.addressY - UInt32.ofNat (movemBytes z pulled))
        (registerBytes z s.dar (listedRegisters pulled)) := by
    rw [opMovemRePd_eq h]
  have hlength : (registerBytes z s.dar (listedRegisters pulled)).length = movemBytes z pulled :=
    length_registerBytes ..
  have hsize : movemBytes z pulled ≤ 2 ^ 32 := by
    have hz : z.bytes ≤ 4 := by cases z <;> decide
    have hmul := Nat.mul_le_mul hz (length_listedRegisters pulled)
    rw [← movemBytes] at hmul
    omega
  have hbase : u.dar s.addressY = s.dar s.addressY - UInt32.ofNat (movemBytes z pulled) :=
    hdar.trans hpointer
  have htake : take u.memory (u.dar s.addressY) (movemBytes z pulled)
      = registerBytes z s.dar (listedRegisters pulled) := by
    rw [take_congr hmemory, hput, hbase, ← hlength]
    exact take_put (hlength.trans_le hsize)
  constructor
  · rw [opMovemErPi, foldl_listed, haddress, movemPull_run z u _ s.dar _ htake, ← movemBytes]
    have hback : u.dar s.addressY + UInt32.ofNat (movemBytes z pulled) = s.dar s.addressY := by
      rw [hbase, UInt32.sub_add_cancel]
    have hfinal : Function.update
        (fun reg => if reg ∈ listedRegisters pulled then z.extended (s.dar reg) else u.dar reg)
          s.addressY (s.dar s.addressY)
        = fun reg => if reg = s.addressY then s.dar reg
          else if Listed pulled reg then z.extended (s.dar reg) else u.dar reg := by
      funext reg
      by_cases hreg : reg = s.addressY
      · rw [hreg, Function.update_self, if_pos rfl]
      · simp only [Function.update_of_ne hreg, mem_listedRegisters, if_neg hreg]
    rw [hback, ← hfinal]
    rfl
  · intro a ha
    rw [hpointer] at ha
    rw [hput, put_apply (hlength.trans_le hsize),
      List.getElem?_eq_none (by rw [hlength]; exact ha)]
    rfl

/-- A state with the stack pointer as the address register of the instruction. -/
def caller : M68kiCpu := { pair with ir := 0x48e7 }

/-- After `MOVEM.L D0-D7/A0-A6,-(A7)` the registers have been cleared. -/
def called : M68kiCpu :=
  { opMovemRePd .long caller 0xfffe with dar := Function.update (fun _ => 0) 15 0xfc4 }

theorem opMovemErPi_restores_called :
    opMovemErPi .long called 0x7fff = { called with
      dar := fun reg => if reg = 15 then caller.dar reg
        else if Listed 0x7fff reg then caller.dar reg else called.dar reg } :=
  (opMovemErPi_restores (z := .long) (s := caller) (u := called)
    (show ∀ i, Listed 0x7fff i ↔ Listed 0xfffe (Fin.rev i) by decide) rfl (by decide) fun _ _ => rfl).1

end

end CuteMac.M68k
