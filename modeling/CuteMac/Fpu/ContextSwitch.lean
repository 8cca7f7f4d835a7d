/-
  A switch of the floating-point context.

  * `Instruction`, `saveInstructions`, `restoreInstructions`: FSAVE and the two FMOVEM, and
    back;
  * `Pushes`: what an instruction puts on the stack;
  * `Holds`: the bytes on top of the stack, from which the others load;
  * `ContextKept`: when the registers come back, which depends on the model and on how many
    control registers are moved.
-/
import CuteMac.Fpu.Instructions
import CuteMac.Lib.Machine
import CuteMac.Lib.ShiftRegister

namespace CuteMac.Fpu

open ByteMemory Core M68kiCpu
open Machine (run Guarded)

/-! ## The instructions -/

/-- An instruction at an address; those that have no extension word disregard it. -/
structure Instruction where
  address : UInt32
  opcode : UInt16
  extension : UInt16 := 0

namespace Instruction

/-- The state in which it is executed. -/
def fetch (i : Instruction) (s : M68kiCpu) : M68kiCpu :=
  { s with ppc := i.address, ir := i.opcode, pc := i.address + 2 }

def run (arith : SoftFloat) (s : M68kiCpu) (i : Instruction) : M68kiCpu := (i.fetch s).execute arith

/-- Its extension word is in memory when it is executed. -/
def Fetched (s : M68kiCpu) (i : Instruction) : Prop :=
  i.opcode &&& 0xff00 = 0xf200 → (i.fetch s).readImm16.1 = i.extension

instance (s : M68kiCpu) (i : Instruction) : Decidable (Fetched s i) := by
  unfold Fetched
  infer_instance

end Instruction

/-- The bits of a list in the other order. -/
def mirrored (list : UInt8) : UInt8 :=
  (List.range 8).foldl (fun m i => if list.toNat.testBit i then m ||| (128 : UInt8) >>> UInt8.ofNat i else m) 0

/-- `FSAVE -(A7)`, `FMOVEM.X list,-(A7)`, `FMOVEM.L subset,-(A7)`. -/
def saveInstructions (place : Fin 3 → UInt32) (list : UInt8) (subset : Fin 8) : List Instruction :=
  [⟨place 0, 0xf327, 0⟩, ⟨place 1, 0xf227, (0xe000 : UInt16) ||| list.toUInt16⟩,
    ⟨place 2, 0xf227, (0xa000 : UInt16) ||| (UInt16.ofNat subset.val <<< 10)⟩]

/-- `FMOVEM.L (A7)+,subset`, `FMOVEM.X (A7)+,list`, `FRESTORE (A7)+`. -/
def restoreInstructions (place : Fin 3 → UInt32) (list : UInt8) (subset : Fin 8) : List Instruction :=
  [⟨place 0, 0xf21f, (0x8000 : UInt16) ||| (UInt16.ofNat subset.val <<< 10)⟩,
    ⟨place 1, 0xf21f, (0xd000 : UInt16) ||| (mirrored list).toUInt16⟩, ⟨place 2, 0xf35f, 0⟩]

/-- The registers of a list. -/
def registers (list : UInt8) : List (Fin 8) :=
  (List.finRange 8).filter fun i => list.toNat.testBit i.val

/-- The control registers of a subset. -/
def controls (subset : Fin 8) : List ControlRegister := selectedRegisters (UInt16.ofNat subset.val)

theorem listed_extension (list : UInt8) :
    listed (((0xe000 : UInt16) ||| list.toUInt16) &&& 0xff) = registers list ∧
      listedReversed (((0xd000 : UInt16) ||| (mirrored list).toUInt16) &&& 0xff) = (registers list).reverse := by
  revert list
  refine ShiftRegister.forall_byte ?_
  decide +kernel

/-! ## What is pushed -/

/-- Bytes are put on the stack, and nothing else is changed that is to be saved. -/
structure Pushes (s s' : M68kiCpu) (bs : List UInt8) : Prop where
  a7 : s'.a 7 = s.a 7 - UInt32.ofNat bs.length
  memory : s'.memory = put s.memory (s'.a 7) bs
  fp : s'.fp = s.fp
  fpcr : s'.fpcr = s.fpcr
  fpsr : s'.fpsr = s.fpsr
  model : s'.fpuModel = s.fpuModel

theorem sub_add_ofNat (a : UInt32) (n : Nat) : a - UInt32.ofNat n + UInt32.ofNat n = a := by
  rw [UInt32.sub_add_cancel]

theorem sub_sub_ofNat (a : UInt32) (n k : Nat) :
    a - UInt32.ofNat n - UInt32.ofNat k = a - UInt32.ofNat (k + n) := by
  rw [UInt32.ofNat_add, UInt32.sub_eq_add_neg, UInt32.sub_eq_add_neg, UInt32.sub_eq_add_neg,
    UInt32.neg_add, UInt32.add_assoc, UInt32.add_comm (-UInt32.ofNat n), UInt32.sub_eq_add_neg]

namespace Pushes

variable {s s' s'' : M68kiCpu} {bs cs : List UInt8}

theorem refl (s : M68kiCpu) : Pushes s s [] :=
  ⟨(UInt32.sub_zero _).symm, rfl, rfl, rfl, rfl, rfl⟩

theorem trans (h : Pushes s s' bs) (h' : Pushes s' s'' cs) (hlen : cs.length + bs.length ≤ 2 ^ 32) :
    Pushes s s'' (cs ++ bs) := by
  refine ⟨?_, ?_, h'.fp.trans h.fp, h'.fpcr.trans h.fpcr, h'.fpsr.trans h.fpsr,
    h'.model.trans h.model⟩
  · rw [h'.a7, h.a7, sub_sub_ofNat, List.length_append]
  · have hback : s'.a 7 = s''.a 7 + UInt32.ofNat cs.length := by
      rw [h'.a7, sub_add_ofNat]
    rw [h'.memory, h.memory, hback, put_put_below hlen]

end Pushes

/-- Long words on the stack, the last one pushed first. -/
def longs (values : List UInt32) : List UInt8 :=
  values.reverse.flatMap fun value => bytesOf value.toNat 4

theorem longs_cons (value : UInt32) (values : List UInt32) :
    longs (value :: values) = longs values ++ bytesOf value.toNat 4 := by
  rw [longs, List.reverse_cons, List.flatMap_append, List.flatMap_singleton]
  rfl

theorem length_longs (values : List UInt32) : (longs values).length = 4 * values.length := by
  induction values with
  | nil => rfl
  | cons value values ih =>
    rw [longs_cons, List.length_append, ih, length_bytesOf, List.length_cons]
    omega

/-- The twelve bytes of a number. -/
def floatBytes (x : Floatx80) : List UInt8 :=
  bytesOf x.high.toNat 2 ++ bytesOf (0 : UInt16).toNat 2 ++ bytesOf (x.low >>> 32).toUInt32.toNat 4 ++
    bytesOf x.low.toUInt32.toNat 4

/-- Numbers on the stack, the last one pushed first. -/
def floats (values : List Floatx80) : List UInt8 := values.reverse.flatMap floatBytes

theorem length_floatBytes (x : Floatx80) : (floatBytes x).length = 12 := by
  unfold floatBytes
  rw [List.length_append, List.length_append, List.length_append, length_bytesOf, length_bytesOf,
    length_bytesOf, length_bytesOf]

theorem floats_cons (value : Floatx80) (values : List Floatx80) :
    floats (value :: values) = floats values ++ floatBytes value := by
  rw [floats, List.reverse_cons, List.flatMap_append, List.flatMap_singleton]
  rfl

theorem length_floats (values : List Floatx80) : (floats values).length = 12 * values.length := by
  induction values with
  | nil => rfl
  | cons value values ih =>
    rw [floats_cons, List.length_append, ih, length_floatBytes, List.length_cons]
    omega

theorem storeExtendedFloat80_eq (s : M68kiCpu) (ea : UInt32) (x : Floatx80) :
    s.storeExtendedFloat80 ea x = { s with memory := put s.memory ea (floatBytes x) } := by
  have h2 : UInt32.ofNat (bytesOf x.high.toNat 2).length = 2 := by
    rw [length_bytesOf]
    rfl
  have h4 : UInt32.ofNat (bytesOf x.high.toNat 2 ++ bytesOf (0 : UInt16).toNat 2).length = 4 := by
    rw [List.length_append, length_bytesOf, length_bytesOf]
    rfl
  have h8 : UInt32.ofNat (bytesOf x.high.toNat 2 ++ bytesOf (0 : UInt16).toNat 2
      ++ bytesOf (x.low >>> 32).toUInt32.toNat 4).length = 8 := by
    rw [List.length_append, List.length_append, length_bytesOf, length_bytesOf, length_bytesOf]
    rfl
  unfold storeExtendedFloat80 M68kiCpu.write32 write16 floatBytes
  rw [put_append, put_append, put_append, h2, h4, h8]

/-- A long word below the stack pointer. -/
theorem pushes_long (s : M68kiCpu) (value : UInt32) :
    Pushes s (s.writeEa32 0x27 value) (bytesOf value.toNat 4) := by
  have heq : s.writeEa32 0x27 value = (s.setA 7 (s.a 7 - 4)).write32 (s.a 7 - 4) value := rfl
  have ha : (s.writeEa32 0x27 value).a 7 = s.a 7 - 4 := by
    rw [heq]
    exact Function.update_self (7 : Fin 8) _ s.a
  refine ⟨?_, ?_, ?_, ?_, ?_, ?_⟩
  · rw [ha, length_bytesOf]
    rfl
  · rw [ha, heq]
    rfl
  all_goals rw [heq]; rfl

theorem pushes_float (s : M68kiCpu) (x : Floatx80) (di : UInt32) :
    Pushes s (s.writeEaFpe 0x27 x di) (floatBytes x) := by
  have heq : s.writeEaFpe 0x27 x di = (s.setA 7 (s.a 7 - 12)).storeExtendedFloat80 (s.a 7 - 12) x := rfl
  rw [storeExtendedFloat80_eq] at heq
  have ha : (s.writeEaFpe 0x27 x di).a 7 = s.a 7 - 12 := by
    rw [heq]
    exact Function.update_self (7 : Fin 8) _ s.a
  refine ⟨?_, ?_, ?_, ?_, ?_, ?_⟩
  · rw [ha, length_floatBytes]
    rfl
  · rw [ha, heq]
    rfl
  all_goals rw [heq]; rfl

theorem pushes_controls (registers : List ControlRegister) : ∀ (s : M68kiCpu),
    registers.length ≤ 8 →
    Pushes s (s.writeControls 0x27 registers) (longs (registers.map s.control)) := by
  induction registers with
  | nil => exact fun s _ => Pushes.refl s
  | cons r rs ih =>
    intro s hlen
    rw [List.length_cons] at hlen
    have hcontrol : (s.writeEa32 0x27 (s.control r)).control = s.control := by
      funext c
      cases c <;> rfl
    have hrest := ih (s.writeEa32 0x27 (s.control r)) (by omega)
    rw [hcontrol] at hrest
    rw [List.map_cons, longs_cons]
    refine (pushes_long s _).trans hrest ?_
    rw [length_longs, length_bytesOf, List.length_map]
    omega

theorem pushes_registers (registers : List (Fin 8)) : ∀ (s : M68kiCpu) (di : UInt32),
    registers.length ≤ 8 →
    Pushes s (s.storeRegisters 0x27 di registers) (floats (registers.map s.fp)) := by
  induction registers with
  | nil => exact fun s _ _ => Pushes.refl s
  | cons r rs ih =>
    intro s di hlen
    rw [List.length_cons] at hlen
    have hfirst := pushes_float s (s.fp r) di
    have hrest := ih (s.writeEaFpe 0x27 (s.fp r) di) (nextDiModeEa 0x27 di) (by omega)
    rw [hfirst.fp] at hrest
    rw [List.map_cons, floats_cons]
    refine hfirst.trans hrest ?_
    rw [length_floats, length_floatBytes, List.length_map]
    omega

/-! ## The instructions that save -/

/-- The state in which an instruction of the general form is carried out. -/
def Instruction.entered (i : Instruction) (s : M68kiCpu) : M68kiCpu :=
  { i.fetch s with fpuJustReset := false, fpiar := i.address, pc := i.address + 2 + 2 }

/-- The words of an instruction are read from memory, not pushed. -/
theorem Pushes.of_entered {i : Instruction} {s s' : M68kiCpu} {bs : List UInt8}
    (h : Pushes (i.entered s) s' bs) : Pushes s s' bs :=
  ⟨h.a7, h.memory, h.fp, h.fpcr, h.fpsr, h.model⟩

theorem writeDown_eq (values : List UInt32) : ∀ (s : M68kiCpu) (top : UInt32), values.length ≤ 8 →
    s.writeDown (top - 4) values
      = { s with memory := put s.memory (top - UInt32.ofNat (4 * values.length)) (longs values) } := by
  induction values with
  | nil => exact fun _ _ _ => rfl
  | cons value values ih =>
    intro s top hlen
    rw [List.length_cons] at hlen
    have hbottom : top - 4 - UInt32.ofNat (4 * values.length)
        = top - UInt32.ofNat (4 * (values.length + 1)) := sub_sub_ofNat top 4 (4 * values.length)
    have hback : top - 4 = top - UInt32.ofNat (4 * (values.length + 1))
        + UInt32.ofNat (longs values).length := by
      rw [← hbottom, length_longs, sub_add_ofNat]
    have hbelow : (longs values).length + (bytesOf value.toNat 4).length ≤ 2 ^ 32 := by
      rw [length_longs, length_bytesOf]
      omega
    rw [writeDown, ih _ _ (by omega), hbottom, List.length_cons, longs_cons]
    unfold M68kiCpu.write32
    dsimp only
    rw [hback, put_put_below hbelow]

section
variable (arith : SoftFloat) {s : M68kiCpu} {i : Instruction} {list : UInt8} {subset : Fin 8}

theorem run_general (hmodel : s.fpuModel ≠ .none) (hop : i.opcode &&& 0xff00 = 0xf200)
    (hform : (i.opcode >>> 6) &&& 3 = 0) (hf : i.Fetched s) :
    i.run arith s = (i.entered s).general arith i.extension := by
  have hmodel' : ¬ (i.fetch s).fpuModel = .none := hmodel
  have hop' : (i.fetch s).ir &&& 0xff00 = 0xf200 := hop
  have hform' : ((i.fetch s).ir >>> 6) &&& 3 = 0 := hform
  unfold Instruction.run execute
  rw [if_neg hmodel', if_pos hop']
  unfold fpuOp0
  dsimp only
  rw [if_pos hform', ← hf hop]
  rfl

/-- The extension words of the four transfers. -/
theorem save_extension (list : UInt8) :
    let w2 := (0xe000 : UInt16) ||| list.toUInt16
    ((w2 >>> 13) &&& 7).toNat = 7 ∧ (w2 >>> 13) &&& 1 ≠ 0 ∧ (w2 >>> 11) &&& 3 = 0 := by
  revert list
  refine ShiftRegister.forall_byte ?_
  decide +kernel

theorem restore_extension (list : UInt8) :
    let w2 := (0xd000 : UInt16) ||| (mirrored list).toUInt16
    ((w2 >>> 13) &&& 7).toNat = 6 ∧ (w2 >>> 13) &&& 1 = 0 ∧ (w2 >>> 11) &&& 3 = 2 := by
  revert list
  refine ShiftRegister.forall_byte ?_
  decide +kernel

theorem control_extension (subset : Fin 8) :
    let save := (0xa000 : UInt16) ||| (UInt16.ofNat subset.val <<< 10)
    let restore := (0x8000 : UInt16) ||| (UInt16.ofNat subset.val <<< 10)
    (((save >>> 13) &&& 7).toNat = 5 ∧ (save >>> 13) &&& 1 ≠ 0 ∧
        (save >>> 10) &&& 7 = UInt16.ofNat subset.val) ∧
      ((restore >>> 13) &&& 7).toNat = 4 ∧ (restore >>> 13) &&& 1 = 0 ∧
        (restore >>> 10) &&& 7 = UInt16.ofNat subset.val := by
  revert subset
  decide +kernel

theorem length_registers (list : UInt8) : (registers list).length ≤ 8 :=
  (List.length_filter_le ..).trans (le_of_eq (List.length_finRange ..))

theorem length_controls (subset : Fin 8) : (controls subset).length ≤ 3 := by
  revert subset
  decide

/-- The state in which FSAVE and FRESTORE are carried out. -/
def Instruction.enteredFrame (i : Instruction) (s : M68kiCpu) : M68kiCpu :=
  { i.fetch s with fpiar := i.address }

theorem Instruction.ea_enteredFrame (i : Instruction) (s : M68kiCpu) :
    (i.enteredFrame s).ea = i.opcode &&& 0x3f := rfl

/-- The bytes of the frame that FSAVE makes. -/
def frameBytes (s : M68kiCpu) : List UInt8 :=
  if s.fpuModel = .m68040 then longs [0]
  else longs [0x70000000, 0, 0, 0, 0, 0, s.fpuIdleFrameHeader]

theorem performFsave_m68040 (t : M68kiCpu) (h40 : t.fpuModel = .m68040) (address : UInt32)
    (inc : Bool) : t.performFsave address inc = t.write32 address 0 := by
  have hheader : t.fpuIdleFrameHeader = 0 := by
    unfold fpuIdleFrameHeader
    rw [h40]
  unfold performFsave
  rw [hheader]
  exact if_pos h40

theorem performFsave_down (t : M68kiCpu) (h40 : t.fpuModel ≠ .m68040) (address : UInt32) :
    t.performFsave address false
      = t.writeDown address [0x70000000, 0, 0, 0, 0, 0, t.fpuIdleFrameHeader] := by
  unfold performFsave
  exact (if_neg h40).trans (if_neg Bool.false_ne_true)

/-- The stack pointer is moved twice, and the bytes are put above it. -/
theorem pushes_put (s : M68kiCpu) (x y : UInt32) {bs : List UInt8}
    (hy : y = s.a 7 - UInt32.ofNat bs.length) :
    Pushes s { (s.setA 7 x).setA 7 y with memory := put s.memory y bs } bs := by
  have ha : ((s.setA 7 x).setA 7 y).a 7 = y := Function.update_self (7 : Fin 8) _ (s.setA 7 x).a
  refine ⟨ha.trans hy, ?_, rfl, rfl, rfl, rfl⟩
  show put s.memory y bs = put s.memory (((s.setA 7 x).setA 7 y).a 7) bs
  rw [ha]

theorem pushes_frame (s : M68kiCpu) (hea : s.ea = 0x27) (hused : s.fpuJustReset = false) :
    Pushes s s.fsave (frameBytes s) := by
  have ha : (s.setA 7 (s.a 7 - 4)).a 7 = s.a 7 - 4 := Function.update_self (7 : Fin 8) _ s.a
  have hsave : s.fsave = ((s.setA 7 (s.a 7 - 4)).setA 7
      (s.a 7 - 4 - (s.fpuStateFrameBytes - 4))).performFsave (s.a 7 - 4) false := by
    unfold fsave
    rw [hea]
    show (if s.fpuJustReset = true then _ else _) = _
    rw [hused, if_neg Bool.false_ne_true]
    show ((s.setA 7 (s.a 7 - 4)).setA 7 ((s.setA 7 (s.a 7 - 4)).a 7 - _)).performFsave
      ((s.setA 7 (s.a 7 - 4)).a 7) false = _
    rw [ha]
    rfl
  unfold frameBytes
  by_cases h40 : s.fpuModel = .m68040
  · have hbytes : s.fpuStateFrameBytes = 4 := if_pos h40
    have h40' : ((s.setA 7 (s.a 7 - 4)).setA 7 (s.a 7 - 4)).fpuModel = .m68040 := h40
    rw [if_pos h40, hsave, hbytes, UInt32.sub_self, UInt32.sub_zero, performFsave_m68040 _ h40']
    exact pushes_put s (s.a 7 - 4) (s.a 7 - 4) rfl
  · have hbytes : s.fpuStateFrameBytes = 28 := if_neg h40
    have hall : s.a 7 - 4 - (28 - 4) = s.a 7 - 28 := sub_sub_ofNat (s.a 7) 4 24
    have hlen : [0x70000000, 0, 0, 0, 0, 0, s.fpuIdleFrameHeader].length = 7 := rfl
    have h40' : ((s.setA 7 (s.a 7 - 4)).setA 7 (s.a 7 - 28)).fpuModel ≠ .m68040 := h40
    have hheader : ((s.setA 7 (s.a 7 - 4)).setA 7 (s.a 7 - 28)).fpuIdleFrameHeader
        = s.fpuIdleFrameHeader := rfl
    rw [if_neg h40, hsave, hbytes, hall, performFsave_down _ h40', hheader,
      writeDown_eq _ _ _ (by rw [hlen]; decide), hlen]
    refine pushes_put s (s.a 7 - 4) (s.a 7 - 28) ?_
    rw [length_longs, hlen]
    rfl

theorem run_frame (hmodel : s.fpuModel ≠ .none) (hop : ¬ i.opcode &&& 0xff00 = 0xf200) :
    i.run arith s
      = if (i.opcode >>> 6) &&& 3 = 0 then (i.enteredFrame s).fsave
        else if (i.opcode >>> 6) &&& 3 = 1 then (i.enteredFrame s).frestore
        else (i.enteredFrame s).fpuReport := by
  have hmodel' : ¬ (i.fetch s).fpuModel = .none := hmodel
  have hop' : ¬ (i.fetch s).ir &&& 0xff00 = 0xf200 := hop
  unfold Instruction.run execute
  rw [if_neg hmodel', if_neg hop']
  rfl

theorem run_fsave (hmodel : s.fpuModel ≠ .none) (hused : s.fpuJustReset = false)
    (hop : i.opcode = 0xf327) : Pushes s (i.run arith s) (frameBytes s) := by
  have hea : (i.enteredFrame s).ea = 0x27 := by
    rw [i.ea_enteredFrame, hop]
    rfl
  have h := pushes_frame (i.enteredFrame s) hea hused
  rw [run_frame arith hmodel (by rw [hop]; decide), if_pos (by rw [hop]; rfl)]
  exact ⟨h.a7, h.memory, h.fp, h.fpcr, h.fpsr, h.model⟩

theorem run_save_registers (hmodel : s.fpuModel ≠ .none) (hop : i.opcode = 0xf227)
    (hext : i.extension = (0xe000 : UInt16) ||| list.toUInt16) (hf : i.Fetched s) :
    Pushes s (i.run arith s) (floats ((registers list).map s.fp)) := by
  obtain ⟨hsub, hdir, hmode⟩ := save_extension list
  have hea : (i.entered s).ea = 0x27 := by
    show i.opcode &&& 0x3f = 0x27
    rw [hop]
    rfl
  have hrun : i.run arith s = (i.entered s).storeRegisters 0x27 0 (registers list) := by
    rw [run_general arith hmodel (by rw [hop]; rfl) (by rw [hop]; rfl) hf, hext, general]
    rw [hsub]
    show fmovem _ _ = _
    unfold fmovem
    dsimp only
    rw [if_pos hdir, hmode, if_neg (by decide), if_pos rfl, hea, (listed_extension list).1]
    rfl
  rw [hrun]
  exact Pushes.of_entered (i := i) (pushes_registers _ (i.entered s) 0 (length_registers list))

theorem run_save_controls (hmodel : s.fpuModel ≠ .none) (hop : i.opcode = 0xf227)
    (hext : i.extension = (0xa000 : UInt16) ||| (UInt16.ofNat subset.val <<< 10))
    (hf : i.Fetched s) :
    Pushes s (i.run arith s) (longs ((controls subset).map (i.entered s).control)) := by
  obtain ⟨⟨hsub, hdir, hsel⟩, -⟩ := control_extension subset
  have hea : (i.entered s).ea = 0x27 := by
    show i.opcode &&& 0x3f = 0x27
    rw [hop]
    rfl
  have hrun : i.run arith s = (i.entered s).writeControls 0x27 (controls subset) := by
    rw [run_general arith hmodel (by rw [hop]; rfl) (by rw [hop]; rfl) hf, hext, general]
    rw [hsub]
    show fmoveFpcr _ _ = _
    unfold fmoveFpcr
    dsimp only
    rw [hsel, hea, if_neg (fun h => h.2.2 rfl)]
    dsimp only
    rw [if_pos hdir]
    rfl
  have hlen := length_controls subset
  rw [hrun]
  exact Pushes.of_entered (i := i) (pushes_controls (controls subset) (i.entered s) (by omega))

/-- The control registers that FMOVEM.L saves: FPIAR is already its own address. -/
def savedControl (s : M68kiCpu) (address : UInt32) : ControlRegister → UInt32
  | .fpcr => s.fpcr
  | .fpsr => s.fpsr
  | .fpiar => address

/-- What is on the stack after the registers have been saved. -/
def savedBytes (s : M68kiCpu) (place : Fin 3 → UInt32) (list : UInt8) (subset : Fin 8) : List UInt8 :=
  longs ((controls subset).map (savedControl s (place 2))) ++
    (floats ((registers list).map s.fp) ++ frameBytes s)

theorem length_frameBytes_le (s : M68kiCpu) : (frameBytes s).length ≤ 28 := by
  unfold frameBytes
  by_cases h40 : s.fpuModel = .m68040
  · rw [if_pos h40, length_longs]
    decide
  · have hlen : [0x70000000, 0, 0, 0, 0, 0, s.fpuIdleFrameHeader].length = 7 := rfl
    rw [if_neg h40, length_longs, hlen]

theorem pushes_save {place : Fin 3 → UInt32} (hmodel : s.fpuModel ≠ .none)
    (hused : s.fpuJustReset = false)
    (hf : Guarded (Instruction.run arith) Instruction.Fetched s (saveInstructions place list subset)) :
    Pushes s (run (Instruction.run arith) s (saveInstructions place list subset))
      (savedBytes s place list subset) := by
  obtain ⟨-, hf₁, hf₂, -⟩ := hf
  have hframe : Pushes s (Instruction.run arith s ⟨place 0, 0xf327, 0⟩) _ :=
    run_fsave arith hmodel hused rfl
  have hregisters := run_save_registers arith (by rw [hframe.model]; exact hmodel) rfl rfl hf₁
  have hmodel₂ := hregisters.model.trans hframe.model
  have hcontrols := run_save_controls arith (by rw [hmodel₂]; exact hmodel) rfl rfl hf₂
  have hlist := length_registers list
  have hsub := length_controls subset
  have hlen := length_frameBytes_le s
  rw [hframe.fp] at hregisters
  have htwo := hframe.trans hregisters (by rw [length_floats, List.length_map]; omega)
  have hthree := htwo.trans hcontrols
    (by rw [length_longs, List.length_append, length_floats, List.length_map, List.length_map]; omega)
  have hvalues : ∀ (i : Instruction) (s₂ : M68kiCpu), s₂.fpcr = s.fpcr → s₂.fpsr = s.fpsr →
      (i.entered s₂).control = savedControl s i.address := by
    intro i s₂ hcr hsr
    funext c
    cases c with
    | fpcr => exact hcr
    | fpsr => exact hsr
    | fpiar => rfl
  rw [hvalues _ _ htwo.fpcr htwo.fpsr] at hthree
  exact hthree

end

/-! ## What is loaded -/

/-- The bytes from the stack pointer on. -/
def Holds (s : M68kiCpu) (bs : List UInt8) : Prop := take s.memory (s.a 7) bs.length = bs

/-- Bytes are taken off the stack. -/
structure Pops (s s' : M68kiCpu) (n : Nat) : Prop where
  a7 : s'.a 7 = s.a 7 + UInt32.ofNat n
  memory : s'.memory = s.memory
  model : s'.fpuModel = s.fpuModel

/-- Long words at rising addresses. -/
def words (values : List UInt32) : List UInt8 := values.flatMap fun value => bytesOf value.toNat 4

theorem length_words (values : List UInt32) : (words values).length = 4 * values.length := by
  have h := length_longs values.reverse
  rw [longs, List.reverse_reverse, List.length_reverse] at h
  exact h

section
variable {s s' s'' : M68kiCpu} {bs cs : List UInt8} {n k : Nat}

theorem Pops.trans (h : Pops s s' n) (h' : Pops s' s'' k) : Pops s s'' (n + k) := by
  refine ⟨?_, h'.memory.trans h.memory, h'.model.trans h.model⟩
  rw [h'.a7, h.a7, UInt32.ofNat_add, UInt32.add_assoc]

theorem Holds.append (h : Holds s (bs ++ cs)) :
    Holds s bs ∧ take s.memory (s.a 7 + UInt32.ofNat bs.length) cs.length = cs := by
  unfold Holds at h
  rw [List.length_append, take_add] at h
  exact List.append_inj h (length_take ..)

theorem Holds.after (h : Holds s (bs ++ cs)) (hp : Pops s s' bs.length) : Holds s' cs := by
  unfold Holds
  rw [hp.memory, hp.a7]
  exact h.append.2

theorem read32_of_take {m : Memory} {a value : UInt32} (h : take m a 4 = bytesOf value.toNat 4) :
    UInt32.ofNat (bigEndian (take m a 4)) = value := by
  have hlt : value.toNat < 256 ^ 4 := value.toNat_lt
  rw [h, bigEndian_bytesOf, Nat.mod_eq_of_lt hlt, UInt32.ofNat_toNat]

theorem read16_of_take {m : Memory} {a : UInt32} {value : UInt16}
    (h : take m a 2 = bytesOf value.toNat 2) : UInt16.ofNat (bigEndian (take m a 2)) = value := by
  have hlt : value.toNat < 256 ^ 2 := value.toNat_lt
  rw [h, bigEndian_bytesOf, Nat.mod_eq_of_lt hlt, UInt16.ofNat_toNat]

theorem long64_halves (value : UInt64) :
    long64 (value >>> 32).toUInt32 value.toUInt32 = value := by
  have hlt := value.toNat_lt
  have hlow : value.toNat % 2 ^ 32 < 2 ^ 32 := Nat.mod_lt _ (by decide)
  have hhigh : value.toNat / 2 ^ 32 % 2 ^ 32 = value.toNat / 2 ^ 32 := by omega
  have hshift : (value.toNat / 2 ^ 32) <<< 32 % 2 ^ 64 = (value.toNat / 2 ^ 32) <<< 32 := by
    rw [Nat.shiftLeft_eq]
    omega
  unfold long64
  rw [← UInt64.toNat_inj, UInt64.toNat_or, UInt64.toNat_shiftLeft, UInt32.toNat_toUInt64,
    UInt32.toNat_toUInt64, UInt64.toNat_toUInt32, UInt64.toNat_toUInt32, UInt64.toNat_shiftRight,
    show (32 : UInt64).toNat % 64 = 32 from rfl, Nat.shiftRight_eq_div_pow, hhigh, hshift,
    ← Nat.shiftLeft_add_eq_or_of_lt hlow, Nat.shiftLeft_eq, Nat.div_add_mod']

theorem loadExtendedFloat80_of_holds {x : Floatx80} (h : Holds s (floatBytes x)) :
    s.loadExtendedFloat80 (s.a 7) = x := by
  obtain ⟨hrest, hlow⟩ := h.append
  obtain ⟨hrest, hhigh⟩ := Holds.append hrest
  obtain ⟨hsign, -⟩ := Holds.append hrest
  have hmantissa : long64 (s.read32 (s.a 7 + 4)) (s.read32 (s.a 7 + 8)) = x.low := by
    rw [List.length_append, List.length_append, length_bytesOf, length_bytesOf, length_bytesOf,
      length_bytesOf] at hlow
    rw [List.length_append, length_bytesOf, length_bytesOf, length_bytesOf] at hhigh
    rw [← long64_halves x.low]
    exact congrArg₂ long64 (read32_of_take hhigh) (read32_of_take hlow)
  unfold Holds at hsign
  rw [length_bytesOf] at hsign
  exact congrArg₂ Floatx80.mk (read16_of_take hsign) hmantissa

theorem pops_long {value : UInt32} (h : Holds s (bytesOf value.toNat 4)) :
    s.readEa32 0x1f = (value, s.setA 7 (s.a 7 + 4)) := by
  unfold Holds at h
  rw [length_bytesOf] at h
  exact congrArg₂ Prod.mk (read32_of_take h) rfl

theorem pops_float {x : Floatx80} (h : Holds s (floatBytes x)) (di : UInt32) :
    s.readEaFpe 0x1f di = (x, s.setA 7 (s.a 7 + 12)) := by
  exact congrArg₂ Prod.mk (loadExtendedFloat80_of_holds h) rfl

/-- Registers that are loaded one after the other. -/
def assign (f : ControlRegister → UInt32) (loads : List (ControlRegister × UInt32)) :
    ControlRegister → UInt32 :=
  loads.foldl (fun f p => Function.update f p.1 p.2) f

theorem control_setControl (s : M68kiCpu) (r : ControlRegister) (value : UInt32) :
    (s.setControl r value).control = Function.update s.control r value := by
  funext c
  cases r <;> cases c <;> rfl

theorem pops_controls (rs : List ControlRegister) : ∀ (s : M68kiCpu) (values : List UInt32),
    values.length = rs.length → Holds s (words values) →
    Pops s (s.readControls 0x1f rs) (4 * rs.length) ∧
      (s.readControls 0x1f rs).control = assign s.control (rs.zip values) := by
  induction rs with
  | nil => exact fun s _ _ _ => ⟨⟨(UInt32.add_zero _).symm, rfl, rfl⟩, rfl⟩
  | cons r rs ih =>
    intro s values hlen h
    cases values with
    | nil => cases hlen
    | cons value values =>
      rw [words, List.flatMap_cons] at h
      have hread := pops_long h.append.1
      have hfirst : Pops s ((s.setA 7 (s.a 7 + 4)).setControl r value)
          (bytesOf value.toNat 4).length := by
        rw [length_bytesOf]
        cases r <;> exact ⟨Function.update_self (7 : Fin 8) _ s.a, rfl, rfl⟩
      obtain ⟨hrest, hcontrol⟩ := ih _ values (Nat.succ.inj hlen) (h.after hfirst)
      have hnext : s.readControls 0x1f (r :: rs)
          = ((s.setA 7 (s.a 7 + 4)).setControl r value).readControls 0x1f rs := by
        rw [readControls, hread]
      rw [hnext]
      refine ⟨?_, ?_⟩
      · have hboth := hfirst.trans hrest
        rw [length_bytesOf] at hboth
        rw [List.length_cons, Nat.mul_succ, Nat.add_comm]
        exact hboth
      · rw [hcontrol, control_setControl]
        rfl

theorem pops_registers (x : Fin 8 → Floatx80) (rs : List (Fin 8)) : ∀ (s : M68kiCpu) (di : UInt32),
    Holds s (rs.flatMap fun r => floatBytes (x r)) →
    Pops s (s.loadRegisters 0x1f di rs) (12 * rs.length) ∧
      (s.loadRegisters 0x1f di rs).control = s.control ∧
      (∀ r ∈ rs, (s.loadRegisters 0x1f di rs).fp r = x r) ∧
      ∀ r ∉ rs, (s.loadRegisters 0x1f di rs).fp r = s.fp r := by
  induction rs with
  | nil =>
    intro s di _
    exact ⟨⟨(UInt32.add_zero _).symm, rfl, rfl⟩, rfl, fun r hr => absurd hr List.not_mem_nil,
      fun _ _ => rfl⟩
  | cons r rs ih =>
    intro s di h
    rw [List.flatMap_cons] at h
    have hread := pops_float h.append.1 di
    have hfirst : Pops s ((s.setA 7 (s.a 7 + 12)).setFp r (x r)) (floatBytes (x r)).length := by
      rw [length_floatBytes]
      exact ⟨Function.update_self (7 : Fin 8) _ s.a, rfl, rfl⟩
    have hnext : s.loadRegisters 0x1f di (r :: rs)
        = ((s.setA 7 (s.a 7 + 12)).setFp r (x r)).loadRegisters 0x1f (nextDiModeEa 0x1f di) rs := by
      rw [loadRegisters, hread]
    obtain ⟨hrest, hcontrol, hin, hout⟩ := ih _ (nextDiModeEa 0x1f di) (h.after hfirst)
    rw [hnext]
    refine ⟨?_, hcontrol, ?_, ?_⟩
    · have hboth := hfirst.trans hrest
      rw [length_floatBytes] at hboth
      rw [List.length_cons, Nat.mul_succ, Nat.add_comm]
      exact hboth
    · intro q hq
      by_cases hqs : q ∈ rs
      · exact hin q hqs
      · obtain rfl : q = r := by
          rcases List.mem_cons.1 hq with rfl | hq
          · rfl
          · exact absurd hq hqs
        rw [hout q hqs]
        exact Function.update_self q (x q) s.fp
    · intro q hq
      rw [List.mem_cons, not_or] at hq
      rw [hout q hq.2]
      exact Function.update_of_ne hq.1 _ _

/-- FRESTORE of an idle frame leaves the registers, except on the 68040, whose frame it takes
    for a NULL frame. -/
theorem pops_frame {u : M68kiCpu} (hea : s.ea = 0x1f) (h : Holds s (frameBytes u)) :
    s.frestore.a 7 = s.a 7 + UInt32.ofNat (frameBytes u).length ∧
      if u.fpuModel = .m68040 then
        s.frestore.fpcr = 0 ∧ s.frestore.fpsr = 0 ∧
          ∀ r, s.frestore.fp r = ⟨0x7fff, 0xffffffffffffffff⟩
      else s.frestore.fpcr = s.fpcr ∧ s.frestore.fpsr = s.fpsr ∧ s.frestore.fp = s.fp := by
  have hrestore : s.frestore
      = if s.read32 (s.a 7) &&& 0xff000000 ≠ 0 then
          { s.setA 7 (s.a 7 + 4) with fpuJustReset := false }.setA 7
            ((s.setA 7 (s.a 7 + 4)).a 7 + frameRest (s.read32 (s.a 7)))
        else (s.setA 7 (s.a 7 + 4)).doFrestoreNull := by
    unfold frestore
    rw [hea]
    rfl
  have ha : (s.setA 7 (s.a 7 + 4)).a 7 = s.a 7 + 4 := Function.update_self (7 : Fin 8) _ s.a
  rw [ha] at hrestore
  unfold frameBytes at h ⊢
  by_cases h40 : u.fpuModel = .m68040
  · rw [if_pos h40] at h ⊢
    rw [if_pos h40]
    have hzero : Holds s (bytesOf (0 : UInt32).toNat 4) := h
    have hheader : s.read32 (s.a 7) = 0 := congrArg Prod.fst (pops_long hzero)
    rw [hheader, if_neg (by decide)] at hrestore
    rw [hrestore]
    exact ⟨ha, rfl, rfl, fun _ => rfl⟩
  · rw [if_neg h40] at h ⊢
    rw [if_neg h40]
    have hlen : [0x70000000, 0, 0, 0, 0, 0, u.fpuIdleFrameHeader].length = 7 := rfl
    have hbytes : longs [0x70000000, 0, 0, 0, 0, 0, u.fpuIdleFrameHeader]
        = bytesOf u.fpuIdleFrameHeader.toNat 4 ++ words [0, 0, 0, 0, 0, 0x70000000] := rfl
    have hidle : u.fpuIdleFrameHeader &&& 0xff000000 ≠ 0 ∧ frameRest u.fpuIdleFrameHeader = 24 := by
      unfold fpuIdleFrameHeader
      cases hu : u.fpuModel with
      | m68040 => exact absurd hu h40
      | none => decide
      | m68881 => decide
      | m68882 => decide
    have hsum : s.a 7 + 4 + 24 = s.a 7 + 28 := UInt32.add_assoc ..
    rw [length_longs, hlen]
    rw [hbytes] at h
    have hheader : s.read32 (s.a 7) = u.fpuIdleFrameHeader := congrArg Prod.fst (pops_long h.append.1)
    rw [hheader, if_pos hidle.1, hidle.2, hsum] at hrestore
    rw [hrestore]
    exact ⟨Function.update_self (7 : Fin 8) _ (s.setA 7 (s.a 7 + 4)).a, rfl, rfl, rfl⟩

end

/-! ## The instructions that restore -/

section
variable (arith : SoftFloat) {s t : M68kiCpu} {i : Instruction} {list : UInt8} {subset : Fin 8}

theorem run_restore_controls (hmodel : s.fpuModel ≠ .none) (hop : i.opcode = 0xf21f)
    (hext : i.extension = (0x8000 : UInt16) ||| (UInt16.ofNat subset.val <<< 10))
    (hf : i.Fetched s) :
    i.run arith s = (i.entered s).readControls 0x1f (controls subset) := by
  obtain ⟨-, hsub, hdir, hsel⟩ := control_extension subset
  have hea : (i.entered s).ea = 0x1f := by
    show i.opcode &&& 0x3f = 0x1f
    rw [hop]
    rfl
  have hmode : eaMode 0x1f = 3 := rfl
  rw [run_general arith hmodel (by rw [hop]; rfl) (by rw [hop]; rfl) hf, hext, general]
  rw [hsub]
  show fmoveFpcr _ _ = _
  unfold fmoveFpcr
  dsimp only
  rw [hsel, hea, if_neg (fun h => h.2.1 hmode)]
  dsimp only
  rw [if_neg (not_not_intro hdir)]
  rfl

theorem run_restore_registers (hmodel : s.fpuModel ≠ .none) (hop : i.opcode = 0xf21f)
    (hext : i.extension = (0xd000 : UInt16) ||| (mirrored list).toUInt16) (hf : i.Fetched s) :
    i.run arith s = (i.entered s).loadRegisters 0x1f 0 (registers list).reverse := by
  obtain ⟨hsub, hdir, hmode⟩ := restore_extension list
  have hea : (i.entered s).ea = 0x1f := by
    show i.opcode &&& 0x3f = 0x1f
    rw [hop]
    rfl
  rw [run_general arith hmodel (by rw [hop]; rfl) (by rw [hop]; rfl) hf, hext, general]
  rw [hsub]
  show fmovem _ _ = _
  unfold fmovem
  dsimp only
  rw [if_neg (not_not_intro hdir), if_pos hmode, hea, (listed_extension list).2]
  rfl

theorem run_frestore (hmodel : s.fpuModel ≠ .none) (hop : i.opcode = 0xf35f) :
    i.run arith s = (i.enteredFrame s).frestore := by
  rw [run_frame arith hmodel (by rw [hop]; decide), if_neg (by rw [hop]; decide),
    if_pos (by rw [hop]; rfl)]

/-- The loads of the control registers: the first one gets the value that was saved last. -/
def loads (s : M68kiCpu) (address : UInt32) (subset : Fin 8) : List (ControlRegister × UInt32) :=
  (controls subset).zip ((controls subset).map (savedControl s address)).reverse

theorem Pops.of_entered {n : Nat} (h : Pops (i.entered s) t n) : Pops s t n :=
  ⟨h.a7, h.memory, h.model⟩

theorem pops_restore_controls {values : List UInt32} (hmodel : s.fpuModel ≠ .none)
    (hop : i.opcode = 0xf21f)
    (hext : i.extension = (0x8000 : UInt16) ||| (UInt16.ofNat subset.val <<< 10)) (hf : i.Fetched s)
    (hlen : values.length = (controls subset).length) (h : Holds s (words values)) :
    Pops s (i.run arith s) (words values).length ∧
      (i.run arith s).control = assign (i.entered s).control ((controls subset).zip values) := by
  obtain ⟨hpop, hcontrol⟩ := pops_controls (controls subset) (i.entered s) values hlen h
  rw [run_restore_controls arith hmodel hop hext hf, length_words, hlen]
  exact ⟨hpop.of_entered, hcontrol⟩

theorem pops_restore_registers {x : Fin 8 → Floatx80} (hmodel : s.fpuModel ≠ .none)
    (hop : i.opcode = 0xf21f) (hext : i.extension = (0xd000 : UInt16) ||| (mirrored list).toUInt16)
    (hf : i.Fetched s) (h : Holds s (floats ((registers list).map x))) :
    Pops s (i.run arith s) (floats ((registers list).map x)).length ∧
      (i.run arith s).fpcr = s.fpcr ∧ (i.run arith s).fpsr = s.fpsr ∧
      ∀ r ∈ registers list, (i.run arith s).fp r = x r := by
  have hbytes : floats ((registers list).map x)
      = (registers list).reverse.flatMap fun r => floatBytes (x r) := by
    rw [floats, ← List.map_reverse, List.flatMap_map]
  have hlen : (floats ((registers list).map x)).length = 12 * (registers list).reverse.length := by
    rw [length_floats, List.length_map, List.length_reverse]
  rw [run_restore_registers arith hmodel hop hext hf, hlen]
  rw [hbytes] at h
  obtain ⟨hpop, hcontrol, hin, -⟩ := pops_registers x (registers list).reverse (i.entered s) 0 h
  refine ⟨hpop.of_entered, congrFun hcontrol .fpcr, congrFun hcontrol .fpsr, fun r hr => ?_⟩
  exact hin r (List.mem_reverse.2 hr)

theorem pops_frestore {u : M68kiCpu} (hmodel : s.fpuModel ≠ .none) (hop : i.opcode = 0xf35f)
    (h : Holds s (frameBytes u)) :
    (i.run arith s).a 7 = s.a 7 + UInt32.ofNat (frameBytes u).length ∧
      if u.fpuModel = .m68040 then
        (i.run arith s).fpcr = 0 ∧ (i.run arith s).fpsr = 0 ∧
          ∀ r, (i.run arith s).fp r = ⟨0x7fff, 0xffffffffffffffff⟩
      else (i.run arith s).fpcr = s.fpcr ∧ (i.run arith s).fpsr = s.fpsr ∧
        (i.run arith s).fp = s.fp := by
  have hea : (i.enteredFrame s).ea = 0x1f := by
    rw [i.ea_enteredFrame, hop]
    rfl
  have hholds : Holds (i.enteredFrame s) (frameBytes u) := h
  rw [run_frestore arith hmodel hop]
  exact pops_frame hea hholds

theorem run_restore {place place' : Fin 3 → UInt32} (hmodel : t.fpuModel ≠ .none)
    (h : Holds t (savedBytes s place list subset))
    (hf : Guarded (Instruction.run arith) Instruction.Fetched t (restoreInstructions place' list subset)) :
    let u := run (Instruction.run arith) t (restoreInstructions place' list subset)
    u.a 7 = t.a 7 + UInt32.ofNat (savedBytes s place list subset).length ∧
      if s.fpuModel = .m68040 then
        u.fpcr = 0 ∧ u.fpsr = 0 ∧ ∀ r, u.fp r = ⟨0x7fff, 0xffffffffffffffff⟩
      else ∃ f, u.fpcr = assign f (loads s (place 2) subset) .fpcr ∧
        u.fpsr = assign f (loads s (place 2) subset) .fpsr ∧ ∀ r ∈ registers list, u.fp r = s.fp r := by
  obtain ⟨hf₀, hf₁, -⟩ := hf
  have hlen : ((controls subset).map (savedControl s (place 2))).reverse.length
      = (controls subset).length := by
    rw [List.length_reverse, List.length_map]
  obtain ⟨hpop₀, hcontrol₀⟩ := pops_restore_controls arith hmodel rfl rfl hf₀ hlen h.append.1
  have hmodel₁ := ne_of_eq_of_ne hpop₀.model hmodel
  have hholds₁ := h.after hpop₀
  obtain ⟨hpop₁, hcr₁, hsr₁, hfp₁⟩ :=
    pops_restore_registers arith hmodel₁ rfl rfl hf₁ hholds₁.append.1
  have hmodel₂ := ne_of_eq_of_ne hpop₁.model hmodel₁
  have hholds₂ := hholds₁.after hpop₁
  obtain ⟨ha, hframe⟩ := pops_frestore arith (i := ⟨place' 2, 0xf35f, 0⟩) hmodel₂ rfl hholds₂
  refine ⟨?_, ?_⟩
  · refine ha.trans ?_
    rw [hpop₁.a7, hpop₀.a7, savedBytes, List.length_append, List.length_append, UInt32.ofNat_add,
      UInt32.ofNat_add, UInt32.add_assoc, UInt32.add_assoc]
    rfl
  · by_cases h40 : s.fpuModel = .m68040
    · rw [if_pos h40] at hframe ⊢
      exact hframe
    · rw [if_neg h40] at hframe ⊢
      obtain ⟨hcr, hsr, hfp⟩ := hframe
      refine ⟨_, hcr.trans (hcr₁.trans (congrFun hcontrol₀ .fpcr)),
        hsr.trans (hsr₁.trans (congrFun hcontrol₀ .fpsr)), fun r hr => ?_⟩
      exact (congrFun hfp r).trans (hfp₁ r hr)

end

/-! ## The switch -/

/-- What the work in between leaves alone, where the registers were saved from `s` to `s'`. -/
structure Untouched (s s' t : M68kiCpu) : Prop where
  a7 : t.a 7 = s'.a 7
  model : t.fpuModel = s'.fpuModel
  saved : ∀ i < (s.a 7 - s'.a 7).toNat,
    t.memory (s'.a 7 + UInt32.ofNat i) = s'.memory (s'.a 7 + UInt32.ofNat i)

structure Restored (s u : M68kiCpu) (list : UInt8) (subset : Fin 8) : Prop where
  a7 : u.a 7 = s.a 7
  fp : ∀ r ∈ registers list, u.fp r = s.fp r
  fpcr : .fpcr ∈ controls subset → u.fpcr = s.fpcr
  fpsr : .fpsr ∈ controls subset → u.fpsr = s.fpsr

/-- When the registers come back: on the 68040 they are reset, elsewhere two or three control
    registers come back in the other order. The FMOVEM.L that saves is at the address. -/
def ContextKept (s : M68kiCpu) (list : UInt8) (subset : Fin 8) (address : UInt32) : Prop :=
  if s.fpuModel = .m68040 then
    (∀ r ∈ registers list, s.fp r = ⟨0x7fff, 0xffffffffffffffff⟩) ∧
      (.fpcr ∈ controls subset → s.fpcr = 0) ∧ (.fpsr ∈ controls subset → s.fpsr = 0)
  else
    match controls subset with
    | [.fpcr, .fpsr] => s.fpcr = s.fpsr
    | [.fpcr, .fpsr, .fpiar] => s.fpcr = address
    | [.fpcr, .fpiar] => s.fpcr = address
    | [.fpsr, .fpiar] => s.fpsr = address
    | _ => True

section
variable {s s' t : M68kiCpu} {bs : List UInt8} {list : UInt8} {subset : Fin 8}

theorem Pushes.holds (h : Pushes s s' bs) (hlen : bs.length < 2 ^ 32) (hwork : Untouched s s' t) :
    Holds t bs := by
  have hsize : (s.a 7 - s'.a 7).toNat = bs.length := by
    have hdiff : s.a 7 - s'.a 7 = UInt32.ofNat bs.length := by
      rw [h.a7, UInt32.sub_eq_iff_eq_add, UInt32.add_comm, sub_add_ofNat]
    rw [hdiff, UInt32.toNat_ofNat', Nat.mod_eq_of_lt hlen]
  have hsame : take t.memory (s'.a 7) bs.length = take s'.memory (s'.a 7) bs.length :=
    take_congr fun i hi => hwork.saved i (by rw [hsize]; exact hi)
  unfold Holds
  rw [hwork.a7, hsame, h.memory]
  exact take_put (Nat.le_of_lt hlen)

/-- The control registers that come back as they were. -/
theorem loads_kept_iff (s : M68kiCpu) (f : ControlRegister → UInt32) (address : UInt32)
    (subset : Fin 8) :
    ((.fpcr ∈ controls subset → assign f (loads s address subset) .fpcr = s.fpcr) ∧
      (.fpsr ∈ controls subset → assign f (loads s address subset) .fpsr = s.fpsr)) ↔
    match controls subset with
    | [.fpcr, .fpsr] => s.fpcr = s.fpsr
    | [.fpcr, .fpsr, .fpiar] => s.fpcr = address
    | [.fpcr, .fpiar] => s.fpcr = address
    | [.fpsr, .fpiar] => s.fpsr = address
    | _ => True := by
  have hall : controls subset ∈ [[], [.fpiar], [.fpsr], [.fpsr, .fpiar], [.fpcr], [.fpcr, .fpiar],
      [.fpcr, .fpsr], [.fpcr, .fpsr, .fpiar]] := by
    revert subset
    decide
  unfold loads
  simp only [List.mem_cons, List.not_mem_nil, or_false] at hall
  rcases hall with h | h | h | h | h | h | h | h <;> rw [h]
  · simp
  · simp
  · simp [assign, savedControl]
  · simp [assign, savedControl, eq_comm]
  · simp [assign, savedControl]
  · simp [assign, savedControl, eq_comm]
  · have hsymm : s.fpcr = s.fpsr → s.fpsr = s.fpcr := Eq.symm
    simpa [assign, savedControl] using hsymm
  · simp [assign, savedControl, eq_comm]

end

theorem restored_iff (arith : SoftFloat) (s t : M68kiCpu) (place place' : Fin 3 → UInt32)
    (list : UInt8) (subset : Fin 8) (hmodel : s.fpuModel ≠ .none) (hused : s.fpuJustReset = false)
    (hsave : Guarded (Instruction.run arith) Instruction.Fetched s
      (saveInstructions place list subset))
    (hwork : Untouched s (run (Instruction.run arith) s (saveInstructions place list subset)) t)
    (hrestore : Guarded (Instruction.run arith) Instruction.Fetched t
      (restoreInstructions place' list subset)) :
    Restored s (run (Instruction.run arith) t (restoreInstructions place' list subset)) list subset ↔
      ContextKept s list subset (place 2) := by
  have hpushed := pushes_save arith hmodel hused hsave
  have hlen : (savedBytes s place list subset).length < 2 ^ 32 := by
    have hframe := length_frameBytes_le s
    have hlist := length_registers list
    have hsub := length_controls subset
    rw [savedBytes, List.length_append, List.length_append, length_longs, length_floats,
      List.length_map, List.length_map]
    omega
  have hmodel' : t.fpuModel ≠ .none := by
    rw [hwork.model, hpushed.model]
    exact hmodel
  obtain ⟨ha, hregs⟩ := run_restore arith hmodel' (hpushed.holds hlen hwork) hrestore
  have hback : t.a 7 + UInt32.ofNat (savedBytes s place list subset).length = s.a 7 := by
    rw [hwork.a7, hpushed.a7, sub_add_ofNat]
  unfold ContextKept
  by_cases h40 : s.fpuModel = .m68040
  · rw [if_pos h40] at hregs ⊢
    obtain ⟨hcr, hsr, hfp⟩ := hregs
    constructor
    · rintro ⟨-, hf, hc, hs⟩
      exact ⟨fun r hr => ((hfp r).symm.trans (hf r hr)).symm, fun hin => (hc hin).symm.trans hcr,
        fun hin => (hs hin).symm.trans hsr⟩
    · rintro ⟨hf, hc, hs⟩
      exact ⟨ha.trans hback, fun r hr => (hfp r).trans (hf r hr).symm,
        fun hin => hcr.trans (hc hin).symm, fun hin => hsr.trans (hs hin).symm⟩
  · rw [if_neg h40] at hregs ⊢
    obtain ⟨f, hcr, hsr, hfp⟩ := hregs
    rw [← loads_kept_iff s f, ← hcr, ← hsr]
    constructor
    · rintro ⟨-, -, hc, hs⟩
      exact ⟨hc, hs⟩
    · rintro ⟨hc, hs⟩
      exact ⟨ha.trans hback, hfp, hc, hs⟩

/-! ## A process -/

/-- The six instructions at `0x1000`, for FP0 and the control registers of the subset. -/
def switchCode (subset : Fin 8) : Memory :=
  let field : UInt16 := UInt16.ofNat subset.val <<< 10
  let code : List UInt16 := [0xf327, 0xf227, 0xe001, 0xf227, (0xa000 : UInt16) ||| field,
    0xf21f, (0x8000 : UInt16) ||| field, 0xf21f, 0xd080, 0xf35f]
  put (fun _ => 0) 0x1000 (code.flatMap fun word => bytesOf word.toNat 2)

def savePlace : Fin 3 → UInt32
  | 0 => 0x1000
  | 1 => 0x1002
  | 2 => 0x1006

def restorePlace : Fin 3 → UInt32
  | 0 => 0x100a
  | 1 => 0x100e
  | 2 => 0x1012

/-- A process that rounds to zero. -/
def process (model : FpuModel) (subset : Fin 8) : M68kiCpu where
  d := fun _ => 0
  a := fun _ => 0x8000
  fp := fun _ => ⟨0x3fff, 0x8000000000000000⟩
  fpcr := 0x10
  fpuModel := model
  fpuJustReset := false
  memory := switchCode subset

theorem restored_process_fpcr :
    Restored (process .m68882 4)
      (run (Instruction.run default)
        (run (Instruction.run default) (process .m68882 4) (saveInstructions savePlace 1 4))
        (restoreInstructions restorePlace 1 4)) 1 4 :=
  (restored_iff default (process .m68882 4) _ savePlace restorePlace 1 4 (by decide) rfl
    (by decide +kernel) ⟨rfl, rfl, fun _ _ => rfl⟩ (by decide +kernel)).2 trivial

/-- A context switch on a model leaves the registers as they were. -/
def SwitchKeeps (model : FpuModel) : Prop :=
  ∀ (arith : SoftFloat) (s t : M68kiCpu) (place place' : Fin 3 → UInt32) (list : UInt8)
    (subset : Fin 8), list ≠ 0 → s.fpuModel = model → s.fpuJustReset = false →
    Guarded (Instruction.run arith) Instruction.Fetched s (saveInstructions place list subset) →
    Untouched s (run (Instruction.run arith) s (saveInstructions place list subset)) t →
    Guarded (Instruction.run arith) Instruction.Fetched t
      (restoreInstructions place' list subset) →
    Restored s (run (Instruction.run arith) t (restoreInstructions place' list subset)) list subset

theorem not_switchKeeps {model : FpuModel} (hmodel : model ∈ [FpuModel.m68881, .m68882, .m68040]) :
    ¬ SwitchKeeps model := by
  have hfacts : ∀ model ∈ [FpuModel.m68881, .m68882, .m68040],
      let saved := run (Instruction.run default) (process model 6) (saveInstructions savePlace 1 6)
      Guarded (Instruction.run default) Instruction.Fetched (process model 6)
          (saveInstructions savePlace 1 6) ∧
        Guarded (Instruction.run default) Instruction.Fetched saved
          (restoreInstructions restorePlace 1 6) ∧
        (run (Instruction.run default) saved (restoreInstructions restorePlace 1 6)).fpcr ≠ 0x10 := by
    decide +kernel
  intro h
  obtain ⟨hsave, hrestore, hlost⟩ := hfacts model hmodel
  have hkept := h default (process model 6) _ savePlace restorePlace 1 6 (by decide) rfl rfl hsave
    ⟨rfl, rfl, fun _ _ => rfl⟩ hrestore
  exact hlost (hkept.fpcr (by decide))

/-- Of the process with FPCR and FPSR saved, no model keeps the registers. -/
theorem not_restored_process :
    ¬ SwitchKeeps .m68881 ∧ ¬ SwitchKeeps .m68882 ∧ ¬ SwitchKeeps .m68040 :=
  ⟨not_switchKeeps (by decide), not_switchKeeps (by decide), not_switchKeeps (by decide)⟩

end CuteMac.Fpu
