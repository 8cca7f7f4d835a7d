/-
  Registers that are moved as a block of memory (`m68kfpu.c`).

  * `MovedRegister`, `storeBlock`, `loadBlock`: the registers of a list side by side;
  * `storeEach`, `loadEach`: each register through its own operand, as FMOVEM moves them;
  * `storeEach_postincrement`, `loadEach_predecrement`, …: the operands that make up a block;
  * `kept_of_holds`: what has been stored as a block is loaded back.
-/
import CuteMac.Fpu.ContextSwitch
import CuteMac.Fpu.LineException

namespace CuteMac.Fpu

open ByteMemory Core M68kiCpu

/-! ## Blocks -/

inductive MovedRegister where
  | data (r : Fin 8)
  | control (r : ControlRegister)
  deriving DecidableEq, Repr

namespace MovedRegister

def size : MovedRegister → Nat
  | data _ => 12
  | control _ => 4

/-- The bytes that a register is stored as. -/
def bytes (s : M68kiCpu) : MovedRegister → List UInt8
  | data r => floatBytes (s.fp r)
  | control r => bytesOf (s.control r).toNat 4

/-- A register is loaded from the memory at an address. -/
def load (s : M68kiCpu) (address : UInt32) : MovedRegister → M68kiCpu
  | data r => s.setFp r (s.loadExtendedFloat80 address)
  | control r => s.setControl r (s.read32 address)

/-- The register is in `t` what it is in `s`. -/
def Kept (s t : M68kiCpu) : MovedRegister → Prop
  | data r => t.fp r = s.fp r
  | control r => t.control r = s.control r

end MovedRegister

def blockSize (regs : List MovedRegister) : Nat := (regs.map MovedRegister.size).sum

def blockBytes (s : M68kiCpu) (regs : List MovedRegister) : List UInt8 :=
  regs.flatMap (MovedRegister.bytes s)

namespace M68kiCpu

/-- The registers in consecutive slots from an address on. -/
def storeBlock (s : M68kiCpu) (address : UInt32) (regs : List MovedRegister) : M68kiCpu :=
  { s with memory := put s.memory address (blockBytes s regs) }

def loadBlock (s : M68kiCpu) (address : UInt32) : List MovedRegister → M68kiCpu
  | [] => s
  | r :: rs => loadBlock (r.load s address) (address + UInt32.ofNat r.size) rs

/-! ## One register after the other -/

def storeOne (s : M68kiCpu) (ea : UInt16) (diModeEa : UInt32) : MovedRegister → M68kiCpu
  | .data r => s.writeEaFpe ea (s.fp r) diModeEa
  | .control r => s.writeEa32 ea (s.control r)

def loadOne (s : M68kiCpu) (ea : UInt16) (diModeEa : UInt32) : MovedRegister → M68kiCpu
  | .data r => (s.readEaFpe ea diModeEa).2.setFp r (s.readEaFpe ea diModeEa).1
  | .control r => (s.readEa32 ea).2.setControl r (s.readEa32 ea).1

def storeEach (s : M68kiCpu) (ea : UInt16) (diModeEa : UInt32) : List MovedRegister → M68kiCpu
  | [] => s
  | r :: rs => storeEach (s.storeOne ea diModeEa r) ea (nextDiModeEa ea diModeEa) rs

def loadEach (s : M68kiCpu) (ea : UInt16) (diModeEa : UInt32) : List MovedRegister → M68kiCpu
  | [] => s
  | r :: rs => loadEach (s.loadOne ea diModeEa r) ea (nextDiModeEa ea diModeEa) rs

end M68kiCpu

section
variable {s t : M68kiCpu} {ea : UInt16} {address di : UInt32} {r q : MovedRegister}
  {regs rs qs : List MovedRegister}

theorem storeRegisters_eq (rs : List (Fin 8)) : ∀ (s : M68kiCpu) (di : UInt32),
    s.storeRegisters ea di rs = s.storeEach ea di (rs.map .data) := by
  induction rs with
  | nil => exact fun _ _ => rfl
  | cons r rs ih => exact fun s di => ih _ _

theorem loadRegisters_eq (rs : List (Fin 8)) : ∀ (s : M68kiCpu) (di : UInt32),
    s.loadRegisters ea di rs = s.loadEach ea di (rs.map .data) := by
  induction rs with
  | nil => exact fun _ _ => rfl
  | cons r rs ih => exact fun s di => ih _ _

/-- The control registers have no use for the address of a `(d16, An)` operand. -/
theorem writeControls_eq (rs : List ControlRegister) : ∀ (s : M68kiCpu) (di : UInt32),
    s.writeControls ea rs = s.storeEach ea di (rs.map .control) := by
  induction rs with
  | nil => exact fun _ _ => rfl
  | cons r rs ih => exact fun s di => ih _ _

theorem readControls_eq (rs : List ControlRegister) : ∀ (s : M68kiCpu) (di : UInt32),
    s.readControls ea rs = s.loadEach ea di (rs.map .control) := by
  induction rs with
  | nil => exact fun _ _ => rfl
  | cons r rs ih => exact fun s di => ih _ _

/-! ## The laws of blocks -/

theorem bytes_congr (hfp : t.fp = s.fp) (hcontrol : t.control = s.control) :
    MovedRegister.bytes t = MovedRegister.bytes s := by
  funext r
  cases r with
  | data r => exact congrArg floatBytes (congrFun hfp r)
  | control r => exact congrArg (fun value : UInt32 => bytesOf value.toNat 4) (congrFun hcontrol r)

theorem length_bytes (s : M68kiCpu) (r : MovedRegister) : (r.bytes s).length = r.size := by
  cases r with
  | data r => exact length_floatBytes _
  | control r => exact length_bytesOf ..

theorem blockSize_cons (r : MovedRegister) (rs : List MovedRegister) :
    blockSize (r :: rs) = r.size + blockSize rs := rfl

theorem blockSize_append (rs qs : List MovedRegister) :
    blockSize (rs ++ qs) = blockSize rs + blockSize qs := by
  rw [blockSize, List.map_append, List.sum_append]
  rfl

theorem blockSize_reverse (rs : List MovedRegister) : blockSize rs.reverse = blockSize rs := by
  rw [blockSize, List.map_reverse, List.sum_reverse]
  rfl

theorem length_blockBytes (s : M68kiCpu) (regs : List MovedRegister) :
    (blockBytes s regs).length = blockSize regs := by
  induction regs with
  | nil => rfl
  | cons r rs ih =>
    rw [blockBytes, List.flatMap_cons, List.length_append, length_bytes, blockSize_cons, ← ih]
    rfl

theorem blockBytes_append (s : M68kiCpu) (rs qs : List MovedRegister) :
    blockBytes s (rs ++ qs) = blockBytes s rs ++ blockBytes s qs := List.flatMap_append

/-- What a block is depends on the floating-point registers alone. -/
theorem storeBlock_congr (s : M68kiCpu) (m : Memory) (a : Fin 8 → UInt32) (pc : UInt32) :
    { s with memory := m, a := a, pc := pc }.storeBlock address regs
      = { s with memory := put m address (blockBytes s regs), a := a, pc := pc } := by
  have hbytes : MovedRegister.bytes { s with memory := m, a := a, pc := pc } = MovedRegister.bytes s :=
    bytes_congr rfl (by funext c; cases c <;> rfl)
  unfold storeBlock blockBytes
  rw [hbytes]

theorem storeBlock_setA (reg : Fin 8) (value : UInt32) :
    (s.setA reg value).storeBlock address regs = (s.storeBlock address regs).setA reg value :=
  storeBlock_congr s s.memory _ s.pc

theorem storeBlock_nil (s : M68kiCpu) (address : UInt32) : s.storeBlock address [] = s := rfl

/-- The rest of a block is right above its first part. -/
theorem storeBlock_append (s : M68kiCpu) (address : UInt32) (rs qs : List MovedRegister) :
    s.storeBlock address (rs ++ qs)
      = (s.storeBlock address rs).storeBlock (address + UInt32.ofNat (blockSize rs)) qs := by
  rw [storeBlock, blockBytes_append, put_append, length_blockBytes]
  exact (storeBlock_congr s (put s.memory address (blockBytes s rs)) s.a s.pc).symm

theorem storeBlock_cons (s : M68kiCpu) (address : UInt32) (r : MovedRegister)
    (rs : List MovedRegister) :
    s.storeBlock address (r :: rs)
      = (s.storeBlock address [r]).storeBlock (address + UInt32.ofNat r.size) rs :=
  storeBlock_append s address [r] rs

/-- A block is also made from its end. -/
theorem storeBlock_append_below (s : M68kiCpu) (address : UInt32) {rs qs : List MovedRegister}
    (hsize : blockSize rs + blockSize qs ≤ 2 ^ 32) :
    (s.storeBlock (address + UInt32.ofNat (blockSize rs)) qs).storeBlock address rs
      = s.storeBlock address (rs ++ qs) := by
  have hlength : (blockBytes s rs).length + (blockBytes s qs).length ≤ 2 ^ 32 := by
    rw [length_blockBytes, length_blockBytes]
    exact hsize
  have hbelow := put_put_below (m := s.memory) (a := address) hlength
  rw [length_blockBytes] at hbelow
  refine (storeBlock_congr s
    (put s.memory (address + UInt32.ofNat (blockSize rs)) (blockBytes s qs)) s.a s.pc).trans ?_
  rw [hbelow, ← blockBytes_append]
  rfl

theorem load_memory (s : M68kiCpu) (address : UInt32) (r : MovedRegister) :
    (r.load s address).memory = s.memory := by
  cases r with
  | data r => rfl
  | control r => cases r <;> rfl

theorem loadBlock_memory (regs : List MovedRegister) : ∀ (s : M68kiCpu) (address : UInt32),
    (s.loadBlock address regs).memory = s.memory := by
  induction regs with
  | nil => exact fun _ _ => rfl
  | cons r rs ih => exact fun s address => (ih _ _).trans (load_memory s address r)

theorem load_setA (reg : Fin 8) (value : UInt32) (r : MovedRegister) :
    r.load (s.setA reg value) address = (r.load s address).setA reg value := by
  cases r with
  | data r => rfl
  | control r => cases r <;> rfl

theorem load_a (s : M68kiCpu) (address : UInt32) (r : MovedRegister) :
    (r.load s address).a = s.a := by
  cases r with
  | data r => rfl
  | control r => cases r <;> rfl

theorem loadBlock_setA (reg : Fin 8) (value : UInt32) (regs : List MovedRegister) :
    ∀ (s : M68kiCpu) (address : UInt32),
      (s.setA reg value).loadBlock address regs = (s.loadBlock address regs).setA reg value := by
  induction regs with
  | nil => exact fun _ _ => rfl
  | cons r rs ih =>
    intro s address
    rw [loadBlock, load_setA, ih]
    rfl

theorem loadBlock_append (rs qs : List MovedRegister) : ∀ (s : M68kiCpu) (address : UInt32),
    s.loadBlock address (rs ++ qs)
      = (s.loadBlock address rs).loadBlock (address + UInt32.ofNat (blockSize rs)) qs := by
  induction rs with
  | nil =>
    intro s address
    show _ = s.loadBlock (address + 0) qs
    rw [UInt32.add_zero]
    rfl
  | cons r rs ih =>
    intro s address
    rw [List.cons_append, loadBlock, ih, blockSize_cons, UInt32.ofNat_add, ← UInt32.add_assoc]
    rfl

/-- Different registers are loaded in any order. -/
theorem load_comm (hne : r ≠ q) (a b : UInt32) :
    r.load (q.load s a) b = q.load (r.load s b) a := by
  cases r with
  | data r =>
    cases q with
    | data q =>
      have hne' : r ≠ q := fun h => hne (congrArg MovedRegister.data h)
      have hcomm : ∀ x y, (s.setFp q x).setFp r y = (s.setFp r y).setFp q x := by
        intro x y
        unfold setFp
        dsimp only
        rw [Function.update_comm hne']
      exact hcomm _ _
    | control q => cases q <;> rfl
  | control r =>
    cases q with
    | data q => cases r <;> rfl
    | control q =>
      cases r <;> cases q
      all_goals first | exact absurd rfl hne | rfl

theorem load_loadBlock (b : UInt32) (regs : List MovedRegister) : ∀ (s : M68kiCpu) (address : UInt32),
    r ∉ regs → r.load (s.loadBlock address regs) b = (r.load s b).loadBlock address regs := by
  induction regs with
  | nil => exact fun _ _ _ => rfl
  | cons q qs ih =>
    intro s address hr
    rw [List.mem_cons, not_or] at hr
    rw [loadBlock, ih _ _ hr.2, load_comm hr.1]
    rfl

/-- What is not loaded stays. -/
theorem kept_of_notMem (regs : List MovedRegister) : ∀ (s : M68kiCpu) (address : UInt32),
    r ∉ regs → r.Kept s (s.loadBlock address regs) := by
  have hone : ∀ (s : M68kiCpu) (address : UInt32) (q : MovedRegister), r ≠ q →
      r.Kept s (q.load s address) := by
    intro s address q hne
    cases r with
    | data r =>
      cases q with
      | data q => exact Function.update_of_ne (fun h => hne (congrArg MovedRegister.data h)) _ _
      | control q => cases q <;> rfl
    | control r =>
      cases q with
      | data q => cases r <;> rfl
      | control q =>
        show (s.setControl q _).control r = s.control r
        rw [control_setControl, Function.update_of_ne fun h => hne (congrArg MovedRegister.control h)]
  have htrans : ∀ s t u : M68kiCpu, r.Kept s t → r.Kept t u → r.Kept s u := by
    intro s t u h h'
    cases r with
    | data r => exact Eq.trans h' h
    | control r => exact Eq.trans h' h
  induction regs with
  | nil =>
    intro s address _
    cases r <;> rfl
  | cons q qs ih =>
    intro s address hr
    rw [List.mem_cons, not_or] at hr
    exact htrans _ _ _ (hone s address q hr.1) (ih _ _ hr.2)

/-! ## Blocks that are loaded back -/

theorem loadExtendedFloat80_of_take {x : Floatx80} (h : take s.memory address 12 = floatBytes x) :
    s.loadExtendedFloat80 address = x := by
  have ha : (s.setA 7 address).a 7 = address := Function.update_self (7 : Fin 8) _ s.a
  have hholds : Holds (s.setA 7 address) (floatBytes x) := by
    unfold Holds
    rw [ha, length_floatBytes]
    exact h
  have hload := loadExtendedFloat80_of_holds hholds
  rw [ha] at hload
  exact hload

theorem kept_load (h : take t.memory address r.size = r.bytes s) : r.Kept s (r.load t address) := by
  cases r with
  | data r =>
    show Function.update t.fp r _ r = _
    rw [Function.update_self]
    exact loadExtendedFloat80_of_take h
  | control r =>
    show (t.setControl r _).control r = _
    rw [control_setControl, Function.update_self]
    exact read32_of_take h

/-- A register that is loaded from the slot of another one gets its bytes. -/
theorem bytes_of_loaded {u v : M68kiCpu} (hsize : r.size = q.size)
    (hslot : take t.memory address q.size = q.bytes v) (hload : r.Kept (r.load t address) u)
    (hkept : r.Kept s u) : r.bytes s = q.bytes v := by
  cases r with
  | data f =>
    cases q with
    | data g =>
      have hvalue : u.fp f = v.fp g := by
        have hself : (t.setFp f (t.loadExtendedFloat80 address)).fp f = t.loadExtendedFloat80 address := by
          unfold setFp
          exact Function.update_self ..
        exact (Eq.trans hload hself).trans (loadExtendedFloat80_of_take hslot)
      exact congrArg floatBytes ((Eq.symm hkept).trans hvalue)
    | control c => exact absurd hsize (by decide : (12 : Nat) ≠ 4)
  | control c =>
    cases q with
    | data g => exact absurd hsize (by decide : (4 : Nat) ≠ 12)
    | control c' =>
      have hvalue : u.control c = v.control c' := by
        have hself : (t.setControl c (t.read32 address)).control c = t.read32 address := by
          rw [control_setControl, Function.update_self]
        exact (Eq.trans hload hself).trans (read32_of_take hslot)
      exact congrArg (fun value : UInt32 => bytesOf value.toNat 4) ((Eq.symm hkept).trans hvalue)

/-- The registers that a block was stored from are loaded from it. -/
theorem kept_of_holds (regs : List MovedRegister) : ∀ (t : M68kiCpu) (address : UInt32),
    take t.memory address (blockSize regs) = blockBytes s regs →
    ∀ r ∈ regs, r.Kept s (t.loadBlock address regs) := by
  have hsame : ∀ (r : MovedRegister) (t u : M68kiCpu), r.Kept s t → r.Kept t u → r.Kept s u := by
    intro r t u h h'
    cases r with
    | data r => exact Eq.trans h' h
    | control r => exact Eq.trans h' h
  induction regs with
  | nil => exact fun _ _ _ r hr => absurd hr List.not_mem_nil
  | cons q qs ih =>
    intro t address h r hr
    rw [blockSize_cons, take_add, blockBytes, List.flatMap_cons] at h
    obtain ⟨hfirst, hrest⟩ := List.append_inj h (by rw [length_take, length_bytes])
    rw [← load_memory t address q] at hrest
    by_cases hqs : r ∈ qs
    · exact ih _ _ hrest r hqs
    · obtain rfl : r = q := by
        rcases List.mem_cons.1 hr with rfl | hr
        · rfl
        · exact absurd hr hqs
      exact hsame r _ _ (kept_load hfirst) (kept_of_notMem qs _ _ hqs)

theorem take_storeBlock (s : M68kiCpu) (address : UInt32) (hsize : blockSize regs ≤ 2 ^ 32) :
    take (s.storeBlock address regs).memory address (blockSize regs) = blockBytes s regs := by
  have hlength : (blockBytes s regs).length ≤ 2 ^ 32 := by
    rw [length_blockBytes]
    exact hsize
  have htake := take_put (m := s.memory) (a := address) hlength
  rw [length_blockBytes] at htake
  exact htake

end

/-! ## The operand of a block -/

/-- The effective address of a block, in the modes of FMOVEM. -/
def M68kiCpu.blockAddress (s : M68kiCpu) (size : Nat) (ea : UInt16) : Option (UInt32 × M68kiCpu) :=
  s.eaAddress (UInt32.ofNat size) [2, 3, 4, 5, 6] [1, 2, 3] ea

namespace MovedRegister

/-- The modes in which one register is stored through its own operand. -/
def StoreKnown (ea : UInt16) : MovedRegister → Prop
  | data _ => eaKnown [2, 3, 4] [1] ea
  | control _ => eaKnown [2, 3, 4, 5, 6] [1, 2] ea

def LoadKnown (ea : UInt16) : MovedRegister → Prop
  | data _ => eaKnown [2, 3, 4, 6] [1, 2, 3] ea
  | control _ => eaKnown [2, 3, 4, 5, 6] [1, 2] ea

end MovedRegister

section
variable {s t : M68kiCpu} {ea : UInt16} {address di : UInt32} {r : MovedRegister}
  {regs rs : List MovedRegister} {p : UInt32 × M68kiCpu} {size : Nat}

/-- The lists of modes only say which operands are known. -/
theorem eaAddress_known {size : UInt32} {modes extended modes' extended' : List Nat} (s : M68kiCpu)
    (h7 : 7 ∉ modes) (h7' : 7 ∉ modes') (h : eaKnown modes extended ea)
    (h' : eaKnown modes' extended' ea) :
    s.eaAddress size modes extended ea = s.eaAddress size modes' extended' ea := by
  unfold eaAddress
  dsimp only
  rcases h with hm | ⟨hm, he⟩
  · have hm' : eaMode ea ∈ modes' := by
      rcases h' with hm' | ⟨h7m, -⟩
      · exact hm'
      · rw [h7m] at hm
        exact absurd hm h7
    rw [if_pos hm, if_pos hm']
  · have he' : (eaReg ea).val ∈ extended' := by
      rcases h' with hm' | ⟨-, he'⟩
      · rw [hm] at hm'
        exact absurd hm' h7'
      · exact he'
    rw [hm, if_neg h7, if_neg h7', if_pos ⟨rfl, he⟩, if_pos ⟨rfl, he'⟩]

/-- An operand moves an address register or the program counter, and nothing else. -/
theorem moved_eaAddress {size : UInt32} {modes extended : List Nat}
    (h : s.eaAddress size modes extended ea = some p) :
    ∃ a pc, p.2 = { s with a := a, pc := pc } := by
  have hadv : ∀ t, Advanced s t → ∃ a pc, t = { s with a := a, pc := pc } := by
    rintro t ⟨pc, rfl⟩
    exact ⟨s.a, pc, rfl⟩
  unfold eaAddress at h
  dsimp only at h
  split at h
  · split at h
    · cases h
      exact ⟨s.a, s.pc, rfl⟩
    · cases h
      exact ⟨_, s.pc, rfl⟩
    · cases h
      exact ⟨_, s.pc, rfl⟩
    · cases h
      exact ⟨s.a, _, rfl⟩
    · cases h
      exact hadv _ (advanced_getEaIx ..)
    · cases h
  · split at h
    · split at h
      · cases h
        exact ⟨s.a, _, rfl⟩
      · cases h
        exact ⟨s.a, _, rfl⟩
      · cases h
        exact ⟨s.a, _, rfl⟩
      · cases h
        exact hadv _ (advanced_getEaIx ..)
      · cases h
    · cases h

theorem blockAddress_indirect (hm : eaMode ea = 2) :
    s.blockAddress size ea = some (s.a (eaReg ea), s) := by
  unfold blockAddress eaAddress
  rw [hm]
  rfl

theorem blockAddress_postincrement (hm : eaMode ea = 3) :
    s.blockAddress size ea
      = some (s.a (eaReg ea), s.setA (eaReg ea) (s.a (eaReg ea) + UInt32.ofNat size)) := by
  unfold blockAddress eaAddress
  rw [hm]
  rfl

theorem blockAddress_predecrement (hm : eaMode ea = 4) :
    s.blockAddress size ea
      = some (s.a (eaReg ea) - UInt32.ofNat size,
          s.setA (eaReg ea) (s.a (eaReg ea) - UInt32.ofNat size)) := by
  unfold blockAddress eaAddress
  rw [hm]
  rfl

theorem blockAddress_displacement (hm : eaMode ea = 5) :
    s.blockAddress size ea = some (s.eaAyDi (eaReg ea)) := by
  unfold blockAddress eaAddress
  rw [hm]
  rfl

/-! ## One register -/

theorem storeOne_block (hk : r.StoreKnown ea) (hp : s.blockAddress r.size ea = some p) (di : UInt32) :
    s.storeOne ea di r = p.2.storeBlock p.1 [r] := by
  obtain ⟨a, pc, hmoved⟩ := moved_eaAddress hp
  have hbytes : blockBytes p.2 [r] = r.bytes s := by
    have hstate : MovedRegister.bytes p.2 = MovedRegister.bytes s := by
      rw [hmoved]
      exact bytes_congr rfl (by funext c; cases c <;> rfl)
    rw [blockBytes, List.flatMap_singleton, hstate]
  have hblock : p.2.storeBlock p.1 [r] = { p.2 with memory := put p.2.memory p.1 (r.bytes s) } := by
    rw [storeBlock, hbytes]
  have hwide : eaKnown [2, 3, 4, 5, 6] [1, 2, 3] ea → ∀ modes extended, 7 ∉ modes →
      eaKnown modes extended ea → s.eaAddress (UInt32.ofNat r.size) modes extended ea = some p :=
    fun hall modes extended h7 hk => (eaAddress_known s h7 (by decide) hk hall).trans hp
  rw [hblock]
  cases r with
  | data r =>
    have hk' : eaKnown [2, 3, 4] [1] ea := hk
    have h5 : eaMode ea ≠ 5 := by
      rintro h5
      rcases hk' with hm | ⟨hm, -⟩
      · rw [h5] at hm
        exact absurd hm (by decide)
      · omega
    have hall : eaKnown [2, 3, 4, 5, 6] [1, 2, 3] ea := by
      rcases hk' with hm | ⟨hm, he⟩
      · exact Or.inl (List.mem_append_left [5, 6] hm)
      · exact Or.inr ⟨hm, List.mem_append_left [2, 3] he⟩
    have hfound : s.eaAddress 12 [2, 3, 4] [1] ea = some p := hwide hall _ _ (by decide) hk'
    show s.writeEaFpe ea (s.fp r) di = _
    unfold writeEaFpe
    rw [if_neg h5, hfound]
    exact storeExtendedFloat80_eq ..
  | control r =>
    have hk' : eaKnown [2, 3, 4, 5, 6] [1, 2] ea := hk
    have hall : eaKnown [2, 3, 4, 5, 6] [1, 2, 3] ea := by
      rcases hk' with hm | ⟨hm, he⟩
      · exact Or.inl hm
      · exact Or.inr ⟨hm, List.mem_append_left [3] he⟩
    have h01 : eaMode ea ≠ 0 ∧ eaMode ea ≠ 1 := by
      rcases hk' with hm | ⟨hm, -⟩
      · simp only [List.mem_cons, List.not_mem_nil, or_false] at hm
        omega
      · omega
    have hfound : s.eaAddress 4 [2, 3, 4, 5, 6] [1, 2] ea = some p := hwide hall _ _ (by decide) hk'
    show s.writeEa32 ea (s.control r) = _
    unfold writeEa32
    rw [if_neg h01.1, if_neg h01.2, hfound]
    rfl

theorem loadOne_block (hk : r.LoadKnown ea) (hp : s.blockAddress r.size ea = some p) (di : UInt32) :
    s.loadOne ea di r = p.2.loadBlock p.1 [r] := by
  have hwide : eaKnown [2, 3, 4, 5, 6] [1, 2, 3] ea → ∀ modes extended, 7 ∉ modes →
      eaKnown modes extended ea → s.eaAddress (UInt32.ofNat r.size) modes extended ea = some p :=
    fun hall modes extended h7 hk => (eaAddress_known s h7 (by decide) hk hall).trans hp
  cases r with
  | data r =>
    have hk' : eaKnown [2, 3, 4, 6] [1, 2, 3] ea := hk
    have hall : eaKnown [2, 3, 4, 5, 6] [1, 2, 3] ea := by
      rcases hk' with hm | hext
      · simp only [List.mem_cons, List.not_mem_nil, or_false] at hm
        refine Or.inl ?_
        simp only [List.mem_cons, List.not_mem_nil, or_false]
        omega
      · exact Or.inr hext
    have h5 : eaMode ea ≠ 5 := by
      rcases hk' with hm | ⟨hm, -⟩
      · simp only [List.mem_cons, List.not_mem_nil, or_false] at hm
        omega
      · omega
    have himm : ¬ (eaMode ea = 7 ∧ eaReg ea = 4) := by
      rintro ⟨h7, h4⟩
      rcases hk' with hm | ⟨-, he⟩
      · rw [h7] at hm
        exact absurd hm (by decide)
      · rw [h4] at he
        exact absurd he (by decide)
    have hfound : s.eaAddress 12 [2, 3, 4, 6] [1, 2, 3] ea = some p := hwide hall _ _ (by decide) hk'
    have hread : s.readEaFpe ea di = (p.2.loadExtendedFloat80 p.1, p.2) := by
      unfold readEaFpe
      rw [if_neg h5, if_neg himm, hfound]
    show (s.readEaFpe ea di).2.setFp r (s.readEaFpe ea di).1 = _
    rw [hread]
    rfl
  | control r =>
    have hk' : eaKnown [2, 3, 4, 5, 6] [1, 2] ea := hk
    have hall : eaKnown [2, 3, 4, 5, 6] [1, 2, 3] ea := by
      rcases hk' with hm | ⟨hm, he⟩
      · exact Or.inl hm
      · exact Or.inr ⟨hm, List.mem_append_left [3] he⟩
    have h0 : eaMode ea ≠ 0 := by
      rcases hk' with hm | ⟨hm, -⟩
      · simp only [List.mem_cons, List.not_mem_nil, or_false] at hm
        omega
      · omega
    have himm : ¬ (eaMode ea = 7 ∧ eaReg ea = 4) := by
      rintro ⟨h7, h4⟩
      rcases hk' with hm | ⟨-, he⟩
      · rw [h7] at hm
        exact absurd hm (by decide)
      · rw [h4] at he
        exact absurd he (by decide)
    have hknown : eaKnown [2, 3, 4, 5, 6] [0, 1, 2] ea := by
      rcases hk' with hm | ⟨hm, he⟩
      · exact Or.inl hm
      · exact Or.inr ⟨hm, List.mem_cons_of_mem 0 he⟩
    have hfound : s.eaAddress 4 [2, 3, 4, 5, 6] [0, 1, 2] ea = some p := hwide hall _ _ (by decide) hknown
    have hread : s.readEa32 ea = (p.2.read32 p.1, p.2) := by
      unfold readEa32
      rw [if_neg h0, if_neg himm, hfound]
    show (s.readEa32 ea).2.setControl r (s.readEa32 ea).1 = _
    rw [hread]
    rfl

/-! ## The modes that advance -/

theorem setA_self (s : M68kiCpu) (reg : Fin 8) : s.setA reg (s.a reg) = s := by
  unfold setA
  rw [Function.update_eq_self]

theorem setA_setA (s : M68kiCpu) (reg : Fin 8) (x y : UInt32) :
    (s.setA reg x).setA reg y = s.setA reg y := by
  unfold setA
  dsimp only
  rw [Function.update_idem]

theorem a_setA (s : M68kiCpu) (reg : Fin 8) (x : UInt32) : (s.setA reg x).a reg = x :=
  Function.update_self ..

theorem storeKnown_of_moving (hm : eaMode ea ∈ [2, 3, 4]) (r : MovedRegister) : r.StoreKnown ea := by
  cases r with
  | data r => exact Or.inl hm
  | control r => exact Or.inl (List.mem_append_left [5, 6] hm)

theorem loadKnown_of_moving (hm : eaMode ea ∈ [2, 3, 4]) (r : MovedRegister) : r.LoadKnown ea := by
  cases r with
  | data r => exact Or.inl (List.mem_append_left [6] hm)
  | control r => exact Or.inl (List.mem_append_left [5, 6] hm)

theorem storeEach_postincrement (hm : eaMode ea = 3) (regs : List MovedRegister) :
    ∀ (s : M68kiCpu) (di : UInt32) (p : UInt32 × M68kiCpu),
      s.blockAddress (blockSize regs) ea = some p →
      s.storeEach ea di regs = p.2.storeBlock p.1 regs := by
  induction regs with
  | nil =>
    intro s di p hp
    rw [blockAddress_postincrement hm] at hp
    obtain rfl := Option.some.inj hp
    show s = s.setA (eaReg ea) (s.a (eaReg ea) + 0)
    rw [UInt32.add_zero, setA_self]
  | cons r rs ih =>
    intro s di p hp
    rw [blockAddress_postincrement hm] at hp
    obtain rfl := Option.some.inj hp
    have hfirst := storeOne_block (storeKnown_of_moving (by rw [hm]; decide) r)
      (blockAddress_postincrement (s := s) hm) di
    rw [storeBlock_setA] at hfirst
    rw [storeEach, hfirst, ih _ _ _ (blockAddress_postincrement hm), a_setA]
    dsimp only
    rw [setA_setA, storeBlock_setA, storeBlock_setA, storeBlock_cons s _ r rs, blockSize_cons,
      UInt32.ofNat_add, UInt32.add_assoc]

/-- Each register is put below the one before. -/
theorem storeEach_predecrement (hm : eaMode ea = 4) (regs : List MovedRegister) :
    ∀ (s : M68kiCpu) (di : UInt32) (p : UInt32 × M68kiCpu), blockSize regs ≤ 2 ^ 32 →
      s.blockAddress (blockSize regs) ea = some p →
      s.storeEach ea di regs = p.2.storeBlock p.1 regs.reverse := by
  induction regs with
  | nil =>
    intro s di p _ hp
    rw [blockAddress_predecrement hm] at hp
    obtain rfl := Option.some.inj hp
    show s = s.setA (eaReg ea) (s.a (eaReg ea) - 0)
    rw [UInt32.sub_zero, setA_self]
  | cons r rs ih =>
    intro s di p hsize hp
    rw [blockSize_cons] at hsize
    rw [blockAddress_predecrement hm] at hp
    obtain rfl := Option.some.inj hp
    have hfirst := storeOne_block (storeKnown_of_moving (by rw [hm]; decide) r)
      (blockAddress_predecrement (s := s) hm) di
    rw [storeBlock_setA] at hfirst
    have hbottom : s.a (eaReg ea) - UInt32.ofNat r.size - UInt32.ofNat (blockSize rs)
        = s.a (eaReg ea) - UInt32.ofNat (blockSize (r :: rs)) := by
      rw [sub_sub_ofNat, blockSize_cons, Nat.add_comm]
    have habove : s.a (eaReg ea) - UInt32.ofNat r.size
        = s.a (eaReg ea) - UInt32.ofNat (blockSize (r :: rs)) + UInt32.ofNat (blockSize rs.reverse) := by
      rw [blockSize_reverse, ← hbottom, sub_add_ofNat]
    have hbelow : blockSize rs.reverse + blockSize [r] ≤ 2 ^ 32 := by
      rw [blockSize_reverse, Nat.add_comm]
      exact hsize
    rw [storeEach, hfirst, ih _ _ _ (by omega) (blockAddress_predecrement hm), a_setA]
    dsimp only
    rw [setA_setA, storeBlock_setA, storeBlock_setA, hbottom, habove, storeBlock_append_below _ _ hbelow,
      List.reverse_cons]

theorem loadEach_postincrement (hm : eaMode ea = 3) (regs : List MovedRegister) :
    ∀ (s : M68kiCpu) (di : UInt32) (p : UInt32 × M68kiCpu),
      s.blockAddress (blockSize regs) ea = some p →
      s.loadEach ea di regs = p.2.loadBlock p.1 regs := by
  induction regs with
  | nil =>
    intro s di p hp
    rw [blockAddress_postincrement hm] at hp
    obtain rfl := Option.some.inj hp
    show s = s.setA (eaReg ea) (s.a (eaReg ea) + 0)
    rw [UInt32.add_zero, setA_self]
  | cons r rs ih =>
    intro s di p hp
    rw [blockAddress_postincrement hm] at hp
    obtain rfl := Option.some.inj hp
    have hfirst := loadOne_block (loadKnown_of_moving (by rw [hm]; decide) r)
      (blockAddress_postincrement (s := s) hm) di
    rw [loadBlock_setA] at hfirst
    rw [loadEach, hfirst, ih _ _ _ (blockAddress_postincrement hm), a_setA]
    dsimp only
    rw [setA_setA, loadBlock_setA, loadBlock_setA, blockSize_cons, UInt32.ofNat_add, UInt32.add_assoc]
    rfl

theorem loadEach_predecrement (hm : eaMode ea = 4) (regs : List MovedRegister) :
    ∀ (s : M68kiCpu) (di : UInt32) (p : UInt32 × M68kiCpu), regs.Nodup →
      s.blockAddress (blockSize regs) ea = some p →
      s.loadEach ea di regs = p.2.loadBlock p.1 regs.reverse := by
  induction regs with
  | nil =>
    intro s di p _ hp
    rw [blockAddress_predecrement hm] at hp
    obtain rfl := Option.some.inj hp
    show s = s.setA (eaReg ea) (s.a (eaReg ea) - 0)
    rw [UInt32.sub_zero, setA_self]
  | cons r rs ih =>
    intro s di p hnodup hp
    obtain ⟨hr, hnodup'⟩ := List.nodup_cons.1 hnodup
    rw [blockAddress_predecrement hm] at hp
    obtain rfl := Option.some.inj hp
    have hfirst := loadOne_block (loadKnown_of_moving (by rw [hm]; decide) r)
      (blockAddress_predecrement (s := s) hm) di
    rw [loadBlock_setA] at hfirst
    have hbottom : s.a (eaReg ea) - UInt32.ofNat r.size - UInt32.ofNat (blockSize rs)
        = s.a (eaReg ea) - UInt32.ofNat (blockSize (r :: rs)) := by
      rw [sub_sub_ofNat, blockSize_cons, Nat.add_comm]
    have habove : s.a (eaReg ea) - UInt32.ofNat (blockSize (r :: rs)) + UInt32.ofNat (blockSize rs.reverse)
        = s.a (eaReg ea) - UInt32.ofNat r.size := by
      rw [blockSize_reverse, ← hbottom, sub_add_ofNat]
    have hlast : r ∉ rs.reverse := fun h => hr (List.mem_reverse.1 h)
    rw [loadEach, hfirst, ih _ _ _ hnodup' (blockAddress_predecrement hm), a_setA]
    dsimp only
    rw [setA_setA, loadBlock_setA, loadBlock_setA, hbottom, List.reverse_cons, loadBlock_append,
      habove]
    exact congrArg (fun t => setA t _ _) (load_loadBlock _ _ _ _ hlast).symm

/-! ## The addresses that are known before -/

/-- The address of a `(d16, An)` operand goes on from register to register. -/
theorem storeEach_displacement (hm : eaMode ea = 5) (rs : List (Fin 8)) :
    ∀ (s : M68kiCpu) (di : UInt32),
      s.storeEach ea di (rs.map .data) = s.storeBlock di (rs.map .data) := by
  induction rs with
  | nil => exact fun _ _ => rfl
  | cons r rs ih =>
    intro s di
    have hnext : nextDiModeEa ea di = di + 12 := if_pos hm
    have hfirst : s.storeOne ea di (.data r) = s.storeBlock di [.data r] := by
      have hwrite : s.storeOne ea di (.data r) = s.storeExtendedFloat80 di (s.fp r) := if_pos hm
      rw [hwrite, storeExtendedFloat80_eq, storeBlock, blockBytes, List.flatMap_singleton]
      rfl
    rw [List.map_cons, storeEach, hnext, ih, hfirst]
    exact (storeBlock_cons s di (.data r) (rs.map .data)).symm

theorem loadEach_displacement (hm : eaMode ea = 5) (rs : List (Fin 8)) :
    ∀ (s : M68kiCpu) (di : UInt32),
      s.loadEach ea di (rs.map .data) = s.loadBlock di (rs.map .data) := by
  induction rs with
  | nil => exact fun _ _ => rfl
  | cons r rs ih =>
    intro s di
    have hnext : nextDiModeEa ea di = di + 12 := if_pos hm
    have hread : s.readEaFpe ea di = (s.loadExtendedFloat80 di, s) := if_pos hm
    have hfirst : s.loadOne ea di (.data r) = MovedRegister.load s di (.data r) := by
      show (s.readEaFpe ea di).2.setFp r (s.readEaFpe ea di).1 = _
      rw [hread]
      rfl
    rw [List.map_cons, loadEach, hnext, ih, hfirst]
    rfl

theorem storeControls_eq (rs : List ControlRegister) : ∀ (s : M68kiCpu) (address : UInt32),
    s.storeControls address rs = s.storeBlock address (rs.map .control) := by
  induction rs with
  | nil => exact fun _ _ => rfl
  | cons r rs ih =>
    intro s address
    have hfirst : s.write32 address (s.control r) = s.storeBlock address [.control r] := by
      rw [storeBlock, blockBytes, List.flatMap_singleton]
      rfl
    rw [storeControls, ih, hfirst, List.map_cons]
    exact (storeBlock_cons s address (.control r) (rs.map .control)).symm

theorem loadControls_eq (rs : List ControlRegister) : ∀ (s : M68kiCpu) (address : UInt32),
    s.loadControls address rs = s.loadBlock address (rs.map .control) := by
  induction rs with
  | nil => exact fun _ _ => rfl
  | cons r rs ih => exact fun s address => ih _ _

end

end CuteMac.Fpu
