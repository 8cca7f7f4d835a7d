/-
  FMOVEM moves one block.

  * `Fmovem`: the instruction with a static list of registers or with control registers;
  * `OneBlock`: the registers are in consecutive slots from one effective address on, and a load
    from the same operand restores what a store has saved;
  * `general_stores`, `general_loads`: where the code does so;
  * `Refused`, `InStep`: the encodings that are refused, and those in which the operands of the
    single registers come to one block in the order of the registers.
-/
import CuteMac.Fpu.Blocks
import CuteMac.Fpu.Refused

namespace CuteMac.Fpu

open ByteMemory Core M68kiCpu

/-! ## The instruction -/

/-- An opcode and its extension word. -/
structure Fmovem where
  ir : UInt16
  w2 : UInt16
  moves : 4 ≤ ((w2 >>> 13) &&& 7).toNat
  /-- the list of floating-point registers is in the extension word -/
  static : 6 ≤ ((w2 >>> 13) &&& 7).toNat → (w2 >>> 11) &&& 3 = 0 ∨ (w2 >>> 11) &&& 3 = 2
  /-- a store has no operand that is relative to the program counter -/
  mode : eaKnown [2, 3, 4, 5, 6] (if (w2 >>> 13) &&& 1 ≠ 0 then [1] else [1, 2, 3]) (ir &&& 0x3f)

namespace Fmovem

def ea (i : Fmovem) : UInt16 := i.ir &&& 0x3f

/-- The registers are moved to memory. -/
def Stores (i : Fmovem) : Prop := (i.w2 >>> 13) &&& 1 ≠ 0

def IsControl (i : Fmovem) : Prop := ((i.w2 >>> 13) &&& 7).toNat < 6

/-- The list is one of the predecrement mode, in which bit 0 is FP0. -/
def PredecrementList (i : Fmovem) : Prop := (i.w2 >>> 11) &&& 3 = 0

instance (i : Fmovem) : Decidable i.Stores := inferInstanceAs (Decidable (_ ≠ _))
instance (i : Fmovem) : Decidable i.IsControl := inferInstanceAs (Decidable (_ < _))
instance (i : Fmovem) : Decidable i.PredecrementList := inferInstanceAs (Decidable (_ = _))

/-- The floating-point registers of the list, FP0 first. -/
def dataRegisters (i : Fmovem) : List (Fin 8) :=
  (List.finRange 8).filter fun r =>
    (i.w2 &&& 0xff).toNat.testBit (if i.PredecrementList then r else r.rev).val

def controlRegisters (i : Fmovem) : List ControlRegister := selectedRegisters ((i.w2 >>> 10) &&& 7)

/-- The registers that are moved, in the order of their slots. -/
def selected (i : Fmovem) : List MovedRegister :=
  if i.IsControl then i.controlRegisters.map .control else i.dataRegisters.map .data

/-- The effective address, with what finding it leaves behind. -/
def operand (i : Fmovem) (s : M68kiCpu) : Option (UInt32 × M68kiCpu) :=
  s.blockAddress (blockSize i.selected) i.ea

variable (arith : SoftFloat)

/-- The registers that a store has saved are restored from the same operand. -/
def Restores (i : Fmovem) (s : M68kiCpu) (address : UInt32) : Prop :=
  ∀ (j : Fmovem) (t : M68kiCpu) (q : UInt32 × M68kiCpu),
    ¬ j.Stores → j.selected = i.selected → j.ea = i.ea → t.ir = j.ir →
    t.memory = (s.general arith i.w2).memory → j.operand t = some q → q.1 = address →
    (t.general arith j.w2).reports = t.reports →
    ∀ r ∈ i.selected, r.Kept s (t.general arith j.w2)

/-- In every state, an instruction that is not refused moves one block. -/
def OneBlock (i : Fmovem) : Prop :=
  ∀ (s : M68kiCpu) (p : UInt32 × M68kiCpu), s.ir = i.ir → i.operand s = some p →
    (s.general arith i.w2).reports = s.reports →
    if i.Stores then
      s.general arith i.w2 = p.2.storeBlock p.1 i.selected ∧ i.Restores arith s p.1
    else s.general arith i.w2 = p.2.loadBlock p.1 i.selected

/-- The encodings that are refused: a list of the predecrement mode for a load, a list to an
    indexed operand, and one control register from an operand indexed by the program counter. -/
def Refused (i : Fmovem) : Prop :=
  if i.IsControl then
    ¬ i.Stores ∧ i.selected.length = 1 ∧ eaMode i.ea = 7 ∧ (eaReg i.ea).val = 3
  else if i.Stores then i.selected ≠ [] ∧ eaMode i.ea = 6
  else i.PredecrementList

instance (i : Fmovem) : Decidable i.Refused := by
  unfold Refused
  infer_instance

/-- Nothing is moved and the operand has no extension words, or they are read all the same; one
    register is moved; or several are, the control registers but downwards, the others only
    downwards by a list of the other modes. -/
def InStep (i : Fmovem) : Prop :=
  (i.selected = [] ∧ (eaMode i.ea ∈ [2, 3, 4] ∨ ¬ i.IsControl ∧ eaMode i.ea = 5)) ∨
    i.selected.length = 1 ∨
      1 < i.selected.length ∧
        if i.IsControl then eaMode i.ea ≠ 4 else eaMode i.ea = 4 ∧ ¬ i.PredecrementList

end Fmovem

/-! ## The lists -/

section
variable (arith : SoftFloat) {i j : Fmovem} {s t : M68kiCpu} {p : UInt32 × M68kiCpu} {ea : UInt16}

namespace Fmovem

/-- The order in which the code goes through the registers. -/
def transferred (i : Fmovem) : List MovedRegister :=
  if i.IsControl ∨ i.PredecrementList then i.selected else i.selected.reverse

theorem listed_eq (h : i.PredecrementList) : listed (i.w2 &&& 0xff) = i.dataRegisters := by
  unfold listed dataRegisters
  simp only [if_pos h]

theorem listedReversed_eq (h : ¬ i.PredecrementList) :
    listedReversed (i.w2 &&& 0xff) = i.dataRegisters.reverse := by
  unfold listedReversed listed dataRegisters
  simp only [if_neg h]
  rw [← List.filter_reverse, List.finRange_reverse, List.filter_map]
  simp only [Function.comp_def, Fin.rev_rev]

theorem nodup_selected (i : Fmovem) : i.selected.Nodup := by
  unfold selected
  by_cases hc : i.IsControl
  · rw [if_pos hc]
    have hall : ∀ reg : UInt16, (selectedRegisters reg).Nodup := by
      intro reg
      unfold selectedRegisters
      split_ifs <;> decide
    exact (hall _).map fun _ _ h => MovedRegister.control.inj h
  · rw [if_neg hc]
    exact ((List.nodup_finRange 8).filter _).map fun _ _ h => MovedRegister.data.inj h

theorem length_selected (i : Fmovem) : i.selected.length ≤ 8 := by
  unfold selected
  by_cases hc : i.IsControl
  · rw [if_pos hc, List.length_map]
    unfold controlRegisters selectedRegisters
    split_ifs <;> decide
  · rw [if_neg hc, List.length_map]
    exact (List.length_filter_le ..).trans (le_of_eq (List.length_finRange ..))

/-- The slots of a block have the same size. -/
def slotSize (i : Fmovem) : Nat := if i.IsControl then 4 else 12

theorem size_selected {r : MovedRegister} (hr : r ∈ i.selected) : r.size = i.slotSize := by
  unfold selected at hr
  unfold slotSize
  by_cases hc : i.IsControl
  · rw [if_pos hc] at hr ⊢
    obtain ⟨c, -, rfl⟩ := List.mem_map.1 hr
    rfl
  · rw [if_neg hc] at hr ⊢
    obtain ⟨f, -, rfl⟩ := List.mem_map.1 hr
    rfl

theorem blockSize_of_size {n : Nat} : ∀ {regs : List MovedRegister}, (∀ r ∈ regs, r.size = n) →
    blockSize regs = n * regs.length
  | [], _ => rfl
  | r :: rs, h => by
    have hrest := blockSize_of_size fun q hq => h q (List.mem_cons_of_mem r hq)
    rw [blockSize_cons, hrest, h r List.mem_cons_self, List.length_cons, Nat.mul_succ, Nat.add_comm]

theorem blockSize_selected (i : Fmovem) : blockSize i.selected ≤ 96 := by
  have hlen := i.length_selected
  have hslot : i.slotSize ≤ 12 := by
    unfold slotSize
    split_ifs <;> decide
  rw [blockSize_of_size fun r hr => size_selected hr]
  exact Nat.mul_le_mul hslot hlen

/-! ## The run of an instruction -/

theorem general_control (hc : i.IsControl) : s.general arith i.w2 = s.fmoveFpcr i.w2 := by
  have hmoves := i.moves
  have hlt : ((i.w2 >>> 13) &&& 7).toNat < 6 := hc
  have hcases : ((i.w2 >>> 13) &&& 7).toNat = 4 ∨ ((i.w2 >>> 13) &&& 7).toNat = 5 := by omega
  unfold general
  rcases hcases with h | h <;> rw [h] <;> rfl

theorem general_data (hc : ¬ i.IsControl) : s.general arith i.w2 = s.fmovem i.w2 := by
  have hge : ¬ ((i.w2 >>> 13) &&& 7).toNat < 6 := hc
  have hmask : ((i.w2 >>> 13) &&& 7).toNat ≤ 7 := by
    rw [UInt16.toNat_and]
    exact Nat.and_le_right
  have hcases : ((i.w2 >>> 13) &&& 7).toNat = 6 ∨ ((i.w2 >>> 13) &&& 7).toNat = 7 := by omega
  unfold general
  rcases hcases with h | h <;> rw [h] <;> rfl

theorem read32_words (s : M68kiCpu) (a : UInt32) :
    s.read32 a = ((s.read16 a).toUInt32 <<< 16) ||| (s.read16 (a + 2)).toUInt32 := by
  unfold M68kiCpu.read32 read16
  rw [long_eq (length_take ..) (length_take ..)]
  exact congrArg (fun bytes => UInt32.ofNat (bigEndian bytes)) (take_add s.memory a 2 2)

theorem readImm32_words (s : M68kiCpu) :
    s.readImm32 = ((s.readImm16.1.toUInt32 <<< 16) ||| s.readImm16.2.readImm16.1.toUInt32,
      s.readImm16.2.readImm16.2) := by
  have hpc : s.pc + 4 = s.pc + 2 + 2 := (UInt32.add_assoc s.pc 2 2).symm
  unfold readImm32
  rw [read32_words, hpc]
  rfl

/-- The address of several control registers is the one that a single operand has. -/
theorem eaControlAddress32_eq (hm : eaMode ea ≠ 3 ∧ eaMode ea ≠ 4)
    (hk : eaKnown [2, 3, 4, 5, 6] [1, 2, 3] ea) (size : Nat) :
    s.eaControlAddress32 ea = s.blockAddress size ea := by
  unfold eaControlAddress32 blockAddress eaAddress
  dsimp only
  rcases hk with hm' | ⟨h7, he⟩
  · simp only [List.mem_cons, List.not_mem_nil, or_false] at hm'
    obtain h2 | h5 | h6 : eaMode ea = 2 ∨ eaMode ea = 5 ∨ eaMode ea = 6 := by omega
    · rw [h2]
      rfl
    · rw [h5]
      rfl
    · rw [h6]
      rfl
  · simp only [List.mem_cons, List.not_mem_nil, or_false] at he
    rw [h7]
    rcases he with h1 | h2 | h3
    · rw [h1, readImm32_words]
      rfl
    · rw [h2]
      rfl
    · rw [h3]
      rfl

theorem known (i : Fmovem) : eaKnown [2, 3, 4, 5, 6] [1, 2, 3] i.ea := by
  rcases i.mode with hm | ⟨hm, he⟩
  · exact Or.inl hm
  · refine Or.inr ⟨hm, ?_⟩
    split_ifs at he
    · exact List.mem_append_left [2, 3] he
    · exact he

theorem known_of_stores (h : i.Stores) : eaKnown [2, 3, 4, 5, 6] [1] i.ea := by
  have hst : (i.w2 >>> 13) &&& 1 ≠ 0 := h
  have hmode := i.mode
  rw [if_pos hst] at hmode
  exact hmode

theorem selected_control (hc : i.IsControl) :
    i.selected = i.controlRegisters.map .control := if_pos hc

theorem selected_data (hc : ¬ i.IsControl) : i.selected = i.dataRegisters.map .data := if_neg hc

theorem control_each (hc : i.IsControl) (hir : s.ir = i.ir)
    (hone : ¬ (1 < i.selected.length ∧ eaMode i.ea ≠ 3 ∧ eaMode i.ea ≠ 4)) :
    s.general arith i.w2 =
      if i.Stores then s.storeEach i.ea 0 i.selected else s.loadEach i.ea 0 i.selected := by
  have hea : s.ea = i.ea := congrArg (· &&& 0x3f) hir
  have hone' : ¬ (1 < (selectedRegisters ((i.w2 >>> 10) &&& 7)).length ∧ eaMode i.ea ≠ 3 ∧
      eaMode i.ea ≠ 4) := by
    rw [selected_control hc, List.length_map] at hone
    exact hone
  rw [general_control arith hc, fmoveFpcr]
  rw [hea, if_neg hone', selected_control hc, ← writeControls_eq, ← readControls_eq]
  rfl

theorem control_block (hc : i.IsControl) (hir : s.ir = i.ir) (hp : i.operand s = some p)
    (hmany : 1 < i.selected.length ∧ eaMode i.ea ≠ 3 ∧ eaMode i.ea ≠ 4) :
    s.general arith i.w2 =
      if i.Stores then p.2.storeBlock p.1 i.selected else p.2.loadBlock p.1 i.selected := by
  have hea : s.ea = i.ea := congrArg (· &&& 0x3f) hir
  have haddress : s.eaControlAddress32 i.ea = some p :=
    (eaControlAddress32_eq hmany.2 i.known _).trans hp
  have hmany' : 1 < (selectedRegisters ((i.w2 >>> 10) &&& 7)).length ∧ eaMode i.ea ≠ 3 ∧
      eaMode i.ea ≠ 4 := by
    rw [selected_control hc, List.length_map] at hmany
    exact hmany
  rw [general_control arith hc, fmoveFpcr]
  rw [hea, if_pos hmany', haddress, selected_control hc, ← storeControls_eq, ← loadControls_eq]
  rfl

theorem data_refused (hc : ¬ i.IsControl) (hst : ¬ i.Stores) (hlist : i.PredecrementList) :
    s.general arith i.w2 = s.fpuReport := by
  have hdir : ¬ (i.w2 >>> 13) &&& 1 ≠ 0 := hst
  have h0 : (i.w2 >>> 11) &&& 3 = 0 := hlist
  have h2 : ¬ (i.w2 >>> 11) &&& 3 = 2 := by
    rw [h0]
    decide
  rw [general_data arith hc, fmovem]
  dsimp only
  rw [if_neg hdir, if_neg h2]

/-- The list of a mode in the order of the transfer. -/
theorem data_each (hc : ¬ i.IsControl) (hir : s.ir = i.ir) (hlist : i.Stores ∨ ¬ i.PredecrementList) :
    s.general arith i.w2 =
      if i.Stores then (s.diModeEa i.ea).2.storeEach i.ea (s.diModeEa i.ea).1 i.transferred
      else (s.diModeEa i.ea).2.loadEach i.ea (s.diModeEa i.ea).1 i.transferred := by
  have hea : s.ea = i.ea := congrArg (· &&& 0x3f) hir
  have hge : ¬ ((i.w2 >>> 13) &&& 7).toNat < 6 := hc
  rw [general_data arith hc, fmovem]
  dsimp only
  rw [hea]
  by_cases hpre : i.PredecrementList
  · have h0 : (i.w2 >>> 11) &&& 3 = 0 := hpre
    have h2 : ¬ (i.w2 >>> 11) &&& 3 = 2 := by
      rw [h0]
      decide
    have hst : (i.w2 >>> 13) &&& 1 ≠ 0 := hlist.resolve_right (not_not_intro hpre)
    have horder : i.transferred = (listed (i.w2 &&& 0xff)).map .data := by
      rw [transferred, if_pos (Or.inr hpre), selected_data hc, listed_eq hpre]
    rw [if_pos hst, if_neg h2, if_pos h0, storeRegisters_eq, horder]
    exact (if_pos hst).symm
  · have h2 : (i.w2 >>> 11) &&& 3 = 2 := (i.static (by omega)).resolve_left hpre
    have horder : i.transferred = (listedReversed (i.w2 &&& 0xff)).map .data := by
      rw [transferred, if_neg (not_or.2 ⟨hc, hpre⟩), selected_data hc, listedReversed_eq hpre,
        List.map_reverse]
    rw [if_pos h2, if_pos h2, storeRegisters_eq, loadRegisters_eq, horder]
    rfl

/-! ## What is refused -/

theorem reports_fpuReport (s : M68kiCpu) : s.fpuReport.reports ≠ s.reports := by
  rw [(fpuReport_kept s).1]
  omega

theorem refused_reports (hr : i.Refused) (hir : s.ir = i.ir) :
    (s.general arith i.w2).reports ≠ s.reports := by
  unfold Refused at hr
  by_cases hc : i.IsControl
  · rw [if_pos hc] at hr
    obtain ⟨hst, hone, h7, h3⟩ := hr
    obtain ⟨r, hr⟩ := List.length_eq_one_iff.1 hone
    rw [control_each arith hc hir (by omega), if_neg hst, hr]
    rw [selected_control hc] at hr
    obtain ⟨c, hcr⟩ : ∃ c, r = .control c := by
      obtain ⟨c, -, rfl⟩ := List.mem_map.1 (hr ▸ List.mem_singleton_self r)
      exact ⟨c, rfl⟩
    have hunknown : ¬ (eaMode i.ea = 0 ∨ (eaMode i.ea = 7 ∧ eaReg i.ea = 4) ∨
        eaKnown [2, 3, 4, 5, 6] [0, 1, 2] i.ea) := by
      rintro (h0 | ⟨-, h4⟩ | hm | ⟨-, he⟩)
      · omega
      · rw [h4] at h3
        exact absurd h3 (by decide)
      · rw [h7] at hm
        exact absurd hm (by decide)
      · rw [h3] at he
        exact absurd he (by decide)
    have hread := (reads_32 s i.ea).reports.2 hunknown
    have hload : s.loadEach i.ea 0 [r] = s.fpuReport.setControl c 0 := by
      show s.loadOne i.ea 0 r = _
      rw [hcr]
      show (s.readEa32 i.ea).2.setControl c (s.readEa32 i.ea).1 = _
      rw [hread]
    have hset : (s.fpuReport.setControl c 0).reports = s.fpuReport.reports := by
      cases c <;> rfl
    rw [hload, hset]
    exact reports_fpuReport s
  · rw [if_neg hc] at hr
    by_cases hst : i.Stores
    · rw [if_pos hst] at hr
      obtain ⟨hne, h6⟩ := hr
      have hdi : s.diModeEa i.ea = (0, s) := if_neg (by omega)
      have hunknown : ¬ (eaMode i.ea = 5 ∨ eaKnown [2, 3, 4] [1] i.ea) := by
        rintro (h5 | hm | ⟨h7, -⟩)
        · omega
        · rw [h6] at hm
          exact absurd hm (by decide)
        · omega
      have hcount : ∀ (t : M68kiCpu) (x : Floatx80) (di : UInt32),
          (t.writeEaFpe i.ea x di).reports = t.reports + 1 := by
        intro t x di
        rw [(writes_fpe t i.ea x di).reports.2 hunknown, (fpuReport_kept t).1]
      obtain ⟨rs, hrs⟩ : ∃ rs : List (Fin 8), i.transferred = rs.map .data := by
        unfold transferred
        rw [selected_data hc, ← List.map_reverse]
        split_ifs
        · exact ⟨_, rfl⟩
        · exact ⟨_, rfl⟩
      have hlen : rs.length = i.selected.length := by
        have hlength := congrArg List.length hrs
        rw [List.length_map] at hlength
        rw [← hlength]
        unfold transferred
        split_ifs
        · rfl
        · exact List.length_reverse
      have hpos := List.length_pos_of_ne_nil hne
      rw [data_each arith hc hir (Or.inl hst), if_pos hst, hdi, hrs, ← storeRegisters_eq,
        reports_storeRegisters hcount]
      dsimp only
      omega
    · rw [if_neg hst] at hr
      rw [data_refused arith hc hst hr]
      exact reports_fpuReport s

/-! ## What is moved in step -/

theorem operand_moving {size : Nat} (hm : eaMode ea ∈ [2, 3, 4])
    (hp : s.blockAddress size ea = some p) (hsize : size = 0) : p.2 = s := by
  subst hsize
  simp only [List.mem_cons, List.not_mem_nil, or_false] at hm
  rcases hm with h2 | h3 | h4
  · rw [blockAddress_indirect h2] at hp
    obtain rfl := Option.some.inj hp
    rfl
  · rw [blockAddress_postincrement h3] at hp
    obtain rfl := Option.some.inj hp
    show s.setA (eaReg ea) (s.a (eaReg ea) + 0) = s
    rw [UInt32.add_zero, setA_self]
  · rw [blockAddress_predecrement h4] at hp
    obtain rfl := Option.some.inj hp
    show s.setA (eaReg ea) (s.a (eaReg ea) - 0) = s
    rw [UInt32.sub_zero, setA_self]

theorem diModeEa_displacement (h5 : eaMode ea = 5) {size : Nat}
    (hp : s.blockAddress size ea = some p) : s.diModeEa ea = p := by
  rw [blockAddress_displacement h5] at hp
  obtain rfl := Option.some.inj hp
  exact if_pos h5

theorem transferred_data (hc : ¬ i.IsControl) : ∃ rs : List (Fin 8), i.transferred = rs.map .data := by
  unfold transferred
  rw [selected_data hc, ← List.map_reverse]
  split_ifs
  · exact ⟨_, rfl⟩
  · exact ⟨_, rfl⟩

theorem transferred_of_length (h : i.selected.length ≤ 1) : i.transferred = i.selected := by
  unfold transferred
  split_ifs
  · rfl
  · match hs : i.selected with
    | [] => rfl
    | [_] => rfl
    | _ :: _ :: _ =>
      rw [hs] at h
      exact absurd h (by simp)

theorem empty_block (hempty : i.selected = [])
    (hmode : eaMode i.ea ∈ [2, 3, 4] ∨ ¬ i.IsControl ∧ eaMode i.ea = 5) (hir : s.ir = i.ir)
    (hlist : i.IsControl ∨ i.Stores ∨ ¬ i.PredecrementList) (hp : i.operand s = some p) :
    s.general arith i.w2 = p.2 := by
  have hsize : blockSize i.selected = 0 := by
    rw [hempty]
    rfl
  have hnone : i.transferred = [] := by
    rw [transferred_of_length (by rw [hempty]; decide), hempty]
  rcases hmode with hm | ⟨hc, h5⟩
  · rw [operand_moving hm hp hsize]
    by_cases hc : i.IsControl
    · rw [control_each arith hc hir (by rw [hempty]; simp), hempty]
      split_ifs <;> rfl
    · have h5 : eaMode i.ea ≠ 5 := by
        intro h5
        rw [h5] at hm
        exact absurd hm (by decide)
      rw [data_each arith hc hir (hlist.resolve_left hc), diModeEa, if_neg h5, hnone]
      split_ifs <;> rfl
  · rw [data_each arith hc hir (hlist.resolve_left hc), diModeEa_displacement h5 hp, hnone]
    split_ifs <;> rfl

theorem single_block {r : MovedRegister} (hone : i.selected = [r]) (hr : ¬ i.Refused)
    (hir : s.ir = i.ir) (hp : i.operand s = some p) :
    s.general arith i.w2 =
      if i.Stores then p.2.storeBlock p.1 [r] else p.2.loadBlock p.1 [r] := by
  have hlen : i.selected.length = 1 := by
    rw [hone]
    rfl
  have hp' : s.blockAddress r.size i.ea = some p := by
    have hsize : blockSize i.selected = r.size := by
      rw [hone]
      rfl
    rw [← hsize]
    exact hp
  unfold Refused at hr
  by_cases hc : i.IsControl
  · rw [if_pos hc] at hr
    obtain ⟨c, rfl⟩ : ∃ c, r = .control c := by
      have hin : r ∈ i.selected := hone ▸ List.mem_singleton_self r
      rw [selected_control hc] at hin
      obtain ⟨c, -, rfl⟩ := List.mem_map.1 hin
      exact ⟨c, rfl⟩
    rw [control_each arith hc hir (by omega), hone]
    by_cases hst : i.Stores
    · have hknown : MovedRegister.StoreKnown i.ea (.control c) := by
        rcases known_of_stores hst with hm | ⟨hm, he⟩
        · exact Or.inl hm
        · exact Or.inr ⟨hm, List.mem_append_left [2] he⟩
      rw [if_pos hst, if_pos hst]
      exact storeOne_block hknown hp' 0
    · have hknown : MovedRegister.LoadKnown i.ea (.control c) := by
        rcases i.known with hm | ⟨hm, he⟩
        · exact Or.inl hm
        · refine Or.inr ⟨hm, ?_⟩
          have h3 : (eaReg i.ea).val ≠ 3 := fun h3 => hr ⟨hst, hlen, hm, h3⟩
          simp only [List.mem_cons, List.not_mem_nil, or_false] at he ⊢
          omega
      rw [if_neg hst, if_neg hst]
      exact loadOne_block hknown hp' 0
  · rw [if_neg hc] at hr
    obtain ⟨f, rfl⟩ : ∃ f, r = .data f := by
      have hin : r ∈ i.selected := hone ▸ List.mem_singleton_self r
      rw [selected_data hc] at hin
      obtain ⟨f, -, rfl⟩ := List.mem_map.1 hin
      exact ⟨f, rfl⟩
    have hlist : i.Stores ∨ ¬ i.PredecrementList := by
      by_cases hst : i.Stores
      · exact Or.inl hst
      · rw [if_neg hst] at hr
        exact Or.inr hr
    rw [data_each arith hc hir hlist, transferred_of_length (le_of_eq hlen), hone]
    by_cases h5 : eaMode i.ea = 5
    · rw [diModeEa_displacement h5 hp]
      split_ifs
      · exact storeEach_displacement h5 [f] p.2 p.1
      · exact loadEach_displacement h5 [f] p.2 p.1
    · rw [diModeEa, if_neg h5]
      by_cases hst : i.Stores
      · rw [if_pos hst] at hr
        have hknown : MovedRegister.StoreKnown i.ea (.data f) := by
          rcases known_of_stores hst with hm | hext
          · refine Or.inl ?_
            have h6 : eaMode i.ea ≠ 6 := fun h6 => hr ⟨by rw [hone]; simp, h6⟩
            simp only [List.mem_cons, List.not_mem_nil, or_false] at hm ⊢
            omega
          · exact Or.inr hext
        rw [if_pos hst, if_pos hst]
        exact storeOne_block hknown hp' 0
      · have hknown : MovedRegister.LoadKnown i.ea (.data f) := by
          rcases i.known with hm | hext
          · refine Or.inl ?_
            simp only [List.mem_cons, List.not_mem_nil, or_false] at hm ⊢
            omega
          · exact Or.inr hext
        rw [if_neg hst, if_neg hst]
        exact loadOne_block hknown hp' 0

/-- An instruction in step moves one block. -/
theorem general_block (hr : ¬ i.Refused) (hstep : i.InStep) (hir : s.ir = i.ir)
    (hp : i.operand s = some p) :
    s.general arith i.w2 =
      if i.Stores then p.2.storeBlock p.1 i.selected else p.2.loadBlock p.1 i.selected := by
  have hlist : i.IsControl ∨ i.Stores ∨ ¬ i.PredecrementList := by
    by_cases hc : i.IsControl
    · exact Or.inl hc
    · by_cases hst : i.Stores
      · exact Or.inr (Or.inl hst)
      · unfold Refused at hr
        rw [if_neg hc, if_neg hst] at hr
        exact Or.inr (Or.inr hr)
  rcases hstep with ⟨hempty, hmode⟩ | hone | ⟨hmany, hmode⟩
  · rw [empty_block arith hempty hmode hir hlist hp, hempty]
    split_ifs <;> rfl
  · obtain ⟨r, hr'⟩ := List.length_eq_one_iff.1 hone
    rw [single_block arith hr' hr hir hp, hr']
  · by_cases hc : i.IsControl
    · rw [if_pos hc] at hmode
      by_cases h3 : eaMode i.ea = 3
      · rw [control_each arith hc hir (by omega), storeEach_postincrement h3 _ s 0 p hp,
          loadEach_postincrement h3 _ s 0 p hp]
      · exact control_block arith hc hir hp ⟨hmany, h3, hmode⟩
    · rw [if_neg hc] at hmode
      obtain ⟨h4, hpre⟩ := hmode
      have hdi : s.diModeEa i.ea = (0, s) := if_neg (by omega)
      have horder : i.transferred = i.selected.reverse := if_neg (not_or.2 ⟨hc, hpre⟩)
      have hp' : s.blockAddress (blockSize i.selected.reverse) i.ea = some p := by
        rw [blockSize_reverse]
        exact hp
      have hsize : blockSize i.selected.reverse ≤ 2 ^ 32 := by
        rw [blockSize_reverse]
        exact i.blockSize_selected.trans (by decide)
      have hnodup := List.nodup_reverse.2 i.nodup_selected
      rw [data_each arith hc hir (hlist.resolve_left hc), hdi, horder,
        storeEach_predecrement h4 _ s 0 p hsize hp', loadEach_predecrement h4 _ s 0 p hnodup hp',
        List.reverse_reverse]

/-! ## What is stored and loaded back -/

/-- The registers tell which kind they are. -/
theorem isControl_congr (hsel : j.selected = i.selected) (hne : i.selected ≠ []) :
    j.IsControl ↔ i.IsControl := by
  obtain ⟨r, hr⟩ := List.exists_mem_of_ne_nil _ hne
  have hkind : ∀ k : Fmovem, r ∈ k.selected → (k.IsControl ↔ ∃ c, r = .control c) := by
    intro k hk
    by_cases hc : k.IsControl
    · rw [selected_control hc] at hk
      obtain ⟨c, -, rfl⟩ := List.mem_map.1 hk
      exact iff_of_true hc ⟨c, rfl⟩
    · rw [selected_data hc] at hk
      obtain ⟨f, -, rfl⟩ := List.mem_map.1 hk
      refine iff_of_false hc ?_
      rintro ⟨c, hfc⟩
      cases hfc
  exact (hkind j (hsel ▸ hr)).trans (hkind i hr).symm

/-- A load from the operand of a store in step is in step. -/
theorem inStep_of_load (hload : ¬ j.Stores) (hsel : j.selected = i.selected) (hea : j.ea = i.ea)
    (hne : i.selected ≠ []) (hr : ¬ j.Refused) (hstep : i.InStep) : j.InStep := by
  have hkind := isControl_congr hsel hne
  rcases hstep with ⟨hempty, -⟩ | hone | ⟨hmany, hmode⟩
  · exact absurd hempty hne
  · exact Or.inr (Or.inl (hsel ▸ hone))
  · refine Or.inr (Or.inr ⟨hsel ▸ hmany, ?_⟩)
    by_cases hc : j.IsControl
    · rw [if_pos (hkind.1 hc)] at hmode
      rw [if_pos hc, hea]
      exact hmode
    · rw [if_neg fun h => hc (hkind.2 h)] at hmode
      unfold Refused at hr
      rw [if_neg hc, if_neg hload] at hr
      rw [if_neg hc, hea]
      exact ⟨hmode.1, hr⟩

theorem memory_operand (hp : i.operand s = some p) : p.2.memory = s.memory := by
  obtain ⟨a, pc, hmoved⟩ := moved_eaAddress hp
  rw [hmoved]

theorem blockBytes_operand (hp : i.operand s = some p) (regs : List MovedRegister) :
    blockBytes p.2 regs = blockBytes s regs := by
  obtain ⟨a, pc, hmoved⟩ := moved_eaAddress hp
  have hbytes : MovedRegister.bytes p.2 = MovedRegister.bytes s := by
    rw [hmoved]
    exact bytes_congr rfl (by funext c; cases c <;> rfl)
  unfold blockBytes
  rw [hbytes]

theorem restores_of_inStep (hr : ¬ i.Refused) (hstep : i.InStep) (hst : i.Stores)
    (hir : s.ir = i.ir) (hp : i.operand s = some p) : i.Restores arith s p.1 := by
  intro j t q hload hsel hea hjr hmemory hq haddress hreports r hin
  have hne : i.selected ≠ [] := List.ne_nil_of_mem hin
  have hjrefused : ¬ j.Refused := fun h => refused_reports arith h hjr hreports
  have hjstep := inStep_of_load hload hsel hea hne hjrefused hstep
  have hstored := general_block arith hr hstep hir hp
  rw [if_pos hst] at hstored
  rw [general_block arith hjrefused hjstep hjr hq, if_neg hload, hsel]
  refine kept_of_holds i.selected q.2 q.1 ?_ r hin
  rw [memory_operand hq, hmemory, hstored, haddress, ← blockBytes_operand hp]
  exact take_storeBlock p.2 p.1 (i.blockSize_selected.trans (by decide))

theorem oneBlock_of_inStep (hr : ¬ i.Refused) (hstep : i.InStep) : i.OneBlock arith := by
  intro s p hir hp _
  have hblock := general_block arith hr hstep hir hp
  by_cases hst : i.Stores
  · rw [if_pos hst] at hblock ⊢
    exact ⟨hblock, restores_of_inStep arith hr hstep hst hir hp⟩
  · rw [if_neg hst] at hblock ⊢
    exact hblock

end Fmovem

end

end CuteMac.Fpu
