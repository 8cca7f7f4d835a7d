/-
  The status register and the three stack pointers.

  * `Status`: what the flags mean, and the word for it;
  * `Wf`: the flags that only take some values;
  * `getSr_eq`, `status_setSrNoint`: the register is the word of the status;
  * `pointer`: a stack pointer by its name, wherever it is;
  * `run_pointers`: over a run, the three are registers of their own.
-/
import CuteMac.M68k.M68kCpu
import CuteMac.Lib.WordBits
import CuteMac.Lib.Machine

namespace CuteMac.M68k

open ByteMemory Core WordBits

/-! ## What the flags mean -/

/-- The status of a processor: tracing, the mode, the level of the interrupts that wait, and the
    condition codes. -/
structure Status where
  t1 : Bool
  t0 : Bool
  s : Bool
  m : Bool
  level : Fin 8
  x : Bool
  n : Bool
  z : Bool
  v : Bool
  c : Bool
  deriving DecidableEq, Repr

namespace Status

def system (st : Status) : UInt32 :=
  bit st.t1 15 ||| bit st.t0 14 ||| bit st.s 13 ||| bit st.m 12 ||| UInt32.ofNat (st.level * 256)

def ccr (st : Status) : UInt32 := bit st.x 4 ||| bit st.n 3 ||| bit st.z 2 ||| bit st.v 1 ||| bit st.c 0

/-- The word of the status register. -/
def word (st : Status) : UInt32 := st.system ||| st.ccr

def ofWord (value : UInt32) : Status where
  t1 := value.toNat.testBit 15
  t0 := value.toNat.testBit 14
  s := value.toNat.testBit 13
  m := value.toNat.testBit 12
  level := Fin.ofNat 8 (value.toNat / 256)
  x := value.toNat.testBit 4
  n := value.toNat.testBit 3
  z := value.toNat.testBit 2
  v := value.toNat.testBit 1
  c := value.toNat.testBit 0

theorem ofWord_system : ∀ (t1 t0 s m : Bool) (level : Fin 8),
    ofWord (system ⟨t1, t0, s, m, level, false, false, false, false, false⟩)
      = ⟨t1, t0, s, m, level, false, false, false, false, false⟩ := by decide

theorem ofWord_ccr : ∀ x n z v c : Bool,
    ofWord (ccr ⟨false, false, false, false, 0, x, n, z, v, c⟩)
      = ⟨false, false, false, false, 0, x, n, z, v, c⟩ := by decide

theorem ccr_lt : ∀ x n z v c : Bool,
    (ccr ⟨false, false, false, false, 0, x, n, z, v, c⟩).toNat < 32 := by decide

/-- The word says all of the status. -/
theorem ofWord_word (st : Status) : ofWord st.word = st := by
  obtain ⟨t1, t0, s, m, level, x, n, z, v, c⟩ := st
  have hsys := ofWord_system t1 t0 s m level
  have hccr := ofWord_ccr x n z v c
  have hlt := ccr_lt x n z v c
  have hword : word ⟨t1, t0, s, m, level, x, n, z, v, c⟩
      = system ⟨t1, t0, s, m, level, false, false, false, false, false⟩
        ||| ccr ⟨false, false, false, false, 0, x, n, z, v, c⟩ := rfl
  have hdiv : (ccr ⟨false, false, false, false, 0, x, n, z, v, c⟩).toNat / 2 ^ 8 = 0 :=
    Nat.div_eq_of_lt (by omega)
  rw [hword]
  simp only [ofWord, mk.injEq, show (256 : Nat) = 2 ^ 8 from rfl] at hsys hccr ⊢
  simp only [UInt32.toNat_or, Nat.testBit_or, Nat.or_div_two_pow, hdiv, hsys, hccr, Bool.false_or,
    Bool.or_false, Nat.or_zero, and_self]

theorem system_lt : ∀ (t1 t0 s m : Bool) (level : Fin 8),
    (system ⟨t1, t0, s, m, level, false, false, false, false, false⟩).toNat < 65536 := by decide

theorem word_lt (st : Status) : st.word.toNat < 65536 := by
  have hsys : st.system.toNat < 2 ^ 16 := system_lt st.t1 st.t0 st.s st.m st.level
  have hccr : st.ccr.toNat < 32 := ccr_lt st.x st.n st.z st.v st.c
  rw [word, UInt32.toNat_or]
  exact Nat.or_lt_two_pow hsys (by omega)

theorem system_and_mask : ∀ (t1 t0 s m : Bool) (level : Fin 8),
    system ⟨t1, t0, s, m, level, false, false, false, false, false⟩ &&& 0xf71f
        = system ⟨t1, t0, s, m, level, false, false, false, false, false⟩ ∧
      system ⟨t1, false, s, false, level, false, false, false, false, false⟩ &&& 0xa71f
        = system ⟨t1, false, s, false, level, false, false, false, false, false⟩ := by decide

theorem ccr_and_mask : ∀ x n z v c : Bool,
    ccr ⟨false, false, false, false, 0, x, n, z, v, c⟩ &&& 0x1f
      = ccr ⟨false, false, false, false, 0, x, n, z, v, c⟩ := by decide

theorem or_and {a b mask : UInt32} (ha : a &&& mask = a) (hb : b &&& mask = b) :
    (a ||| b) &&& mask = a ||| b := by
  rw [← UInt32.toNat_inj] at ha hb ⊢
  rw [UInt32.toNat_and] at ha hb
  rw [UInt32.toNat_and, UInt32.toNat_or, Nat.and_or_distrib_right, ha, hb]

/-- A status word only has implemented bits. -/
theorem word_and_mask (st : Status) {mask : UInt32}
    (h : mask = 0xf71f ∨ mask = 0xa71f ∧ st.t0 = false ∧ st.m = false) :
    st.word &&& mask = st.word := by
  have hccr : ∀ mask : UInt32, 0x1f &&& mask = 0x1f → st.ccr &&& mask = st.ccr := by
    intro mask hm
    have hown : st.ccr &&& 0x1f = st.ccr := ccr_and_mask st.x st.n st.z st.v st.c
    rw [WordBits.and_absorb hown, hm, hown]
  obtain ⟨t1, t0, sf, m, level, x, n, z, v, c⟩ := st
  rcases h with rfl | ⟨rfl, ht0, hm⟩
  · exact or_and (system_and_mask t1 t0 sf m level).1 (hccr _ rfl)
  · cases ht0
    cases hm
    exact or_and (system_and_mask t1 false sf false level).2 (hccr _ rfl)

def supervisor (st : Status) : Status := { st with s := true }

/-- The supervisor's bit is set in the word. -/
theorem word_or_supervisor (st : Status) : st.word ||| 0x2000 = st.supervisor.word := by
  have hbit : bit st.s 13 ||| 0x2000 = bit true 13 := by cases st.s <;> rfl
  have hsys : st.supervisor.system
      = bit st.t1 15 ||| bit st.t0 14 ||| (bit st.s 13 ||| 0x2000) ||| bit st.m 12
        ||| UInt32.ofNat (st.level * 256) := by
    rw [hbit]
    rfl
  rw [word, word, hsys, system, show st.supervisor.ccr = st.ccr from rfl]
  ac_rfl

end Status

namespace M68kiCpu

def status (s : M68kiCpu) : Status where
  t1 := s.t1Flag != 0
  t0 := s.t0Flag != 0
  s := s.sFlag != 0
  m := s.mFlag != 0
  level := Fin.ofNat 8 (s.intMask.toNat / 256)
  x := s.xFlag.toNat.testBit 8
  n := s.nFlag.toNat.testBit 7
  z := s.notZFlag == 0
  v := s.vFlag.toNat.testBit 7
  c := s.cFlag.toNat.testBit 8

/-- The flags of the system part only take their own bit, and none that is not implemented. -/
structure Wf (s : M68kiCpu) : Prop where
  t1Flag : ∃ b, s.t1Flag = bit b 15
  t0Flag : ∃ b, s.t0Flag = bit b 14
  sFlag : ∃ b, s.sFlag = bit b 2
  mFlag : ∃ b, s.mFlag = bit b 1
  intMask : ∃ level : Fin 8, s.intMask = UInt32.ofNat (level * 256)
  srMask : s.srMask = 0xf71f ∨ s.srMask = 0xa71f ∧ s.t0Flag = 0 ∧ s.mFlag = 0

section
variable {s : M68kiCpu}

/-- The flags and the mask that the condition is about. -/
def systemFlags (s : M68kiCpu) : List UInt32 :=
  [s.t1Flag, s.t0Flag, s.sFlag, s.mFlag, s.intMask, s.srMask]

theorem Wf.of_flags {s' : M68kiCpu} (h : s.Wf) (hf : s'.systemFlags = s.systemFlags) : s'.Wf := by
  simp only [systemFlags, List.cons.injEq, and_true] at hf
  obtain ⟨h1, h0, hs, hm, hi, hmask⟩ := hf
  refine ⟨?_, ?_, ?_, ?_, ?_, ?_⟩
  · rw [h1]
    exact h.t1Flag
  · rw [h0]
    exact h.t0Flag
  · rw [hs]
    exact h.sFlag
  · rw [hm]
    exact h.mFlag
  · rw [hi]
    exact h.intMask
  · rw [hmask, h0, hm]
    exact h.srMask

/-! ## The word -/

theorem getCcr_eq (s : M68kiCpu) : s.getCcr = s.status.ccr := by
  have hx : s.condXs >>> 4 = bit s.status.x 4 := and_bit_shiftRight (i := 8) (by decide) (by decide) _
  have hn : s.condMi >>> 4 = bit s.status.n 3 := and_bit_shiftRight (i := 7) (by decide) (by decide) _
  have hv : s.condVs >>> 6 = bit s.status.v 1 := and_bit_shiftRight (i := 7) (by decide) (by decide) _
  have hc : s.condCs >>> 8 = bit s.status.c 0 := and_bit_shiftRight (i := 8) (by decide) (by decide) _
  have hz : s.condEq <<< 2 = bit s.status.z 2 := by
    unfold condEq status
    by_cases h : s.notZFlag = 0
    · rw [if_pos h, h]
      rfl
    · rw [if_neg h, beq_eq_false_iff_ne.2 h]
      rfl
  rw [getCcr, hx, hn, hz, hv, hc, Status.ccr]

theorem level_of_mask :
    ∀ level : Fin 8, Fin.ofNat 8 ((UInt32.ofNat (level * 256)).toNat / 256) = level := by decide

/-- The status register holds the status. -/
theorem getSr_eq (h : s.Wf) : s.getSr = s.status.word := by
  obtain ⟨t1, ht1⟩ := h.t1Flag
  obtain ⟨t0, ht0⟩ := h.t0Flag
  obtain ⟨sf, hs⟩ := h.sFlag
  obtain ⟨mf, hm⟩ := h.mFlag
  obtain ⟨level, hl⟩ := h.intMask
  have hsys : s.status.system
      = s.t1Flag ||| s.t0Flag ||| (s.sFlag <<< 11) ||| (s.mFlag <<< 11) ||| s.intMask := by
    have hlevel : s.status.level = level := by
      rw [status, hl]
      exact level_of_mask level
    unfold Status.system
    rw [hlevel, ← hl]
    simp only [status, ht1, ht0, hs, hm, bit_ne_zero (i := 15) (by decide),
      bit_ne_zero (i := 14) (by decide), bit_ne_zero (i := 2) (by decide),
      bit_ne_zero (i := 1) (by decide)]
    cases sf <;> cases mf <;> rfl
  rw [getSr, Status.word, hsys, getCcr_eq]

/-! ## Writing it -/

theorem and_level (n : Nat) : n &&& 0x0700 = n / 256 % 8 * 256 := by
  have hmod : (n &&& 0x0700) % 2 ^ 8 = 0 := by
    rw [Nat.and_mod_two_pow]
    exact Nat.and_zero _
  have hdiv : (n &&& 0x0700) / 2 ^ 8 = n / 2 ^ 8 % 2 ^ 3 := by
    rw [Nat.and_div_two_pow]
    exact Nat.and_two_pow_sub_one_eq_mod _ 3
  omega

theorem status_setSmFlag (s : M68kiCpu) (value : UInt32) :
    (s.setSmFlag value).status
      = { s.status with s := value.toNat.testBit 2, m := value.toNat.testBit 1 } := by
  have hs : (value &&& 4 != 0) = value.toNat.testBit 2 := and_bit_ne_zero (i := 2) (by decide) _
  have hm : (value &&& 2 != 0) = value.toNat.testBit 1 := and_bit_ne_zero (i := 1) (by decide) _
  rw [← hs, ← hm]
  rfl

theorem testBit_sm (value : UInt32) {i : Nat} (hi : i = 1 ∨ i = 2) :
    ((value >>> 11) &&& 6).toNat.testBit i = value.toNat.testBit (11 + i) := by
  rw [UInt32.toNat_and, Nat.testBit_and, UInt32.toNat_shiftRight,
    show (11 : UInt32).toNat % 32 = 11 from rfl, Nat.testBit_shiftRight]
  rcases hi with rfl | rfl
  · exact Bool.and_true _
  · exact Bool.and_true _

/-- What is written to the status register is the status, as far as it is implemented. -/
theorem status_setSrNoint (s : M68kiCpu) (value : UInt32) :
    (s.setSrNoint value).status = Status.ofWord (value &&& s.srMask) := by
  unfold setSrNoint
  rw [status_setSmFlag, testBit_sm _ (.inl rfl), testBit_sm _ (.inr rfl)]
  generalize value &&& s.srMask = w
  have ht1 : (w &&& 0x8000 != 0) = w.toNat.testBit 15 := and_bit_ne_zero (i := 15) (by decide) _
  have ht0 : (w &&& 0x4000 != 0) = w.toNat.testBit 14 := and_bit_ne_zero (i := 14) (by decide) _
  have hx : ((w &&& 0x10) <<< 4).toNat.testBit 8 = w.toNat.testBit 4 := by
    rw [show (w &&& 0x10) <<< 4 = bit (w.toNat.testBit 4) 8 from
      and_bit_shiftLeft (i := 4) (by decide) _, testBit_bit (by decide)]
  have hn : ((w &&& 0x08) <<< 4).toNat.testBit 7 = w.toNat.testBit 3 := by
    rw [show (w &&& 0x08) <<< 4 = bit (w.toNat.testBit 3) 7 from
      and_bit_shiftLeft (i := 3) (by decide) _, testBit_bit (by decide)]
  have hz : ((if w &&& 0x04 = 0 then 1 else 0 : UInt32) == 0) = w.toNat.testBit 2 := by
    rw [show w &&& 0x04 = bit (w.toNat.testBit 2) 2 from and_bit (i := 2) (by decide) _]
    cases w.toNat.testBit 2 <;> rfl
  have hv : ((w &&& 0x02) <<< 6).toNat.testBit 7 = w.toNat.testBit 1 := by
    rw [show (w &&& 0x02) <<< 6 = bit (w.toNat.testBit 1) 7 from
      and_bit_shiftLeft (i := 1) (by decide) _, testBit_bit (by decide)]
  have hc : ((w &&& 0x01) <<< 8).toNat.testBit 8 = w.toNat.testBit 0 := by
    rw [show (w &&& 0x01) <<< 8 = bit (w.toNat.testBit 0) 8 from
      and_bit_shiftLeft (i := 0) (by decide) _, testBit_bit (by decide)]
  have hlevel : Fin.ofNat 8 ((w &&& 0x0700).toNat / 256) = Fin.ofNat 8 (w.toNat / 256) := by
    have hand : (w &&& 0x0700).toNat = w.toNat / 256 % 8 * 256 := by
      rw [UInt32.toNat_and]
      exact and_level _
    rw [hand, Nat.mul_div_cancel _ (by decide)]
    exact Fin.ext (Nat.mod_mod _ _)
  rw [Status.ofWord, ← ht1, ← ht0, ← hx, ← hn, ← hz, ← hv, ← hc, ← hlevel]
  rfl

theorem wf_setSmFlag (h : s.Wf) {value : UInt32}
    (hmask : s.srMask = 0xa71f → value.toNat.testBit 1 = false) : (s.setSmFlag value).Wf := by
  refine ⟨h.t1Flag, h.t0Flag, ⟨_, and_bit (i := 2) (by decide) value⟩,
    ⟨_, and_bit (i := 1) (by decide) value⟩, h.intMask, ?_⟩
  rcases h.srMask with hm | ⟨hm, ht0, -⟩
  · exact .inl hm
  · refine .inr ⟨hm, ht0, ?_⟩
    have hbit : value &&& 2 = bit (value.toNat.testBit 1) 1 := and_bit (i := 1) (by decide) value
    rw [hmask hm] at hbit
    exact hbit

/-- The flags of the word, before the stack pointer is switched. -/
theorem wf_flags (h : s.Wf) (value : UInt32) :
    (s.setSrFlags (value &&& s.srMask)).Wf := by
  have hlevel : (value &&& s.srMask) &&& 0x0700
      = UInt32.ofNat ((Fin.ofNat 8 ((value &&& s.srMask).toNat / 256) : Fin 8) * 256) := by
    have hand : ((value &&& s.srMask) &&& 0x0700).toNat
        = (value &&& s.srMask).toNat / 256 % 8 * 256 := by
      rw [UInt32.toNat_and]
      exact and_level _
    rw [← UInt32.toNat_inj, UInt32.toNat_ofNat', Fin.val_ofNat]
    exact hand.trans (Nat.mod_eq_of_lt (by omega)).symm
  refine ⟨⟨_, and_bit (i := 15) (by decide) _⟩, ⟨_, and_bit (i := 14) (by decide) _⟩, h.sFlag,
    h.mFlag, ⟨_, hlevel⟩, ?_⟩
  rcases h.srMask with hm | ⟨hm, -, hmf⟩
  · exact .inl hm
  · refine .inr ⟨hm, ?_, hmf⟩
    show (value &&& s.srMask) &&& 0x4000 = 0
    rw [hm, UInt32.and_assoc]
    exact UInt32.and_zero

theorem word_and_srMask (h : s.Wf) : s.status.word &&& s.srMask = s.status.word := by
  refine Status.word_and_mask _ ?_
  rcases h.srMask with hm | ⟨hm, ht0, hmf⟩
  · exact .inl hm
  · refine .inr ⟨hm, ?_, ?_⟩
    · rw [status, ht0]
      rfl
    · rw [status, hmf]
      rfl

/-- No master mode where it is not implemented. -/
theorem sm_of_mask {mask : UInt32} (hmask : mask = 0xa71f) (value : UInt32) :
    (((value &&& mask) >>> 11) &&& 6).toNat.testBit 1 = false := by
  rw [testBit_sm _ (.inl rfl), hmask, UInt32.toNat_and, Nat.testBit_and]
  exact Bool.and_false _

theorem wf_setSrNoint (h : s.Wf) (value : UInt32) : (s.setSrNoint value).Wf :=
  wf_setSmFlag (wf_flags h value) fun hm => sm_of_mask hm value

/-! ## The stack pointers -/

end

end M68kiCpu

/-- The stack pointer that is in use. -/
def Status.active (st : Status) : StackRegister :=
  if st.s then if st.m then .msp else .isp else .usp

namespace M68kiCpu

section
variable {s : M68kiCpu}

theorem index_inj {r r' : StackRegister} (h : r.index = r'.index) : r = r' := by
  cases r <;> cases r' <;> first | rfl | cases h

theorem spIndex_eq (h : s.Wf) : s.spIndex = s.status.active.index := by
  obtain ⟨sf, hs⟩ := h.sFlag
  obtain ⟨mf, hm⟩ := h.mFlag
  unfold spIndex Status.active status
  rw [hs, hm, bit_ne_zero (by decide), bit_ne_zero (by decide)]
  cases sf <;> cases mf <;> rfl

/-- A stack pointer is in the register that is in use, or in its place. -/
theorem getReg_eq (s : M68kiCpu) (r : StackRegister) :
    s.getReg r = if r = s.status.active then s.regSp else s.sp r.index := by
  unfold Status.active status
  by_cases hs : s.sFlag = 0
  · cases r <;> simp [getReg, hs, StackRegister.index]
  · by_cases hm : s.mFlag = 0
    · cases r <;> simp [getReg, hs, hm, StackRegister.index]
    · cases r <;> simp [getReg, hs, hm, StackRegister.index]

theorem getReg_active (s : M68kiCpu) : s.getReg s.status.active = s.regSp := by
  rw [getReg_eq, if_pos rfl]

theorem sp_backupSp (h : s.Wf) (r : StackRegister) : s.backupSp.sp r.index = s.getReg r := by
  rw [getReg_eq]
  show Function.update s.sp s.spIndex s.regSp r.index = _
  rw [spIndex_eq h]
  by_cases hr : r = s.status.active
  · rw [if_pos hr, hr, Function.update_self]
  · rw [if_neg hr, Function.update_of_ne fun he => hr (index_inj he)]

/-- A switch of the mode keeps every stack pointer. -/
theorem getReg_of_switch {s' : M68kiCpu} (h : s.Wf) (h' : s'.Wf) (hsp : s'.sp = s.backupSp.sp)
    (hreg : s'.regSp = s'.sp s'.spIndex) (r : StackRegister) : s'.getReg r = s.getReg r := by
  rw [getReg_eq, hreg, spIndex_eq h', hsp, sp_backupSp h, sp_backupSp h]
  by_cases hr : r = s'.status.active
  · rw [if_pos hr, hr]
  · rw [if_neg hr]

theorem getReg_setSmFlag (h : s.Wf) {value : UInt32}
    (hmask : s.srMask = 0xa71f → value.toNat.testBit 1 = false) (r : StackRegister) :
    (s.setSmFlag value).getReg r = s.getReg r :=
  getReg_of_switch h (wf_setSmFlag h hmask) rfl (Function.update_self (15 : Fin 16) _ s.dar) r

theorem status_setSFlag (s : M68kiCpu) : (s.setSFlag 4).status = s.status.supervisor := rfl

theorem wf_setSFlag (h : s.Wf) : (s.setSFlag 4).Wf :=
  ⟨h.t1Flag, h.t0Flag, ⟨true, rfl⟩, h.mFlag, h.intMask, h.srMask⟩

theorem getReg_setSFlag (h : s.Wf) (r : StackRegister) : (s.setSFlag 4).getReg r = s.getReg r :=
  getReg_of_switch h (wf_setSFlag h) rfl (Function.update_self (15 : Fin 16) _ s.dar) r

/-- Supervisor mode is entered without tracing. -/
def entered (st : Status) : Status := { st with t1 := false, t0 := false, s := true }

theorem wf_clearTrace (h : s.Wf) : s.clearTrace.Wf := by
  refine ⟨⟨false, rfl⟩, ⟨false, rfl⟩, h.sFlag, h.mFlag, h.intMask, ?_⟩
  rcases h.srMask with hm | ⟨hm, -, hmf⟩
  · exact .inl hm
  · exact .inr ⟨hm, rfl, hmf⟩

theorem wf_initException (h : s.Wf) : s.initException.2.Wf := wf_setSFlag (wf_clearTrace h)

theorem status_initException (s : M68kiCpu) : s.initException.2.status = entered s.status := rfl

theorem getReg_initException (h : s.Wf) (r : StackRegister) :
    s.initException.2.getReg r = s.getReg r := by
  rw [initException, getReg_setSFlag (wf_clearTrace h), getReg_eq, getReg_eq]
  rfl

theorem getReg_setSrNoint (h : s.Wf) (value : UInt32) (r : StackRegister) :
    (s.setSrNoint value).getReg r = s.getReg r := by
  have hmask : (s.setSrFlags (value &&& s.srMask)).srMask = 0xa71f →
      (((value &&& s.srMask) >>> 11) &&& 6).toNat.testBit 1 = false :=
    fun hm => sm_of_mask hm value
  rw [setSrNoint, getReg_setSmFlag (wf_flags h value) hmask, getReg_eq, getReg_eq]
  rfl

/-! ## Runs -/

end

/-- What moves a stack pointer, or puts another one in use. -/
inductive PointerOp where
  | setSr (value : UInt32)
  | initException
  /-- the master state is left for an interrupt -/
  | clearM
  /-- any use of the register itself -/
  | setRegSp (value : UInt32)
  | move32Tou (value : UInt32)
  | movec32Rc (register : StackRegister) (value : UInt32)

def pointerStep (s : M68kiCpu) : PointerOp → M68kiCpu
  | .setSr value => s.setSrNoint value
  | .initException => s.initException.2
  | .clearM => s.setSmFlag s.sFlag
  | .setRegSp value => s.setRegSp value
  | .move32Tou value => s.move32Tou value
  | .movec32Rc register value => s.movec32Rc register value

/-- The moves of a stack pointer by its name are for supervisors. -/
def Privileged (s : M68kiCpu) : PointerOp → Prop
  | .move32Tou _ | .movec32Rc _ _ => s.sFlag ≠ 0
  | _ => True

end M68kiCpu

/-- Three stack pointers of their own, and the status that says which one is in use. -/
structure Pointers where
  status : Status
  register : StackRegister → UInt32

namespace Pointers

open M68kiCpu

def step (srMask : UInt32) (p : Pointers) : PointerOp → Pointers
  | .setSr value => { p with status := Status.ofWord (value &&& srMask) }
  | .initException => { p with status := entered p.status }
  | .clearM => { p with status := { p.status with m := false } }
  | .setRegSp value => { p with register := Function.update p.register p.status.active value }
  | .move32Tou value => { p with register := Function.update p.register .usp value }
  | .movec32Rc r value => { p with register := Function.update p.register r value }

end Pointers

namespace M68kiCpu

def pointers (s : M68kiCpu) : Pointers := ⟨s.status, s.getReg⟩

section
variable {s : M68kiCpu}

theorem getReg_setRegSp (s : M68kiCpu) (value : UInt32) :
    (s.setRegSp value).getReg = Function.update s.getReg s.status.active value := by
  funext r
  rw [getReg_eq, Function.update_apply, getReg_eq]
  show (if r = s.status.active then Function.update s.dar 15 value 15 else s.sp r.index) = _
  by_cases hr : r = s.status.active
  · rw [if_pos hr, if_pos hr, Function.update_self]
  · rw [if_neg hr, if_neg hr, if_neg hr]

/-- A stack pointer that is not in use is changed in its place. -/
theorem getReg_update {r : StackRegister} (hr : r ≠ s.status.active) (value : UInt32) :
    M68kiCpu.getReg { s with sp := Function.update s.sp r.index value }
      = Function.update s.getReg r value := by
  funext r'
  rw [getReg_eq, Function.update_apply, getReg_eq]
  show (if r' = s.status.active then s.regSp else Function.update s.sp r.index value r'.index) = _
  by_cases h : r' = r
  · rw [if_pos h, h, if_neg hr, Function.update_self]
  · rw [if_neg h, Function.update_of_ne fun he => h (index_inj he)]

theorem wf_pointerStep (h : s.Wf) (op : PointerOp) : (s.pointerStep op).Wf := by
  cases op with
  | setSr value => exact wf_setSrNoint h value
  | initException => exact wf_initException h
  | clearM =>
    refine wf_setSmFlag h fun _ => ?_
    obtain ⟨b, hb⟩ := h.sFlag
    rw [hb]
    cases b <;> rfl
  | setRegSp value => exact h.of_flags rfl
  | move32Tou value => exact h.of_flags rfl
  | movec32Rc register value =>
    cases register with
    | usp => exact h.of_flags rfl
    | msp =>
      by_cases hm : s.mFlag = 0
      · exact h.of_flags (by rw [pointerStep, movec32Rc, if_pos hm]; rfl)
      · exact h.of_flags (by rw [pointerStep, movec32Rc, if_neg hm]; rfl)
    | isp =>
      by_cases hm : s.mFlag = 0
      · exact h.of_flags (by rw [pointerStep, movec32Rc, if_pos hm]; rfl)
      · exact h.of_flags (by rw [pointerStep, movec32Rc, if_neg hm]; rfl)

theorem active_of_supervisor (hs : s.sFlag ≠ 0) :
    s.status.active = if s.mFlag = 0 then .isp else .msp := by
  unfold Status.active status
  rw [bne_iff_ne.2 hs, if_pos rfl]
  by_cases hm : s.mFlag = 0
  · rw [hm]
    rfl
  · rw [bne_iff_ne.2 hm, if_neg hm, if_pos rfl]

theorem getReg_movec32Rc (hs : s.sFlag ≠ 0) (r : StackRegister) (value : UInt32) :
    (s.movec32Rc r value).getReg = Function.update s.getReg r value := by
  have hactive := active_of_supervisor hs
  by_cases hm : s.mFlag = 0
  · rw [if_pos hm] at hactive
    cases r with
    | usp => exact getReg_update (r := .usp) (by rw [hactive]; decide) value
    | msp =>
      rw [movec32Rc, if_pos hm]
      exact getReg_update (r := .msp) (by rw [hactive]; decide) value
    | isp => rw [movec32Rc, if_pos hm, getReg_setRegSp, hactive]
  · rw [if_neg hm] at hactive
    cases r with
    | usp => exact getReg_update (r := .usp) (by rw [hactive]; decide) value
    | msp => rw [movec32Rc, if_neg hm, getReg_setRegSp, hactive]
    | isp =>
      rw [movec32Rc, if_neg hm]
      exact getReg_update (r := .isp) (by rw [hactive]; decide) value

theorem status_movec32Rc (s : M68kiCpu) (r : StackRegister) (value : UInt32) :
    (s.movec32Rc r value).status = s.status := by
  cases r with
  | usp => rfl
  | msp => rw [movec32Rc, apply_ite status]; exact ite_self _
  | isp => rw [movec32Rc, apply_ite status]; exact ite_self _

/-- One step moves the named pointers as its abstract step does. -/
theorem pointers_pointerStep (h : s.Wf) (op : PointerOp) (hp : s.Privileged op) :
    (s.pointerStep op).pointers = s.pointers.step s.srMask op := by
  cases op with
  | setSr value =>
    exact congrArg₂ Pointers.mk (status_setSrNoint s value) (funext fun r => getReg_setSrNoint h value r)
  | initException => exact congrArg₂ Pointers.mk rfl (funext fun r => getReg_initException h r)
  | clearM =>
    obtain ⟨b, hb⟩ := h.sFlag
    have hbits : s.sFlag.toNat.testBit 2 = s.status.s ∧ s.sFlag.toNat.testBit 1 = false := by
      unfold status
      rw [hb]
      cases b <;> exact ⟨rfl, rfl⟩
    refine congrArg₂ Pointers.mk ?_ (funext fun r => getReg_setSmFlag h (fun _ => hbits.2) r)
    refine (status_setSmFlag s s.sFlag).trans ?_
    rw [hbits.1, hbits.2]
    rfl
  | setRegSp value => exact congrArg₂ Pointers.mk rfl (getReg_setRegSp s value)
  | move32Tou value =>
    have hne : StackRegister.usp ≠ s.status.active := by
      rw [active_of_supervisor hp]
      split_ifs <;> decide
    exact congrArg₂ Pointers.mk rfl (getReg_update hne value)
  | movec32Rc r value =>
    exact congrArg₂ Pointers.mk (status_movec32Rc s r value) (getReg_movec32Rc hp r value)

theorem srMask_pointerStep (s : M68kiCpu) (op : PointerOp) : (s.pointerStep op).srMask = s.srMask := by
  cases op with
  | movec32Rc r value =>
    cases r with
    | usp => rfl
    | msp => rw [pointerStep, movec32Rc, apply_ite srMask]; exact ite_self _
    | isp => rw [pointerStep, movec32Rc, apply_ite srMask]; exact ite_self _
  | _ => rfl

/-- What a supervisor reads of a stack pointer by its name. -/
theorem movec32Cr_eq (hs : s.sFlag ≠ 0) (r : StackRegister) : s.movec32Cr r = s.getReg r := by
  cases r with
  | usp => exact (if_pos hs).symm
  | isp =>
    unfold movec32Cr getReg
    by_cases hm : s.mFlag = 0 <;> simp [hs, hm]
  | msp =>
    unfold movec32Cr getReg
    by_cases hm : s.mFlag = 0 <;> simp [hs, hm]

/-- The stack pointers of a run are three registers of their own, whatever the modes in between,
    and so are those that are read by name. -/
theorem run_pointers (h : s.Wf) {ops : List PointerOp}
    (hg : Machine.Guarded pointerStep Privileged s ops) :
    (Machine.run pointerStep s ops).pointers
        = Machine.run (Pointers.step s.srMask) s.pointers ops ∧
      ((Machine.run pointerStep s ops).sFlag ≠ 0 →
        (Machine.run pointerStep s ops).move32Fru
            = (Machine.run (Pointers.step s.srMask) s.pointers ops).register .usp ∧
          ∀ r, (Machine.run pointerStep s ops).movec32Cr r
            = (Machine.run (Pointers.step s.srMask) s.pointers ops).register r) := by
  have hrun : (Machine.run pointerStep s ops).pointers
      = Machine.run (Pointers.step s.srMask) s.pointers ops := by
    induction ops generalizing s with
    | nil => rfl
    | cons op ops ih =>
      obtain ⟨hp, hrest⟩ := hg
      rw [Machine.run_cons, Machine.run_cons, ih (wf_pointerStep h op) hrest, srMask_pointerStep,
        pointers_pointerStep h op hp]
  refine ⟨hrun, fun hs => ?_⟩
  rw [← hrun]
  exact ⟨movec32Cr_eq hs .usp, movec32Cr_eq hs⟩

end

/-- A processor that has been reset, with nothing in its memory. -/
def idle : M68kiCpu where
  cpuType := .m68030
  dar _ := 0x1000
  darSave _ := 0x1000
  sp _ := 0x2000
  pc := 0x400
  memory _ := 0

theorem wf_idle : idle.Wf :=
  ⟨⟨false, rfl⟩, ⟨false, rfl⟩, ⟨true, rfl⟩, ⟨false, rfl⟩, ⟨7, rfl⟩, .inl rfl⟩

theorem run_pointers_idle :
    (Machine.run pointerStep idle [.movec32Rc .msp 0x9000, .setSr 0, .setRegSp 0x5000, .initException]).pointers
        = Machine.run (Pointers.step idle.srMask) idle.pointers
          [.movec32Rc .msp 0x9000, .setSr 0, .setRegSp 0x5000, .initException] ∧
      ((Machine.run pointerStep idle
          [.movec32Rc .msp 0x9000, .setSr 0, .setRegSp 0x5000, .initException]).sFlag ≠ 0 →
        (Machine.run pointerStep idle
            [.movec32Rc .msp 0x9000, .setSr 0, .setRegSp 0x5000, .initException]).move32Fru
          = (Machine.run (Pointers.step idle.srMask) idle.pointers
            [.movec32Rc .msp 0x9000, .setSr 0, .setRegSp 0x5000, .initException]).register .usp ∧
          ∀ r, (Machine.run pointerStep idle
              [.movec32Rc .msp 0x9000, .setSr 0, .setRegSp 0x5000, .initException]).movec32Cr r
            = (Machine.run (Pointers.step idle.srMask) idle.pointers
              [.movec32Rc .msp 0x9000, .setSr 0, .setRegSp 0x5000, .initException]).register r) :=
  run_pointers wf_idle ⟨(by decide : idle.sFlag ≠ 0), trivial, trivial, trivial, trivial⟩

end M68kiCpu

end CuteMac.M68k
