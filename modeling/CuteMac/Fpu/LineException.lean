/-
  The exception of a refused encoding (`fpu_illegal`, `fpu_unimplemented`).

  * `Reported`, `RefusedOnly`: one line-1111 exception is taken, and nothing else is done;
  * `exception1111_eq`: the exception in terms of the state before it, with its frame;
  * `Same`: what the exception depends on;
  * `Accepted`, `Reads`, `Writes`: an operand is found, or it is reported.
-/
import CuteMac.Fpu.Instructions

namespace CuteMac.Fpu

open ByteMemory Core M68kiCpu

/-! ## One exception -/

/-- One refusal is reported, and the exception is all there is on the stack. -/
structure Reported (s s' : M68kiCpu) : Prop where
  reports : s'.reports = s.reports + 1
  pc : s'.pc = s.exception1111.pc
  a : s'.a = s.exception1111.a
  usp : s'.usp = s.exception1111.usp
  isp : s'.isp = s.exception1111.isp
  msp : s'.msp = s.exception1111.msp
  sr : s'.sr = s.exception1111.sr
  memory : s'.memory = s.exception1111.memory

/-- The exception is all there is. -/
structure RefusedOnly (s s' : M68kiCpu) : Prop extends Reported s s' where
  d : s'.d = s.d
  fp : s'.fp = s.fp
  fpcr : s'.fpcr = s.fpcr
  fpsr : s'.fpsr = s.fpsr

/-- The stack that an exception goes to. -/
def supervisorStack (s : M68kiCpu) : UInt32 :=
  if s.supervisor then s.a 7 else if s.master then s.msp else s.isp

/-- The frame: the status register, the address of the instruction, and the offset of the vector. -/
def frame1111 (s : M68kiCpu) : List UInt8 :=
  bytesOf s.sr.toNat 2 ++ bytesOf s.ppc.toNat 4 ++ bytesOf (0x002c : UInt16).toNat 2

/-- What an exception depends on, and what it must not change. -/
structure Same (s t : M68kiCpu) : Prop where
  d : t.d = s.d
  a : t.a = s.a
  usp : t.usp = s.usp
  isp : t.isp = s.isp
  msp : t.msp = s.msp
  ppc : t.ppc = s.ppc
  sr : t.sr = s.sr
  vbr : t.vbr = s.vbr
  fp : t.fp = s.fp
  fpcr : t.fpcr = s.fpcr
  fpsr : t.fpsr = s.fpsr
  floatRoundingMode : t.floatRoundingMode = s.floatRoundingMode
  memory : t.memory = s.memory

section
variable {s t u : M68kiCpu}

theorem Same.refl (s : M68kiCpu) : Same s s :=
  ⟨rfl, rfl, rfl, rfl, rfl, rfl, rfl, rfl, rfl, rfl, rfl, rfl, rfl⟩

theorem supervisor_and (sr : UInt16) : (sr &&& 0x3fff) &&& 0x2000 = sr &&& 0x2000 := by
  rw [UInt16.and_assoc]
  rfl

theorem master_and (sr : UInt16) : (sr &&& 0x3fff) &&& 0x1000 = sr &&& 0x1000 := by
  rw [UInt16.and_assoc]
  rfl

theorem master_or (sr : UInt16) : ((sr &&& 0x3fff) ||| 0x2000) &&& 0x1000 = sr &&& 0x1000 := by
  rw [← UInt16.toNat_inj]
  simp only [UInt16.toNat_and, UInt16.toNat_or]
  have hkept : UInt16.toNat 0x3fff &&& UInt16.toNat 0x1000 = UInt16.toNat 0x1000 := rfl
  have hset : UInt16.toNat 0x2000 &&& UInt16.toNat 0x1000 = 0 := rfl
  rw [Nat.and_or_distrib_right, Nat.and_assoc, hkept, hset, Nat.or_zero]

/-- Supervisor mode is entered with the trace bits cleared. -/
theorem setSFlag_eq (s : M68kiCpu) :
    { s with sr := s.sr &&& 0x3fff }.setSFlag =
      { s with
        sr := (s.sr &&& 0x3fff) ||| 0x2000
        usp := if s.supervisor then s.usp else s.a 7
        msp := if s.supervisor && s.master then s.a 7 else s.msp
        isp := if s.supervisor && !s.master then s.a 7 else s.isp
        a := Function.update s.a 7 (supervisorStack s) } := by
  unfold setSFlag supervisorStack setA M68kiCpu.supervisor M68kiCpu.master
  simp only [supervisor_and, master_and]
  cases s.sr &&& 0x2000 != 0 with
  | false =>
    simp [master_or]
  | true =>
    cases hm : s.sr &&& 0x1000 != 0 with
    | false => simp [master_or, hm]
    | true => simp [master_or, hm]

theorem push16_eq (s : M68kiCpu) (value : UInt16) :
    s.push16 value = { s with
      a := Function.update s.a 7 (s.a 7 - 2)
      memory := put s.memory (s.a 7 - 2) (bytesOf value.toNat 2) } := rfl

theorem push32_eq (s : M68kiCpu) (value : UInt32) :
    s.push32 value = { s with
      a := Function.update s.a 7 (s.a 7 - 4)
      memory := put s.memory (s.a 7 - 4) (bytesOf value.toNat 4) } := rfl

/-- The three writes make one frame. -/
theorem push_frame (s : M68kiCpu) (v w : UInt16) (p : UInt32) :
    ((s.push16 v).push32 p).push16 w = { s with
      a := Function.update s.a 7 (s.a 7 - 8)
      memory := put s.memory (s.a 7 - 8)
        (bytesOf w.toNat 2 ++ bytesOf p.toNat 4 ++ bytesOf v.toNat 2) } := by
  have hp : s.a 7 - 2 - 4 = s.a 7 - 6 := sub_sub (s.a 7) 2 4
  have hw : s.a 7 - 6 - 2 = s.a 7 - 8 := sub_sub (s.a 7) 6 2
  have hpush : ((s.push16 v).push32 p).push16 w = { s with
      a := Function.update s.a 7 (s.a 7 - 8)
      memory := put (put (put s.memory (s.a 7 - 2) (bytesOf v.toNat 2)) (s.a 7 - 6)
        (bytesOf p.toNat 4)) (s.a 7 - 8) (bytesOf w.toNat 2) } := by
    rw [push16_eq, push32_eq, push16_eq]
    simp only [Function.update_self, Function.update_idem, hp, hw]
  have hv : s.a 7 - 2 = s.a 7 - 6 + UInt32.ofNat (bytesOf p.toNat 4).length := by
    rw [← hp, length_bytesOf]
    exact (UInt32.sub_add_cancel _ 4).symm
  have hboth : s.a 7 - 6 = s.a 7 - 8 + UInt32.ofNat (bytesOf w.toNat 2).length := by
    rw [← hw, length_bytesOf]
    exact (UInt32.sub_add_cancel _ 2).symm
  have hmemory : put (put (put s.memory (s.a 7 - 2) (bytesOf v.toNat 2)) (s.a 7 - 6)
        (bytesOf p.toNat 4)) (s.a 7 - 8) (bytesOf w.toNat 2)
      = put s.memory (s.a 7 - 8) (bytesOf w.toNat 2 ++ bytesOf p.toNat 4 ++ bytesOf v.toNat 2) := by
    rw [hv, put_put_below (by rw [length_bytesOf, length_bytesOf]; decide), hboth,
      put_put_below (by rw [List.length_append, length_bytesOf, length_bytesOf, length_bytesOf]; decide),
      List.append_assoc]
  rw [hpush, hmemory]

/-- The exception in terms of the state before it. -/
theorem exception1111_eq (s : M68kiCpu) :
    s.exception1111 =
      { s with
        sr := (s.sr &&& 0x3fff) ||| 0x2000
        usp := if s.supervisor then s.usp else s.a 7
        msp := if s.supervisor && s.master then s.a 7 else s.msp
        isp := if s.supervisor && !s.master then s.a 7 else s.isp
        a := Function.update s.a 7 (supervisorStack s - 8)
        memory := put s.memory (supervisorStack s - 8) (frame1111 s)
        pc := UInt32.ofNat (bigEndian
          (take (put s.memory (supervisorStack s - 8) (frame1111 s)) (0x2c + s.vbr) 4)) } := by
  have hvector : line1111 <<< 2 = 0x002c := rfl
  have hoffset : (0x002c : UInt16).toUInt32 = 0x2c := rfl
  unfold exception1111 M68kiCpu.read32 frame1111
  rw [hvector, hoffset]
  dsimp only
  rw [setSFlag_eq, push_frame]
  simp only [Function.update_self, Function.update_idem]

theorem Same.frame (h : Same s t) :
    supervisorStack t = supervisorStack s ∧ frame1111 t = frame1111 s := by
  have hsup : t.supervisor = s.supervisor := congrArg (fun sr : UInt16 => sr &&& 0x2000 != 0) h.sr
  have hmaster : t.master = s.master := congrArg (fun sr : UInt16 => sr &&& 0x1000 != 0) h.sr
  constructor
  · unfold supervisorStack
    rw [hsup, hmaster, h.a, h.msp, h.isp]
  · unfold frame1111
    rw [h.sr, h.ppc]

/-- The exception is the same. -/
theorem Same.reported (h : Same s t) (hreports : u = t.exception1111)
    (hone : u.reports = s.reports + 1) : Reported s u := by
  obtain ⟨hstack, hframe⟩ := h.frame
  have hsup : t.supervisor = s.supervisor := congrArg (fun sr : UInt16 => sr &&& 0x2000 != 0) h.sr
  have hmaster : t.master = s.master := congrArg (fun sr : UInt16 => sr &&& 0x1000 != 0) h.sr
  refine ⟨hone, ?_, ?_, ?_, ?_, ?_, ?_, ?_⟩ <;>
    simp only [hreports, exception1111_eq, hsup, hmaster, hstack, hframe, h.memory, h.vbr, h.a,
      h.usp, h.isp, h.msp, h.sr]

/-- What a report leaves alone. -/
theorem fpuReport_kept (t : M68kiCpu) :
    t.fpuReport.reports = t.reports + 1 ∧ t.fpuReport.d = t.d ∧ t.fpuReport.fp = t.fp ∧
      t.fpuReport.fpcr = t.fpcr ∧ t.fpuReport.fpsr = t.fpsr ∧
      t.fpuReport.floatRoundingMode = t.floatRoundingMode ∧
      t.fpuReport.floatExceptionFlags = t.floatExceptionFlags := by
  unfold fpuReport
  rw [exception1111_eq]
  exact ⟨rfl, rfl, rfl, rfl, rfl, rfl, rfl⟩

theorem Same.reported_fpuReport (h : Same s t) (hreports : t.reports = s.reports) :
    Reported s t.fpuReport := by
  have hsame : Same s { t with reports := t.reports + 1 } :=
    ⟨h.d, h.a, h.usp, h.isp, h.msp, h.ppc, h.sr, h.vbr, h.fp, h.fpcr, h.fpsr, h.floatRoundingMode,
      h.memory⟩
  refine hsame.reported rfl ?_
  rw [(fpuReport_kept t).1, hreports]

theorem RefusedOnly.of_same (h : Same s t) (hreports : t.reports = s.reports) :
    RefusedOnly s t.fpuReport := by
  obtain ⟨-, hd, hfp, hfpcr, hfpsr, -⟩ := fpuReport_kept t
  exact ⟨h.reported_fpuReport hreports, hd.trans h.d, hfp.trans h.fp, hfpcr.trans h.fpcr,
    hfpsr.trans h.fpsr⟩

end

/-! ## Operands -/

/-- Only the program counter is moved. -/
def Advanced (s t : M68kiCpu) : Prop := ∃ pc, t = { s with pc := pc }

/-- An operand has been found; an address register is moved by the modes that do so. -/
structure Accepted (s : M68kiCpu) (ea : UInt16) (t : M68kiCpu) : Prop where
  reports : t.reports = s.reports
  same : eaMode ea ≠ 3 ∧ eaMode ea ≠ 4 → Same s t
  moved : eaMode ea = 3 ∨ eaMode ea = 4 → ∃ x, x ≠ s.a (eaReg ea) ∧ Same (s.setA (eaReg ea) x) t

/-- The modes and the extended modes of an operand. -/
def eaKnown (modes extended : List Nat) (ea : UInt16) : Prop :=
  eaMode ea ∈ modes ∨ eaMode ea = 7 ∧ (eaReg ea).val ∈ extended

/-- The modes that have an address. -/
def OperandModes (size : UInt32) (modes extended : List Nat) : Prop :=
  size ≠ 0 ∧ (∀ m ∈ modes, m ∈ [2, 3, 4, 5, 6]) ∧ ∀ m ∈ extended, m ∈ [0, 1, 2, 3]

instance (size : UInt32) (modes extended : List Nat) :
    Decidable (OperandModes size modes extended) := by
  unfold OperandModes
  infer_instance

section
variable {s t u : M68kiCpu} {ea : UInt16}

theorem Advanced.trans (h : Advanced s t) (h' : Advanced t u) : Advanced s u := by
  obtain ⟨pc, rfl⟩ := h
  obtain ⟨pc', rfl⟩ := h'
  exact ⟨pc', rfl⟩

theorem Advanced.same (h : Advanced s t) : Same s t := by
  obtain ⟨pc, rfl⟩ := h
  exact ⟨rfl, rfl, rfl, rfl, rfl, rfl, rfl, rfl, rfl, rfl, rfl, rfl, rfl⟩

theorem Advanced.accepted (h : Advanced s t) (hea : eaMode ea ≠ 3 ∧ eaMode ea ≠ 4) :
    Accepted s ea t := by
  refine ⟨?_, fun _ => h.same, fun hmoved => ?_⟩
  · obtain ⟨pc, rfl⟩ := h
    rfl
  · rcases hmoved with h3 | h4
    · exact absurd h3 hea.1
    · exact absurd h4 hea.2

theorem advanced_displacement (s : M68kiCpu) (long : Bool) : Advanced s (s.displacement long).2 := by
  cases long <;> exact ⟨_, rfl⟩

/-- A displacement that may be missing. -/
theorem Advanced.optional (h : Advanced s t) (c : Prop) [Decidable c] (long : Bool) :
    Advanced s (if c then t.displacement long else (0, t)).2 := by
  by_cases hc : c
  · rw [if_pos hc]
    exact h.trans (advanced_displacement t long)
  · rw [if_neg hc]
    exact h

theorem advanced_getEaIx (s : M68kiCpu) (an : UInt32) : Advanced s (s.getEaIx an).2 := by
  have hword : Advanced s s.readImm16.2 := ⟨_, rfl⟩
  unfold getEaIx
  dsimp only
  by_cases hbrief : s.readImm16.1 &&& 0x0100 = 0
  · rw [if_pos hbrief]
    exact hword
  · rw [if_neg hbrief]
    have hbd := hword.optional (s.readImm16.1 &&& 0x20 ≠ 0) (s.readImm16.1 &&& 0x10 != 0)
    by_cases hplain : s.readImm16.1 &&& 7 = 0
    · rw [if_pos hplain]
      exact hbd
    · rw [if_neg hplain]
      have hod := hbd.optional (s.readImm16.1 &&& 2 ≠ 0) (s.readImm16.1 &&& 1 != 0)
      by_cases hpost : s.readImm16.1 &&& 4 ≠ 0
      · rw [if_pos hpost]
        exact hod
      · rw [if_neg hpost]
        exact hod

/-- The address of an operand is found exactly if the operand is known. -/
theorem eaAddress_cases (s : M68kiCpu) {size : UInt32} {modes extended : List Nat} (ea : UInt16)
    (hok : OperandModes size modes extended) :
    (eaKnown modes extended ea ∧
        ∃ p, s.eaAddress size modes extended ea = some p ∧ Accepted s ea p.2) ∨
      ¬ eaKnown modes extended ea ∧ s.eaAddress size modes extended ea = none := by
  obtain ⟨hsize, hmodes, hextended⟩ := hok
  unfold eaAddress
  dsimp only
  by_cases hmode : eaMode ea ∈ modes
  · refine Or.inl ⟨Or.inl hmode, ?_⟩
    rw [if_pos hmode]
    have hin := hmodes _ hmode
    simp only [List.mem_cons, List.not_mem_nil, or_false] at hin
    rcases hin with h | h | h | h | h <;> rw [h]
    · exact ⟨_, rfl, Advanced.accepted ⟨_, rfl⟩ (by omega)⟩
    · refine ⟨_, rfl, rfl, fun hne => absurd h hne.1, fun _ => ?_⟩
      exact ⟨_, fun he => hsize (add_eq_left.1 he), Same.refl _⟩
    · refine ⟨_, rfl, rfl, fun hne => absurd h hne.2, fun _ => ?_⟩
      exact ⟨_, fun he => hsize (sub_eq_self.1 he), Same.refl _⟩
    · exact ⟨_, rfl, Advanced.accepted ⟨_, rfl⟩ (by omega)⟩
    · exact ⟨_, rfl, (advanced_getEaIx s _).accepted (by omega)⟩
  · rw [if_neg hmode]
    by_cases hext : eaMode ea = 7 ∧ (eaReg ea).val ∈ extended
    · refine Or.inl ⟨Or.inr hext, ?_⟩
      rw [if_pos hext]
      have hne : eaMode ea ≠ 3 ∧ eaMode ea ≠ 4 := by
        rw [hext.1]
        decide
      have hin := hextended _ hext.2
      simp only [List.mem_cons, List.not_mem_nil, or_false] at hin
      rcases hin with h | h | h | h <;> rw [h]
      · exact ⟨_, rfl, Advanced.accepted ⟨_, rfl⟩ hne⟩
      · exact ⟨_, rfl, Advanced.accepted ⟨_, rfl⟩ hne⟩
      · exact ⟨_, rfl, Advanced.accepted ⟨_, rfl⟩ hne⟩
      · exact ⟨_, rfl, (advanced_getEaIx s _).accepted hne⟩
    · rw [if_neg hext]
      refine Or.inr ⟨?_, rfl⟩
      rintro (h | h)
      · exact hmode h
      · exact hext h

/-- A read has found its operand, or has reported it and gives zero. -/
def Reads {α : Type} (known : Prop) (s : M68kiCpu) (ea : UInt16) (zero : α) (r : α × M68kiCpu) :
    Prop :=
  known ∧ Accepted s ea r.2 ∨ ¬ known ∧ r = (zero, s.fpuReport)

/-- A write has found its operand, or has reported it. -/
def Writes (known : Prop) (s t : M68kiCpu) : Prop :=
  known ∧ t.reports = s.reports ∨ ¬ known ∧ t = s.fpuReport

section
variable {α : Type} {known : Prop} {zero value : α} {r : α × M68kiCpu}

theorem Reads.address (s : M68kiCpu) (ea : UInt16) (size : UInt32) (modes extended : List Nat) (f : UInt32 × M68kiCpu → α)
    (hok : OperandModes size modes extended) :
    Reads (eaKnown modes extended ea) s ea zero
      (match s.eaAddress size modes extended ea with
        | some p => (f p, p.2)
        | none => (zero, s.fpuReport)) := by
  rcases eaAddress_cases s ea hok with ⟨hknown, p, hp, hacc⟩ | ⟨hknown, hp⟩
  · rw [hp]
    exact Or.inl ⟨hknown, hacc⟩
  · rw [hp]
    exact Or.inr ⟨hknown, rfl⟩

theorem Reads.immediate (h : Reads known s ea zero r) {x : α × M68kiCpu} (hx : Advanced s x.2) :
    Reads ((eaMode ea = 7 ∧ eaReg ea = 4) ∨ known) s ea zero
      (if eaMode ea = 7 ∧ eaReg ea = 4 then x else r) := by
  by_cases himm : eaMode ea = 7 ∧ eaReg ea = 4
  · rw [if_pos himm]
    exact Or.inl ⟨Or.inl himm, hx.accepted (by omega)⟩
  · rw [if_neg himm]
    rcases h with ⟨hk, hacc⟩ | ⟨hk, hr⟩
    · exact Or.inl ⟨Or.inr hk, hacc⟩
    · exact Or.inr ⟨not_or.2 ⟨himm, hk⟩, hr⟩

/-- A mode that takes its operand without an address. -/
theorem Reads.mode (h : Reads known s ea zero r) (mode : Nat) (hmode : mode ≠ 3 ∧ mode ≠ 4) :
    Reads (eaMode ea = mode ∨ known) s ea zero (if eaMode ea = mode then (value, s) else r) := by
  by_cases hm : eaMode ea = mode
  · rw [if_pos hm]
    exact Or.inl ⟨Or.inl hm, Advanced.accepted ⟨_, rfl⟩ (by omega)⟩
  · rw [if_neg hm]
    rcases h with ⟨hk, hacc⟩ | ⟨hk, hr⟩
    · exact Or.inl ⟨Or.inr hk, hacc⟩
    · exact Or.inr ⟨not_or.2 ⟨hm, hk⟩, hr⟩

theorem Writes.address (s : M68kiCpu) (ea : UInt16) (size : UInt32) (modes extended : List Nat)
    (f : UInt32 × M68kiCpu → M68kiCpu) (hok : OperandModes size modes extended)
    (hf : ∀ p, (f p).reports = p.2.reports) :
    Writes (eaKnown modes extended ea) s
      (match s.eaAddress size modes extended ea with
        | some p => f p
        | none => s.fpuReport) := by
  rcases eaAddress_cases s ea hok with ⟨hknown, p, hp, hacc⟩ | ⟨hknown, hp⟩
  · rw [hp]
    exact Or.inl ⟨hknown, (hf p).trans hacc.reports⟩
  · rw [hp]
    exact Or.inr ⟨hknown, rfl⟩

theorem Writes.mode (h : Writes known s t) (mode : Nat) (u : M68kiCpu) (hu : u.reports = s.reports) :
    Writes (eaMode ea = mode ∨ known) s (if eaMode ea = mode then u else t) := by
  by_cases hm : eaMode ea = mode
  · rw [if_pos hm]
    exact Or.inl ⟨Or.inl hm, hu⟩
  · rw [if_neg hm]
    rcases h with ⟨hk, ht⟩ | ⟨hk, ht⟩
    · exact Or.inl ⟨Or.inr hk, ht⟩
    · exact Or.inr ⟨not_or.2 ⟨hm, hk⟩, ht⟩

end

theorem reports_storeExtendedFloat80 (s : M68kiCpu) (a : UInt32) (x : Floatx80) :
    (s.storeExtendedFloat80 a x).reports = s.reports := by
  unfold storeExtendedFloat80 M68kiCpu.write32 write16
  rfl

variable (s) (ea)

theorem reads_8 :
    Reads (eaMode ea = 0 ∨ (eaMode ea = 7 ∧ eaReg ea = 4) ∨ eaKnown [2, 3, 4, 5, 6] [0, 1] ea) s ea 0
      (s.readEa8 ea) := by
  unfold readEa8
  exact ((Reads.address s ea 1 [2, 3, 4, 5, 6] [0, 1] (fun p => p.2.read8 p.1) (by decide)).immediate
      ⟨_, rfl⟩).mode 0 (by decide)

theorem reads_16 :
    Reads (eaMode ea = 0 ∨ (eaMode ea = 7 ∧ eaReg ea = 4) ∨ eaKnown [2, 3, 4, 5, 6] [0, 1] ea) s ea 0
      (s.readEa16 ea) := by
  unfold readEa16
  exact ((Reads.address s ea 2 [2, 3, 4, 5, 6] [0, 1] (fun p => p.2.read16 p.1) (by decide)).immediate
      ⟨_, rfl⟩).mode 0 (by decide)

theorem reads_32 :
    Reads (eaMode ea = 0 ∨ (eaMode ea = 7 ∧ eaReg ea = 4) ∨ eaKnown [2, 3, 4, 5, 6] [0, 1, 2] ea) s
      ea 0 (s.readEa32 ea) := by
  unfold readEa32
  exact ((Reads.address s ea 4 [2, 3, 4, 5, 6] [0, 1, 2] (fun p => p.2.read32 p.1) (by decide)).immediate
      ⟨_, rfl⟩).mode 0 (by decide)

theorem reads_64 :
    Reads ((eaMode ea = 7 ∧ eaReg ea = 4) ∨ eaKnown [2, 3, 4, 5, 6] [1, 2] ea) s ea 0
      (s.readEa64 ea) := by
  unfold readEa64
  exact (Reads.address s ea 8 [2, 3, 4, 5, 6] [1, 2]
      (fun p => long64 (p.2.read32 p.1) (p.2.read32 (p.1 + 4))) (by decide)).immediate ⟨_, rfl⟩

theorem reads_fpe (di : UInt32) :
    Reads (eaMode ea = 5 ∨ (eaMode ea = 7 ∧ eaReg ea = 4) ∨ eaKnown [2, 3, 4, 6] [1, 2, 3] ea) s ea
      ⟨0, 0⟩ (s.readEaFpe ea di) := by
  unfold readEaFpe
  exact ((Reads.address s ea 12 [2, 3, 4, 6] [1, 2, 3] (fun p => p.2.loadExtendedFloat80 p.1)
      (by decide)).immediate ⟨_, rfl⟩).mode 5 (by decide)

theorem reads_pack : Reads (eaKnown [2, 3, 4] [3] ea) s ea none (s.readEaPack ea) := by
  unfold readEaPack
  exact Reads.address s ea 12 [2, 3, 4] [3] (fun p => some (take p.2.memory p.1 12)) (by decide)

theorem writes_8 (data : UInt8) :
    Writes (eaMode ea = 0 ∨ eaKnown [2, 3, 4, 5, 6] [1, 2] ea) s (s.writeEa8 ea data) := by
  unfold writeEa8
  exact (Writes.address s ea 1 [2, 3, 4, 5, 6] [1, 2] (fun p => p.2.write8 p.1 data) (by decide)
      fun _ => rfl).mode 0 (s.setD (eaReg ea) data.toUInt32) rfl

theorem writes_16 (data : UInt16) :
    Writes (eaMode ea = 0 ∨ eaKnown [2, 3, 4, 5, 6] [1, 2] ea) s (s.writeEa16 ea data) := by
  unfold writeEa16
  exact (Writes.address s ea 2 [2, 3, 4, 5, 6] [1, 2] (fun p => p.2.write16 p.1 data) (by decide)
      fun _ => rfl).mode 0 (s.setD (eaReg ea) data.toUInt32) rfl

theorem writes_32 (data : UInt32) :
    Writes (eaMode ea = 0 ∨ eaMode ea = 1 ∨ eaKnown [2, 3, 4, 5, 6] [1, 2] ea) s
      (s.writeEa32 ea data) := by
  unfold writeEa32
  exact ((Writes.address s ea 4 [2, 3, 4, 5, 6] [1, 2] (fun p => p.2.write32 p.1 data) (by decide)
      fun _ => rfl).mode 1 (s.setA (eaReg ea) data) rfl).mode 0 (s.setD (eaReg ea) data) rfl

theorem writes_64 (data : UInt64) :
    Writes (eaKnown [2, 3, 4, 5, 6] [1, 2] ea) s (s.writeEa64 ea data) := by
  unfold writeEa64
  exact Writes.address s ea 8 [2, 3, 4, 5, 6] [1, 2]
      (fun p => (p.2.write32 p.1 (data >>> 32).toUInt32).write32 (p.1 + 4) data.toUInt32) (by decide)
      fun _ => rfl

theorem writes_fpe (x : Floatx80) (di : UInt32) :
    Writes (eaMode ea = 5 ∨ eaKnown [2, 3, 4] [1] ea) s (s.writeEaFpe ea x di) := by
  unfold writeEaFpe
  have haddress := Writes.address s ea 12 [2, 3, 4] [1] (fun p => p.2.storeExtendedFloat80 p.1 x)
    (by decide) fun p => reports_storeExtendedFloat80 p.2 p.1 x
  exact haddress.mode 5 (s.storeExtendedFloat80 di x) (reports_storeExtendedFloat80 s di x)

theorem writes_pack (packed : List UInt8 × UInt8) :
    Writes (eaKnown [2, 3, 4] [] ea) s (s.writeEaPack ea packed) := by
  unfold writeEaPack
  exact Writes.address s ea 12 [2, 3, 4] []
    (fun p => { p.2 with
      memory := put p.2.memory p.1 packed.1
      floatExceptionFlags := p.2.floatExceptionFlags ||| packed.2 })
    (by decide) fun _ => rfl

end

end CuteMac.Fpu
