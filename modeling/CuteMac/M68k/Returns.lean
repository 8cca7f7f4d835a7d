/-
  Every exception can be returned from.

  * `Framed`: a frame has been pushed, and these bytes are on its top;
  * `rteFrame_eq`: what is popped of a frame;
  * `Handled`: a handler has come to its end;
  * `opRte_resumes`: the return gives back the status, the program counter and the stack
    pointers of the interrupted program.
-/
import CuteMac.M68k.Exceptions
import CuteMac.M68k.StatusRegister

namespace CuteMac.M68k

open ByteMemory Core WordBits

namespace M68kiCpu

/-! ## Pushing -/

def withStack (s : M68kiCpu) (sp : UInt32) (memory : Memory) : M68kiCpu :=
  { s with dar := Function.update s.dar 15 sp, memory }

@[simp] theorem regSp_withStack (s : M68kiCpu) (sp : UInt32) (m : Memory) :
    (s.withStack sp m).regSp = sp := by
  exact Function.update_self (15 : Fin 16) sp s.dar

@[simp] theorem memory_withStack (s : M68kiCpu) (sp : UInt32) (m : Memory) :
    (s.withStack sp m).memory = m := rfl

theorem withStack_withStack (s : M68kiCpu) (sp sp' : UInt32) (m m' : Memory) :
    (s.withStack sp m).withStack sp' m' = s.withStack sp' m' := by
  unfold withStack
  rw [Function.update_idem]

theorem withStack_self (s : M68kiCpu) : s.withStack s.regSp s.memory = s := by
  have hdar : Function.update s.dar 15 (s.dar 15) = s.dar := Function.update_eq_self 15 s.dar
  unfold withStack regSp
  rw [hdar]

/-- `n` bytes have been pushed, `bs` are on the top of them, and nothing else has changed. -/
structure Framed (s s' : M68kiCpu) (n : Nat) (bs : List UInt8) : Prop where
  regSp : s'.regSp = s.regSp - UInt32.ofNat n
  top : take s'.memory s'.regSp bs.length = bs
  room : bs.length ≤ n
  small : n ≤ 1024
  below : ∀ a, n ≤ (a - s'.regSp).toNat → s'.memory a = s.memory a
  other : s' = s.withStack s'.regSp s'.memory

section
variable {s s' : M68kiCpu} {n k : Nat} {bs : List UInt8}

theorem Framed.refl (s : M68kiCpu) : Framed s s 0 [] :=
  ⟨(UInt32.sub_zero _).symm, rfl, Nat.le_refl 0, Nat.zero_le _, fun _ _ => rfl,
    (withStack_self s).symm⟩

theorem sub_sub_ofNat (a : UInt32) (n k : Nat) :
    a - UInt32.ofNat n - UInt32.ofNat k = a - UInt32.ofNat (n + k) := by
  rw [UInt32.ofNat_add, UInt32.sub_eq_add_neg, UInt32.sub_eq_add_neg, UInt32.sub_eq_add_neg,
    UInt32.neg_add, UInt32.sub_eq_add_neg, UInt32.add_assoc]

/-- An address above a pushed run is as far above what was there before. -/
theorem toNat_sub_above {a b : UInt32} {k : Nat} (hk : k ≤ 1024)
    (h : k ≤ (a - (b - UInt32.ofNat k)).toNat) :
    (a - b).toNat = (a - (b - UInt32.ofNat k)).toNat - k := by
  have ha := a.toNat_lt
  have hb := b.toNat_lt
  rw [UInt32.toNat_sub, UInt32.toNat_sub, UInt32.toNat_ofNat'] at h
  rw [UInt32.toNat_sub, UInt32.toNat_sub, UInt32.toNat_sub, UInt32.toNat_ofNat']
  omega

/-- Room is made on a frame, and its memory is kept from there on. -/
theorem Framed.extend (h : Framed s s' n bs) {m : Memory} {cs : List UInt8} (hk : n + k ≤ 1024)
    (hkeep : ∀ a, k ≤ (a - (s'.regSp - UInt32.ofNat k)).toNat → m a = s'.memory a)
    (htop : take m (s'.regSp - UInt32.ofNat k) cs.length = cs) (hroom : cs.length ≤ n + k) :
    Framed s (s'.withStack (s'.regSp - UInt32.ofNat k) m) (n + k) cs := by
  have hsp : (s'.withStack (s'.regSp - UInt32.ofNat k) m).regSp = s.regSp - UInt32.ofNat (n + k) := by
    rw [regSp_withStack, h.regSp, sub_sub_ofNat]
  refine ⟨hsp, ?_, hroom, hk, ?_, ?_⟩
  · rw [regSp_withStack]
    exact htop
  · intro a ha
    rw [regSp_withStack] at ha
    have habove := toNat_sub_above (by omega) (le_trans (Nat.le_add_left k n) ha)
    exact (hkeep a (by omega)).trans (h.below a (by omega))
  · rw [regSp_withStack, memory_withStack]
    refine (congrArg (fun r => withStack r (s'.regSp - UInt32.ofNat k) m) h.other).trans ?_
    exact withStack_withStack ..

theorem Framed.push (h : Framed s s' n bs) (cs : List UInt8) (hk : n + cs.length ≤ 1024) :
    Framed s (s'.withStack (s'.regSp - UInt32.ofNat cs.length)
      (put s'.memory (s'.regSp - UInt32.ofNat cs.length) cs)) (n + cs.length) (cs ++ bs) := by
  have hroom := h.room
  have hkeep : ∀ a, cs.length ≤ (a - (s'.regSp - UInt32.ofNat cs.length)).toNat →
      put s'.memory (s'.regSp - UInt32.ofNat cs.length) cs a = s'.memory a := by
    intro a ha
    rw [put_apply (by omega), List.getElem?_eq_none ha, Option.getD_none]
  refine h.extend hk hkeep ?_ (by rw [List.length_append]; omega)
  rw [List.length_append, take_add, take_put (by omega), UInt32.sub_add_cancel]
  have hsame : take (put s'.memory (s'.regSp - UInt32.ofNat cs.length) cs) s'.regSp bs.length
      = take s'.memory s'.regSp bs.length := by
    refine take_congr fun i hi => hkeep _ ?_
    have hsp := s'.regSp.toNat_lt
    rw [UInt32.toNat_sub, UInt32.toNat_sub, UInt32.toNat_add, UInt32.toNat_ofNat',
      UInt32.toNat_ofNat']
    omega
  rw [hsame, h.top]

theorem Framed.skip (h : Framed s s' n bs) (k : Nat) (hk : n + k ≤ 1024) :
    Framed s (s'.withStack (s'.regSp - UInt32.ofNat k) s'.memory) (n + k) [] :=
  h.extend hk (fun _ _ => rfl) rfl (Nat.zero_le _)

theorem Framed.push16 (h : Framed s s' n bs) (value : UInt32) (hk : n + 2 ≤ 1024) :
    Framed s (s'.push16 value) (n + 2) (bytesOf value.toNat 2 ++ bs) := by
  have hpush := h.push (bytesOf value.toNat 2) (by rw [length_bytesOf]; exact hk)
  rw [length_bytesOf] at hpush
  have heq : s'.push16 value = s'.withStack (s'.regSp - 2)
      (put s'.memory (s'.regSp - 2) (bytesOf value.toNat 2)) := by
    show (s'.setRegSp (s'.regSp - 2)).write16 (s'.setRegSp (s'.regSp - 2)).regSp value = _
    rw [show (s'.setRegSp (s'.regSp - 2)).regSp = s'.regSp - 2 from
      Function.update_self (15 : Fin 16) _ s'.dar]
    rfl
  rw [heq]
  exact hpush

theorem Framed.push32 (h : Framed s s' n bs) (value : UInt32) (hk : n + 4 ≤ 1024) :
    Framed s (s'.push32 value) (n + 4) (bytesOf value.toNat 4 ++ bs) := by
  have hpush := h.push (bytesOf value.toNat 4) (by rw [length_bytesOf]; exact hk)
  rw [length_bytesOf] at hpush
  have heq : s'.push32 value = s'.withStack (s'.regSp - 4)
      (put s'.memory (s'.regSp - 4) (bytesOf value.toNat 4)) := by
    show (s'.setRegSp (s'.regSp - 4)).write32 (s'.setRegSp (s'.regSp - 4)).regSp value = _
    rw [show (s'.setRegSp (s'.regSp - 4)).regSp = s'.regSp - 4 from
      Function.update_self (15 : Fin 16) _ s'.dar]
    rfl
  rw [heq]
  exact hpush

theorem Framed.fakePush16 (h : Framed s s' n bs) (hk : n + 2 ≤ 1024) :
    Framed s s'.fakePush16 (n + 2) [] := h.skip 2 hk

theorem Framed.fakePushes32 (h : Framed s s' n bs) (count : Nat) (hk : n + 4 * count ≤ 1024)
    (hpos : 0 < count) : Framed s (s'.fakePushes32 count) (n + 4 * count) [] := by
  induction count generalizing s' n bs with
  | zero => exact absurd hpos (Nat.lt_irrefl 0)
  | succ count ih =>
    have hfirst : Framed s s'.fakePush32 (n + 4) [] := h.skip 4 (by omega)
    rcases Nat.eq_zero_or_pos count with rfl | hcount
    · exact hfirst
    · have hrest := ih hfirst (by omega) hcount
      rw [show n + 4 * (count + 1) = n + 4 + 4 * count by omega]
      exact hrest

/-- What is below the top of a frame is not looked at. -/
theorem Framed.forget (h : Framed s s' n bs) : Framed s s' n [] :=
  ⟨h.regSp, rfl, Nat.zero_le _, h.small, h.below, h.other⟩

theorem Framed.pushes32 (h : Framed s s' n bs) (value : UInt32) (count : Nat)
    (hk : n + 4 * count ≤ 1024) : Framed s (s'.pushes32 value count) (n + 4 * count) [] := by
  induction count generalizing s' n bs with
  | zero => exact h.forget
  | succ count ih =>
    have hrest := ih (h.push32 value (by omega)) (by omega)
    rw [show n + 4 * (count + 1) = n + 4 + 4 * count by omega]
    exact hrest

/-! ## Frames -/

/-- The status register and the program counter, and the format with the vector where there is
    one. -/
def frameTop (cpuType : CpuType) (sr pc formatWord : UInt32) : List UInt8 :=
  bytesOf sr.toNat 2 ++ (bytesOf pc.toNat 4 ++
    if cpuType.is000 then [] else bytesOf formatWord.toNat 2)

theorem Framed.header (h : Framed s s' n bs) (sr pc formatWord : UInt32) (hk : n + 8 ≤ 1024) :
    Framed s (((s'.push16 formatWord).push32 pc).push16 sr) (n + 8)
      (frameTop s.cpuType sr pc formatWord) := by
  have hall := ((h.push16 formatWord (by omega)).push32 pc (by omega)).push16 sr (by omega)
  have hsub : ∃ rest, bytesOf sr.toNat 2 ++ (bytesOf pc.toNat 4 ++ (bytesOf formatWord.toNat 2 ++ bs))
      = frameTop s.cpuType sr pc formatWord ++ rest := by
    unfold frameTop
    cases s.cpuType.is000 with
    | true => exact ⟨bytesOf formatWord.toNat 2 ++ bs, by simp⟩
    | false => exact ⟨bs, by simp⟩
  obtain ⟨rest, hrest⟩ := hsub
  rw [hrest] at hall
  have htop := hall.top
  have hroom := hall.room
  rw [List.length_append, take_add] at htop
  rw [List.length_append] at hroom
  exact ⟨hall.regSp, (List.append_inj htop (length_take ..)).1, by omega, hall.small, hall.below,
    hall.other⟩

/-- The bytes that the return takes off, by the processor and the format word. -/
def popSize (cpuType : CpuType) (formatWord : UInt32) : Option Nat :=
  if cpuType.is000 then some 6
  else if cpuType.is010 then
    if formatWord >>> 12 = 0 then some 8
    else if formatWord >>> 12 = 8 then some 58
    else none
  else if formatWord >>> 12 = 0 then some 8
  else if formatWord >>> 12 = 2 then some 12
  else if formatWord >>> 12 = 7 then some 60
  else if formatWord >>> 12 = 10 then some 32
  else if formatWord >>> 12 = 11 then some 92
  else none

theorem framed_0000 (s : M68kiCpu) (pc sr vector : UInt32) :
    Framed s (s.stackFrame0000 pc sr vector) (if s.cpuType.is000 then 6 else 8)
      (frameTop s.cpuType sr pc (vector <<< 2)) := by
  have h0 := Framed.refl s
  by_cases ht : s.cpuType = .m68000
  · have h000 : s.cpuType.is000 = true := by rw [ht]; rfl
    rw [stackFrame0000, if_pos ht, if_pos h000, frameTop, if_pos h000]
    exact (h0.push32 pc (by omega)).push16 sr (by omega)
  · have h000 : s.cpuType.is000 = false := by
      revert ht
      cases s.cpuType <;> first | exact fun _ => rfl | exact fun h => absurd rfl h
    rw [stackFrame0000, if_neg ht, h000]
    exact h0.header sr pc _ (by omega)

theorem framed_0010 (s : M68kiCpu) (sr vector : UInt32) :
    Framed s (s.stackFrame0010 sr vector) 12
      (frameTop s.cpuType sr s.pc ((0x2000 : UInt32) ||| (vector <<< 2))) :=
  ((Framed.refl s).push32 s.ppc (by omega)).header sr s.pc _ (by omega)

theorem framed_1000 (s : M68kiCpu) (pc sr vector : UInt32) :
    Framed s (s.stackFrame1000 pc sr vector) 58
      (frameTop s.cpuType sr pc ((0x8000 : UInt32) ||| (vector <<< 2))) := by
  have h1 := (Framed.refl s).fakePushes32 8 (by omega) (by omega)
  have h2 := (h1.push16 0 (by omega)).fakePush16 (by omega)
  have h3 := (h2.push16 0 (by omega)).fakePush16 (by omega)
  have h4 := (h3.push16 0 (by omega)).fakePush16 (by omega)
  exact ((h4.push32 0 (by omega)).push16 0 (by omega)).header sr pc _ (by omega)

theorem framed_1010 (s : M68kiCpu) (sr vector pc faultAddress ssw : UInt32) :
    Framed s (s.stackFrame1010 sr vector pc faultAddress ssw) 32
      (frameTop s.cpuType sr pc ((0xa000 : UInt32) ||| (vector <<< 2))) := by
  have h1 := ((Framed.refl s).push16 0 (by omega)).push16 0 (by omega)
  have h2 := ((h1.push32 0 (by omega)).push16 0 (by omega)).push16 0 (by omega)
  have h3 := ((h2.push32 faultAddress (by omega)).push16 0 (by omega)).push16 0 (by omega)
  exact ((h3.push16 ssw (by omega)).push16 0 (by omega)).header sr pc _ (by omega)

theorem framed_1011 (s : M68kiCpu) (sr vector pc faultAddress ssw : UInt32) :
    Framed s (s.stackFrame1011 sr vector pc faultAddress ssw) 92
      (frameTop s.cpuType sr pc ((0xb000 : UInt32) ||| (vector <<< 2))) := by
  have h1 := ((Framed.refl s).pushes32 0 9 (by omega)).push16 0 (by omega)
  have h2 := ((h1.push32 0 (by omega)).push16 0 (by omega)).push32 0 (by omega)
  have h3 := (h2.push32 0 (by omega)).push32 0 (by omega)
  have h4 := (h3.pushes32 0 2 (by omega)).push32 0 (by omega)
  have h5 := ((h4.push16 0 (by omega)).push16 0 (by omega)).push32 faultAddress (by omega)
  have h6 := (h5.push16 0 (by omega)).push16 0 (by omega)
  exact ((h6.push16 ssw (by omega)).push16 0 (by omega)).header sr pc _ (by omega)

theorem framed_0111 (s : M68kiCpu) (sr vector pc faultAddress ssw : UInt32) :
    Framed s (s.stackFrame0111 sr vector pc faultAddress ssw) 60
      (frameTop s.cpuType sr pc ((0x7000 : UInt32) ||| (vector <<< 2))) := by
  have h1 := ((Framed.refl s).fakePushes32 9 (by omega) (by omega)).push32 faultAddress (by omega)
  have h2 := ((h1.push16 0 (by omega)).push16 0 (by omega)).push16 0 (by omega)
  exact ((h2.push16 ssw (by omega)).push32 faultAddress (by omega)).header sr pc _ (by omega)

/-! ## Popping -/

@[simp] theorem regSp_setRegSp (s : M68kiCpu) (value : UInt32) : (s.setRegSp value).regSp = value := by
  exact Function.update_self (15 : Fin 16) value s.dar

@[simp] theorem memory_setRegSp (s : M68kiCpu) (value : UInt32) :
    (s.setRegSp value).memory = s.memory := rfl

@[simp] theorem setRegSp_setRegSp (s : M68kiCpu) (value value' : UInt32) :
    (s.setRegSp value).setRegSp value' = s.setRegSp value' := withStack_withStack s value value' _ _

theorem read16_of_take {a value : UInt32} (h : take s.memory a 2 = bytesOf value.toNat 2) :
    s.read16 a = UInt32.ofNat (value.toNat % 65536) := by
  rw [read16, h, bigEndian_bytesOf]
  rfl

theorem read32_of_take {a value : UInt32} (h : take s.memory a 4 = bytesOf value.toNat 4) :
    s.read32 a = value := by
  have hlt : value.toNat < 256 ^ 4 := value.toNat_lt
  rw [read32, h, bigEndian_bytesOf, Nat.mod_eq_of_lt hlt, UInt32.ofNat_toNat]

/-- What is on the top of the stack. -/
def Top (s : M68kiCpu) (bs : List UInt8) : Prop := take s.memory s.regSp bs.length = bs

theorem Top.append {bs cs : List UInt8} (h : s.Top (bs ++ cs)) :
    s.Top bs ∧ take s.memory (s.regSp + UInt32.ofNat bs.length) cs.length = cs := by
  unfold Top at h
  rw [List.length_append, take_add] at h
  exact List.append_inj h (length_take ..)

/-- The program counter and the status register are those of the frame. -/
def resume (s : M68kiCpu) (n : Nat) (sr pc : UInt32) : M68kiCpu :=
  ((s.setRegSp (s.regSp + UInt32.ofNat n)).jump pc).setSrNoint sr

theorem rteFrame_eq {sr pc rest : UInt32} {tail : List UInt8} {n : Nat} (hsr : sr.toNat < 65536)
    (htop : s.Top (bytesOf sr.toNat 2 ++ (bytesOf pc.toNat 4 ++ tail)))
    (hn : UInt32.ofNat n = 6 + rest) :
    s.rteFrame rest = (s.resume n sr pc).checkInterrupts.running := by
  obtain ⟨hfirst, hrest⟩ := htop.append
  have hpc : take s.memory (s.regSp + 2) 4 = bytesOf pc.toNat 4 := by
    rw [length_bytesOf, List.length_append, length_bytesOf, take_add] at hrest
    exact (List.append_inj hrest (by rw [length_take, length_bytesOf])).1
  have hword : s.read16 s.regSp = sr := by
    unfold Top at hfirst
    rw [length_bytesOf] at hfirst
    rw [read16_of_take hfirst, Nat.mod_eq_of_lt hsr, UInt32.ofNat_toNat]
  have h16 : s.pull16 = (sr, s.setRegSp (s.regSp + 2)) := by
    have hval : (s.setRegSp (s.regSp + 2)).read16 ((s.setRegSp (s.regSp + 2)).regSp - 2) = sr := by
      rw [regSp_setRegSp, UInt32.add_sub_cancel]
      exact hword
    exact congrArg₂ Prod.mk hval rfl
  have h32 : (s.setRegSp (s.regSp + 2)).pull32 = (pc, s.setRegSp (s.regSp + 2 + 4)) := by
    have hnext : (s.setRegSp (s.regSp + 2)).setRegSp ((s.setRegSp (s.regSp + 2)).regSp + 4)
        = s.setRegSp (s.regSp + 2 + 4) := by rw [regSp_setRegSp, setRegSp_setRegSp]
    have hval : (s.setRegSp (s.regSp + 2 + 4)).read32 ((s.setRegSp (s.regSp + 2 + 4)).regSp - 4)
        = pc := by
      rw [regSp_setRegSp, UInt32.add_sub_cancel]
      exact read32_of_take hpc
    unfold pull32
    rw [hnext]
    exact congrArg₂ Prod.mk hval rfl
  have hadd : s.regSp + 2 + 4 + rest = s.regSp + UInt32.ofNat n := by
    rw [hn, UInt32.add_assoc, UInt32.add_assoc, ← UInt32.add_assoc 2]
    rfl
  rw [rteFrame, h16]
  simp only [h32, regSp_setRegSp, setRegSp_setRegSp, hadd]
  rfl

/-- The format word on the stack. -/
theorem formatWord_of_top {sr pc formatWord : UInt32} (h000 : s.cpuType.is000 = false)
    (hf : formatWord.toNat < 65536) (htop : s.Top (frameTop s.cpuType sr pc formatWord)) :
    s.read16 (s.regSp + 6) = formatWord := by
  unfold frameTop at htop
  rw [h000, ← List.append_assoc] at htop
  obtain ⟨-, hword⟩ := htop.append
  rw [List.length_append, length_bytesOf, length_bytesOf] at hword
  have hread : take s.memory (s.regSp + 6) 2 = bytesOf formatWord.toNat 2 := by
    rw [if_neg Bool.false_ne_true, length_bytesOf] at hword
    exact hword
  rw [read16_of_take hread, Nat.mod_eq_of_lt hf, UInt32.ofNat_toNat]

/-- A frame that the processor knows is taken off, and an interrupt that waits may follow. -/
theorem opRte_of_popSize {sr pc formatWord : UInt32} (hs : s.sFlag ≠ 0) (hsr : sr.toNat < 65536)
    (hf : formatWord.toNat < 65536) (htop : s.Top (frameTop s.cpuType sr pc formatWord))
    (hpop : popSize s.cpuType formatWord = some n) (rounds : Nat) :
    s.opRte (rounds + 1) = some (s.resume n sr pc).checkInterrupts.running := by
  have hframe : ∀ rest : UInt32, UInt32.ofNat n = 6 + rest →
      s.rteFrame rest = (s.resume n sr pc).checkInterrupts.running :=
    fun rest hn => rteFrame_eq hsr htop hn
  unfold popSize at hpop
  unfold opRte
  rw [if_neg hs]
  by_cases h000 : s.cpuType.is000
  · rw [if_pos h000] at hpop ⊢
    cases hpop
    rw [hframe 0 rfl]
  · have hword := formatWord_of_top (Bool.eq_false_iff.2 h000) hf htop
    rw [if_neg h000] at hpop ⊢
    by_cases h010 : s.cpuType.is010
    · rw [if_pos h010] at hpop ⊢
      simp only [hword]
      split_ifs at hpop with h0 h8
      · cases hpop
        rw [if_pos h0, hframe 2 rfl]
      · cases hpop
        rw [if_neg h0, if_pos h8, hframe _ rfl]
    · rw [if_neg h010] at hpop ⊢
      rw [rteLoop]
      simp only [hword]
      split_ifs at hpop with h0 h2 h7 h10 h11
      · cases hpop
        rw [if_pos h0, hframe 2 rfl]
      · cases hpop
        rw [if_neg h0, if_neg (by rw [h2]; decide), if_pos h2, hframe 6 rfl]
      · cases hpop
        rw [if_neg h0, if_neg (by rw [h7]; decide), if_neg h2, if_pos h7, hframe _ rfl]
      · cases hpop
        rw [if_neg h0, if_neg (by rw [h10]; decide), if_neg h2, if_neg h7, if_pos h10, hframe _ rfl]
      · cases hpop
        rw [if_neg h0, if_neg (by rw [h11]; decide), if_neg h2, if_neg h7, if_neg h10, if_pos h11,
          hframe _ rfl]

/-- A throwaway frame only gives its status register. -/
theorem opRte_throwaway {sr pc formatWord : UInt32} (hs : s.sFlag ≠ 0) (hsr : sr.toNat < 65536)
    (h000 : s.cpuType.is000 = false) (h010 : s.cpuType.is010 = false)
    (hf : formatWord.toNat < 65536) (h1 : formatWord >>> 12 = 1)
    (htop : s.Top (frameTop s.cpuType sr pc formatWord)) (rounds : Nat) :
    s.opRte (rounds + 1) = ((s.setRegSp (s.regSp + 8)).setSrNoint sr).rteLoop rounds := by
  have hword := formatWord_of_top h000 hf htop
  obtain ⟨hfirst, -⟩ := htop.append
  have hval : (s.setRegSp (s.regSp + 2)).read16 ((s.setRegSp (s.regSp + 2)).regSp - 2) = sr := by
    rw [regSp_setRegSp, UInt32.add_sub_cancel]
    unfold Top at hfirst
    rw [length_bytesOf] at hfirst
    refine (read16_of_take hfirst).trans ?_
    rw [Nat.mod_eq_of_lt hsr, UInt32.ofNat_toNat]
  have h16 : s.pull16 = (sr, s.setRegSp (s.regSp + 2)) := congrArg₂ Prod.mk hval rfl
  have hadd : s.regSp + 2 + 4 + 2 = s.regSp + 8 := by
    rw [UInt32.add_assoc, UInt32.add_assoc]
    rfl
  rw [opRte, if_neg hs, if_neg (Bool.eq_false_iff.1 h000), if_neg (Bool.eq_false_iff.1 h010), rteLoop]
  simp only [hword, h1, h16]
  rw [if_neg (by decide), if_pos trivial]
  simp only [fakePull32, fakePull16, regSp_setRegSp, setRegSp_setRegSp, hadd]

/-! ## Waiting for the return -/

/-- A frame of `n` bytes with the status of `s` waits to be taken off. -/
structure Waits (s e : M68kiCpu) (pc : UInt32) (n : Nat) (formatWord : UInt32) : Prop where
  wf : e.Wf
  cpuType : e.cpuType = s.cpuType
  srMask : e.srMask = s.srMask
  supervisor : e.status.s = true
  master : e.status.m = s.status.m
  getReg : e.getReg = Function.update s.getReg e.status.active
    (s.getReg e.status.active - UInt32.ofNat n)
  top : e.Top (frameTop s.cpuType s.status.word pc formatWord)
  pop : popSize s.cpuType formatWord = some n
  small : formatWord.toNat < 65536

/-- The interrupted program goes on at `pc`, with the registers and the memory of `t`. -/
structure Resumed (s : M68kiCpu) (pc : UInt32) (t u : M68kiCpu) : Prop where
  wf : u.Wf
  status : u.status = s.status
  pc : u.pc = pc
  getReg : u.getReg = s.getReg
  dar : ∀ reg, reg ≠ 15 → u.dar reg = t.dar reg
  memory : u.memory = t.memory
  cpuType : u.cpuType = s.cpuType
  srMask : u.srMask = s.srMask
  interrupts : u.nmiPending = t.nmiPending ∧ u.intLevel = t.intLevel

/-- What the stack pointers depend on. -/
theorem getReg_congr {s s' : M68kiCpu} (hdar : s'.dar 15 = s.dar 15) (hsp : s'.sp = s.sp)
    (hflags : s'.systemFlags = s.systemFlags) : s'.getReg = s.getReg := by
  simp only [systemFlags, List.cons.injEq, and_true] at hflags
  obtain ⟨-, -, hs, hm, -, -⟩ := hflags
  funext r
  cases r <;> simp only [M68kiCpu.getReg, M68kiCpu.regSp, hs, hm, hdar, hsp]

theorem active_congr {s s' : M68kiCpu} (hflags : s'.systemFlags = s.systemFlags) :
    s'.status.s = s.status.s ∧ s'.status.m = s.status.m := by
  simp only [systemFlags, List.cons.injEq, and_true] at hflags
  obtain ⟨-, -, hs, hm, -, -⟩ := hflags
  unfold M68kiCpu.status
  rw [hs, hm]
  exact ⟨rfl, rfl⟩

theorem active_eq_of {st st' : Status} (hs : st'.s = st.s) (hm : st'.m = st.m) :
    st'.active = st.active := by
  unfold Status.active
  rw [hs, hm]

/-- A supervisor with the stack pointers and the kind of `s`, before the frame. -/
structure Entering (s i : M68kiCpu) : Prop where
  wf : i.Wf
  cpuType : i.cpuType = s.cpuType
  srMask : i.srMask = s.srMask
  supervisor : i.status.s = true
  master : i.status.m = s.status.m
  getReg : i.getReg = s.getReg

theorem waits_of_framed {i f e : M68kiCpu} {pc formatWord : UInt32} (hi : Entering s i)
    (hf : Framed i f n (frameTop i.cpuType s.status.word pc formatWord))
    (hpop : popSize s.cpuType formatWord = some n) (hsmall : formatWord.toNat < 65536)
    (hdar : e.dar = f.dar) (hsp : e.sp = f.sp) (hflags : e.systemFlags = f.systemFlags)
    (hmem : e.memory = f.memory) (hcpu : e.cpuType = f.cpuType) : Waits s e pc n formatWord := by
  have hfi : f.systemFlags = i.systemFlags := by
    rw [hf.other]
    rfl
  have hall : e.systemFlags = i.systemFlags := hflags.trans hfi
  obtain ⟨hsup, hmaster⟩ := active_congr hall
  have hactive := active_eq_of hsup hmaster
  have hregs : e.getReg = (i.setRegSp f.regSp).getReg := by
    refine getReg_congr ?_ ?_ hall
    · rw [hdar]
      exact (regSp_setRegSp i f.regSp).symm
    · rw [hsp, hf.other]
      rfl
  have hmask : e.srMask = i.srMask := by
    simp only [systemFlags, List.cons.injEq, and_true] at hall
    exact hall.2.2.2.2.2
  have hkind : f.cpuType = i.cpuType := by
    rw [hf.other]
    rfl
  refine ⟨hi.wf.of_flags hall, (hcpu.trans hkind).trans hi.cpuType, hmask.trans hi.srMask,
    hsup.trans hi.supervisor, hmaster.trans hi.master, ?_, ?_, hpop, hsmall⟩
  · rw [hregs, getReg_setRegSp, hactive, hf.regSp, ← getReg_active i, hi.getReg]
  · unfold Top
    rw [← hi.cpuType, hmem, show e.regSp = f.regSp from congrFun hdar 15]
    exact hf.top

theorem resumed_resume {t : M68kiCpu} {pc : UInt32} (hs : s.Wf) (ht : t.Wf)
    (hcpu : t.cpuType = s.cpuType) (hmask : t.srMask = s.srMask)
    (hregs : Function.update t.getReg t.status.active (t.regSp + UInt32.ofNat n) = s.getReg) :
    Resumed s pc t (t.resume n s.status.word pc) := by
  have hwf : ((t.setRegSp (t.regSp + UInt32.ofNat n)).jump pc).Wf := ht.of_flags rfl
  refine ⟨wf_setSrNoint hwf _, ?_, rfl, ?_, ?_, rfl, hcpu, hmask, rfl, rfl⟩
  · rw [resume, status_setSrNoint]
    show Status.ofWord (s.status.word &&& t.srMask) = s.status
    rw [hmask, word_and_srMask hs, Status.ofWord_word]
  · funext r
    rw [resume, getReg_setSrNoint hwf]
    refine (congrFun (getReg_congr (s := t.setRegSp (t.regSp + UInt32.ofNat n)) rfl rfl rfl) r).trans ?_
    rw [getReg_setRegSp, hregs]
  · intro reg hreg
    show Function.update (Function.update t.dar 15 _) 15 _ reg = t.dar reg
    rw [Function.update_of_ne hreg, Function.update_of_ne hreg]

theorem sFlag_of_supervisor {t : M68kiCpu} (h : t.status.s = true) : t.sFlag ≠ 0 :=
  bne_iff_ne.1 h

/-- The return takes the frame off. -/
theorem Waits.opRte {t : M68kiCpu} {pc formatWord : UInt32} (h : Waits s t pc n formatWord)
    (hs : s.Wf) (rounds : Nat) :
    ∃ u, t.opRte (rounds + 1) = some u.checkInterrupts.running ∧ Resumed s pc t u := by
  have htop := h.top
  have hpop := h.pop
  rw [← h.cpuType] at htop hpop
  refine ⟨t.resume n s.status.word pc, opRte_of_popSize (sFlag_of_supervisor h.supervisor)
    (Status.word_lt _) h.small htop hpop rounds, resumed_resume hs h.wf h.cpuType h.srMask ?_⟩
  rw [← getReg_active t, h.getReg, Function.update_self, UInt32.sub_add_cancel, Function.update_idem,
    Function.update_eq_self]

/-! ## The exceptions -/

theorem Entering.congr {i i' : M68kiCpu} (h : Entering s i) (hdar : i'.dar = i.dar)
    (hsp : i'.sp = i.sp) (hflags : i'.systemFlags = i.systemFlags) (hcpu : i'.cpuType = i.cpuType) :
    Entering s i' := by
  obtain ⟨hsup, hmaster⟩ := active_congr hflags
  have hmask : i'.srMask = i.srMask := by
    simp only [systemFlags, List.cons.injEq, and_true] at hflags
    exact hflags.2.2.2.2.2
  exact ⟨h.wf.of_flags hflags, hcpu.trans h.cpuType, hmask.trans h.srMask,
    hsup.trans h.supervisor, hmaster.trans h.master,
    (getReg_congr (congrFun hdar 15) hsp hflags).trans h.getReg⟩

theorem entering_initException (h : s.Wf) : Entering s s.initException.2 :=
  ⟨wf_initException h, rfl, rfl, rfl, rfl, funext (getReg_initException h)⟩

theorem entering_noInstruction {i : M68kiCpu} (h : Entering s i) : Entering s i.noInstruction := by
  unfold noInstruction
  split_ifs
  · exact h.congr rfl rfl rfl rfl
  · exact h

end

end M68kiCpu

inductive TrapCause where
  | zeroDivide
  | chk
  | trapv
  deriving DecidableEq, Repr

def TrapCause.vector : TrapCause → UInt32
  | zeroDivide => M68kiCpu.exceptionZeroDivide
  | chk => M68kiCpu.exceptionChk
  | trapv => M68kiCpu.exceptionTrapv

inductive Exception where
  | trap (cause : TrapCause)
  | trapN (number : Fin 16)
  | privilegeViolation
  | line1010
  | line1111
  | illegal
  | formatError
  | busError
  | addressError
  | interrupt (level : Fin 8)
  deriving DecidableEq, Repr

namespace Exception

open M68kiCpu

def raise (s : M68kiCpu) : Exception → M68kiCpu
  | trap cause => s.exceptionTrap cause.vector
  | trapN number => s.exceptionTrapN (exceptionTrapBase + UInt32.ofNat number)
  | privilegeViolation => s.exceptionPrivilegeViolation
  | line1010 => s.exception1010
  | line1111 => s.exception1111
  | illegal => s.exceptionIllegal
  | formatError => s.exceptionFormatError
  | busError => s.exceptionBusError
  | addressError => s.exceptionAddressError
  | interrupt level => s.exceptionInterrupt (UInt32.ofNat level)

/-- Where the interrupted program goes on. -/
def resumePc (s : M68kiCpu) : Exception → UInt32
  | trap _ | trapN _ | formatError | interrupt _ => s.pc
  | privilegeViolation | line1010 | line1111 | illegal | busError | addressError => s.ppc

/-- The program that is interrupted: a bus error takes the registers of the instruction back. -/
def interrupted (s : M68kiCpu) : Exception → M68kiCpu
  | busError => s.restoreDar
  | _ => s

/-- The frames that the return of the processor knows. -/
def Returnable (cpuType : CpuType) : Exception → Bool
  | busError => cpuType.is010 || cpuType.isEc020Plus
  | addressError => !cpuType.is000
  | _ => true

/-- The exception is not one while another is being made, and the processor is not halted. -/
def Possible (s : M68kiCpu) : Exception → Prop
  | busError | addressError => s.runMode ≠ .bErrAErrResetWsf
  | interrupt _ => s.stopped &&& ~~~1 = 0
  | _ => True

/-- An interrupt of a program in the master state leaves that state. -/
def Throwaway (s : M68kiCpu) : Exception → Prop
  | interrupt _ => s.mFlag ≠ 0 ∧ s.cpuType.isEc020Plus = true
  | _ => False

end Exception

namespace M68kiCpu

section
variable {s : M68kiCpu} {n : Nat}

theorem popSize_format0 (cpuType : CpuType) {formatWord : UInt32} (h : formatWord >>> 12 = 0) :
    popSize cpuType formatWord = some (if cpuType.is000 then 6 else 8) := by
  unfold popSize
  rw [h]
  cases cpuType <;> rfl

/-- The frame of an exception that has one of four words at most. -/
theorem waits_0000 {i e : M68kiCpu} {pc : UInt32} (hi : Entering s i) (vector : UInt32)
    (hv : (vector <<< 2) >>> 12 = 0 ∧ (vector <<< 2).toNat < 65536)
    (he : e = (i.stackFrame0000 pc s.status.word vector).jumpVector vector) :
    Waits s e pc (if s.cpuType.is000 then 6 else 8) (vector <<< 2) := by
  have hf := framed_0000 i pc s.status.word vector
  have hsize : (if s.cpuType.is000 then 6 else 8) = if i.cpuType.is000 then 6 else 8 := by
    rw [hi.cpuType]
  subst he
  rw [hsize]
  refine waits_of_framed hi hf ?_ hv.2 rfl rfl rfl rfl rfl
  rw [popSize_format0 _ hv.1, hi.cpuType]

theorem waits_trap (hs : s.Wf) (cause : TrapCause) :
    ∃ n formatWord, Waits s (s.exceptionTrap cause.vector) s.pc n formatWord := by
  have hi := entering_initException hs
  have hless : s.initException.2.cpuType.is010Less = s.cpuType.is010Less := rfl
  by_cases h : s.cpuType.is010Less
  · refine ⟨_, _, waits_0000 hi cause.vector (by cases cause <;> decide) ?_⟩
    rw [exceptionTrap, hless, if_pos h, ← getSr_eq hs]
    rfl
  · have hpop : popSize s.cpuType ((0x2000 : UInt32) ||| (cause.vector <<< 2)) = some 12 := by
      revert h
      cases s.cpuType <;> cases cause <;> decide
    have hf := framed_0010 s.initException.2 s.status.word cause.vector
    refine ⟨12, _, waits_of_framed hi hf hpop (by cases cause <;> decide) ?_ ?_ ?_ ?_ ?_⟩
    all_goals
      rw [exceptionTrap, hless, if_neg h, ← getSr_eq hs]
      rfl

theorem waits_trapN (hs : s.Wf) {vector : UInt32}
    (hv : (vector <<< 2) >>> 12 = 0 ∧ (vector <<< 2).toNat < 65536) :
    ∃ n formatWord, Waits s (s.exceptionTrapN vector) s.pc n formatWord := by
  refine ⟨_, _, waits_0000 (entering_initException hs) _ hv ?_⟩
  rw [← getSr_eq hs]
  rfl

theorem waits_refused (hs : s.Wf) {vector : UInt32} {i : M68kiCpu} (hi : Entering s i)
    (hppc : i.ppc = s.ppc)
    (hv : (vector <<< 2) >>> 12 = 0 ∧ (vector <<< 2).toNat < 65536) :
    ∃ n formatWord, Waits s ((i.stackFrame0000 i.ppc s.initException.1 vector).jumpVector vector)
      s.ppc n formatWord := by
  refine ⟨_, _, waits_0000 hi _ hv ?_⟩
  rw [hppc, ← getSr_eq hs]
  rfl

theorem framed_busErrorFrame (s : M68kiCpu) (sr : UInt32)
    (h : Exception.busError.Returnable s.cpuType = true) :
    ∃ n formatWord, popSize s.cpuType formatWord = some n ∧ formatWord.toNat < 65536 ∧
      Framed s (s.busErrorFrame sr) n (frameTop s.cpuType sr s.ppc formatWord) := by
  unfold busErrorFrame
  by_cases h40 : s.cpuType.is040Plus
  · rw [if_pos h40]
    refine ⟨60, _, ?_, ?_, framed_0111 ..⟩
    · revert h40
      cases s.cpuType <;> decide
    · decide
  · rw [if_neg h40]
    by_cases h20 : s.cpuType.isEc020Plus
    · rw [if_pos h20]
      by_cases hm : s.mmuFaultIsMmu
      · rw [if_pos hm]
        refine ⟨32, _, ?_, ?_, framed_1010 ..⟩
        · revert h20
          cases s.cpuType <;> decide
        · decide
      · rw [if_neg hm]
        refine ⟨92, _, ?_, ?_, framed_1011 ..⟩
        · revert h20
          cases s.cpuType <;> decide
        · decide
    · rw [if_neg h20]
      refine ⟨58, _, ?_, ?_, framed_1000 ..⟩
      · revert h h20
        cases s.cpuType <;> decide
      · decide

theorem waits_busError (hs : s.Wf) (h : Exception.busError.Returnable s.cpuType = true)
    (hmode : s.runMode ≠ .bErrAErrResetWsf) :
    ∃ n formatWord, Waits s.restoreDar s.exceptionBusError s.ppc n formatWord := by
  have hb : ((s.setRunMode .bErrAErrResetWsf).restoreDar).Wf := hs.of_flags rfl
  have hi := entering_initException hb
  have hi' : Entering s.restoreDar (s.setRunMode .bErrAErrResetWsf).restoreDar.initException.2 :=
    ⟨hi.wf, rfl, rfl, hi.supervisor, hi.master, hi.getReg⟩
  have hsr : (s.setRunMode .bErrAErrResetWsf).restoreDar.initException.1 = s.restoreDar.status.word :=
    getSr_eq hb
  obtain ⟨n, formatWord, hpop, hsmall, hf⟩ := framed_busErrorFrame
    (s.setRunMode .bErrAErrResetWsf).restoreDar.initException.2 s.restoreDar.status.word h
  refine ⟨n, formatWord, ?_⟩
  rw [exceptionBusError, if_neg hmode]
  simp only [hsr]
  exact waits_of_framed hi' hf hpop hsmall rfl rfl rfl rfl rfl

theorem framed_addressErrorFrame (s : M68kiCpu) (sr : UInt32)
    (h : Exception.addressError.Returnable s.cpuType = true) :
    ∃ n formatWord, popSize s.cpuType formatWord = some n ∧ formatWord.toNat < 65536 ∧
      Framed s (s.addressErrorFrame sr) n (frameTop s.cpuType sr s.ppc formatWord) := by
  have h000 : s.cpuType.is000 = false := by simpa [Exception.Returnable] using h
  unfold addressErrorFrame
  rw [if_neg (Bool.eq_false_iff.1 h000)]
  by_cases h010 : s.cpuType.is010
  · rw [if_pos h010]
    refine ⟨58, _, ?_, ?_, framed_1000 ..⟩
    · revert h010
      cases s.cpuType <;> decide
    · decide
  · rw [if_neg h010]
    by_cases hppc : s.aerrAddress = s.ppc
    · rw [if_pos hppc]
      refine ⟨32, _, ?_, ?_, framed_1010 ..⟩
      · revert h000 h010
        cases s.cpuType <;> decide
      · decide
    · rw [if_neg hppc]
      refine ⟨92, _, ?_, ?_, framed_1011 ..⟩
      · revert h000 h010
        cases s.cpuType <;> decide
      · decide

theorem waits_addressError (hs : s.Wf) (h : Exception.addressError.Returnable s.cpuType = true)
    (hmode : s.runMode ≠ .bErrAErrResetWsf) :
    ∃ n formatWord, Waits s s.exceptionAddressError s.ppc n formatWord := by
  have hi : Entering s (s.initException.2.setRunMode .bErrAErrResetWsf) :=
    (entering_initException hs).congr rfl rfl rfl rfl
  have hsr : s.initException.1 = s.status.word := getSr_eq hs
  obtain ⟨n, formatWord, hpop, hsmall, hf⟩ := framed_addressErrorFrame
    (s.initException.2.setRunMode .bErrAErrResetWsf) s.status.word h
  have hmode' : s.initException.2.runMode ≠ .bErrAErrResetWsf := hmode
  refine ⟨n, formatWord, ?_⟩
  unfold exceptionAddressError
  simp only [hsr, if_neg hmode']
  exact waits_of_framed hi hf hpop hsmall rfl rfl rfl rfl rfl

theorem popSize_small : ∀ level : Fin 8,
    ((exceptionInterruptAutovector + UInt32.ofNat level) <<< 2) >>> 12 = 0 ∧
      ((exceptionInterruptAutovector + UInt32.ofNat level) <<< 2).toNat < 65536 ∧
      ((0x1000 : UInt32) ||| ((exceptionInterruptAutovector + UInt32.ofNat level) <<< 2)) >>> 12 = 1 ∧
      ((0x1000 : UInt32) ||| ((exceptionInterruptAutovector + UInt32.ofNat level) <<< 2)).toNat
        < 65536 := by decide

theorem shift_level : ∀ level : Fin 8,
    UInt32.ofNat level <<< 8 = UInt32.ofNat (level * 256) := by decide

/-- The state in which an interrupt makes its frame. -/
theorem entering_interrupt (hs : s.Wf) (level : Fin 8) :
    Entering s (s.noInstruction.leaveStop.initException.2.setIntMask (UInt32.ofNat level <<< 8)) ∧
      s.noInstruction.leaveStop.initException.1 = s.status.word ∧
      (s.noInstruction.leaveStop.initException.2.setIntMask (UInt32.ofNat level <<< 8)).pc = s.pc := by
  have hsame : s.noInstruction.leaveStop.Wf ∧ s.noInstruction.leaveStop.status = s.status ∧
      s.noInstruction.leaveStop.cpuType = s.cpuType ∧ s.noInstruction.leaveStop.srMask = s.srMask ∧
      s.noInstruction.leaveStop.getReg = s.getReg ∧ s.noInstruction.leaveStop.pc = s.pc := by
    unfold noInstruction
    split_ifs
    · exact ⟨hs.of_flags rfl, rfl, rfl, rfl, getReg_congr rfl rfl rfl, rfl⟩
    · exact ⟨hs.of_flags rfl, rfl, rfl, rfl, getReg_congr rfl rfl rfl, rfl⟩
  obtain ⟨hwf, hstatus, hcpu, hmask, hregs, hpc⟩ := hsame
  have hi := entering_initException hwf
  refine ⟨⟨⟨hi.wf.t1Flag, hi.wf.t0Flag, hi.wf.sFlag, hi.wf.mFlag, ⟨level, shift_level level⟩,
    hi.wf.srMask⟩, hcpu, hmask, rfl, ?_, ?_⟩, ?_, hpc⟩
  · refine hi.master.trans ?_
    rw [hstatus]
  · rw [← hregs, ← hi.getReg]
    funext r
    cases r <;> rfl
  · exact (getSr_eq hwf).trans (congrArg Status.word hstatus)

/-- An interrupt that is taken, with its frames as they are. -/
theorem exceptionInterrupt_eq (hs : s.Wf) (level : Fin 8) (hstop : s.stopped &&& ~~~1 = 0) :
    ∃ i, Entering s i ∧ i.pc = s.pc ∧ i.mFlag = s.mFlag ∧
      s.exceptionInterrupt (UInt32.ofNat level)
        = { (i.interruptFrames s.status.word (exceptionInterruptAutovector + UInt32.ofNat level)).jump
              (i.interruptPc (exceptionInterruptAutovector + UInt32.ofNat level)) with intLevel := 0 } := by
  obtain ⟨hi, hsr, hpc⟩ := entering_interrupt hs level
  have hstop' : s.noInstruction.leaveStop.stopped = 0 ∧
      s.noInstruction.leaveStop.initException.2.mFlag = s.mFlag := by
    unfold noInstruction
    split_ifs <;> exact ⟨hstop, rfl⟩
  refine ⟨_, hi, hpc, hstop'.2, ?_⟩
  rw [exceptionInterrupt]
  simp only [hstop'.1, hsr]
  rfl

theorem kept_of_framed {i f : M68kiCpu} {bs : List UInt8} (hf : Framed i f n bs) :
    f.mFlag = i.mFlag ∧ f.sFlag = i.sFlag ∧ f.cpuType = i.cpuType ∧ f.pc = i.pc ∧
      f.srMask = i.srMask := by
  rw [hf.other]
  exact ⟨rfl, rfl, rfl, rfl, rfl⟩

theorem waits_interrupt (hs : s.Wf) {level : Fin 8} (hstop : s.stopped &&& ~~~1 = 0)
    (hm : ¬ (s.mFlag ≠ 0 ∧ s.cpuType.isEc020Plus = true)) :
    ∃ n formatWord, Waits s (s.exceptionInterrupt (UInt32.ofNat level)) s.pc n formatWord := by
  obtain ⟨i, hi, hpc, hmf, heq⟩ := exceptionInterrupt_eq hs level hstop
  obtain ⟨hv0, hvlt, -, -⟩ := popSize_small level
  have hf := framed_0000 i s.pc s.status.word (exceptionInterruptAutovector + UInt32.ofNat level)
  obtain ⟨hfm, -, hfc, -, -⟩ := kept_of_framed hf
  have hframes : i.interruptFrames s.status.word (exceptionInterruptAutovector + UInt32.ofNat level)
      = i.stackFrame0000 s.pc s.status.word (exceptionInterruptAutovector + UInt32.ofNat level) := by
    unfold interruptFrames
    simp only [hpc, hfm, hfc, hmf, hi.cpuType]
    rw [if_neg hm]
  refine ⟨_, _, waits_of_framed hi hf ?_ hvlt ?_ ?_ ?_ ?_ ?_⟩
  · rw [popSize_format0 _ hv0, hi.cpuType]
  all_goals
    rw [heq, hframes]
    rfl

/-- A throwaway frame on the interrupt stack, with a frame of the status of `s` on the other. -/
structure WaitsThrowaway (s e : M68kiCpu) (pc formatWord formatWord' : UInt32) : Prop where
  wf : e.Wf
  cpuType : e.cpuType = s.cpuType
  srMask : e.srMask = s.srMask
  is020 : s.cpuType.is000 = false ∧ s.cpuType.is010 = false
  supervisor : e.status.s = true
  interrupt : e.status.m = false
  master : s.status.m = true
  isp : e.getReg .isp = s.getReg .isp - 8
  msp : e.getReg .msp = s.getReg .msp - 8
  usp : e.getReg .usp = s.getReg .usp
  top : e.Top (frameTop s.cpuType (s.status.word ||| 0x2000) pc formatWord')
  below : take e.memory (e.getReg .msp) 8 = frameTop s.cpuType s.status.word pc formatWord
  throwaway : formatWord' >>> 12 = 1 ∧ formatWord'.toNat < 65536
  normal : formatWord >>> 12 = 0 ∧ formatWord.toNat < 65536

theorem WaitsThrowaway.opRte {t : M68kiCpu} {pc formatWord formatWord' : UInt32}
    (h : WaitsThrowaway s t pc formatWord formatWord') (hs : s.Wf) (rounds : Nat) :
    ∃ u, t.opRte (rounds + 2) = some u.checkInterrupts.running ∧ Resumed s pc t u := by
  have hword := Status.word_or_supervisor s.status
  have htop := h.top
  rw [← h.cpuType, hword] at htop
  have h000 : t.cpuType.is000 = false := by
    rw [h.cpuType]
    exact h.is020.1
  have h010 : t.cpuType.is010 = false := by
    rw [h.cpuType]
    exact h.is020.2
  have hrte := opRte_throwaway (sFlag_of_supervisor h.supervisor) (Status.word_lt _) h000 h010
    h.throwaway.2 h.throwaway.1 htop (rounds + 1)
  have hactive : t.status.active = .isp := by
    unfold Status.active
    rw [h.supervisor, h.interrupt]
    rfl
  have hwf : (t.setRegSp (t.regSp + 8)).Wf := h.wf.of_flags rfl
  obtain ⟨t', ht'⟩ : ∃ t', t' = (t.setRegSp (t.regSp + 8)).setSrNoint s.status.supervisor.word :=
    ⟨_, rfl⟩
  -- the master state is back, with the frame on its stack
  have hwf' : t'.Wf := by
    rw [ht']
    exact wf_setSrNoint hwf _
  have hstatus : t'.status = s.status.supervisor := by
    have hmask : s.status.supervisor.word &&& s.srMask = s.status.supervisor.word := by
      rw [← status_setSFlag]
      exact word_and_srMask (wf_setSFlag hs)
    rw [ht', status_setSrNoint, show (t.setRegSp (t.regSp + 8)).srMask = s.srMask from h.srMask, hmask,
      Status.ofWord_word]
  have hmsp : t'.status.active = .msp := by
    rw [hstatus]
    unfold Status.active Status.supervisor
    rw [h.master]
    rfl
  have hregs : t'.getReg = Function.update t.getReg .isp (s.getReg .isp) := by
    funext r
    rw [ht', getReg_setSrNoint hwf, getReg_setRegSp, hactive, ← getReg_active t, hactive, h.isp,
      UInt32.sub_add_cancel]
  have hwaits : Waits s t' pc 8 formatWord := by
    refine ⟨hwf', ?_, ?_, ?_, ?_, ?_, ?_, ?_, h.normal.2⟩
    · rw [ht']
      exact h.cpuType
    · rw [ht']
      exact h.srMask
    · rw [hstatus]
      rfl
    · rw [hstatus]
      rfl
    · rw [hmsp]
      funext r
      rw [hregs]
      cases r with
      | usp => exact h.usp
      | isp => rfl
      | msp => exact h.msp
    · have hsp : t'.regSp = t.getReg .msp := by
        rw [← getReg_active, hmsp, hregs]
        rfl
      have hmem : t'.memory = t.memory := by
        rw [ht']
        rfl
      have hlen : (frameTop s.cpuType s.status.word pc formatWord).length = 8 := by
        rw [← h.below, length_take]
      unfold Top
      rw [hlen, hsp, hmem]
      exact h.below
    · rw [popSize_format0 _ h.normal.1, h.is020.1]
      rfl
  obtain ⟨u, hu, hres⟩ := hwaits.opRte hs rounds
  have hloop : t'.opRte (rounds + 1) = t'.rteLoop (rounds + 1) := by
    have hkind : t'.cpuType = s.cpuType := hwaits.cpuType
    rw [M68kiCpu.opRte, if_neg (sFlag_of_supervisor hwaits.supervisor), hkind, h.is020.1, h.is020.2]
    rfl
  refine ⟨u, ?_, hres.wf, hres.status, hres.pc, hres.getReg, ?_, ?_, hres.cpuType, hres.srMask, ?_⟩
  · rw [hrte, ← ht', ← hloop, hu]
  · intro reg hreg
    rw [hres.dar reg hreg, ht']
    show Function.update (Function.update t.dar 15 _) 15 _ reg = t.dar reg
    rw [Function.update_of_ne hreg, Function.update_of_ne hreg]
  · rw [hres.memory, ht']
    rfl
  · rw [hres.interrupts.1, hres.interrupts.2, ht']
    exact ⟨rfl, rfl⟩

/-- The frames on the two supervisor stacks do not meet. -/
def Apart (s : M68kiCpu) : Prop :=
  ∀ i < 8, ∀ j < 8, s.getReg .msp - 8 + UInt32.ofNat i ≠ s.getReg .isp - 8 + UInt32.ofNat j

theorem waits_throwaway (hs : s.Wf) (level : Fin 8) (hstop : s.stopped &&& ~~~1 = 0)
    (hm : s.mFlag ≠ 0) (h20 : s.cpuType.isEc020Plus = true) (hapart : s.Apart) :
    ∃ formatWord formatWord',
      WaitsThrowaway s (s.exceptionInterrupt (UInt32.ofNat level)) s.pc formatWord formatWord' := by
  obtain ⟨i, hi, hpc, hmf, heq⟩ := exceptionInterrupt_eq hs level hstop
  obtain ⟨hv0, hvlt, hv1, hvlt1⟩ := popSize_small level
  generalize exceptionInterruptAutovector + UInt32.ofNat level = vector at *
  have h020 : s.cpuType.is000 = false ∧ s.cpuType.is010 = false := by
    revert h20
    cases s.cpuType <;> decide
  have hmaster : s.status.m = true := bne_iff_ne.2 hm
  -- the first frame, on the master stack
  obtain ⟨f, hfdef⟩ : ∃ f, f = i.stackFrame0000 s.pc s.status.word vector := ⟨_, rfl⟩
  have hf := framed_0000 i s.pc s.status.word vector
  rw [← hfdef, hi.cpuType, h020.1] at hf
  obtain ⟨hfm, hfs, hfc, hfpc, hfmask⟩ := kept_of_framed hf
  have hwaits : Waits s f s.pc 8 (vector <<< 2) := by
    refine waits_of_framed hi (by rw [hi.cpuType]; exact hf) ?_ hvlt rfl rfl rfl rfl rfl
    rw [popSize_format0 _ hv0, h020.1]
    rfl
  have hfactive : f.status.active = .msp := by
    unfold Status.active
    rw [hwaits.supervisor, hwaits.master, hmaster]
    rfl
  have hftop := hwaits.top
  have hfsp : f.regSp = s.getReg .msp - 8 := by
    rw [← getReg_active, hwaits.getReg, hfactive, Function.update_self]
    rfl
  -- the interrupt stack comes into use
  have hsm : f.sFlag = 4 := by
    obtain ⟨b, hb⟩ := hwaits.wf.sFlag
    have hne := sFlag_of_supervisor hwaits.supervisor
    rw [hb] at hne ⊢
    cases b with
    | true => rfl
    | false => exact absurd rfl hne
  obtain ⟨g, hgdef⟩ : ∃ g, g = f.setSmFlag f.sFlag := ⟨_, rfl⟩
  have hmask : f.srMask = 0xa71f → f.sFlag.toNat.testBit 1 = false := fun _ => by
    rw [hsm]
    rfl
  have hg : g.Wf := by
    rw [hgdef]
    exact wf_setSmFlag hwaits.wf hmask
  have hgregs : g.getReg = f.getReg := by
    funext r
    rw [hgdef]
    exact getReg_setSmFlag hwaits.wf hmask r
  have hgst : g.status.s = true ∧ g.status.m = false := by
    rw [hgdef, status_setSmFlag, hsm]
    exact ⟨rfl, rfl⟩
  have hgactive : g.status.active = .isp := by
    unfold Status.active
    rw [hgst.1, hgst.2]
    rfl
  have hgsp : g.regSp = s.getReg .isp := by
    rw [← getReg_active, hgactive, hgregs, hwaits.getReg, hfactive]
    rfl
  -- the throwaway frame
  obtain ⟨e, hedef⟩ : ∃ e, e = g.stackFrame0001 s.pc (s.status.word ||| 0x2000) vector := ⟨_, rfl⟩
  have he : Framed g e 8 (frameTop g.cpuType (s.status.word ||| 0x2000) s.pc
      ((0x1000 : UInt32) ||| (vector <<< 2))) := by
    rw [hedef]
    exact (Framed.refl g).header _ _ _ (by omega)
  have hgc : g.cpuType = s.cpuType := by
    rw [hgdef]
    exact hwaits.cpuType
  have hframes : i.interruptFrames s.status.word vector = e := by
    unfold interruptFrames
    simp only [hpc, ← hfdef]
    rw [hfm, hfc, hmf, hi.cpuType, if_pos ⟨hm, h20⟩, ← hgdef, hfpc, hpc, ← hedef]
  have heflags : e.systemFlags = g.systemFlags := by
    rw [he.other]
    rfl
  have hesp : e.regSp = s.getReg .isp - 8 := by
    rw [he.regSp, hgsp]
    rfl
  have heregs : ∀ r, e.getReg r = Function.update g.getReg .isp (s.getReg .isp - 8) r := by
    intro r
    have hsys : e.systemFlags = (g.setRegSp e.regSp).systemFlags := heflags
    rw [← hesp, ← hgactive, ← getReg_setRegSp]
    refine congrFun (getReg_congr ?_ ?_ hsys) r
    · exact (regSp_setRegSp g e.regSp).symm
    · rw [he.other]
      rfl
  have hemsp : e.getReg .msp = s.getReg .msp - 8 := by
    rw [heregs, Function.update_of_ne (by decide), hgregs, hwaits.getReg, hfactive,
      Function.update_self]
    rfl
  have hbelow : take e.memory (s.getReg .msp - 8) 8
      = frameTop s.cpuType s.status.word s.pc (vector <<< 2) := by
    have hlen : (frameTop s.cpuType s.status.word s.pc (vector <<< 2)).length = 8 := by
      unfold frameTop
      rw [h020.1, List.length_append, List.length_append, length_bytesOf, length_bytesOf]
      rfl
    unfold Top at hftop
    rw [hlen, hfsp] at hftop
    rw [← hftop]
    refine take_congr fun k hk => ?_
    have hgmem : g.memory = f.memory := by
      rw [hgdef]
      rfl
    rw [← hgmem]
    refine he.below _ (Nat.le_of_not_lt fun hlt => ?_)
    refine hapart k hk _ hlt ?_
    rw [UInt32.ofNat_toNat, hesp, UInt32.add_comm (s.getReg .isp - 8), UInt32.sub_add_cancel]
  rw [heq, hframes]
  have hsame : ({ e.jump (i.interruptPc vector) with intLevel := 0 } : M68kiCpu).getReg = e.getReg :=
    getReg_congr rfl rfl rfl
  refine ⟨vector <<< 2, (0x1000 : UInt32) ||| (vector <<< 2), hg.of_flags heflags, ?_, ?_, h020, ?_, ?_,
    hmaster, ?_, ?_, ?_, ?_, ?_, ⟨hv1, hvlt1⟩, ⟨hv0, hvlt⟩⟩
  · exact (kept_of_framed he).2.2.1.trans hgc
  · refine (kept_of_framed he).2.2.2.2.trans ?_
    rw [hgdef]
    exact hwaits.srMask
  · exact (active_congr heflags).1.trans hgst.1
  · exact (active_congr heflags).2.trans hgst.2
  · rw [hsame, heregs, Function.update_self]
  · rw [hsame, hemsp]
  · rw [hsame, heregs, Function.update_of_ne (by decide), hgregs, hwaits.getReg, hfactive,
      Function.update_of_ne (by decide)]
  · have htop := he.top
    rw [hgc] at htop
    exact htop
  · rw [hsame, hemsp]
    exact hbelow

/-! ## The return -/

/-- The handler of an exception has come to its end: the stack pointers are as it found them, and
    so are the frames. -/
structure Handled (x : Exception) (s t : M68kiCpu) : Prop where
  wf : t.Wf
  cpuType : t.cpuType = (x.raise s).cpuType
  srMask : t.srMask = (x.raise s).srMask
  supervisor : t.status.s = true
  master : t.status.m = (x.raise s).status.m
  getReg : t.getReg = (x.raise s).getReg
  frame : ∀ i < 8, t.memory ((x.raise s).regSp + UInt32.ofNat i)
    = (x.raise s).memory ((x.raise s).regSp + UInt32.ofNat i)
  masterFrame : x.Throwaway s → ∀ i < 8, t.memory ((x.raise s).getReg .msp + UInt32.ofNat i)
    = (x.raise s).memory ((x.raise s).getReg .msp + UInt32.ofNat i)

/-- The handler that returns at once. -/
theorem handled_self {x : Exception} (hwf : (x.raise s).Wf) (hs : (x.raise s).status.s = true) :
    Handled x s (x.raise s) :=
  ⟨hwf, rfl, rfl, hs, rfl, rfl, fun _ _ => rfl, fun _ _ _ => rfl⟩

theorem length_frameTop_le (cpuType : CpuType) (sr pc formatWord : UInt32) :
    (frameTop cpuType sr pc formatWord).length ≤ 8 := by
  unfold frameTop
  rw [List.length_append, List.length_append, length_bytesOf, length_bytesOf]
  cases cpuType.is000
  · rw [if_neg Bool.false_ne_true, length_bytesOf]
  · rw [if_pos rfl]
    decide

/-- A frame still waits when the handler has come to its end. -/
theorem Waits.handled {s' t : M68kiCpu} {x : Exception} {pc formatWord : UInt32}
    (h : Waits s' (x.raise s) pc n formatWord) (ht : Handled x s t) : Waits s' t pc n formatWord := by
  have hactive := active_eq_of (ht.supervisor.trans h.supervisor.symm) ht.master
  have hsp : t.regSp = (x.raise s).regSp := by
    rw [← getReg_active, ← getReg_active, hactive, ht.getReg]
  refine ⟨ht.wf, ht.cpuType.trans h.cpuType, ht.srMask.trans h.srMask, ht.supervisor,
    ht.master.trans h.master, ?_, ?_, h.pop, h.small⟩
  · rw [hactive, ht.getReg]
    exact h.getReg
  · have htop := h.top
    unfold Top at htop ⊢
    refine Eq.trans ?_ htop
    rw [hsp]
    exact take_congr fun i hi => ht.frame i (Nat.lt_of_lt_of_le hi (length_frameTop_le ..))

theorem WaitsThrowaway.handled {t : M68kiCpu} {x : Exception} {pc formatWord formatWord' : UInt32}
    (h : WaitsThrowaway s (x.raise s) pc formatWord formatWord') (hx : x.Throwaway s)
    (ht : Handled x s t) : WaitsThrowaway s t pc formatWord formatWord' := by
  have hactive := active_eq_of (ht.supervisor.trans h.supervisor.symm) ht.master
  have hsp : t.regSp = (x.raise s).regSp := by
    rw [← getReg_active, ← getReg_active, hactive, ht.getReg]
  refine ⟨ht.wf, ht.cpuType.trans h.cpuType, ht.srMask.trans h.srMask, h.is020, ht.supervisor,
    ht.master.trans h.interrupt, h.master, ?_, ?_, ?_, ?_, ?_, h.throwaway, h.normal⟩
  · rw [ht.getReg]
    exact h.isp
  · rw [ht.getReg]
    exact h.msp
  · rw [ht.getReg]
    exact h.usp
  · have htop := h.top
    unfold Top at htop ⊢
    refine Eq.trans ?_ htop
    rw [hsp]
    exact take_congr fun i hi => ht.frame i (Nat.lt_of_lt_of_le hi (length_frameTop_le ..))
  · refine Eq.trans ?_ h.below
    rw [ht.getReg]
    exact take_congr fun i hi => ht.masterFrame hx i hi

theorem raise_waits (hs : s.Wf) (x : Exception) (hret : x.Returnable s.cpuType = true)
    (hx : x.Possible s) (hone : ¬ x.Throwaway s) :
    ∃ n formatWord, Waits (x.interrupted s) (x.raise s) (x.resumePc s) n formatWord := by
  have hi := entering_initException hs
  have hi' := entering_noInstruction hi
  have hppc : s.initException.2.noInstruction.ppc = s.ppc := by
    unfold noInstruction
    split_ifs <;> rfl
  cases x with
  | trap cause => exact waits_trap hs cause
  | trapN number =>
    have hv : ∀ number : Fin 16, ((exceptionTrapBase + UInt32.ofNat number) <<< 2) >>> 12 = 0 ∧
        ((exceptionTrapBase + UInt32.ofNat number) <<< 2).toNat < 65536 := by decide
    exact waits_trapN hs (hv number)
  | privilegeViolation => exact waits_refused hs hi' hppc (by decide)
  | line1010 => exact waits_refused hs hi rfl (by decide)
  | line1111 => exact waits_refused hs hi rfl (by decide)
  | illegal => exact waits_refused hs hi' hppc (by decide)
  | formatError => exact waits_trapN hs (by decide)
  | busError => exact waits_busError hs hret hx
  | addressError => exact waits_addressError hs hret hx
  | interrupt level => exact waits_interrupt hs hx hone

theorem intMask_eq (h : s.Wf) : s.intMask = UInt32.ofNat (s.status.level * 256) := by
  obtain ⟨level, hl⟩ := h.intMask
  have hlevel : s.status.level = level := by
    rw [status, hl]
    exact level_of_mask level
  rw [hlevel, hl]

/-- The interrupted program goes on where it was, with its status and its stack pointers, whatever
    the exception, its frame and the handler; only an interrupt that waits may come first. -/
theorem opRte_resumes (x : Exception) (hs : s.Wf) (hret : x.Returnable s.cpuType = true)
    (hx : x.Possible s) (hapart : x.Throwaway s → s.Apart) {t : M68kiCpu} (ht : Handled x s t)
    (rounds : Nat) :
    ∃ u, Resumed (x.interrupted s) (x.resumePc s) t u ∧
      t.opRte (rounds + 2) = some u.checkInterrupts.running ∧
      (t.nmiPending = false → t.intLevel ≤ s.intMask → t.opRte (rounds + 2) = some u.running) := by
  have hwf : (x.interrupted s).Wf := by
    cases x with
    | busError => exact hs.of_flags rfl
    | _ => exact hs
  have hmask : (x.interrupted s).intMask = s.intMask := by
    cases x <;> rfl
  have hfinish : ∀ u, t.opRte (rounds + 2) = some u.checkInterrupts.running →
      Resumed (x.interrupted s) (x.resumePc s) t u → ∃ u, Resumed (x.interrupted s) (x.resumePc s) t u ∧
        t.opRte (rounds + 2) = some u.checkInterrupts.running ∧
        (t.nmiPending = false → t.intLevel ≤ s.intMask → t.opRte (rounds + 2) = some u.running) := by
    intro u hu hres
    refine ⟨u, hres, hu, fun hnmi hlevel => ?_⟩
    have hquiet : u.checkInterrupts = u := by
      have hum : u.intMask = s.intMask := by
        rw [intMask_eq hres.wf, hres.status, ← intMask_eq hwf, hmask]
      unfold checkInterrupts
      rw [hres.interrupts.1, hnmi, hres.interrupts.2, hum, if_neg Bool.false_ne_true,
        if_neg (UInt32.not_lt.2 hlevel)]
    rw [hu, hquiet]
  by_cases hone : x.Throwaway s
  · cases x with
    | interrupt level =>
      obtain ⟨formatWord, formatWord', hwaits⟩ :=
        waits_throwaway hs level hx hone.1 hone.2 (hapart hone)
      obtain ⟨u, hu, hres⟩ := (hwaits.handled (x := .interrupt level) hone ht).opRte hs rounds
      exact hfinish u hu hres
    | _ => exact hone.elim
  · obtain ⟨n, formatWord, hwaits⟩ := raise_waits hs x hret hx hone
    obtain ⟨u, hu, hres⟩ := (hwaits.handled ht).opRte hwf (rounds + 1)
    exact hfinish u hu hres

end

theorem opRte_resumes_idle :
    ∃ u, Resumed idle 0x400 ((Exception.trapN 3).raise idle) u ∧
      ((Exception.trapN 3).raise idle).opRte 2 = some u.checkInterrupts.running ∧
      (((Exception.trapN 3).raise idle).nmiPending = false →
        ((Exception.trapN 3).raise idle).intLevel ≤ idle.intMask →
          ((Exception.trapN 3).raise idle).opRte 2 = some u.running) := by
  obtain ⟨n, formatWord, hwaits⟩ := raise_waits wf_idle (.trapN 3) rfl trivial id
  exact opRte_resumes (.trapN 3) wf_idle rfl trivial False.elim
    (handled_self hwaits.wf hwaits.supervisor) 0

end M68kiCpu

end CuteMac.M68k
